import Mathlib.Tactic.Tauto
import SqlGate.Proofs.Sql.Reading
import SqlGate.Proofs.Sql.Statements

/-!
# Setting a variable to its default

A statement `SET v TO DEFAULT` is read to its end if `v` is a name that may come right after `SET`
(`Assignable`, `reads_set`). Other names are words with a meaning of their own there: with them no
statement is read, or one that stops before the end (`stuck_set`).
-/

namespace SqlGate

namespace Sql.Grammar

open Reader

variable {g : Grammar} {d : Nat} {t : Token} {ts rest : List Token}

/-! ## The value `DEFAULT` -/

/-- The word `DEFAULT` as a token. -/
def defaultWord : Token := .word "DEFAULT" none

theorem keyword_defaultWord : defaultWord.keyword = "DEFAULT" := by decide +kernel

/-- The word names no type that the grammar knows. -/
theorem reads_typeName (inner : Reader TypeName) (d : Nat) :
    Reads (typeWith inner) d [defaultWord] .custom [] := by
  have hwords : ¬ typeWords.contains "DEFAULT" = true := by decide
  have hname : Reads name d [defaultWord] [⟨"DEFAULT", none⟩] [] :=
    reads_name (n := [⟨"DEFAULT", none⟩]) (r := []) (by simp) (by simp)
  refine (reads_peek d _).bind ?_
  simp only [List.headD_cons, keyword_defaultWord]
  dsimp only [defaultWord]
  rw [if_neg hwords]
  refine reads_bind_peekAfter 0 fun t => ?_
  rw [if_neg (fun h => absurd h.1 (by decide))]
  refine hname.bind (Reads.bind (a := ()) ?_ ((reads_pure TypeName.custom d []).bind ?_))
  · exact (reads_symbol_of_ne (by simp)).bind (reads_pure () d [])
  · refine (reads_many_of_none ?_).bind (reads_pure TypeName.custom d [])
    exact (reads_symbol_of_ne (by simp)).bind (reads_pure none d [])

theorem fails_typedText {inner : Reader TypeName} (hg : g.typeName = typeWith inner) (d : Nat) :
    Fails g.typedText d [defaultWord] := by
  refine Reads.bind_fails (a := TypeName.custom) (m := []) ?_ (fails_expected _ d [])
  rw [hg]
  exact reads_typeName inner d

theorem reads_operandForm {inner : Reader TypeName} (hg : g.typeName = typeWith inner) (d : Nat) :
    Reads g.operandForm d [defaultWord] (.name [⟨"DEFAULT", none⟩]) [] := by
  refine (fails_typedText hg d).attempt.bind ?_
  refine (reads_peek d _).bind ((reads_next d _ _).bind ?_)
  refine Reads.bind (a := Except.ok none) (m := []) (Reads.orElse ?_ _) ?_
  · have hspecial : g.specialForm ⟨"DEFAULT", none⟩ "DEFAULT" = pure none := rfl
    rw [List.headD_cons, keyword_defaultWord, hspecial]
    exact (reads_pure none d []).bind (reads_pure (Except.ok none) d [])
  · exact (reads_peek d []).bind (reads_pure _ d [])

/-- The word is read as a name, since nothing comes after it. -/
theorem reads_exprForm {inner : Reader TypeName} {k : Grammar}
    (hg : k.typeName = typeWith inner) (ho : g.operand = k.operandForm) (d : Nat) :
    Reads (g.exprForm 0) (d + 1) [defaultWord] (.name [⟨"DEFAULT", none⟩]) [] := by
  refine Reads.deeper (reads_bind_read fun u _ => ?_)
  refine Reads.bind (ho ▸ reads_operandForm hg d) ?_
  refine Reads.bind (a := .name [⟨"DEFAULT", none⟩]) (m := []) ?_ ?_
  · exact (reads_symbol_of_ne (by simp)).bind
      ((reads_symbol_of_ne (by simp)).bind (reads_pure _ d []))
  · refine reads_bind_read fun u _ => (reads_word_of_ne (by decide)).bind ?_
    rw [Bool.and_false]
    refine (reads_pure _ d []).bind ?_
    exact Reads.bind (a := 0) ((reads_peek d []).bind (reads_pure 0 d [])) (reads_pure _ d [])

theorem reads_setValues (h : Reads g.any d [defaultWord] (.name [⟨"DEFAULT", none⟩]) []) :
    Reads g.setValues d [defaultWord] [.name [⟨"DEFAULT", none⟩]] [] := by
  have hvalue : Reads (do
      if ← queryAhead then return .query (← g.query)
      else orElse g.any fun _ => expected "variable value") d [defaultWord]
      (Expr.name [⟨"DEFAULT", none⟩]) [] := by
    refine Reads.bind (a := false) (m := [defaultWord]) ?_ (h.orElse _)
    refine (reads_peekWord d _).bind ?_
    rw [List.headD_cons, keyword_defaultWord]
    exact reads_pure _ d _
  refine hvalue.bind (Reads.bind (reads_many_of_none ?_) (reads_pure _ d []))
  exact (reads_symbol_of_ne (by simp)).bind (reads_pure none d [])

/-! ## The name after `SET` -/

/-- What comes after the name. -/
def toDefault : List Token := [.word "TO" none, defaultWord]

/-- The rest of a statement that sets a variable which is named next. -/
def setTarget (g : Grammar) : Reader Statement := do
  let target ← name
  if (← symbol "=") || (← word "TO") then return .set target (← g.setValues)
  else expected "equals sign or TO"

/-- The role that a statement may set instead of a variable. -/
def role : Reader Unit := do
  expectWord "ROLE"
  if ← word "NONE" then pure () else let _ ← ident

/-- A name is what is set unless the words before it say otherwise. -/
theorem comes_setIn {scope : Option String} {o : Option (Statement × List Token)}
    (hrole : Fails role d ts)
    (hzone : ["TIME", "ZONE"].isPrefixOf (ts.map Token.keyword) = false)
    (hwords : ∀ w ∈ ["TIMEZONE", "NAMES", "CHARACTERISTICS", "TRANSACTION", "AUTHORIZATION"],
      (ts.headD .eof).keyword ≠ w)
    (h : Comes (setTarget g) d ts o) : Comes (set.setIn g scope) d ts o := by
  have hword : ∀ w ∈ ["TIMEZONE", "NAMES", "CHARACTERISTICS", "TRANSACTION", "AUTHORIZATION"],
      Reads (word w) d ts false ts := fun w hw => reads_word_of_ne (hwords w hw)
  refine hrole.attempt.comes ?_
  refine (reads_words_of_not hzone).comes ((hword _ (by simp)).comes ?_)
  refine (hword "NAMES" (by simp)).comes ((hword "CHARACTERISTICS" (by simp)).comes ?_)
  refine (hword "TRANSACTION" (by simp)).comes ((hword "AUTHORIZATION" (by simp)).comes ?_)
  exact h

/-- The words that are no name of a variable right after `SET`. -/
def settingWords : List String :=
  ["HIVEVAR", "SESSION", "LOCAL", "GLOBAL", "NAMES", "CHARACTERISTICS", "TRANSACTION",
    "AUTHORIZATION"]

/-- Whether a name is read as that of a variable right after `SET`. A role is set without a point,
and a time zone with one. -/
def Assignable : Name → Prop
  | [] => False
  | [i] => i.token.keyword ∉ "ROLE" :: settingWords
  | i :: _ :: _ => i.token.keyword ∉ "TIMEZONE" :: settingWords

instance : DecidablePred Assignable
  | [] => inferInstanceAs (Decidable False)
  | [_] => inferInstanceAs (Decidable (¬ _))
  | _ :: _ :: _ => inferInstanceAs (Decidable (¬ _))

/-- The variable that a name stands for right after `SET`. -/
def target : Name → Name
  | [i] => if i.token.keyword = "TIMEZONE" then [⟨"TIMEZONE", none⟩] else [i]
  | n => n

theorem keyword_to : Token.keyword (.word "TO" none) = "TO" := by decide +kernel

/-- What comes after the first part of a name is a point, or the word after the name. -/
theorem keyword_pointed (is : List Ident) :
    ((Name.pointed is ++ toDefault).headD .eof).keyword = if is = [] then "TO" else "" := by
  cases is with
  | nil => exact keyword_to
  | cons j is => rfl

theorem reads_setTarget (hany : Reads g.any d [defaultWord] (.name [⟨"DEFAULT", none⟩]) [])
    {n : Name} (hn : n ≠ []) :
    Reads (setTarget g) d (n.tokens ++ toDefault) (.set n [.name [⟨"DEFAULT", none⟩]]) [] := by
  refine (reads_name hn (by simp [toDefault])).bind ?_
  refine (reads_symbol_of_ne (by simp [toDefault])).bind ((reads_word _ keyword_to).bind ?_)
  exact (reads_setValues hany).bind (reads_pure _ d [])

/-- Neither a point nor the word after the name begins a variable that is set to something. -/
theorem fails_setTarget (is : List Ident) :
    Fails (setTarget g) d (Name.pointed is ++ toDefault) := by
  cases is with
  | nil =>
      refine (reads_name (n := [⟨"TO", none⟩]) (r := [defaultWord]) (by simp)
        (by simp [defaultWord])).bind_fails ?_
      refine (reads_symbol_of_ne (by simp [defaultWord])).bind_fails ?_
      refine (reads_word_of_ne ?_).bind_fails (fails_expected _ d _)
      rw [List.headD_cons, keyword_defaultWord]
      decide
  | cons j is => exact ((fails_ident rfl).bind _).bind _

/-- A role is set by one word after `ROLE`. -/
theorem fails_role {is : List Ident} (h : t.keyword = "ROLE" → is ≠ []) :
    Fails role d (t :: (Name.pointed is ++ toDefault)) := by
  by_cases ht : t.keyword = "ROLE"
  · cases is with
    | nil => exact absurd rfl (h ht)
    | cons j is =>
        refine (reads_expectWord _ ht).bind_fails ?_
        refine (reads_word_of_ne (by rw [keyword_pointed]; simp)).bind_fails ?_
        exact (fails_ident rfl).bind _
  · exact (fails_expectWord_cons _ ht).bind _

/-- After its first part a name goes on with a point or stops at `TO`, never with another word. -/
theorem isPrefixOf_pointed {w : String} (hempty : w ≠ "") (hto : w ≠ "TO") (ws : List String)
    (is : List Ident) :
    (w :: ws).isPrefixOf ((Name.pointed is ++ toDefault).map Token.keyword) = false := by
  cases is with
  | nil =>
      rw [Name.pointed, List.flatMap_nil, List.nil_append, toDefault, List.map_cons, keyword_to,
        List.isPrefixOf_cons_cons, beq_false_of_ne hto, Bool.false_and]
  | cons j is =>
      rw [Name.pointed, List.flatMap_cons, List.cons_append, List.cons_append, List.map_cons,
        List.isPrefixOf_cons_cons, show (Token.symbol ".").keyword = "" from rfl,
        beq_false_of_ne hempty, Bool.false_and]

theorem isPrefixOf_zone (t : Token) (is : List Ident) :
    ["TIME", "ZONE"].isPrefixOf ((t :: (Name.pointed is ++ toDefault)).map Token.keyword) =
      false := by
  rw [List.map_cons, List.isPrefixOf_cons_cons,
    isPrefixOf_pointed (by decide) (by decide), Bool.and_false]

theorem reads_set (hany : Reads g.any d [defaultWord] (.name [⟨"DEFAULT", none⟩]) [])
    {n : Name} (h : Assignable n) :
    Reads g.set d (n.tokens ++ toDefault) (.set (target n) [.name [⟨"DEFAULT", none⟩]]) [] := by
  obtain ⟨i, is, rfl⟩ : ∃ i is, n = i :: is := List.exists_cons_of_ne_nil (by rintro rfl; exact h)
  have hwords : i.token.keyword ∉ settingWords := by
    cases is with
    | nil => exact fun hmem => h (List.mem_cons_of_mem _ hmem)
    | cons j is => exact fun hmem => h (List.mem_cons_of_mem _ hmem)
  have hrole : Fails role d (i.token :: (Name.pointed is ++ toDefault)) := by
    refine fails_role fun hk his => ?_
    subst his
    exact h (hk ▸ List.mem_cons_self)
  have hne : ∀ w ∈ settingWords, i.token.keyword ≠ w := fun w hw hk => hwords (hk ▸ hw)
  refine (reads_word_cons_of_ne _ (hne "HIVEVAR" (by decide))).bind ?_
  have hscope : ["SESSION", "LOCAL", "GLOBAL"].contains i.token.keyword = false := by
    simp [hne "SESSION" (by decide), hne "LOCAL" (by decide), hne "GLOBAL" (by decide)]
  refine (reads_oneOf_of_not hscope).bind ?_
  by_cases hzone : i.token.keyword = "TIMEZONE"
  · cases is with
    | cons j is => exact absurd (hzone ▸ List.mem_cons_self) h
    | nil =>
        rw [target, if_pos hzone]
        refine hrole.attempt.bind ((reads_words_of_not (isPrefixOf_zone _ _)).bind ?_)
        refine (reads_word _ hzone).bind ?_
        refine (reads_symbol_of_ne (by simp [toDefault, Name.pointed])).bind ?_
        refine (reads_word _ keyword_to).bind ?_
        exact (reads_setValues hany).bind (reads_pure _ d [])
  · have htarget : target (i :: is) = i :: is := by
      cases is with
      | nil => exact if_neg hzone
      | cons j is => rfl
    rw [htarget]
    have hset := reads_setTarget (d := d) hany (List.cons_ne_nil i is)
    refine comes_setIn (o := some (_, [])) hrole (isPrefixOf_zone _ _) (fun w hw => ?_) hset
    rcases List.mem_cons.1 hw with rfl | hw
    · exact hzone
    · exact hne w (List.mem_of_mem_drop (i := 4) hw)

/-- What is left after a statement is neither nothing nor the end of the statement. -/
def GoesOn (ts : List Token) : Prop :=
  ∃ t ∈ ts.head?, t.keyword ≠ "END" ∧ t ≠ .symbol ";" ∧ t ≠ .eof

/-- No statement is read, or what is left after it goes on. -/
def Stuck (p : Reader Statement) (d : Nat) (ts : List Token) : Prop :=
  Fails p d ts ∨ ∃ s ts', Reads p d ts s ts' ∧ GoesOn ts'

/-- What comes after the first part of a name is no end of a statement. -/
theorem goesOn_pointed (is : List Ident) : GoesOn (Name.pointed is ++ toDefault) := by
  cases is with
  | nil => exact ⟨_, rfl, by rw [keyword_to]; decide, nofun, nofun⟩
  | cons j is => exact ⟨_, rfl, by simp [Token.keyword], by simp, nofun⟩

theorem goesOn_defaultWord : GoesOn [defaultWord] :=
  ⟨_, rfl, by rw [keyword_defaultWord]; decide, nofun, nofun⟩

/-- No value begins with a point. -/
theorem fails_exprForm_point {inner : Reader TypeName} {k : Grammar}
    (hg : k.typeName = typeWith inner) (ho : g.operand = k.operandForm) (d : Nat)
    (ts : List Token) : Fails (g.exprForm 0) (d + 1) (.symbol "." :: ts) := by
  have htype : Fails k.typedText d (.symbol "." :: ts) := by
    refine Fails.bind ?_ _
    rw [hg]
    exact (reads_peek d _).bind_fails ((fails_expected _ d _).bind _)
  have hoperand : Fails g.operand d (.symbol "." :: ts) := by
    rw [ho]
    exact htype.attempt.bind_fails ((reads_peek d _).bind_fails (fails_expected _ d _))
  exact Fails.deeper (fails_bind_read fun u _ => hoperand.bind _)

section Stuck

variable {i : Ident} {is : List Ident}

theorem reads_transactionModes (h : (ts.headD .eof).keyword ∉ ["ISOLATION", "READ"]) :
    Reads transactionModes d ts [] ts := by
  have hword : ∀ w ws, w = "ISOLATION" ∨ w = "READ" → Reads (words (w :: ws)) d ts false ts := by
    intro w ws hw
    refine reads_words_of_not ?_
    cases ts with
    | nil => rfl
    | cons t ts =>
        have hne : (w == t.keyword) = false := by
          rw [beq_eq_false_iff_ne]
          rintro rfl
          exact h (by simpa using hw)
        rw [List.map_cons, List.isPrefixOf_cons_cons, hne, Bool.false_and]
  refine reads_bind_read fun u _ => ?_
  refine Reads.bind (a := none) ?_ (reads_pure [] d ts)
  refine (hword _ _ (.inl rfl)).bind ((hword _ _ (.inr rfl)).bind ?_)
  exact (hword _ _ (.inr rfl)).bind (reads_pure none d ts)

/-- The words that begin other settings leave the word `DEFAULT`, or do not fit what comes next. -/
theorem stuck_setIn (h : i.token.keyword ∈ ["NAMES", "CHARACTERISTICS", "TRANSACTION",
    "AUTHORIZATION"]) :
    Stuck (set.setIn g none) d (i.token :: (Name.pointed is ++ toDefault)) := by
  have hrole : Fails role d (i.token :: (Name.pointed is ++ toDefault)) :=
    fails_role fun hk => absurd (hk ▸ h) (by decide)
  have hzone : Reads (words ["TIME", "ZONE"]) d (i.token :: (Name.pointed is ++ toDefault)) false
      (i.token :: (Name.pointed is ++ toDefault)) :=
    reads_words_of_not (isPrefixOf_zone i.token is)
  have hword : ∀ w, i.token.keyword ≠ w → Reads (word w) d
      (i.token :: (Name.pointed is ++ toDefault)) false _ := fun w hw => reads_word_cons_of_ne _ hw
  have htake : ∀ w, i.token.keyword = w → Reads (word w) d
      (i.token :: (Name.pointed is ++ toDefault)) true _ := fun w hw => reads_word _ hw
  simp only [List.mem_cons, List.not_mem_nil, or_false] at h
  rcases h with hk | hk | hk | hk
  · cases is with
    | nil =>
        refine .inr ⟨.other "SET NAMES" [] [] [], _, ?_, goesOn_defaultWord⟩
        refine hrole.attempt.bind (hzone.bind ?_)
        refine (hword "TIMEZONE" (by simp [hk])).bind ((htake "NAMES" hk).bind ?_)
        refine (reads_word_cons_of_ne _ (by rw [keyword_to]; decide)).bind ?_
        refine (reads_ident _ rfl).bind ?_
        refine (reads_word_cons_of_ne _ (by rw [keyword_defaultWord]; decide)).bind ?_
        exact reads_pure _ d _
    | cons j is =>
        refine .inl (hrole.attempt.bind_fails (hzone.bind_fails ?_))
        refine (hword "TIMEZONE" (by simp [hk])).bind_fails ((htake "NAMES" hk).bind_fails ?_)
        refine (reads_word_cons_of_ne _ (by simp [Token.keyword])).bind_fails ?_
        exact (fails_ident rfl).bind _
  · refine .inl (hrole.attempt.bind_fails (hzone.bind_fails ?_))
    refine (hword "TIMEZONE" (by simp [hk])).bind_fails ?_
    refine (hword "NAMES" (by simp [hk])).bind_fails ?_
    refine (htake "CHARACTERISTICS" hk).bind_fails (Fails.bind ?_ _)
    exact (fails_expectWord (by rw [keyword_pointed]; split <;> simp)).bind _
  · refine .inr ⟨.setTransaction [], _, hrole.attempt.bind (hzone.bind ?_), goesOn_pointed is⟩
    refine (hword "TIMEZONE" (by simp [hk])).bind ((hword "NAMES" (by simp [hk])).bind ?_)
    refine (hword "CHARACTERISTICS" (by simp [hk])).bind ((htake "TRANSACTION" hk).bind ?_)
    refine (reads_word_of_ne (by rw [keyword_pointed]; split <;> simp)).bind ?_
    refine (reads_transactionModes (by rw [keyword_pointed]; split <;> simp)).bind ?_
    exact reads_pure _ d _
  · refine .inl (hrole.attempt.bind_fails (hzone.bind_fails ?_))
    refine (hword "TIMEZONE" (by simp [hk])).bind_fails ?_
    refine (hword "NAMES" (by simp [hk])).bind_fails ?_
    refine (hword "CHARACTERISTICS" (by simp [hk])).bind_fails ?_
    refine (hword "TRANSACTION" (by simp [hk])).bind_fails ?_
    refine (htake "AUTHORIZATION" hk).bind_fails ?_
    exact (fails_expected _ d _).bind _

/-- After a scope a name has to come. -/
theorem fails_setIn (scope : Option String) (is : List Ident) :
    Fails (set.setIn g scope) d (Name.pointed is ++ toDefault) := by
  have hkeyword := keyword_pointed is
  have hrole : Fails role d (Name.pointed is ++ toDefault) :=
    (fails_expectWord (by rw [hkeyword]; split <;> simp)).bind _
  have hzone := isPrefixOf_pointed (w := "TIME") (by decide) (by decide) ["ZONE"] is
  refine comes_setIn (o := none) hrole hzone (fun w hw => ?_) (fails_setTarget is)
  rw [hkeyword]
  rintro rfl
  revert hw
  split <;> decide

/-- A name that begins with one of the words, or is a role or a part of a time zone, is not set. -/
theorem stuck_set (hpoint : ∀ ts, Fails g.any d (.symbol "." :: ts))
    (h : ¬ Assignable (i :: is)) : Stuck g.set d (Name.tokens (i :: is) ++ toDefault) := by
  change Stuck g.set d (i.token :: (Name.pointed is ++ toDefault))
  by_cases hive : i.token.keyword = "HIVEVAR"
  · refine .inl ((reads_word _ hive).bind_fails (Fails.bind ?_ _))
    refine fails_expectSymbol ?_
    cases is <;> simp [Name.pointed, toDefault]
  by_cases hscope : ["SESSION", "LOCAL", "GLOBAL"].contains i.token.keyword = true
  · refine .inl ((reads_word_cons_of_ne _ hive).bind_fails ((reads_oneOf _ hscope).bind_fails ?_))
    exact fails_setIn _ is
  -- What is left are the words that are looked for after a scope.
  have hnone : ∀ {o}, Comes (set.setIn g none) d (i.token :: (Name.pointed is ++ toDefault)) o →
      Comes g.set d (i.token :: (Name.pointed is ++ toDefault)) o := fun ho =>
    (reads_word_cons_of_ne _ hive).comes ((reads_oneOf_of_not (by simpa using hscope)).comes ho)
  have hstuck : Stuck (set.setIn g none) d (i.token :: (Name.pointed is ++ toDefault)) := by
    by_cases hwords : i.token.keyword ∈ ["NAMES", "CHARACTERISTICS", "TRANSACTION", "AUTHORIZATION"]
    · exact stuck_setIn hwords
    have hsetting : i.token.keyword ∉ settingWords := by
      simp only [settingWords, List.mem_cons, List.not_mem_nil, or_false, List.contains_eq_mem,
        decide_eq_true_eq] at hive hscope hwords ⊢
      tauto
    cases is with
    | nil =>
        have hk : i.token.keyword = "ROLE" := by
          simpa [Assignable, hsetting] using h
        refine .inr ⟨.other "SET ROLE" [] [] [], [defaultWord], ?_, goesOn_defaultWord⟩
        have hrole : Reads role d (i.token :: toDefault) () [defaultWord] := by
          refine (reads_expectWord _ hk).bind ?_
          refine (reads_word_cons_of_ne _ (by rw [keyword_to]; decide)).bind ?_
          exact (reads_ident _ rfl).bind (reads_pure () d _)
        exact hrole.attempt.bind (reads_pure _ d _)
    | cons j is =>
        have hk : i.token.keyword = "TIMEZONE" := by
          simpa [Assignable, hsetting] using h
        have hrole : Fails role d (i.token :: (Name.pointed (j :: is) ++ toDefault)) :=
          fails_role fun _ => by simp
        refine .inl (hrole.attempt.bind_fails ?_)
        refine (reads_words_of_not (isPrefixOf_zone _ _)).bind_fails ?_
        refine (reads_word _ hk).bind_fails ?_
        refine (reads_symbol_of_ne (by simp [Name.pointed])).bind_fails ?_
        refine (reads_word_of_ne (by simp [Name.pointed, Token.keyword])).bind_fails ?_
        exact (hpoint _).bind _
  rcases hstuck with hfails | ⟨s, ts', hreads, hon⟩
  · exact .inl (hnone (o := none) hfails)
  · exact .inr ⟨s, ts', hnone (o := some (s, ts')) hreads, hon⟩

end Stuck

/-! ## The whole statement -/

/-- The word `SET` as a token. -/
def setWord : Token := .word "SET" none

theorem comes_statement {m : Nat} {o : Option (Statement × List Token)}
    (h : Comes (grammar m).set d ts o) :
    Comes (grammar (m + 1)).statement (d + 1) (setWord :: ts) o := by
  have hkeyword : setWord.keyword = "SET" := by decide +kernel
  have hform : Comes (do
      let w ← peekWord
      if ["SELECT", "WITH", "VALUES", "FROM"].contains w || (← symbolAhead "(") then
        return .query (← (grammar m).query)
      else if statementWords.contains w then
        let _ ← next
        (grammar m).statementAfter w
      else expected "an SQL statement") d (setWord :: ts) o := by
    refine (reads_peekWord d _).comes ((reads_symbolAhead_of_ne (by simp [setWord])).comes ?_)
    rw [List.headD_cons, hkeyword]
    exact (reads_next d _ _).comes h
  cases o with
  | none => exact Fails.deeper hform
  | some r => exact Reads.deeper hform

theorem reads_any (m d : Nat) :
    Reads (grammar (m + 3)).any (d + 1) [defaultWord] (.name [⟨"DEFAULT", none⟩]) [] :=
  reads_exprForm (g := grammar (m + 2)) (k := grammar (m + 1)) rfl rfl d

theorem fails_any_point (m d : Nat) (ts : List Token) :
    Fails (grammar (m + 3)).any (d + 1) (.symbol "." :: ts) :=
  fails_exprForm_point (g := grammar (m + 2)) (k := grammar (m + 1)) rfl rfl d ts

end Sql.Grammar

namespace Sql.Statement

open Reader Grammar

variable {u : Unread} {d : Nat} {t : Token} {ts : List Token} {s : Statement} {ls : List Located}

theorem ofTokens?_eq_map (ls : List Located) :
    ofTokens? ls = ((listFrom (reader ls.length) (ls.length + 1)).run (unread ls)).map (·.1) := by
  unfold ofTokens? run
  cases (listFrom (reader ls.length) (ls.length + 1)) (unread ls) <;> rfl

/-- The first statement is read from the first token on, if that is no semicolon. -/
theorem exists_run_listFrom {one : Reader Statement} (hu : u.Shows d (t :: ts))
    (hsemi : t ≠ .symbol ";") (heof : t ≠ .eof) (fuel : Nat) :
    ∃ u₁ : Unread, u₁.Shows d (t :: ts) ∧
      (listFrom one (fuel + 1)).run u = one.run u₁ >>= fun r => goOn one fuel r.1 r.2 := by
  have hsep : Reads separators d (t :: ts) [] (t :: ts) := by
    refine reads_many_of_none ((reads_symbol_of_ne ?_).bind (reads_pure none d _))
    simpa using hsemi
  obtain ⟨u₁, hrun, hu₁⟩ := hsep u hu
  exact ⟨u₁, hu₁, run_listFrom_cons fuel hrun (by rw [hu₁.nextOf_eq]; exact heof)⟩

theorem ofTokens?_of_reads (hu : (unread ls).Shows 50 (t :: ts)) (hsemi : t ≠ .symbol ";")
    (heof : t ≠ .eof) (h : Reads (reader ls.length) 50 (t :: ts) s []) :
    ofTokens? ls = .ok [s] := by
  obtain ⟨u₁, hu₁, hrun⟩ := exists_run_listFrom hu hsemi heof ls.length
  obtain ⟨u₂, hread, hu₂⟩ := h u₁ hu₁
  have hnext : nextOf u₂.rest = .eof := hu₂.nextOf_eq
  rw [ofTokens?_eq_map, hrun, hread]
  simp [Bind.bind, Except.bind, goOn, hnext, Except.map]

theorem exists_ofTokens?_error (hu : (unread ls).Shows 50 (t :: ts)) (hsemi : t ≠ .symbol ";")
    (heof : t ≠ .eof) (h : Stuck (reader ls.length) 50 (t :: ts)) :
    ∃ f, ofTokens? ls = .error f := by
  obtain ⟨u₁, hu₁, hrun⟩ := exists_run_listFrom hu hsemi heof ls.length
  rw [ofTokens?_eq_map, hrun]
  rcases h with h | ⟨s, ts', h, t', ht', hend, hsemi', heof'⟩
  · obtain ⟨f, hf, -⟩ := h u₁ hu₁
    exact ⟨f, by rw [hf]; rfl⟩
  · obtain ⟨u₂, hread, hu₂⟩ := h u₁ hu₁
    have hnext : nextOf u₂.rest = t' := by
      rw [hu₂.nextOf_eq, List.headD_eq_head?_getD, Option.mem_def.1 ht', Option.getD_some]
    obtain ⟨f, hf⟩ := exists_run_expected (α := List Statement) "end of statement" u₂
    refine ⟨f, ?_⟩
    rw [hread]
    simp [Bind.bind, Except.bind, goOn, hnext, hend, hsemi', heof', hf, Except.map]

end Sql.Statement

end SqlGate
