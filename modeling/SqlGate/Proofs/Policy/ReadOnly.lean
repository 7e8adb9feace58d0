import Mathlib
import SqlGate.Proofs.Policy.Nesting
import SqlGate.Proofs.Policy.Order
import SqlGate.Proofs.Sql.Statements

/-!
# Leaving read-only mode

`Leaves` says which statements get out of read-only mode, and `Spells` which words of a text do. A
policy that is read-only refuses a text that is spelled that way, whatever its switches are, and a
statement that leaves the mode is refused also inside explanations and preparations, with one
exception: what sets session variables back is known by its first word only, at the start of a text,
and passes where that word is not recognized (`check_leaving`).
-/

namespace SqlGate

namespace Sql

/-- The statement inside all explanations and preparations. -/
def Statement.core : Statement → Statement
  | .explain s => s.core
  | .prepare s => s.core
  | s => s

/-- A statement is prepared on the way to its core. -/
def Statement.isPrepared : Statement → Bool
  | .explain s => s.isPrepared
  | .prepare _ => true
  | _ => false

/-- A statement sets session variables back, or discards state of the session. -/
def Statement.setsBack : Statement → Bool
  | .reset _ => true
  | .discard _ => true
  | _ => false

/-- A part of a name reads as a word: it has no quotes or double ones, and letter case does not
matter. -/
structure Ident.Reads (i : Ident) (v : String) : Prop where
  quote : i.quote = none ∨ i.quote = some '"'
  value : asciiLower i.value = v

end Sql

namespace Policy

open Sql Statement Reader

/-- A statement gets out of read-only mode. -/
inductive Leaves : Statement → Escape → Prop where
  | resetAll : Leaves (.reset none) .resetAll
  | discardAll : Leaves (.discard "ALL") .resetAll
  | reset {i : Ident} {v : String} (hv : v ∈ accessVariables) (hi : i.Reads v) :
    Leaves (.reset (some [i])) (.reset v)
  | set {path : Name} {i : Ident} {v : String} (values : List Expr) (hv : v ∈ accessVariables)
    (hi : i.Reads v) : Leaves (.set (path ++ [i]) values) (.set v)
  | start {modes : List TransactionMode} (h : .access .readWrite ∈ modes) :
    Leaves (.startTransaction modes) .startTransaction
  | switch {modes : List TransactionMode} (h : .access .readWrite ∈ modes) :
    Leaves (.setTransaction modes) .switchTransaction

/-- The tokens of a statement begin with words that get out of read-only mode. -/
inductive Spells : List Token → Escape → Prop where
  | resetAll {v w : String} (p q : Option Char) (rest : List Token) (hv : asciiUpper v = "RESET")
    (hw : asciiUpper w = "ALL") : Spells (.word v p :: .word w q :: rest) .resetAll
  | discardAll {v w : String} (p q : Option Char) (rest : List Token)
    (hv : asciiUpper v = "DISCARD") (hw : asciiUpper w = "ALL") :
    Spells (.word v p :: .word w q :: rest) .resetAll
  | reset {v w x : String} (p q : Option Char) (rest : List Token) (hv : asciiUpper v = "RESET")
    (hw : asciiLower w = x) (hx : x ∈ accessVariables) :
    Spells (.word v p :: .word w q :: rest) (.reset x)

/-! ## The names of variables -/

section VariableName

variable {i : Ident} {v : String}

theorem mem_of_asciiLower {s : String} {c : Char} (h : c ∈ s.toList) :
    c.toLower ∈ (asciiLower s).toList := by
  rw [asciiLower, String.toList_map]
  exact List.mem_map_of_mem h

/-- Neither a point nor a double quote stands in the name of a variable. -/
theorem ne_of_reads (hv : v ∈ accessVariables) (hi : i.Reads v) {c : Char}
    (hc : c ∈ i.value.toList) : c ≠ '.' ∧ c ≠ '"' := by
  have hmem : c.toLower ∈ v.toList := hi.value ▸ mem_of_asciiLower hc
  have hall : ∀ w ∈ accessVariables, '.'.toLower ∉ w.toList ∧ '"'.toLower ∉ w.toList := by
    decide +kernel
  constructor
  · rintro rfl
    exact (hall v hv).1 hmem
  · rintro rfl
    exact (hall v hv).2 hmem

/-- A part of a name that reads as a variable is written without points, and as it is once its
double quotes are left out. -/
theorem text_of_reads (hv : v ∈ accessVariables) (hi : i.Reads v) :
    '.' ∉ i.text.toList ∧
      ((i.text.toList.dropWhile (· = '"')).reverse.dropWhile (· = '"')).reverse =
        i.value.toList := by
  obtain ⟨value, quote⟩ := i
  have hne : ∀ c ∈ value.toList, c ≠ '.' ∧ c ≠ '"' := fun c hc => ne_of_reads hv hi hc
  have hpoint : '.' ∉ value.toList := fun h => (hne '.' h).1 rfl
  have hfront : value.toList.dropWhile (· = '"') = value.toList := by
    rw [List.dropWhile_eq_self_iff]
    intro hlen
    simpa using (hne _ (List.getElem_mem hlen)).2
  have hback : value.toList.reverse.dropWhile (· = '"') = value.toList.reverse := by
    rw [List.dropWhile_eq_self_iff]
    intro hlen
    simpa using (hne _ (List.mem_reverse.1 (List.getElem_mem hlen))).2
  rcases hi.quote with hq | hq
  · obtain rfl : quote = none := hq
    change '.' ∉ value.toList ∧ _
    refine ⟨hpoint, ?_⟩
    change ((value.toList.dropWhile _).reverse.dropWhile _).reverse = _
    rw [hfront, hback, List.reverse_reverse]
  · obtain rfl : quote = some '"' := hq
    have hdouble : value.toList.flatMap (fun c => if c = '"' then [c, c] else [c]) =
        value.toList := by
      have hone : ∀ c ∈ value.toList, (if c = '"' then [c, c] else [c]) = [c] :=
        fun c hc => if_neg (hne c hc).2
      rw [List.flatMap_congr hone]
      exact List.flatMap_singleton' _
    have htext : (Ident.mk value (some '"')).text.toList = '"' :: (value.toList ++ ['"']) := by
      simp [Ident.text, hdouble]
    rw [htext]
    refine ⟨by simp [hpoint], ?_⟩
    rw [List.dropWhile_cons_of_pos (by simp)]
    cases hcs : value.toList with
    | nil => simp
    | cons c cs =>
        have hc : c ≠ '"' := (hne c (hcs ▸ List.mem_cons_self)).2
        rw [List.cons_append, List.dropWhile_cons_of_neg (by simpa using hc), ← List.cons_append,
          ← hcs, List.reverse_append, List.reverse_singleton, List.singleton_append,
          List.dropWhile_cons_of_pos (by simp), hback, List.reverse_reverse]

theorem variableName_append (path : Name) (hv : v ∈ accessVariables) (hi : i.Reads v) :
    variableName (path ++ [i]) = v := by
  obtain ⟨hpoint, htrim⟩ := text_of_reads hv hi
  have hcut : Text.cut (· = '.') i.text.toList = [i.text.toList] := by
    refine Text.cut_eq_singleton _ fun c hc => decide_eq_false ?_
    rintro rfl
    exact hpoint hc
  have hlast : (Text.cut (· = '.') (Name.text (path ++ [i])).toList).getLast? =
      some i.text.toList := by
    by_cases hpath : path = []
    · subst hpath
      change (Text.cut _ (".".intercalate [i.text]).toList).getLast? = _
      rw [String.intercalate_singleton, hcut]
      rfl
    · have htext : (Name.text (path ++ [i])).toList =
          (Name.text path).toList ++ '.' :: i.text.toList := by
        rw [Name.text, List.map_append, String.intercalate_append_of_ne_nil (by simpa using hpath)
          (by simp)]
        simp [Name.text, String.intercalate_singleton]
      rw [htext, Text.cut_append_cons _ _ _ (by simp), hcut, List.getLast?_append]
      rfl
  unfold variableName
  rw [hlast]
  change asciiLower (String.ofList _) = v
  rw [Option.getD_some, htrim, String.ofList_toList]
  exact hi.value

end VariableName

namespace Utility

/-! ## Words of a text -/

/-- A word of a group is no keyword, or the keyword that it reads as. -/
theorem keyword_of_word {t : Token} {w : String} (h : word t = w)
    (hw : ∀ c ∈ w.toList, c.toNat < 128) : t.keyword = "" ∨ t.keyword = w := by
  cases t with
  | word v q =>
      cases q with
      | none => exact .inr (upper_of_asciiUpper h hw)
      | some q => exact .inl rfl
  | _ => exact .inl rfl

/-- A keyword is a word without quotes; if it has neither of the two letters, it counts as what it
is. -/
theorem exists_of_keyword {t : Token} {w : String} (h : t.keyword = w) (hne : w ≠ "")
    (hs : 'S' ∉ w.toList) (hi : 'I' ∉ w.toList) : ∃ v, t = .word v none ∧ word t = w := by
  cases t with
  | word v q =>
      cases q with
      | none => exact ⟨v, rfl, asciiUpper_of_upper h hs hi⟩
      | some q => exact absurd h.symm hne
  | _ => exact absurd h.symm hne

theorem word_of_ofGroup? {t : Token} {g : List Token} {u : Utility}
    (h : ofGroup? (t :: g) = some u) : word t ∈ ["DO", "RESET", "DISCARD"] := by
  unfold ofGroup? at h
  dsimp only [List.head?_cons, Option.map_some] at h
  split at h <;> simp_all

theorem ofGroup?_reset {t t' : Token} {g : List Token} (h : word t = "RESET")
    (h' : g.head? = some t') :
    ofGroup? (t :: g) =
      if word t' = "ALL" then some .resetAll else some (.reset (asciiLower (word t'))) := by
  have hsecond : ((t :: g).drop 1).head? = some t' := h'
  unfold ofGroup?
  rw [hsecond]
  dsimp only [List.head?_cons, Option.map_some]
  rw [h]
  by_cases hall : word t' = "ALL"
  · rw [hall]
    rfl
  · rw [if_neg hall]
    split
    · exact absurd ‹some "RESET" = some "DO"› (by decide)
    · split
      · exact absurd (Option.some.inj ‹_›) hall
      · exact congrArg (fun name => some (reset (asciiLower name))) (Option.some.inj ‹_›).symm
      · cases ‹some _ = none›
    · exact absurd ‹some "RESET" = some "DISCARD"› (by decide)
    · exact absurd rfl ‹some "RESET" = some "RESET" → False›

/-- A variable that is set back is known by its name in lower case. -/
theorem ofGroup?_variable {t : Token} {g : List Token} {w x : String} {q : Option Char}
    (h : word t = "RESET") (h' : g.head? = some (.word w q)) (hw : asciiLower w = x)
    (hx : x ∈ accessVariables) : ofGroup? (t :: g) = some (.reset x) := by
  have hlower : asciiLower (asciiUpper w) = x := by
    rw [← hw]
    refine String.toList_injective ?_
    simp [asciiLower, asciiUpper, String.toList_map]
  have hall : asciiUpper w ≠ "ALL" := by
    intro hu
    rw [hu] at hlower
    exact absurd (hlower ▸ hx) (by decide +kernel)
  rw [ofGroup?_reset h h']
  exact (if_neg hall).trans (congrArg (fun name => some (reset name)) hlower)

theorem ofGroup?_discard {t t' : Token} {g : List Token} (h : word t = "DISCARD")
    (h' : g.head? = some t') (hall : word t' = "ALL") : ofGroup? (t :: g) = some .resetAll := by
  have hsecond : ((t :: g).drop 1).head? = some t' := h'
  unfold ofGroup?
  rw [hsecond]
  dsimp only [List.head?_cons, Option.map_some]
  rw [h, hall]
  rfl

theorem escape_of_mem {v : String} (hv : v ∈ accessVariables) :
    (Utility.reset v).demand.escape = some (.reset v) :=
  if_pos (List.contains_iff_mem.2 hv)

theorem exists_of_spells {g : List Token} {e : Escape} (h : Spells g e) :
    ∃ u, ofGroup? g = some u ∧ u.demand.escape = some e := by
  cases h with
  | @resetAll v w p q rest hv hw =>
      refine ⟨.resetAll, ?_, rfl⟩
      rw [ofGroup?_reset (t := .word v p) hv (List.head?_cons)]
      exact if_pos hw
  | @discardAll v w p q rest hv hw =>
      exact ⟨.resetAll, ofGroup?_discard (t := .word v p) hv (List.head?_cons) hw, rfl⟩
  | @reset v w x p q rest hv hw hx =>
      exact ⟨.reset x, ofGroup?_variable (t := .word v p) hv (List.head?_cons) hw hx,
        escape_of_mem hx⟩

theorem one_le_of_scan {ts : List Located} {n : Nat} {u : Utility} (h : scan ts = some (n, u)) :
    1 ≤ n := by
  obtain ⟨u', hu', hpair⟩ := Option.map_eq_some_iff.1 h
  obtain ⟨rfl, -⟩ := Prod.mk.inj hpair
  obtain ⟨g, hg, -⟩ := List.exists_of_findSome?_eq_some hu'
  exact List.length_pos_of_mem hg

theorem scan_eq_one_iff {ts : List Located} {u : Utility} :
    scan ts = some (1, u) ↔ ∃ g, groups ts = [g] ∧ ofGroup? g = some u := by
  unfold scan
  dsimp only
  rw [Option.map_eq_some_iff]
  constructor
  · rintro ⟨u', hu', hpair⟩
    obtain ⟨hlen, rfl⟩ := Prod.mk.inj hpair
    obtain ⟨g, hg⟩ := List.length_eq_one_iff.1 hlen
    rw [hg] at hu'
    exact ⟨g, hg, by simpa using hu'⟩
  · rintro ⟨g, hg, hu⟩
    refine ⟨u, ?_, by rw [hg]; rfl⟩
    rw [hg]
    simpa using hu

end Utility

/-- A part of a name that is in no single quotes is a word of the text. -/
theorem eq_word_of_identOf? {t : Token} {i : Ident} (h : identOf? t = some i)
    (hq : i.quote = none ∨ i.quote = some '"') : t = .word i.value i.quote := by
  unfold identOf? at h
  split at h
  · cases h
    rfl
  · cases h
    simp at hq
  · cases h

/-- A statement that begins with the first word of a utility statement sets something back. -/
theorem run_of_word {n : Nat} {u₁ u₂ : Unread} {s : Statement} {t : Located}
    {after : List Located} (h : (reader n).run u₁ = .ok (s, u₂))
    (ht : skipBlanks u₁.rest = t :: after)
    (hw : Utility.word t.token ∈ ["DO", "RESET", "DISCARD"]) :
    ∃ u u', u.rest = after ∧
      (Utility.word t.token = "RESET" ∧ Grammar.reset.run u = .ok (s, u') ∨
        Utility.word t.token = "DISCARD" ∧ Grammar.discard.run u = .ok (s, u')) := by
  have hascii : ∀ w ∈ ["DO", "RESET", "DISCARD"], ∀ c ∈ w.toList, c.toNat < 128 := by
    simp
  have hkey := Utility.keyword_of_word (t := t.token) rfl (hascii _ hw)
  have hp : t.token ≠ .symbol "(" := by
    intro hp
    rw [hp] at hw
    exact absurd hw (by decide)
  have hq : ["SELECT", "WITH", "VALUES", "FROM"].contains t.token.keyword = false := by
    rcases hkey with hk | hk
    · rw [hk]
      decide
    · rw [hk]
      have hno : ∀ w ∈ ["DO", "RESET", "DISCARD"],
          ["SELECT", "WITH", "VALUES", "FROM"].contains w = false := by decide
      exact hno _ hw
  obtain ⟨hstart, u, u', hrest, hrun⟩ := Grammar.run_statementForm h ht hp hq
  refine ⟨u, u', hrest, ?_⟩
  rcases hkey with hk | hk
  · rw [hk] at hstart
    exact absurd hstart (by decide)
  · rw [hk] at hstart hrun
    rcases List.mem_cons.1 hw with hw | hw
    · rw [hw] at hstart
      exact absurd hstart (by decide)
    · rcases List.mem_cons.1 hw with hw | hw
      · rw [hw] at hrun
        exact .inl ⟨hw, hrun⟩
      · rw [List.mem_singleton.1 hw] at hrun
        exact .inr ⟨List.mem_singleton.1 hw, hrun⟩

/-- What a text of one group is read as, if the group is a utility statement: it sets something
back, and it gets out of read-only mode just as the words of the group do. -/
theorem escape_of_first {ts taken rest : List Located} {s : Statement} {u : Utility} {e : Escape}
    (hf : First ts s taken rest) (hu : Utility.scan ts = some (1, u)) (hl : Leaves s.core e) :
    u.demand.escape = some e := by
  obtain ⟨l, u₁, u₂, hsep, hread, htaken, -⟩ := hf.read
  obtain ⟨l', u₁', hsep', hsemi, -⟩ := run_separators (unread ts)
  obtain ⟨rfl, rfl⟩ := Prod.mk.inj (Except.ok.inj (hsep.symm.trans hsep'))
  obtain ⟨before, hts, hbefore⟩ := hf.exists_before
  have heof := hf.something
  rw [← htaken] at hts heof
  cases hs : skipBlanks u₁.rest with
  | nil => exact absurd (nextOf_of_nil hs) heof
  | cons t after =>
      rw [nextOf_of_cons hs] at hsemi
      obtain ⟨g, gs, hgroups, hhead⟩ := Utility.exists_groups_cons hs hsemi
      rw [hts, Utility.scan_eq_one_iff, Utility.groups_append_left _ hbefore, hgroups] at hu
      obtain ⟨g', hg', hof⟩ := hu
      obtain ⟨rfl, -⟩ := List.cons.inj hg'
      have hword := Utility.word_of_ofGroup? hof
      -- The next token is in the group if it is a word.
      have hsecond : ∀ v q, nextOf after = .word v q → g.head? = some (.word v q) := by
        intro v q hv
        rw [hv] at hhead
        exact hhead (by simp) (by simp)
      obtain ⟨u₃, u₄, rfl, ⟨hreset, hrun⟩ | ⟨hdiscard, hrun⟩⟩ := run_of_word hread hs hword
      · rcases Grammar.run_reset hrun with ⟨hall, rfl⟩ | ⟨i, is, hi, rfl⟩
        · change Leaves (.reset none) e at hl
          cases hl
          obtain ⟨v, hv, hw⟩ := Utility.exists_of_keyword hall (by decide) (by decide) (by decide)
          rw [hv] at hw
          rw [Utility.ofGroup?_reset hreset (hsecond v none hv), if_pos hw] at hof
          cases hof
          rfl
        · change Leaves (.reset (some (i :: is))) e at hl
          cases hl with
          | @reset _ v hv hi' =>
              have ht := eq_word_of_identOf? hi hi'.quote
              rw [Utility.ofGroup?_variable hreset (hsecond _ _ ht) hi'.value hv] at hof
              cases hof
              exact Utility.escape_of_mem hv
      · obtain rfl := Grammar.run_discard hrun
        change Leaves (.discard (nextOf u₃.rest).keyword) e at hl
        have hall : (nextOf u₃.rest).keyword = "ALL" ∧ e = .resetAll := by
          generalize (nextOf u₃.rest).keyword = k at hl
          cases hl
          exact ⟨rfl, rfl⟩
        obtain ⟨v, hv, hw⟩ :=
          Utility.exists_of_keyword hall.1 (by decide) (by decide) (by decide)
        rw [hv] at hw
        rw [Utility.ofGroup?_discard hdiscard (hsecond v none hv) hw] at hof
        cases hof
        rw [hall.2]
        rfl

namespace Rules

variable (r : Rules)

/-! ## Statements -/

/-- Explanations are passed through, and preparations if they are allowed. -/
theorem checkStatement_eq_core (s : Statement) :
    r.checkStatement s =
      if s.isPrepared && !r.allows .prepare then .error (.blocked .prepare)
      else r.checkStatement s.core := by
  fun_induction Statement.core s with
  | case1 s ih => rw [checkStatement, Statement.isPrepared, ih]
  | case2 s ih =>
      rw [checkStatement, Statement.isPrepared, require]
      cases ha : r.allows .prepare with
      | false => rfl
      | true =>
          refine Eq.trans ?_ (ih.trans ?_)
          · rfl
          · simp [ha]
  | case3 s hexplain hprepare =>
      have hnot : s.isPrepared = false := by
        unfold Statement.isPrepared
        split
        · exact absurd rfl (hexplain _)
        · exact absurd rfl (hprepare _)
        · rfl
      rw [hnot]
      rfl

theorem checkStatement_of_leaves {s : Statement} {e : Escape} (hr : r.readOnly = true)
    (h : Leaves s e) :
    r.checkStatement s = if s.setsBack then .ok () else .error (.readOnly e) := by
  have hescape : ∀ s', (Node.statement s').parts = [] → escape? s' = some e →
      r.checkStatement s' = .error (.readOnly e) := by
    intro s' hparts he
    rw [checkStatement_of_parts_nil r hparts, own_eq_permit]
    exact r.permit_of_escape hr he
  cases h with
  | resetAll => rfl
  | discardAll => rfl
  | reset hv hi => rfl
  | @set path i v values hv hi =>
      refine hescape _ rfl ?_
      rw [escape?, variableName_append path hv hi]
      exact if_pos (List.contains_iff_mem.2 hv)
  | start h => exact hescape _ rfl (if_pos (List.contains_iff_mem.2 h))
  | switch h => exact hescape _ rfl (if_pos (List.contains_iff_mem.2 h))

/-- The only group of a text is a utility statement, which is judged by its words. -/
theorem check_of_scan_one {sql : String} {ts : List Located} {u : Utility} {e : Escape}
    (hr : r.readOnly = true) (h : tokenize sql = .ok ts) (hu : Utility.scan ts = some (1, u))
    (he : u.demand.escape = some e) : r.check sql = .error (.readOnly e) := by
  unfold check
  rw [h]
  dsimp only
  rw [hu]
  dsimp only
  rw [if_neg (Nat.lt_irrefl 1), checkUtility_eq_permit, r.permit_of_escape hr he]

/-- **Leaving read-only mode.** A policy is read-only. A text is refused for leaving that mode,
whatever the switches are, if it is one group of tokens that is spelled that way. A statement that
leaves the mode, in any number of explanations and preparations, is refused for that too, unless
something else comes first: that preparing is not allowed, or that there are several groups, one of
them a utility statement. But if the text is not taken for a utility statement, what sets variables
back is not judged at all. -/
theorem check_leaving {sql : String} {ts : List Located} (hr : r.readOnly = true)
    (h : tokenize sql = .ok ts) :
    (∀ g e, Utility.groups ts = [g] → Spells g e → r.check sql = .error (.readOnly e)) ∧
    ∀ s e, ofTokens? ts = .ok [s] → Leaves s.core e →
      r.check sql =
        match Utility.scan ts with
        | some (n, _) => if 1 < n then .error (.several n) else .error (.readOnly e)
        | none =>
          if s.isPrepared && !r.allows .prepare then .error (.blocked .prepare)
          else if s.core.setsBack then .ok () else .error (.readOnly e) := by
  constructor
  · intro g e hg hs
    obtain ⟨u, hu, he⟩ := Utility.exists_of_spells hs
    exact r.check_of_scan_one hr h (Utility.scan_eq_one_iff.2 ⟨g, hg, hu⟩) he
  · intro s e hs hl
    cases hu : Utility.scan ts with
    | some x =>
        obtain ⟨n, u⟩ := x
        dsimp only
        by_cases hn : 1 < n
        · unfold check
          rw [h]
          dsimp only
          rw [hu, if_pos hn]
          exact if_pos hn
        -- One group: the statement that is read begins where the group does.
        · obtain rfl : n = 1 := by
            have := Utility.one_le_of_scan hu
            omega
          obtain ⟨taken, rest, hf, -⟩ := (ofTokens?_eq_singleton_iff (tokenize_ne_eof h)).1 hs
          rw [if_neg hn]
          exact r.check_of_scan_one hr h hu (escape_of_first hf hu hl)
    | none =>
        have hcheck : r.check sql = r.checkStatement s := by
          unfold check
          rw [h]
          dsimp only
          rw [hu]
          dsimp only
          rw [hs]
          rfl
        rw [hcheck, checkStatement_eq_core, r.checkStatement_of_leaves hr hl]

/-- The policy that is read-only and else allows all classes. -/
def onlyReading : Rules := ⟨true, fun _ => true⟩

/-- A statement sets the variable of read-only mode, in quotes and in other letter case. -/
def setsQuoted : Statement → Bool
  | .set [i] _ => i.quote = some '"' && asciiLower i.value = "default_transaction_read_only"
  | _ => false

theorem leaves_of_setsQuoted {s : Statement} (h : setsQuoted s = true) :
    Leaves s (.set "default_transaction_read_only") := by
  unfold setsQuoted at h
  split at h
  · rw [Bool.and_eq_true, decide_eq_true_iff, decide_eq_true_iff] at h
    exact @Leaves.set [] _ _ _ (by decide) ⟨.inr h.1, h.2⟩
  · cases h

/-- A quoted name, a scope and an explanation change nothing. -/
theorem check_leaving_explained :
    ∃ ts s, ReadAs "EXPLAIN ANALYZE SET SESSION \"Default_Transaction_Read_Only\" TO DEFAULT" ts s ∧
      onlyReading.readOnly = true ∧ Leaves s.core (.set "default_transaction_read_only") ∧
      onlyReading.check "EXPLAIN ANALYZE SET SESSION \"Default_Transaction_Read_Only\" TO DEFAULT" =
        .error (.readOnly (.set "default_transaction_read_only")) := by
  have htest : ∃ ts s,
      ReadAs "EXPLAIN ANALYZE SET SESSION \"Default_Transaction_Read_Only\" TO DEFAULT" ts s ∧
        (setsQuoted s.core && !s.core.setsBack && (Utility.scan ts).isNone) = true :=
    exists_readAs (by decide +kernel)
  obtain ⟨ts, s, hread, hp⟩ := htest
  simp only [Bool.and_eq_true, Bool.not_eq_true', Option.isNone_iff_eq_none] at hp
  obtain ⟨⟨hset, hback⟩, hu⟩ := hp
  have hl := leaves_of_setsQuoted hset
  have hcheck := (onlyReading.check_leaving rfl hread.1).2 s _ hread.2 hl
  rw [hu] at hcheck
  refine ⟨ts, s, hread, rfl, hl, hcheck.trans ?_⟩
  simp [hback, onlyReading]

/-- A statement sets all variables back. -/
def resetsAll : Statement → Bool
  | .reset none => true
  | _ => false

theorem leaves_of_resetsAll {s : Statement} (h : resetsAll s = true) : Leaves s .resetAll := by
  unfold resetsAll at h
  split at h
  · exact .resetAll
  · cases h

/-- What sets all variables back passes inside an explanation. -/
theorem check_accepts_leaving :
    ∃ ts s, ReadAs "EXPLAIN RESET ALL" ts s ∧ Leaves s.core .resetAll ∧
      onlyReading.readOnly = true ∧ onlyReading.check "EXPLAIN RESET ALL" = .ok () := by
  have htest : ∃ ts s, ReadAs "EXPLAIN RESET ALL" ts s ∧ resetsAll s.core = true :=
    exists_readAs (by decide +kernel)
  obtain ⟨ts, s, hread, hp⟩ := htest
  exact ⟨ts, s, hread, leaves_of_resetsAll hp, rfl, by decide +kernel⟩

/-- A word with a letter outside ASCII may be a keyword, but no word of a utility statement. -/
example : onlyReading.check "re\u017fet all" = .ok () := by decide +kernel

end Rules

end Policy

end SqlGate
