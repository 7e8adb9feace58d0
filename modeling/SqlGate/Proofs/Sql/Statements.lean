import SqlGate.Proofs.Sql.Reader
import SqlGate.Sql.Grammar

/-!
# Statements and their first words

## The first word of a statement

A statement that is no query begins with a keyword, and this word alone says how it is read on
(`run_statementForm`). Keywords are compared in full upper case, and two letters outside ASCII have
an upper case inside it; so a word may be a keyword although it is not spelled in ASCII letters.
-/

namespace SqlGate.Sql

/-! ## Letter case -/

theorem upperChar_eq_toUpper {c : Char} (h₁ : c.toNat ≠ 0x17F) (h₂ : c.toNat ≠ 0x131) :
    upperChar c = c.toUpper := by
  rw [upperChar, if_neg h₁, if_neg h₂]

/-- A letter outside ASCII stays what it is in ASCII upper case. -/
theorem toUpper_of_le {c : Char} (h : 128 ≤ c.toNat) : c.toUpper = c := by
  unfold Char.toUpper
  rw [dif_neg]
  rintro ⟨-, hc⟩
  have hz : c.val.toNat ≤ 122 := UInt32.le_iff_toNat_le.1 hc
  change 128 ≤ c.val.toNat at h
  omega

/-- A word that reads as an ASCII text in ASCII upper case is that keyword. -/
theorem upper_of_asciiUpper {s w : String} (h : asciiUpper s = w)
    (hw : ∀ c ∈ w.toList, c.toNat < 128) : upper s = w := by
  subst h
  refine String.toList_injective ?_
  rw [upper, asciiUpper, String.toList_map, String.toList_map]
  refine List.map_congr_left fun c hc => ?_
  have hlt : c.toUpper.toNat < 128 := by
    refine hw _ ?_
    rw [asciiUpper, String.toList_map]
    exact List.mem_map_of_mem hc
  have hc' : c.toNat < 128 := by
    refine Nat.lt_of_not_le fun hle => ?_
    rw [toUpper_of_le hle] at hlt
    exact absurd hle (Nat.not_le_of_lt hlt)
  exact upperChar_eq_toUpper (by omega) (by omega)

/-- A word that is a keyword without the letters `S` and `I` is spelled in ASCII letters. -/
theorem asciiUpper_of_upper {s w : String} (h : upper s = w) (hs : 'S' ∉ w.toList)
    (hi : 'I' ∉ w.toList) : asciiUpper s = w := by
  subst h
  refine String.toList_injective ?_
  rw [upper, String.toList_map] at hs hi
  rw [upper, asciiUpper, String.toList_map, String.toList_map]
  refine List.map_congr_left fun c hc => ?_
  have hmem : upperChar c ∈ s.toList.map upperChar := List.mem_map_of_mem hc
  have h₁ : c.toNat ≠ 0x17F := by
    intro h
    rw [upperChar, if_pos h] at hmem
    exact hs hmem
  have h₂ : c.toNat ≠ 0x131 := by
    intro h
    rw [upperChar, if_neg h₁, if_pos h] at hmem
    exact hi hmem
  exact (upperChar_eq_toUpper h₁ h₂).symm

/-! ## How a statement goes on -/

namespace Reader

theorem identOf?_of_run_name {u u' : Unread} {n : Name} (h : name.run u = .ok (n, u')) :
    ∃ i is, identOf? (nextOf u.rest) = some i ∧ n = i :: is := by
  obtain ⟨i, u₁, hi, hrest⟩ := run_bind_eq_ok_iff.1 h
  obtain ⟨is, u₂, -, hp⟩ := run_bind_eq_ok_iff.1 hrest
  cases hp
  refine ⟨i, is, ?_, rfl⟩
  rw [ident, run_bind_ok _ (run_peek u)] at hi
  split at hi
  · rename_i i' hi'
    obtain ⟨t, u₃, -, hp⟩ := run_bind_eq_ok_iff.1 hi
    cases hp
    exact hi'
  · obtain ⟨f, hf⟩ := exists_run_expected (α := Ident) "identifier" u
    exact nomatch hf.symm.trans hi

end Reader

namespace Grammar

open Reader

variable {u u' : Unread} {s : Statement}

/-- The rest of a statement that sets a session variable back says what: all, or a name. -/
theorem run_reset (h : reset.run u = .ok (s, u')) :
    ((nextOf u.rest).keyword = "ALL" ∧ s = .reset none) ∨
      ∃ i is, identOf? (nextOf u.rest) = some i ∧ s = .reset (some (i :: is)) := by
  by_cases hall : (nextOf u.rest).keyword = "ALL"
  · obtain ⟨u₁, hw⟩ := exists_run_word hall
    rw [reset, run_bind_ok _ hw] at h
    cases h
    exact .inl ⟨hall, rfl⟩
  · rw [reset, run_bind_ok _ (run_word_of_ne hall)] at h
    obtain ⟨n, u₁, hn, hp⟩ := run_bind_eq_ok_iff.1 h
    obtain ⟨i, is, hi, rfl⟩ := identOf?_of_run_name hn
    cases hp
    exact .inr ⟨i, is, hi, rfl⟩

theorem run_discard (h : discard.run u = .ok (s, u')) : s = .discard (nextOf u.rest).keyword := by
  obtain ⟨w, u₁, hw, hp⟩ := run_bind_eq_ok_iff.1 h
  cases w with
  | none =>
      obtain ⟨f, hf⟩ := exists_run_expected (α := Statement)
        "ALL, PLANS, SEQUENCES, TEMP or TEMPORARY after DISCARD" u₁
      exact nomatch hf.symm.trans hp
  | some w =>
      cases hp
      rw [keyword_of_run_oneOf hw]

/-- A statement that is no query begins with one of the words that statements begin with, and goes
on as that word says. -/
theorem run_statementForm {g : Grammar} {t : Located} {rest : List Located}
    (h : g.statementForm.run u = .ok (s, u')) (ht : skipBlanks u.rest = t :: rest)
    (hp : t.token ≠ .symbol "(")
    (hq : ["SELECT", "WITH", "VALUES", "FROM"].contains t.token.keyword = false) :
    statementWords.contains t.token.keyword = true ∧
      ∃ u₁ u₂, u₁.rest = rest ∧ (g.statementAfter t.token.keyword).run u₁ = .ok (s, u₂) := by
  obtain ⟨d, u₁, h⟩ := exists_of_run_deeper h
  have hnext : nextOf u.rest = t.token := nextOf_of_cons ht
  rw [run_bind_ok _ (run_peekWord _), run_bind_ok _ (run_symbolAhead _ _)] at h
  simp only [hnext, hq, decide_eq_false hp, Bool.or_self, Bool.false_eq_true, if_false] at h
  split at h
  · rename_i hw
    rw [run_bind_ok _ (run_next_cons (u := { u with depth := d }) ht)] at h
    exact ⟨hw, _, u₁, rfl, h⟩
  · obtain ⟨f, hf⟩ := exists_run_expected (α := Statement) "an SQL statement" { u with depth := d }
    exact nomatch hf.symm.trans h

end Grammar

end SqlGate.Sql

/-!
## The statements of a text

A text is read as a list of statements: semicolons are passed over, one statement is read, and what
comes next decides how to go on. `listFrom_eq_singleton_iff` says when the list has just one: either
nothing but semicolons and blanks is left, or the word `END` comes right after the statement, and
then all that is left is not looked at.
-/

namespace SqlGate.Sql

/-- A token that separates statements, or nothing. -/
def Located.isSeparator (t : Located) : Bool := t.token.isBlank || t.token = .symbol ";"

namespace Statement

open Reader

variable {u u' : Unread}

/-- The unread tokens are the blanks in front and the others. -/
theorem exists_blanks (rest : List Located) :
    ∃ blanks, rest = blanks ++ skipBlanks rest ∧ ∀ t ∈ blanks, t.token.isBlank = true := by
  refine ⟨rest.takeWhile fun t => t.token.isBlank, ?_, ?_⟩
  · exact (List.takeWhile_append_dropWhile).symm
  · exact List.all_eq_true.1 List.all_takeWhile

theorem not_isBlank_of_skipBlanks {rest after : List Located} {t : Located}
    (h : skipBlanks rest = t :: after) : t.token.isBlank = false := by
  have hd := List.head?_dropWhile_not (fun t : Located => t.token.isBlank) rest
  unfold skipBlanks at h
  rw [h] at hd
  exact hd

/-- The separators in front are taken, and no semicolon comes next. -/
theorem run_semicolons (fuel : Nat) (h : u.rest.length < fuel) :
    ∃ l u', (repeated semicolon fuel).run u = .ok (l, u') ∧ nextOf u'.rest ≠ .symbol ";" ∧
      ∃ before, u.rest = before ++ u'.rest ∧ ∀ t ∈ before, t.isSeparator = true := by
  induction fuel generalizing u with
  | zero => exact absurd h (Nat.not_lt_zero _)
  | succ fuel ih =>
      by_cases hn : nextOf u.rest = .symbol ";"
      · obtain ⟨blanks, hb, hblank⟩ := exists_blanks u.rest
        cases hs : skipBlanks u.rest with
        | nil =>
            rw [nextOf_of_nil hs] at hn
            cases hn
        | cons t rest =>
            rw [nextOf_of_cons hs] at hn
            rw [hs] at hb
            have hlt : rest.length < fuel := by
              have := congrArg List.length hb
              simp at this
              omega
            have hrun : semicolon.run u = .ok (some (), { u with rest, last := t.token }) := by
              rw [semicolon, run_bind_ok _ (run_symbol_of_cons hs hn)]
              rfl
            obtain ⟨l, u', hu, hne, before, hrest, hall⟩ :=
              ih (u := { u with rest, last := t.token }) hlt
            refine ⟨() :: l, u', ?_, hne, blanks ++ t :: before, ?_, ?_⟩
            · rw [run_repeated_some fuel hrun, hu]
              rfl
            · rw [hb, show rest = before ++ u'.rest from hrest]
              simp
            · intro x hx
              rcases List.mem_append.1 hx with hx | hx
              · simp [Located.isSeparator, hblank x hx]
              · rcases List.mem_cons.1 hx with rfl | hx
                · simp [Located.isSeparator, hn]
                · exact hall x hx
      · refine ⟨[], u, ?_, hn, [], rfl, by simp⟩
        have hrun : semicolon.run u = .ok (none, u) := by
          rw [semicolon, run_bind_ok _ (run_symbol_of_ne hn)]
          rfl
        exact run_repeated_none fuel hrun

/-- The separators in front are taken, and no semicolon comes next. -/
theorem run_separators (u : Unread) :
    ∃ l u', separators.run u = .ok (l, u') ∧ nextOf u'.rest ≠ .symbol ";" ∧
      ∃ before, u.rest = before ++ u'.rest ∧ ∀ t ∈ before, t.isSeparator = true := by
  have hm : separators.run u = (repeated semicolon (u.rest.length + 1)).run u := by
    rw [separators, many, run_bind_ok _ (run_read u)]
  rw [hm]
  exact run_semicolons _ (Nat.lt_succ_self _)

/-! ## What comes next when nothing is left -/

section Spent

variable {rest : List Located}

theorem nextOf_eq_eof_iff (he : ∀ t ∈ rest, t.token ≠ .eof) :
    nextOf rest = .eof ↔ ∀ t ∈ rest, t.token.isBlank = true := by
  obtain ⟨blanks, hb, hblank⟩ := exists_blanks rest
  cases hs : skipBlanks rest with
  | nil =>
      rw [hs, List.append_nil] at hb
      exact ⟨fun _ => hb ▸ hblank, fun _ => nextOf_of_nil hs⟩
  | cons t after =>
      have ht : t ∈ rest := by
        rw [hb, hs]
        simp
      rw [nextOf_of_cons hs]
      constructor
      · exact fun h => absurd h (he t ht)
      · exact fun h => absurd (h t ht) (by simp [not_isBlank_of_skipBlanks hs])

/-- When only separators are left, a semicolon comes next or nothing. -/
theorem nextOf_of_isSeparator (h : ∀ t ∈ rest, t.isSeparator = true) :
    nextOf rest = .eof ∨ nextOf rest = .symbol ";" := by
  cases hs : skipBlanks rest with
  | nil => exact .inl (nextOf_of_nil hs)
  | cons t after =>
      have ht : t ∈ rest := by
        obtain ⟨blanks, hb, -⟩ := exists_blanks rest
        rw [hb, hs]
        simp
      have hsep := h t ht
      rw [Located.isSeparator, not_isBlank_of_skipBlanks hs, Bool.false_or,
        decide_eq_true_iff] at hsep
      exact .inr ((nextOf_of_cons hs).trans hsep)

/-- Only separators are left if nothing comes after those in front. -/
theorem isSeparator_iff_of_run {l : List Unit} (he : ∀ t ∈ u.rest, t.token ≠ .eof)
    (h : separators.run u = .ok (l, u')) :
    (∀ t ∈ u.rest, t.isSeparator = true) ↔ nextOf u'.rest = .eof := by
  obtain ⟨l', u'', hrun, hne, before, hrest, hbefore⟩ := run_separators u
  obtain ⟨rfl, rfl⟩ := Prod.mk.inj (Except.ok.inj (h.symm.trans hrun))
  have he' : ∀ t ∈ u'.rest, t.token ≠ .eof :=
    fun t ht => he t (hrest ▸ List.mem_append_right before ht)
  constructor
  · intro hall
    have hall' : ∀ t ∈ u'.rest, t.isSeparator = true :=
      fun t ht => hall t (hrest ▸ List.mem_append_right before ht)
    exact (nextOf_of_isSeparator hall').resolve_right hne
  · intro hn
    have hblank := (nextOf_eq_eof_iff he').1 hn
    rw [hrest]
    intro t ht
    rcases List.mem_append.1 ht with ht | ht
    · exact hbefore t ht
    · simp [Located.isSeparator, hblank t ht]

end Spent

/-! ## One statement -/

variable {one : Reader Statement} {s : Statement}

theorem run_listFrom_nil (fuel : Nat) {l : List Unit} (h : separators.run u = .ok (l, u'))
    (hn : nextOf u'.rest = .eof) : (listFrom one (fuel + 1)).run u = .ok ([], u') := by
  rw [listFrom, run_bind_ok _ h, run_bind_ok _ (run_peek u'), hn]
  rfl

/-- How a list of statements goes on after one of them. -/
def goOn (one : Reader Statement) (fuel : Nat) (s : Statement) (u : Unread) :
    Except Fault (List Statement × Unread) :=
  if nextOf u.rest = .eof ∨ (nextOf u.rest).keyword = "END" then .ok ([s], u)
  else if nextOf u.rest = .symbol ";" then
    (listFrom one fuel).run u >>= fun r => .ok (s :: r.1, r.2)
  else (expected "end of statement" : Reader (List Statement)).run u

theorem run_listFrom_cons (fuel : Nat) {l : List Unit} (h : separators.run u = .ok (l, u'))
    (hn : nextOf u'.rest ≠ .eof) :
    (listFrom one (fuel + 1)).run u = one.run u' >>= fun r => goOn one fuel r.1 r.2 := by
  rw [listFrom, run_bind_ok _ h, run_bind_ok _ (run_peek u')]
  split
  · exact absurd ‹_› hn
  · rw [run_bind]
    refine congrArg (one.run u' >>= ·) (funext fun r => ?_)
    rw [run_bind_ok _ (run_peek r.2), goOn]
    split
    · rfl
    · split
      · rw [run_bind]
        rfl
      · rfl

/-- The first statement of a list stays in it. -/
theorem head_of_goOn {fuel : Nat} {ss : List Statement} (h : goOn one fuel s u = .ok (ss, u')) :
    ss.head? = some s := by
  unfold goOn at h
  split at h
  · cases h
    rfl
  · split at h
    · cases hr : (listFrom one fuel).run u with
      | error f =>
          rw [hr] at h
          cases h
      | ok r =>
          rw [hr] at h
          cases h
          rfl
    · obtain ⟨f, hf⟩ := exists_run_expected (α := List Statement) "end of statement" u
      exact nomatch hf.symm.trans h

/-- A list of statements is empty if there are only separators. -/
theorem listFrom_eq_nil_iff (fuel : Nat) (he : ∀ t ∈ u.rest, t.token ≠ .eof) :
    (∃ u', (listFrom one (fuel + 1)).run u = .ok ([], u')) ↔
      ∀ t ∈ u.rest, t.isSeparator = true := by
  obtain ⟨l, u₁, hsep, -⟩ := run_separators u
  rw [isSeparator_iff_of_run he hsep]
  by_cases hn : nextOf u₁.rest = .eof
  · exact ⟨fun _ => hn, fun _ => ⟨u₁, run_listFrom_nil fuel hsep hn⟩⟩
  · refine ⟨?_, fun h => absurd h hn⟩
    rintro ⟨u', h⟩
    rw [run_listFrom_cons fuel hsep hn] at h
    cases ho : one.run u₁ with
    | error f =>
        rw [ho] at h
        cases h
    | ok r =>
        rw [ho] at h
        cases head_of_goOn (show goOn one fuel r.1 r.2 = .ok ([], u') from h)

/-- After a statement nothing is looked at: the word `END` comes next, or only separators do. -/
def Closes (rest : List Located) : Prop :=
  (nextOf rest).keyword = "END" ∨ ∀ t ∈ rest, t.isSeparator = true

/-- The first statement of a list is the only one if nothing is looked at after it. -/
theorem goOn_eq_singleton_iff (fuel : Nat) (s' : Statement)
    (he : ∀ t ∈ u.rest, t.token ≠ .eof) :
    (∃ u', goOn one (fuel + 1) s u = .ok ([s'], u')) ↔ s = s' ∧ Closes u.rest := by
  by_cases hstop : nextOf u.rest = .eof ∨ (nextOf u.rest).keyword = "END"
  · rw [goOn, if_pos hstop]
    have hc : Closes u.rest := by
      rcases hstop with hn | hn
      · have hblank := (nextOf_eq_eof_iff he).1 hn
        exact .inr fun t ht => by simp [Located.isSeparator, hblank t ht]
      · exact .inl hn
    constructor
    · rintro ⟨u', h⟩
      cases h
      exact ⟨rfl, hc⟩
    · rintro ⟨rfl, -⟩
      exact ⟨u, rfl⟩
  · obtain ⟨hneof, hnend⟩ := not_or.1 hstop
    by_cases hsemi : nextOf u.rest = .symbol ";"
    · rw [goOn, if_neg hstop, if_pos hsemi]
      have hc : Closes u.rest ↔ ∃ u', (listFrom one (fuel + 1)).run u = .ok ([], u') := by
        rw [listFrom_eq_nil_iff fuel he]
        exact ⟨fun h => h.resolve_left hnend, .inr⟩
      rw [hc]
      cases hr : (listFrom one (fuel + 1)).run u with
      | error f =>
          constructor
          · rintro ⟨u', h⟩
            cases h
          · rintro ⟨-, u', h⟩
            cases h
      | ok r =>
          obtain ⟨ss, u₂⟩ := r
          constructor
          · rintro ⟨u', h⟩
            cases h
            exact ⟨rfl, u₂, rfl⟩
          · rintro ⟨rfl, u', h⟩
            cases h
            exact ⟨u₂, rfl⟩
    · rw [goOn, if_neg hstop, if_neg hsemi]
      obtain ⟨f, hf⟩ := exists_run_expected (α := List Statement) "end of statement" u
      constructor
      · rintro ⟨u', h⟩
        exact nomatch hf.symm.trans h
      · rintro ⟨-, hend | hall⟩
        · exact absurd hend hnend
        · exact ((nextOf_of_isSeparator hall).elim hneof hsemi).elim

/-- A list of statements has just one if that is read first and then nothing is looked at. -/
theorem listFrom_eq_singleton_iff (fuel : Nat) (he : ∀ t ∈ u.rest, t.token ≠ .eof) :
    (∃ u', (listFrom one (fuel + 2)).run u = .ok ([s], u')) ↔
      ∃ l u₁ u₂, separators.run u = .ok (l, u₁) ∧ nextOf u₁.rest ≠ .eof ∧
        one.run u₁ = .ok (s, u₂) ∧ Closes u₂.rest := by
  obtain ⟨l, u₁, hsep, -, before, hrest, -⟩ := run_separators u
  have huniq : ∀ l' u', separators.run u = .ok (l', u') → u₁ = u' := by
    intro l' u' h
    exact (Prod.mk.inj (Except.ok.inj (hsep.symm.trans h))).2
  by_cases hn : nextOf u₁.rest = .eof
  · rw [run_listFrom_nil _ hsep hn]
    constructor
    · rintro ⟨u', h⟩
      cases h
    · rintro ⟨l', u', u₂, h, hne, -⟩
      obtain rfl := huniq l' u' h
      exact absurd hn hne
  · rw [run_listFrom_cons _ hsep hn]
    have hback : (∃ l u₁ u₂, separators.run u = .ok (l, u₁) ∧ nextOf u₁.rest ≠ .eof ∧
        one.run u₁ = .ok (s, u₂) ∧ Closes u₂.rest) ↔
          ∃ u₂, one.run u₁ = .ok (s, u₂) ∧ Closes u₂.rest := by
      constructor
      · rintro ⟨l', u', u₂, h, -, ho, hc⟩
        obtain rfl := huniq l' u' h
        exact ⟨u₂, ho, hc⟩
      · rintro ⟨u₂, ho, hc⟩
        exact ⟨l, u₁, u₂, hsep, hn, ho, hc⟩
    rw [hback]
    cases ho : one.run u₁ with
    | error f =>
        constructor
        · rintro ⟨u', h⟩
          cases h
        · rintro ⟨u₂, h, -⟩
          cases h
    | ok r =>
        obtain ⟨s', u₂⟩ := r
        have he' : ∀ t ∈ u₂.rest, t.token ≠ .eof := by
          obtain ⟨taken, htaken⟩ := exists_taken ho
          intro t ht
          refine he t ?_
          rw [hrest, htaken]
          simp [ht]
        refine Iff.trans (goOn_eq_singleton_iff fuel s he') ?_
        constructor
        · rintro ⟨rfl, hc⟩
          exact ⟨u₂, rfl, hc⟩
        · rintro ⟨u₂', h, hc⟩
          cases h
          exact ⟨rfl, hc⟩

/-- The first statement of some tokens, the tokens that it is read from, and those that are left. -/
structure First (ts : List Located) (s : Statement) (taken rest : List Located) : Prop where
  read : ∃ l u₁ u₂, separators.run (unread ts) = .ok (l, u₁) ∧
    (reader ts.length).run u₁ = .ok (s, u₂) ∧ u₁.rest = taken ++ rest ∧ u₂.rest = rest
  something : nextOf (taken ++ rest) ≠ .eof

/-- The tokens are those of the first statement and those left, with separators before them. -/
theorem First.exists_before {ts taken rest : List Located} (h : First ts s taken rest) :
    ∃ before, ts = before ++ (taken ++ rest) ∧ ∀ t ∈ before, t.isSeparator = true := by
  obtain ⟨l, u₁, u₂, hsep, -, htaken, -⟩ := h.read
  obtain ⟨l', u₁', hsep', -, before, hrest, hbefore⟩ := run_separators (unread ts)
  obtain ⟨rfl, rfl⟩ := Prod.mk.inj (Except.ok.inj (hsep.symm.trans hsep'))
  exact ⟨before, htaken ▸ hrest, hbefore⟩

/-- Tokens are one statement if nothing is looked at after the first. -/
theorem ofTokens?_eq_singleton_iff {ts : List Located} (he : ∀ t ∈ ts, t.token ≠ .eof) :
    ofTokens? ts = .ok [s] ↔ ∃ taken rest, First ts s taken rest ∧ Closes rest := by
  have hrun : ofTokens? ts = .ok [s] ↔
      ∃ u', (listFrom (reader ts.length) (ts.length + 1)).run (unread ts) = .ok ([s], u') := by
    unfold ofTokens? run
    cases (listFrom (reader ts.length) (ts.length + 1)) (unread ts) with
    | error f =>
        constructor
        · intro h
          cases h
        · rintro ⟨u', h⟩
          cases h
    | ok r =>
        obtain ⟨⟨ss, u'⟩, hr⟩ := r
        constructor
        · intro h
          cases h
          exact ⟨u', rfl⟩
        · rintro ⟨u'', h⟩
          cases h
          rfl
  rw [hrun]
  cases ts with
  | nil =>
      obtain ⟨l, u₁, hsep, -, before, hrest, -⟩ := run_separators (unread [])
      have hnil : u₁.rest = [] := (List.append_eq_nil_iff.1 hrest.symm).2
      constructor
      · rintro ⟨u', h⟩
        cases (run_listFrom_nil 0 hsep (hnil ▸ nextOf_of_nil rfl)).symm.trans h
      · rintro ⟨taken, rest, hf, -⟩
        obtain ⟨before', hts, -⟩ := hf.exists_before
        have htaken := (List.append_eq_nil_iff.1 hts.symm).2
        exact absurd (htaken ▸ nextOf_of_nil rfl) hf.something
  | cons t ts =>
      rw [List.length_cons, listFrom_eq_singleton_iff _ he]
      constructor
      · rintro ⟨l, u₁, u₂, hsep, hn, ho, hc⟩
        obtain ⟨taken, htaken⟩ := exists_taken ho
        exact ⟨taken, u₂.rest, ⟨⟨l, u₁, u₂, hsep, ho, htaken, rfl⟩, htaken ▸ hn⟩, hc⟩
      · rintro ⟨taken, rest, ⟨⟨l, u₁, u₂, hsep, ho, htaken, rfl⟩, hn⟩, hc⟩
        exact ⟨l, u₁, u₂, hsep, htaken ▸ hn, ho, hc⟩

end Statement

end SqlGate.Sql
