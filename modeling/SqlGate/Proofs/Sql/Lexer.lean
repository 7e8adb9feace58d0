import SqlGate.Sql.Lexer

/-!
# What a text is cut into

The end of a text is no token: `eof` stands for the lack of one, and no scanner gives it. So what
`tokenize` gives are the tokens that are written in the text.
-/

namespace SqlGate.Sql

namespace Lexer

/-- A scan does not give the end of the text. -/
def Scan.Proper (x : Scan) : Prop := ∀ t n, x = .ok (t, n) → t ≠ .eof

theorem Scan.proper_ok {t : Token} {n : Nat} (h : t ≠ .eof) : Scan.Proper (.ok (t, n)) := by
  rintro t' n' ⟨⟩
  exact h

theorem Scan.proper_error (f : LexFault) : Scan.Proper (.error f) := by
  rintro t' n' ⟨⟩

theorem Scan.proper_ite {p : Prop} [Decidable p] {x y : Scan} (hx : x.Proper) (hy : y.Proper) :
    Scan.Proper (if p then x else y) := by
  by_cases h : p
  · rwa [if_pos h]
  · rwa [if_neg h]

theorem known_proper (s : String) : (known s).Proper := Scan.proper_ok (by simp)

theorem operatorFrom_proper (start : String) {fallback : Option Token} (rest : List Char)
    (h : ∀ t, fallback = some t → t ≠ .eof) : (operatorFrom start fallback rest).Proper := by
  unfold operatorFrom
  split
  · split
    · exact Scan.proper_ok (h _ rfl)
    · exact Scan.proper_error _
  · exact Scan.proper_ok (by simp)

theorem extensible_proper (s : String) (rest : List Char) : (extensible s rest).Proper :=
  operatorFrom_proper s rest (by simp)

theorem incomplete_proper (s : String) (rest : List Char) : (incomplete s rest).Proper :=
  operatorFrom_proper s rest (by simp)

theorem word_proper (cs : List Char) : (word cs).Proper := Scan.proper_ok (by simp)

theorem quotedText_proper (how : Quoting) (skipped : Nat) (body : List Char) :
    (quotedText how skipped body).Proper := by
  unfold quotedText
  split
  · exact Scan.proper_ok (by simp)
  · exact Scan.proper_error _

theorem quotedWord_proper (body : List Char) : (quotedWord body).Proper := by
  unfold quotedWord
  split
  · exact Scan.proper_ok (by simp)
  · exact Scan.proper_error _

theorem number_proper (before : Token) (cs : List Char) : (number before cs).Proper := by
  unfold number
  split
  · split
    · exact known_proper _
    · exact Scan.proper_error _
  · dsimp only
    split
    · exact Scan.proper_ok (by simp)
    · by_cases h : (List.drop (digitRun Char.isDigit cs).length cs).head? = some '.'
      all_goals
        simp only [h, if_true, if_false]
        split
        · exact known_proper _
        · exact Scan.proper_ok (by simp)

theorem dollar_proper (rest : List Char) : (dollar rest).Proper := by
  unfold dollar
  split
  · split
    · exact Scan.proper_ok (by simp)
    · exact Scan.proper_error _
  · dsimp only
    split
    · split
      · exact Scan.proper_ok (by simp)
      · exact Scan.proper_error _
    · exact Scan.proper_ok (by simp)

theorem introduced_proper (c : Char) (rest : List Char) : (introduced c rest).Proper := by
  unfold introduced
  split
  · exact quotedText_proper _ _ _
  · split
    · exact Scan.proper_ok (by simp)
    · exact Scan.proper_error _
  · exact quotedText_proper _ _ _
  · exact quotedText_proper _ _ _
  · split
    · exact Scan.proper_ok (by simp)
    · exact Scan.proper_error _
  · rename_i body _
    cases unicodeBody (body.length + 1) 3 body with
    | error f => exact Scan.proper_error f
    | ok r => exact Scan.proper_ok (by simp)
  · exact word_proper _

/-- Every row of the table of symbols gives a symbol, an operator, a comment or a fault. -/
theorem symbol_proper {c : Char} {rest : List Char} {x : Scan} (h : symbol c rest = some x) :
    x.Proper := by
  unfold symbol at h
  split at h
  -- A comment between stars, and one up to the end of the line.
  case h_12 r =>
    split at h
    · exact Option.some.inj h ▸ Scan.proper_ok (by simp)
    · exact Option.some.inj h ▸ Scan.proper_error _
  case h_14 r => exact Option.some.inj h ▸ Scan.proper_ok (by simp)
  case h_18 r =>
    split at h
    · split at h
      · exact Option.some.inj h ▸ known_proper _
      · exact Option.some.inj h ▸ extensible_proper _ _
    · exact Option.some.inj h ▸ known_proper _
  all_goals
    first
    | exact Option.some.inj h ▸ known_proper _
    | exact Option.some.inj h ▸ extensible_proper _ _
    | exact Option.some.inj h ▸ incomplete_proper _ _
    | cases h

theorem scan_proper (before : Token) (c : Char) (rest : List Char) :
    (scan before c rest).Proper := by
  unfold scan
  refine Scan.proper_ite (Scan.proper_ok (by simp)) ?_
  refine Scan.proper_ite (Scan.proper_ok (by simp)) ?_
  refine Scan.proper_ite (Scan.proper_ok (by simp)) ?_
  refine Scan.proper_ite (Scan.proper_ok (by simp)) ?_
  refine Scan.proper_ite (introduced_proper c rest) ?_
  refine Scan.proper_ite (quotedText_proper _ _ rest) ?_
  refine Scan.proper_ite (quotedWord_proper rest) ?_
  refine Scan.proper_ite (number_proper before _) ?_
  refine Scan.proper_ite (word_proper _) ?_
  refine Scan.proper_ite (dollar_proper rest) ?_
  cases h : symbol c rest with
  | some x => exact symbol_proper h
  | none => exact Scan.proper_ite (Scan.proper_ok (by simp)) (Scan.proper_ok (by simp))

theorem tokensFrom_ne_eof (fuel : Nat) (before : Token) (place : Place) (cs : List Char)
    {ts : List Located} (h : tokensFrom fuel before place cs = .ok ts) :
    ∀ t ∈ ts, t.token ≠ .eof := by
  induction fuel generalizing before place cs ts with
  | zero =>
      cases h
      simp
  | succ fuel ih =>
      cases cs with
      | nil =>
          cases h
          simp
      | cons c rest =>
          rw [tokensFrom] at h
          have hp := scan_proper before c rest
          cases hs : scan before c rest with
          | error f =>
              rw [hs] at h
              cases h
          | ok r =>
              obtain ⟨t, n⟩ := r
              rw [hs] at h
              cases hm : tokensFrom fuel t (advance place ((c :: rest).take (max n 1)))
                  ((c :: rest).drop (max n 1)) with
              | error why =>
                  simp [hm, Bind.bind, Except.bind] at h
              | ok more =>
                  simp only [hm, Bind.bind, Except.bind] at h
                  cases h
                  exact List.forall_mem_cons.2 ⟨hp t n hs, ih _ _ _ hm⟩

end Lexer

/-- No token of a text is the end of it. -/
theorem tokenize_ne_eof {sql : String} {ts : List Located} (h : tokenize sql = .ok ts) :
    ∀ t ∈ ts, t.token ≠ .eof :=
  Lexer.tokensFrom_ne_eof _ _ _ _ h

/-- The tokens of a text, from a test that they pass. -/
theorem exists_of_tokenize_map {sql : String} {p : List Located → Bool}
    (h : (tokenize sql).map p = .ok true) : ∃ ts, tokenize sql = .ok ts ∧ p ts = true := by
  cases ht : tokenize sql with
  | error why =>
      rw [ht] at h
      cases h
  | ok ts =>
      rw [ht] at h
      exact ⟨ts, rfl, Except.ok.inj h⟩

end SqlGate.Sql
