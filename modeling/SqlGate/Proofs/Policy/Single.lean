import SqlGate.Policy.Check
import SqlGate.Proofs.Sql.Lexer
import SqlGate.Proofs.Sql.Statements

/-!
# One statement

A text is cut at its semicolons, and a text that has several groups of tokens holds several
statements. `check_several_iff` says when such a text is accepted all the same. No utility
statement is among the groups then, and one statement is read that keeps the rules; either the word
`END` comes right after it, and what is left is not looked at, or the statement itself is read from
tokens of several groups.
-/

namespace SqlGate

namespace Text

variable {α : Type} (p : α → Bool)

/-- An element that is no cut stands in front of the first stretch. -/
theorem exists_cut_cons (xs : List α) {x : α} (hx : p x = false) :
    ∃ s ss, cut p xs = s :: ss ∧ cut p (x :: xs) = (x :: s) :: ss := by
  have hlen := length_cut p xs
  cases hc : cut p xs with
  | nil => simp [hc] at hlen
  | cons s ss => exact ⟨s, ss, rfl, by simp [cut, hx, hc]⟩

/-- A list is cut at one of its elements into the cuts of what is before it and of what is after
it. -/
theorem cut_append_cons (xs ys : List α) {x : α} (hx : p x = true) :
    cut p (xs ++ x :: ys) = cut p xs ++ cut p ys := by
  induction xs with
  | nil => simp [cut, hx]
  | cons z zs ih =>
      by_cases hz : p z
      · simp [cut, hz, ih]
      · rw [Bool.not_eq_true] at hz
        obtain ⟨s, ss, hs, hcut⟩ := exists_cut_cons p zs hz
        obtain ⟨s', ss', hs', hcut'⟩ := exists_cut_cons p (zs ++ x :: ys) hz
        rw [ih, hs, List.cons_append] at hs'
        obtain ⟨rfl, rfl⟩ := List.cons.inj hs'
        rw [List.cons_append, hcut', hcut, List.cons_append]

/-- A list without cuts is one stretch. -/
theorem cut_eq_singleton {xs : List α} (h : ∀ x ∈ xs, p x = false) : cut p xs = [xs] := by
  induction xs with
  | nil => rfl
  | cons x xs ih =>
      obtain ⟨hx, hxs⟩ := List.forall_mem_cons.1 h
      simp [cut, hx, ih hxs]

end Text

namespace Policy.Utility

open Sql

theorem groups_append_blank (xs ys : List Located) {t : Located} (h : t.token.isBlank = true) :
    groups (xs ++ t :: ys) = groups (xs ++ ys) := by
  simp [groups, h]

/-- A semicolon divides the groups. -/
theorem groups_append_semicolon (xs ys : List Located) {t : Located}
    (h : t.token = .symbol ";") : groups (xs ++ t :: ys) = groups xs ++ groups ys := by
  have hb : t.token.isBlank = false := by rw [h]; rfl
  simp only [groups, List.map_append, List.map_cons, List.filter_append]
  rw [List.filter_cons_of_pos (by simp [hb]), Text.cut_append_cons _ _ _ (by simp [h]),
    List.filter_append]

/-- Separators before some tokens make no group. -/
theorem groups_append_left {before : List Located} (ts : List Located)
    (h : ∀ t ∈ before, t.isSeparator = true) : groups (before ++ ts) = groups ts := by
  induction before with
  | nil => rfl
  | cons t before ih =>
      obtain ⟨ht, hbefore⟩ := List.forall_mem_cons.1 h
      rw [Located.isSeparator, Bool.or_eq_true, decide_eq_true_iff] at ht
      rcases ht with ht | ht
      · exact (groups_append_blank [] (before ++ ts) ht).trans (ih hbefore)
      · exact (groups_append_semicolon [] (before ++ ts) ht).trans (ih hbefore)

/-- Separators alone make no group. -/
theorem groups_of_isSeparator {ts : List Located} (h : ∀ t ∈ ts, t.isSeparator = true) :
    groups ts = [] := by
  rw [← List.append_nil ts]
  exact groups_append_left [] h

/-- Separators after some tokens make no group. -/
theorem groups_append_right (ts : List Located) {after : List Located}
    (h : ∀ t ∈ after, t.isSeparator = true) : groups (ts ++ after) = groups ts := by
  induction after with
  | nil => rw [List.append_nil]
  | cons t after ih =>
      obtain ⟨ht, hafter⟩ := List.forall_mem_cons.1 h
      rw [Located.isSeparator, Bool.or_eq_true, decide_eq_true_iff] at ht
      rcases ht with ht | ht
      · rw [groups_append_blank ts after ht, ih hafter]
      · rw [groups_append_semicolon ts after ht, groups_of_isSeparator hafter, List.append_nil]

/-- The tokens of a text that count for its groups. -/
def counted (ts : List Located) : List Token :=
  (ts.map Located.token).filter fun t => !t.isBlank

theorem counted_of_cons {ts after : List Located} {t : Located}
    (h : Reader.skipBlanks ts = t :: after) : counted ts = t.token :: counted after := by
  obtain ⟨blanks, hts, hblank⟩ := Statement.exists_blanks ts
  have hfront : counted blanks = [] := by
    rw [counted, List.filter_eq_nil_iff]
    intro x hx
    obtain ⟨b, hb, rfl⟩ := List.mem_map.1 hx
    simp [hblank b hb]
  have happ : counted ts = counted blanks ++ counted (t :: after) := by
    rw [counted, hts, h, List.map_append, List.filter_append]
    rfl
  rw [happ, hfront, List.nil_append]
  exact List.filter_cons_of_pos (by simp [Statement.not_isBlank_of_skipBlanks h])

/-- The first group begins with the first token, and with the one after it if that is in the group
too. -/
theorem exists_groups_cons {ts after : List Located} {t : Located}
    (h : Reader.skipBlanks ts = t :: after) (ht : t.token ≠ .symbol ";") :
    ∃ g gs, groups ts = (t.token :: g) :: gs ∧
      (Reader.nextOf after ≠ .eof → Reader.nextOf after ≠ .symbol ";" →
        g.head? = some (Reader.nextOf after)) := by
  obtain ⟨g, ss, hg, hcut⟩ :=
    Text.exists_cut_cons (· = Token.symbol ";") (counted after) (x := t.token) (by simpa using ht)
  refine ⟨g, ss.filter (!·.isEmpty), ?_, ?_⟩
  · change (Text.cut (· = Token.symbol ";") (counted ts)).filter _ = _
    rw [counted_of_cons h, hcut]
    rfl
  · intro heof hsemi
    cases hs : Reader.skipBlanks after with
    | nil => exact absurd (Reader.nextOf_of_nil hs) heof
    | cons t' after' =>
        have hnext : Reader.nextOf after = t'.token := Reader.nextOf_of_cons hs
        obtain ⟨g', ss', -, hcut'⟩ := Text.exists_cut_cons (· = Token.symbol ";") (counted after')
          (x := t'.token) (by simpa [hnext] using hsemi)
        rw [counted_of_cons hs, hcut'] at hg
        obtain ⟨rfl, -⟩ := List.cons.inj hg
        rw [hnext]
        rfl

end Policy.Utility

namespace Policy.Rules

open Sql Statement Reader

variable (r : Rules) {sql : String} {ts : List Located}

/-- A text without a utility statement is accepted if it is one statement that keeps the rules. -/
theorem check_eq_ok_iff (h : tokenize sql = .ok ts) (hu : Utility.scan ts = none) :
    r.check sql = .ok () ↔ ∃ s, ofTokens? ts = .ok [s] ∧ r.checkStatement s = .ok () := by
  unfold check
  rw [h]
  dsimp only
  rw [hu]
  dsimp only
  cases ofTokens? ts with
  | error f =>
      constructor
      · intro hc
        cases hc
      · rintro ⟨s, hs, -⟩
        cases hs
  | ok ss =>
      match ss with
      | [] =>
          constructor
          · intro hc
            cases hc
          · rintro ⟨s, hs, -⟩
            cases hs
      | [s] =>
          constructor
          · exact fun hc => ⟨s, rfl, hc⟩
          · rintro ⟨s', hs, hc⟩
            cases hs
            exact hc
      | s :: s' :: ss =>
          constructor
          · intro hc
            cases hc
          · rintro ⟨s, hs, -⟩
            cases hs

/-- A text with several groups of tokens and a utility statement among them is refused. -/
theorem check_of_scan (h : tokenize sql = .ok ts) (h2 : 2 ≤ (Utility.groups ts).length)
    (hu : Utility.scan ts ≠ none) : r.check sql = .error (.several (Utility.groups ts).length) := by
  unfold check
  rw [h]
  dsimp only
  cases hs : Utility.scan ts with
  | none => exact absurd hs hu
  | some x =>
      obtain ⟨n, u⟩ := x
      have hn : n = (Utility.groups ts).length := by
        simp only [Utility.scan, Option.map_eq_some_iff, Prod.mk.injEq] at hs
        obtain ⟨-, -, hn, -⟩ := hs
        exact hn.symm
      subst hn
      exact if_pos h2

/-- **When a text with several groups is accepted.** No utility statement is among them, and one
statement is read that keeps the rules; and after it comes the word `END`, or else only separators
are left, so that the statement is read from several groups itself. -/
theorem check_several_iff (h : tokenize sql = .ok ts) (h2 : 2 ≤ (Utility.groups ts).length) :
    r.check sql = .ok () ↔
      Utility.scan ts = none ∧ ∃ s taken rest, First ts s taken rest ∧
        r.checkStatement s = .ok () ∧
        ((nextOf rest).keyword = "END" ∨
          (∀ t ∈ rest, t.isSeparator = true) ∧ 2 ≤ (Utility.groups taken).length) := by
  have hgroups : ∀ s taken rest, First ts s taken rest → (∀ t ∈ rest, t.isSeparator = true) →
      2 ≤ (Utility.groups taken).length := by
    intro s taken rest hf hrest
    obtain ⟨before, hts, hbefore⟩ := hf.exists_before
    rwa [hts, Utility.groups_append_left _ hbefore, Utility.groups_append_right _ hrest] at h2
  by_cases hu : Utility.scan ts = none
  · rw [check_eq_ok_iff r h hu]
    constructor
    · rintro ⟨s, hs, hc⟩
      obtain ⟨taken, rest, hf, hclose⟩ := (ofTokens?_eq_singleton_iff (tokenize_ne_eof h)).1 hs
      refine ⟨hu, s, taken, rest, hf, hc, ?_⟩
      exact hclose.imp_right fun hrest => ⟨hrest, hgroups s taken rest hf hrest⟩
    · rintro ⟨-, s, taken, rest, hf, hc, hclose⟩
      refine ⟨s, ?_, hc⟩
      rw [ofTokens?_eq_singleton_iff (tokenize_ne_eof h)]
      exact ⟨taken, rest, hf, hclose.imp_right And.left⟩
  · rw [check_of_scan r h h2 hu]
    constructor
    · intro hc
      cases hc
    · exact fun hc => absurd hc.1 hu

theorem tokens_of_hidden :
    ∃ ts, tokenize "SELECT 1 END; DELETE FROM t" = .ok ts ∧
      decide (2 ≤ (Utility.groups ts).length) = true :=
  exists_of_tokenize_map (by decide +kernel)

/-- What stands after the word `END` is not looked at. -/
theorem check_several_iff_hidden :
    ∃ ts s taken rest, tokenize "SELECT 1 END; DELETE FROM t" = .ok ts ∧ First ts s taken rest ∧
      strict.checkStatement s = .ok () ∧
      ((nextOf rest).keyword = "END" ∨
        (∀ t ∈ rest, t.isSeparator = true) ∧ 2 ≤ (Utility.groups taken).length) := by
  obtain ⟨ts, h, h2⟩ := tokens_of_hidden
  have hcheck : strict.check "SELECT 1 END; DELETE FROM t" = .ok () := by decide +kernel
  obtain ⟨-, s, taken, rest, hf, hc, hclose⟩ :=
    (strict.check_several_iff h (of_decide_eq_true h2)).1 hcheck
  exact ⟨ts, s, taken, rest, h, hf, hc, hclose⟩

/-- A text of two groups may be accepted. -/
theorem check_accepts_several :
    ∃ ts, tokenize "SELECT 1 END; DELETE FROM t" = .ok ts ∧ 2 ≤ (Utility.groups ts).length ∧
      strict.check "SELECT 1 END; DELETE FROM t" = .ok () := by
  obtain ⟨ts, h, h2⟩ := tokens_of_hidden
  exact ⟨ts, h, of_decide_eq_true h2, by decide +kernel⟩

/-- A copy from the input is read with the semicolon and the data after it. -/
example : (strict.set .copyFrom true).check "COPY t FROM STDIN; SELECT 1" = .ok () := by
  decide +kernel

end Policy.Rules

end SqlGate
