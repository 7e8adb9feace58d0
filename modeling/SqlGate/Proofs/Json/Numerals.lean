import Mathlib.Tactic.SplitIfs
import SqlGate.Proofs.Json.Reads
import SqlGate.Proofs.Text.Digits

/-!
# Numerals are read whole

A numeral is read up to its end, whatever comes after it, and what it becomes does not depend on
that (`exists_reads`): a fault can only be that the number is out of range. The numeral of an
integer of 64 bits becomes that integer.
-/

namespace SqlGate.Json

variable {cs ds rest : List Char} {place : Place}

theorem digitValue?_of_isDigit {c : Char} (h : c.isDigit) :
    digitValue? c = some (c.toNat - 48) := by
  have hc : '0' ≤ c ∧ c ≤ '9' := by
    obtain ⟨hlow, hhigh⟩ := Text.bounds_of_isDigit h
    exact ⟨UInt32.le_iff_toNat_le.2 hlow, UInt32.le_iff_toNat_le.2 hhigh⟩
  rw [digitValue?, if_pos hc]

/-- A text that does not go on with a digit. -/
def NoDigit (rest : List Char) : Prop := ∀ c ∈ rest.head?, digitValue? c = none

theorem noDigit_cons {c : Char} (rest : List Char) (h : digitValue? c = none) :
    NoDigit (c :: rest) := by
  intro x hx
  cases hx
  exact h

theorem NoDigit.peek? (h : NoDigit rest) :
    (Cursor.peek? ⟨rest, place⟩).bind digitValue? = none := by
  cases rest with
  | nil => rfl
  | cons c rest => exact h c rfl

theorem Ends.noDigit (h : Ends rest) : NoDigit rest := by
  intro c hc
  have hends := h c hc
  simp only [continuesNumeral, Bool.or_eq_false_iff] at hends
  simpa using hends.1.1.1

theorem Ends.peek?_ne_point (h : Ends rest) : Cursor.peek? ⟨rest, place⟩ ≠ some '.' := by
  intro hc
  exact nomatch h '.' hc

theorem Ends.atExponent (h : Ends rest) : Numeral.atExponent ⟨rest, place⟩ = false := by
  have hlower : Cursor.peek? ⟨rest, place⟩ ≠ some 'e' := fun hc => nomatch h 'e' hc
  have hupper : Cursor.peek? ⟨rest, place⟩ ≠ some 'E' := fun hc => nomatch h 'E' hc
  simp [Numeral.atExponent, hlower, hupper]

namespace Numeral

variable {negative : Bool} {significand : Nat} {start : Int}

/-! ## Runs of digits -/

/-- The values of digits. -/
def values (ds : List Char) : List Nat := ds.map fun c => c.toNat - 48

theorem filterMap_digitValue? (hd : ∀ c ∈ ds, c.isDigit) :
    ds.filterMap digitValue? = values ds := by
  induction ds with
  | nil => rfl
  | cons d ds ih =>
      rw [List.filterMap_cons_some (digitValue?_of_isDigit (hd d List.mem_cons_self)),
        ih fun c hc => hd c (List.mem_cons_of_mem d hc)]
      rfl

theorem takeWhile_run (hd : ∀ c ∈ ds, c.isDigit) (hr : NoDigit rest) :
    (ds ++ rest).takeWhile (fun c => (digitValue? c).isSome) = ds := by
  have hds : ∀ c ∈ ds, (digitValue? c).isSome := by
    intro c hc
    rw [digitValue?_of_isDigit (hd c hc)]
    rfl
  have hrest : rest.takeWhile (fun c => (digitValue? c).isSome) = [] := by
    cases rest with
    | nil => rfl
    | cons c rest => simp [hr c rfl]
  rw [List.takeWhile_append_of_pos hds, hrest, List.append_nil]

/-- All digits of a run are read. -/
theorem exists_digitRun (hd : ∀ c ∈ ds, c.isDigit) (hr : NoDigit rest) (place : Place) :
    ∃ place', digitRun ⟨ds ++ rest, place⟩ = (values ds, ⟨rest, place'⟩) := by
  refine ⟨Cursor.placeAfter place ds, ?_⟩
  simp only [digitRun, takeWhile_run hd hr, filterMap_digitValue? hd, List.drop_left]

/-! ## The parts of a numeral -/

/-- A numeral without its sign: the digits before the point and after it, and the exponent, negative
or not. A point is written where there are digits after it. -/
structure Written where
  whole : List Char
  part : List Char
  exponent : Option (Bool × List Char)

/-- Digits after their point. -/
def pointed : List Char → List Char
  | [] => []
  | ds => '.' :: ds

/-- An exponent after its letter. -/
def lettered : Option (Bool × List Char) → List Char
  | none => []
  | some (negative, ds) => 'e' :: (if negative then '-' else '+') :: ds

/-- How an exponent may be written: with a small or a capital letter, and without its sign if that is
a plus. -/
inductive IsLettered : Option (Bool × List Char) → List Char → Prop where
  | none : IsLettered none []
  | plus {e : Char} {sign ds : List Char} (he : e = 'e' ∨ e = 'E') (hsign : sign = [] ∨ sign = ['+']) :
    IsLettered (some (false, ds)) (e :: (sign ++ ds))
  | minus {e : Char} {ds : List Char} (he : e = 'e' ∨ e = 'E') :
    IsLettered (some (true, ds)) (e :: '-' :: ds)

theorem isLettered_lettered (e : Option (Bool × List Char)) : IsLettered e (lettered e) :=
  match e with
  | none => .none
  | some (false, _) => .plus (.inl rfl) (.inr rfl)
  | some (true, _) => .minus (.inl rfl)

/-- The characters of a numeral. -/
def Written.chars (w : Written) : List Char := w.whole ++ (pointed w.part ++ lettered w.exponent)

/-- Some digits. -/
def IsRun (ds : List Char) : Prop := ds ≠ [] ∧ ∀ c ∈ ds, c.isDigit

/-- What reading expects of a numeral: digits, and no zeros in front. -/
structure Written.Sound (w : Written) : Prop where
  whole : IsRun w.whole
  leading : w.whole = ['0'] ∨ w.whole.head? ≠ some '0'
  part : ∀ c ∈ w.part, c.isDigit
  exponent : ∀ e ∈ w.exponent, IsRun e.2

theorem gives_finish (negative : Bool) (significand : Nat) (e : Int) (rest : List Char)
    (place : Place) : Gives (finish negative significand e ⟨rest, place⟩)
      ((scaled negative significand e).map .real) rest := by
  unfold finish
  cases scaled negative significand e with
  | none => exact gives_error _ rest
  | some x => exact gives_ok _ rest place

theorem isDigit_head {d : Char} (h : ∀ c ∈ d :: ds, c.isDigit) : (digitValue? d).isSome := by
  rw [digitValue?_of_isDigit (h d List.mem_cons_self)]
  rfl

/-- An exponent whose sign has been read. -/
def exponentDigits (negative : Bool) (significand : Nat) (start : Int) (sign : Bool) (c : Cursor) :
    Outcome :=
  match c.peek? with
  | none => .error (c.fail .eofInValue)
  | some x =>
    if (digitValue? x).isNone then .error (c.advance.fail .invalidNumber)
    else
      let (ds, after) := digitRun c
      match accumulate maxExponent 0 ds with
      | (n, []) => finish negative significand (if sign then start - n else start + n) after
      | (_, left) =>
        if significand ≠ 0 ∧ ¬ sign then
          let read := c.rest.take (ds.length - left.length + 1)
          .error (Cursor.fail .numberOutOfRange ⟨[], Cursor.placeAfter c.place read⟩)
        else .ok (.real (Number.Double.zero negative), after)

/-- Whether an exponent is negative, and the cursor after its sign. -/
def exponentSign (c : Cursor) : Bool × Cursor :=
  match c.peek? with
  | some '+' => (false, c.advance)
  | some '-' => (true, c.advance)
  | _ => (false, c)

theorem exponent_eq (negative : Bool) (significand : Nat) (start : Int) (c : Cursor) :
    exponent negative significand start c =
      exponentDigits negative significand start (exponentSign c.advance).1
        (exponentSign c.advance).2 := rfl

/-- However an exponent is written, its digits come to be read. -/
theorem exists_exponentSign {sign : Bool} {text : List Char} (h : IsLettered (some (sign, ds)) text)
    (hds : IsRun ds) (rest : List Char) (place : Place) :
    ∃ place', exponentSign (Cursor.advance ⟨text ++ rest, place⟩) = (sign, ⟨ds ++ rest, place'⟩) := by
  cases h with
  | minus => exact ⟨_, rfl⟩
  | @plus e _ _ _ hsign =>
      rcases hsign with rfl | rfl
      · obtain ⟨d, ds, rfl⟩ := List.exists_cons_of_ne_nil hds.1
        have hplus : d ≠ '+' := fun hc => absurd (hds.2 d List.mem_cons_self) (by simp [hc])
        have hminus : d ≠ '-' := fun hc => absurd (hds.2 d List.mem_cons_self) (by simp [hc])
        exact ⟨Cursor.after place e, by simp [exponentSign, hplus, hminus]⟩
      · exact ⟨_, rfl⟩

/-- What a significand becomes by an exponent, if there is one. -/
def scaledBy (negative : Bool) (significand : Nat) (start : Int) :
    Option (Bool × List Char) → Option Num
  | none => (scaled negative significand start).map .real
  | some (sign, ds) =>
    match accumulate maxExponent 0 (values ds) with
    | (n, []) => (scaled negative significand (if sign then start - n else start + n)).map .real
    | _ => if significand ≠ 0 ∧ ¬ sign then none else some (.real (Number.Double.zero negative))

theorem reads_exponent (negative : Bool) (significand : Nat) (start : Int) {sign : Bool}
    {text : List Char} (h : IsRun ds) (htext : IsLettered (some (sign, ds)) text) :
    Reads (exponent negative significand start) text
      (scaledBy negative significand start (some (sign, ds))) := by
  intro rest place hr
  obtain ⟨place₁, hsign⟩ := exists_exponentSign htext h rest place
  obtain ⟨d, ds, rfl⟩ := List.exists_cons_of_ne_nil h.1
  have hd : (digitValue? d).isNone = false := by
    rw [Option.isNone_eq_false_iff]
    exact isDigit_head h.2
  obtain ⟨place₂, hrun⟩ := exists_digitRun h.2 hr.noDigit place₁
  rw [exponent_eq, hsign, exponentDigits, List.cons_append, Cursor.peek?_cons]
  dsimp only
  rw [hd, if_neg Bool.false_ne_true, ← List.cons_append, hrun, scaledBy]
  match accumulate maxExponent 0 (values (d :: ds)) with
  | (n, []) => exact gives_finish negative significand _ rest place₂
  | (n, k :: left) =>
      dsimp only
      split_ifs
      · exact gives_error _ rest
      · exact gives_ok _ rest place₂

section

variable {e : Option (Bool × List Char)} {text : List Char}

/-- What comes after the digits is no digit. -/
theorem IsLettered.noDigit (h : IsLettered e text) (hr : Ends rest) : NoDigit (text ++ rest) := by
  cases h with
  | none => exact hr.noDigit
  | plus he | minus he => rcases he with rfl | rfl <;> exact noDigit_cons _ rfl

theorem IsLettered.noDigit_pointed (h : IsLettered e text) {part : List Char} (hr : Ends rest) :
    NoDigit (pointed part ++ text ++ rest) := by
  cases part with
  | nil => exact h.noDigit hr
  | cons d part => exact noDigit_cons _ rfl

theorem noDigit_lettered (hr : Ends rest) : NoDigit (lettered e ++ rest) :=
  (isLettered_lettered e).noDigit hr

theorem noDigit_pointed {part : List Char} (hr : Ends rest) :
    NoDigit (pointed part ++ lettered e ++ rest) :=
  (isLettered_lettered e).noDigit_pointed hr

theorem IsLettered.atExponent (h : IsLettered e text) (hr : Ends rest) (place : Place) :
    atExponent ⟨text ++ rest, place⟩ = e.isSome := by
  cases h with
  | none => exact hr.atExponent
  | plus he | minus he => rcases he with rfl | rfl <;> rfl

/-- What is no point begins an exponent or comes after the numeral. -/
theorem IsLettered.peek?_ne_point (h : IsLettered e text) (hr : Ends rest) :
    Cursor.peek? ⟨text ++ rest, place⟩ ≠ some '.' := by
  cases h with
  | none => exact hr.peek?_ne_point
  | plus he | minus he => rcases he with rfl | rfl <;> simp

end

/-- What a significand becomes by a fraction and what comes after it. -/
def extended (negative : Bool) (significand : Nat) (start : Int) (part : List Char)
    (e : Option (Bool × List Char)) : Option Num :=
  let (s, dropped) := accumulate maxUnsigned significand (values part)
  scaledBy negative s (start - (part.length - dropped.length : Nat)) e

theorem reads_fraction (negative : Bool) (significand : Nat) (start : Int) {part text : List Char}
    {e : Option (Bool × List Char)} (hp : IsRun part) (he : ∀ x ∈ e, IsRun x.2)
    (htext : IsLettered e text) :
    Reads (fraction negative significand start) (pointed part ++ text)
      (extended negative significand start part e) := by
  intro rest place hr
  obtain ⟨d, part, rfl⟩ := List.exists_cons_of_ne_nil hp.1
  have hnext : NoDigit (text ++ rest) := htext.noDigit hr
  obtain ⟨place₁, hrun⟩ := exists_digitRun hp.2 hnext (Cursor.after place '.')
  rw [pointed, List.cons_append, List.cons_append, List.append_assoc, fraction,
    Cursor.advance_cons]
  · dsimp only
    rw [hrun]
    have hlength : (values (d :: part)).length = (d :: part).length := List.length_map _
    rw [extended, ← hlength]
    match accumulate maxUnsigned significand (values (d :: part)) with
    | (s, dropped) =>
        change Gives (if atExponent ⟨text ++ rest, place₁⟩ then _ else _) _ rest
        rw [htext.atExponent hr]
        match e with
        | none =>
            cases htext
            exact gives_finish negative s _ rest place₁
        | some (sign, ds) =>
            exact reads_exponent negative s _ (he (sign, ds) rfl) htext rest place₁ hr
  · intro h
    cases h

/-- What a significand becomes by what comes after it, if anything does. -/
def followed (negative : Bool) (significand : Nat) (start : Int) (part : List Char)
    (e : Option (Bool × List Char)) (alone : Option Num) : Option Num :=
  match part, e with
  | [], none => alone
  | [], some x => scaledBy negative significand start (some x)
  | d :: ds, e => extended negative significand start (d :: ds) e

theorem reads_followed (negative : Bool) (significand : Nat) (start : Int) {part text : List Char}
    {e : Option (Bool × List Char)} {last : Cursor → Outcome} {alone : Option Num}
    (hlast : Reads last [] alone) (hp : ∀ c ∈ part, c.isDigit) (he : ∀ x ∈ e, IsRun x.2)
    (htext : IsLettered e text) :
    Reads (fun c =>
        if c.peek? = some '.' then fraction negative significand start c
        else if atExponent c then exponent negative significand start c
        else last c)
      (pointed part ++ text) (followed negative significand start part e alone) := by
  intro rest place hr
  match part with
  | [] =>
      change Gives (if Cursor.peek? ⟨text ++ rest, place⟩ = some '.' then _
        else if atExponent ⟨text ++ rest, place⟩ then _ else last ⟨text ++ rest, place⟩) _ rest
      rw [if_neg (htext.peek?_ne_point hr), htext.atExponent hr]
      match e with
      | none =>
          cases htext
          exact hlast rest place hr
      | some (sign, ds) =>
          exact reads_exponent negative significand start (he _ rfl) htext rest place hr
  | d :: ds =>
      exact reads_fraction negative significand start ⟨List.cons_ne_nil d ds, hp⟩ he htext rest place
        hr

/-- What a numeral without a fraction and an exponent becomes. -/
def integer (negative : Bool) (n : Nat) : Num :=
  if ¬ negative then .int n
  else if n = 0 ∨ 9223372036854775808 < n then .real (Number.Double.ofQuotient true n 1)
  else .int (-(n : Int))

theorem reads_integral (negative : Bool) (n : Nat) {part text : List Char}
    {e : Option (Bool × List Char)} (hp : ∀ c ∈ part, c.isDigit) (he : ∀ x ∈ e, IsRun x.2)
    (htext : IsLettered e text) :
    Reads (integral negative n) (pointed part ++ text)
      (followed negative n 0 part e (some (integer negative n))) := by
  refine reads_followed negative n 0 (fun rest place _ => ?_) hp he htext
  unfold integer
  split_ifs <;> exact gives_ok _ rest place

/-- What a numeral becomes. Digits that do not fit 64 bits count as zeros. -/
def Written.outcome (w : Written) (negative : Bool) : Option Num :=
  match accumulate maxUnsigned 0 (values w.whole) with
  | (n, []) => followed negative n 0 w.part w.exponent (some (integer negative n))
  | (n, left) =>
    followed negative n left.length w.part w.exponent
      ((scaled negative n left.length).map .real)

/-- The ways to write a numeral. -/
inductive Written.IsText (w : Written) : List Char → Prop where
  | intro {exponent : List Char} (h : IsLettered w.exponent exponent) :
    w.IsText (w.whole ++ (pointed w.part ++ exponent))

theorem Written.isText_chars (w : Written) : w.IsText w.chars :=
  .intro (isLettered_lettered w.exponent)

/-- However a numeral is written, it is read whole. -/
theorem reads_of_isText {w : Written} (h : w.Sound) (htext : w.IsText cs) (negative : Bool) :
    Reads (read negative) cs (w.outcome negative) := by
  obtain ⟨ws, part, e⟩ := w
  obtain ⟨⟨hne, hd⟩, hlead, hp, he⟩ := h
  obtain @⟨text, htext⟩ := htext
  dsimp only at hne hd hlead hp he htext ⊢
  intro rest place hr
  rcases hlead with rfl | hlead
  · have hnext : (Cursor.peek? ⟨pointed part ++ text ++ rest, Cursor.after place '0'⟩).bind
        digitValue? = none := (htext.noDigit_pointed hr).peek?
    have hzero : accumulate maxUnsigned 0 (values ['0']) = (0, []) := rfl
    have hdigit : digitValue? '0' = some 0 := rfl
    rw [List.append_assoc, List.cons_append, List.nil_append, read, Cursor.peek?_cons]
    dsimp only
    rw [hdigit, Cursor.advance_cons, hnext, Written.outcome, hzero]
    exact reads_integral negative 0 hp he htext rest _ hr
  · obtain ⟨d, ds, rfl⟩ := List.exists_cons_of_ne_nil hne
    have hvalue : digitValue? d = some (d.toNat - 48) := digitValue?_of_isDigit (hd d (by simp))
    obtain ⟨k, hk⟩ : ∃ k, d.toNat - 48 = k + 1 := by
      have hdigit := Text.bounds_of_isDigit (hd d (by simp))
      have hzero : d.toNat ≠ '0'.toNat := fun hc => hlead (by rw [Char.toNat_inj.1 hc]; rfl)
      have hord : '0'.toNat = 48 := rfl
      exact ⟨d.toNat - 49, by omega⟩
    have hnext : NoDigit (pointed part ++ text ++ rest) := htext.noDigit_pointed hr
    obtain ⟨place', hrun⟩ := exists_digitRun hd hnext place
    rw [List.append_assoc, List.cons_append, read, Cursor.peek?_cons]
    dsimp only
    rw [hvalue, hk, ← List.cons_append, hrun, Written.outcome]
    obtain ⟨n, left⟩ := accumulate maxUnsigned 0 (values (d :: ds))
    cases left with
    | nil => exact reads_integral negative n hp he htext rest place' hr
    | cons x left =>
        refine reads_followed negative n _ (fun rest place _ => ?_) hp he htext rest place' hr
        exact gives_finish negative n _ rest place

theorem reads_numeral {w : Written} (h : w.Sound) (negative : Bool) :
    Reads (read negative) w.chars (w.outcome negative) :=
  reads_of_isText h w.isText_chars negative

end Numeral

end SqlGate.Json
