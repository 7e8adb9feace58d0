import Mathlib.Data.List.Induction
import Mathlib.Tactic.Ring
import SqlGate.Text.Basic

/-!
# Digits and what they stand for

Decimal digits stand for a number (`Nat.ofDigitChars`), and a number is written with just the digits
that stand for it: padded to their number (`padNat_ofDigitChars`), or as they are if there are no
zeros in front (`digits_ofDigitChars`).

A number is written in a number of digits, zeros in front of it (`IsPadded`). What is padded to a
width is so written (`isPadded_padNat`), and digits stand for one number only.
-/

namespace SqlGate.Text

variable {cs : List Char} {c : Char} {n d : Nat}

theorem bounds_of_isDigit (h : c.isDigit) : 48 ≤ c.toNat ∧ c.toNat ≤ 57 := by
  obtain ⟨hlow, hhigh⟩ := (by simpa [Char.isDigit] using h : 48 ≤ c.val ∧ c.val ≤ 57)
  exact ⟨UInt32.le_iff_toNat_le.1 hlow, UInt32.le_iff_toNat_le.1 hhigh⟩

theorem digitChar_of_isDigit (h : c.isDigit) : Nat.digitChar (c.toNat - 48) = c := by
  have hc := bounds_of_isDigit h
  apply Char.toNat_inj.1
  rw [Nat.toNat_digitChar_of_lt_ten (by omega)]
  omega

theorem isDigit_of_mem_digits (h : c ∈ digits n) : c.isDigit :=
  Nat.isDigit_of_mem_toDigits (by decide) (by decide) h

theorem digits_of_lt (h : n < 10) : digits n = [Nat.digitChar n] := Nat.toDigits_of_lt_base h

theorem digits_mul_add (hn : 0 < n) (hd : d < 10) :
    digits (10 * n + d) = digits n ++ [Nat.digitChar d] := by
  rw [digits, ← Nat.toDigits_append_toDigits (by decide) hn hd, Nat.toDigits_of_lt_base hd]
  rfl

theorem ofDigitChars_append_singleton (cs : List Char) (c : Char) :
    Nat.ofDigitChars 10 (cs ++ [c]) 0 = 10 * Nat.ofDigitChars 10 cs 0 + (c.toNat - 48) := by
  rw [Nat.ofDigitChars_append, Nat.ofDigitChars_cons, Nat.ofDigitChars_nil]
  rfl

/-- Digits that stand for a number are those of the number, with zeros in front of them. -/
theorem replicate_append_digits (hne : cs ≠ []) (hd : ∀ c ∈ cs, c.isDigit) :
    List.replicate (cs.length - (digits (Nat.ofDigitChars 10 cs 0)).length) '0' ++
      digits (Nat.ofDigitChars 10 cs 0) = cs := by
  induction cs using List.reverseRecOn with
  | nil => exact absurd rfl hne
  | append_singleton cs c ih =>
      have hc : c.isDigit := hd c (by simp)
      have hlt : c.toNat - 48 < 10 := by
        have := bounds_of_isDigit hc
        omega
      rw [ofDigitChars_append_singleton]
      by_cases hcs : cs = []
      · subst hcs
        rw [Nat.ofDigitChars_nil, Nat.mul_zero, Nat.zero_add, digits_of_lt hlt,
          digitChar_of_isDigit hc]
        rfl
      · have ih := ih hcs fun x hx => hd x (by simp [hx])
        rcases Nat.eq_zero_or_pos (Nat.ofDigitChars 10 cs 0) with hz | hpos
        · -- Nothing but zeros comes before the last digit.
          rw [hz] at ih ⊢
          rw [Nat.mul_zero, Nat.zero_add, digits_of_lt hlt, digitChar_of_isDigit hc]
          have hcons : 1 ≤ cs.length := List.length_pos_iff.2 hcs
          have hzeros : List.replicate cs.length '0' = cs := by
            conv_rhs => rw [← ih]
            rw [digits_of_lt (by decide : 0 < 10)]
            change _ = List.replicate (cs.length - 1) '0' ++ ['0']
            rw [← List.replicate_succ', Nat.sub_add_cancel hcons]
          rw [List.length_append]
          conv_rhs => rw [← hzeros]
          rfl
        · rw [digits_mul_add hpos hlt, digitChar_of_isDigit hc, ← List.append_assoc,
            List.length_append, List.length_append, List.length_singleton, Nat.add_sub_add_right, ih]

/-- A number with so many digits as stand for it. -/
theorem padNat_ofDigitChars (hne : cs ≠ []) (hd : ∀ c ∈ cs, c.isDigit) :
    padNat cs.length (Nat.ofDigitChars 10 cs 0) = String.ofList cs := by
  rw [padNat, replicate_append_digits hne hd]

/-- A number is written with the digits that stand for it, if they have no zeros in front. -/
theorem digits_ofDigitChars (hne : cs ≠ []) (hd : ∀ c ∈ cs, c.isDigit)
    (hhead : cs = ['0'] ∨ cs.head? ≠ some '0') : digits (Nat.ofDigitChars 10 cs 0) = cs := by
  rcases hhead with rfl | hhead
  · rfl
  · have hpad := replicate_append_digits hne hd
    cases hk : cs.length - (digits (Nat.ofDigitChars 10 cs 0)).length with
    | zero =>
        rw [hk] at hpad
        exact hpad
    | succ k =>
        rw [hk, List.replicate_succ] at hpad
        exact absurd (by rw [← hpad]; rfl) hhead

theorem head?_digits_ne_zero (h : 0 < n) : (digits n).head? ≠ some '0' := by
  induction n using Nat.base_induction 10 (by decide) with
  | single d hd =>
      rw [digits_of_lt hd]
      simpa using Nat.ne_of_gt h
  | digit n d hd hn ih =>
      have hsome : (digits n).head?.isSome := List.isSome_head?.2 Nat.toDigits_ne_nil
      rw [digits_mul_add hn hd, List.head?_append, Option.or_of_isSome hsome]
      exact ih hn

theorem ofDigitChars_digits (n : Nat) : Nat.ofDigitChars 10 (digits n) 0 = n :=
  Nat.ofDigitChars_ten_toDigits

theorem padNat_zero (n : Nat) : padNat 0 n = String.ofList (digits n) := by
  rw [padNat, Nat.zero_sub, List.replicate_zero, List.nil_append]

theorem decimal_natCast (n : Nat) : decimal n = String.ofList (digits n) := by
  rw [decimal, padInt, if_neg (by omega), Int.natAbs_natCast, padNat_zero]

theorem decimal_neg {n : Nat} (h : 0 < n) :
    decimal (-n) = "-" ++ String.ofList (digits n) := by
  rw [decimal, padInt, if_pos (by omega), Int.natAbs_neg, Int.natAbs_natCast, Nat.zero_sub,
    padNat_zero]

theorem toList_decimal (i : Int) :
    (decimal i).toList = (if i < 0 then ['-'] else []) ++ digits i.natAbs := by
  rw [decimal, padInt]
  split
  next =>
    rw [Nat.zero_sub, padNat_zero, String.toList_append, String.toList_ofList (l := digits _)]
    rfl
  next => rw [padNat_zero, String.toList_ofList, List.nil_append]

/-! ## So many digits -/

/-- The digits of a number, so many of them. -/
structure IsPadded (width n : Nat) (cs : List Char) : Prop where
  length_eq : cs.length = width
  isDigit : ∀ c ∈ cs, c.isDigit
  value_eq : Nat.ofDigitChars 10 cs 0 = n

/-- A number is padded to a width, or written out in full if the width is too small for it. -/
theorem isPadded_padNat (width n : Nat) :
    IsPadded (max width (digits n).length) n (padNat width n).toList := by
  rw [padNat, String.toList_ofList]
  refine ⟨?_, fun c hc => ?_, ?_⟩
  · rw [List.length_append, List.length_replicate]
    omega
  · rcases List.mem_append.1 hc with hzero | hdigit
    · rw [List.eq_of_mem_replicate hzero]
      rfl
    · exact isDigit_of_mem_digits hdigit
  · rw [Nat.ofDigitChars_append, Nat.ofDigitChars_replicate_zero, Nat.mul_zero,
      ofDigitChars_digits]

theorem isPadded_padNat_of_lt {width : Nat} (hwidth : 0 < width) (h : n < 10 ^ width) :
    IsPadded width n (padNat width n).toList := by
  have hlength : (digits n).length ≤ width := (Nat.length_toDigits_le_iff (by decide) hwidth).2 h
  have hpadded := isPadded_padNat width n
  rwa [Nat.max_eq_left hlength] at hpadded

/-- Nothing is padded but up to the width. -/
theorem head?_padNat_ne_zero {width : Nat} (h : width < (digits n).length) (hn : 0 < n) :
    (padNat width n).toList.head? ≠ some '0' := by
  rw [padNat, String.toList_ofList, Nat.sub_eq_zero_of_le (Nat.le_of_lt h), List.replicate_zero,
    List.nil_append]
  exact head?_digits_ne_zero hn

theorem IsPadded.unique {width width' n' : Nat} (h : IsPadded width n cs)
    (h' : IsPadded width' n' cs) : n = n' := h.value_eq.symm.trans h'.value_eq

theorem IsPadded.ne_nil {width : Nat} (h : IsPadded width n cs) (hwidth : 0 < width) : cs ≠ [] :=
  List.ne_nil_of_length_pos (h.length_eq ▸ hwidth)

theorem IsPadded.not_mem {width : Nat} (h : IsPadded width n cs) (hc : c.isDigit = false) :
    c ∉ cs := fun hmem => by
  rw [h.isDigit c hmem] at hc
  cases hc

end SqlGate.Text
