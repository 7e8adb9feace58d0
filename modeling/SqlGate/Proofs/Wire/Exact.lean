import Mathlib.Algebra.BigOperators.Intervals
import Mathlib.Algebra.BigOperators.Ring.Finset
import Mathlib.Algebra.Order.BigOperators.Group.Finset
import Mathlib.Tactic.FieldSimp
import Mathlib.Tactic.Linarith
import SqlGate.Proofs.Wire.RoundTrip

/-!
# Decimals are exact

A decimal stands for the sum of its digits in base ten thousand, each at its power
(`Decimal.value`). Every payload of one is decoded to a text that shows just this number, with as
many places as the header announces (`decode_sendDecimal`).

The powers may lie to the left or to the right of the point, or outside of the digits that are sent.
So both parts of the text are read off the digit at a position, `digitAt`, which is zero where
nothing was sent; what the texts of digits in a row stand for is `ofDigitChars_row`.
-/

namespace SqlGate.Wire

/-- The number that a decimal stands for. -/
def Decimal.value (d : Decimal) : ℚ :=
  (if d.sign = 0x4000 then -1 else 1) *
    ∑ i ∈ Finset.range d.digits.length, (d.digits.getD i 0 : ℚ) * 10000 ^ (d.weight - i)

/-- The number that a text shows. -/
def Numeral.value (n : Numeral) : ℚ :=
  (if n.negative then -1 else 1) *
    (Nat.ofDigitChars 10 n.whole 0 + Nat.ofDigitChars 10 n.part 0 / 10 ^ n.part.length)

/-- A finite decimal whose header has room for its digits and whose scale has room for its places:
of the four decimal digits in each of its digits, those further behind the point than the scale are
zeros. -/
structure Decimal.Payable (d : Decimal) : Prop where
  length : d.digits.length < 32768
  weight : -32768 ≤ d.weight ∧ d.weight ≤ 32767
  sign : d.sign = 0 ∨ d.sign = 0x4000
  scale : d.scale < 65536
  digits : ∀ x ∈ d.digits, 0 ≤ x ∧ x < 10000
  places : ∀ i j : Nat, i < d.digits.length → j < 4 →
    (d.scale : Int) < 4 * (i - d.weight - 1) + j + 1 → d.digits.getD i 0 / 10 ^ (3 - j) % 10 = 0

/-- A text of digits, with a point before those after the units. -/
structure Numeral.Written (n : Numeral) : Prop where
  whole_ne : n.whole ≠ []
  whole_digits : ∀ c ∈ n.whole, c.isDigit
  part_digits : ∀ c ∈ n.part, c.isDigit

/-! ## Digits in a row -/

open Numeral (shown)

/-- The four decimal digits of a number, put behind another number. -/
theorem ofDigitChars_places {a : Nat} (h : a < 10000) (n : Nat) :
    Nat.ofDigitChars 10 ((List.range 4).map fun j => (a / 10 ^ (3 - j) % 10).digitChar) n =
      10000 * n + a := by
  simp only [List.range_succ, List.range_zero, List.nil_append, List.cons_append, List.map_cons,
    List.map_nil, Nat.ofDigitChars_cons, Nat.ofDigitChars_nil, Char.reduceToNat,
    Nat.toNat_digitChar_of_lt_ten (Nat.mod_lt _ (by decide : 10 > 0))]
  omega

/-- The characters of a digit are its four decimal digits. -/
theorem shown_natCast {a : Nat} (h : a < 10000) :
    shown a = (List.range 4).map fun j => (a / 10 ^ (3 - j) % 10).digitChar := by
  have hvalue : Nat.ofDigitChars 10
      ((List.range 4).map fun j => (a / 10 ^ (3 - j) % 10).digitChar) 0 = a := by
    rw [ofDigitChars_places h, Nat.mul_zero, Nat.zero_add]
  have hdigits : ∀ c ∈ (List.range 4).map fun j => (a / 10 ^ (3 - j) % 10).digitChar,
      c.isDigit := by
    simp only [List.mem_map, forall_exists_index, and_imp, forall_apply_eq_imp_iff₂,
      Nat.isDigit_digitChar, decide_eq_true_eq]
    exact fun j _ => Nat.mod_lt _ (by decide)
  conv_lhs => rw [← hvalue]
  exact Numeral.shown_ofDigitChars rfl hdigits

/-- A digit takes four places at least. -/
theorem four_le_length_shown (x : Int) : 4 ≤ (shown x).length := by
  have hpadded := (Text.isPadded_padNat 4 x.natAbs).length_eq
  have hpadded' := (Text.isPadded_padNat 3 x.natAbs).length_eq
  rw [shown, Text.padInt]
  split
  · rw [String.toList_append, List.length_append]
    change 4 ≤ 1 + (Text.padNat 3 x.natAbs).toList.length
    omega
  · omega

theorem length_shown {x : Int} (h : 0 ≤ x ∧ x < 10000) : (shown x).length = 4 := by
  obtain ⟨a, rfl⟩ := Int.eq_ofNat_of_zero_le h.1
  rw [shown_natCast (by omega), List.length_map, List.length_range]

theorem isDigit_of_mem_shown {x : Int} (h : 0 ≤ x) : ∀ c ∈ shown x, c.isDigit := by
  rw [shown, Text.padInt, if_neg (by omega)]
  exact (Text.isPadded_padNat 4 x.natAbs).isDigit

theorem ofDigitChars_shown {x : Int} (h : 0 ≤ x ∧ x < 10000) (n : Nat) :
    (Nat.ofDigitChars 10 (shown x) n : Int) = 10000 * n + x := by
  obtain ⟨a, rfl⟩ := Int.eq_ofNat_of_zero_le h.1
  rw [shown_natCast (by omega), ofDigitChars_places (by omega)]
  omega

/-- Where all decimal digits from one on are zeros, so are the characters. -/
theorem drop_shown {x : Int} (h : 0 ≤ x ∧ x < 10000) {j : Nat}
    (hzero : ∀ i, j ≤ i → i < 4 → x / 10 ^ (3 - i) % 10 = 0) :
    (shown x).drop j = List.replicate (4 - j) '0' := by
  obtain ⟨a, rfl⟩ := Int.eq_ofNat_of_zero_le h.1
  rw [shown_natCast (by omega)]
  refine List.ext_getElem (by simp) fun i hi _ => ?_
  have hi : j + i < 4 := by
    rw [List.length_drop, List.length_map, List.length_range] at hi
    omega
  have hdigit : a / 10 ^ (3 - (j + i)) % 10 = 0 := by exact_mod_cast hzero (j + i) (by omega) hi
  rw [List.getElem_drop, List.getElem_map, List.getElem_range, hdigit, List.getElem_replicate]
  rfl

/-- The characters of `n` digits in a row. -/
def row (f : Nat → Int) (n : Nat) : List Char := (List.range n).flatMap fun k => shown (f k)

theorem row_succ (f : Nat → Int) (n : Nat) : row f (n + 1) = row f n ++ shown (f n) := by
  rw [row, List.range_succ, List.flatMap_append, List.flatMap_singleton, row]

theorem isPrefix_row {f : Nat → Int} {k n : Nat} (h : k ≤ n) : row f k <+: row f n := by
  induction n, h using Nat.le_induction with
  | base => exact List.prefix_rfl
  | succ n _ ih => exact row_succ f n ▸ ih.trans (List.prefix_append _ _)

theorem le_length_row (f : Nat → Int) (n : Nat) : 4 * n ≤ (row f n).length := by
  induction n with
  | zero => exact Nat.zero_le _
  | succ n ih =>
      have hlast := four_le_length_shown (f n)
      rw [row_succ, List.length_append]
      omega

theorem isDigit_of_mem_row {f : Nat → Int} {n : Nat} (hf : ∀ k < n, 0 ≤ f k) :
    ∀ c ∈ row f n, c.isDigit := by
  intro c hc
  obtain ⟨k, hk, hshown⟩ := List.mem_flatMap.1 hc
  exact isDigit_of_mem_shown (hf k (List.mem_range.1 hk)) c hshown

/-- Of digits in a row, so many places: only those count of which something is left. -/
theorem isDigit_of_mem_take_row {f : Nat → Int} {places : Nat}
    (hf : ∀ k, (row f k).length < places → 0 ≤ f k) (n : Nat) :
    ∀ c ∈ (row f n).take places, c.isDigit := by
  induction n with
  | zero => simp [row]
  | succ n ih =>
      intro c hc
      rw [row_succ, List.take_append] at hc
      rcases List.mem_append.1 hc with hfront | hlast
      · exact ih c hfront
      · rcases Nat.lt_or_ge (row f n).length places with hlt | hge
        · exact isDigit_of_mem_shown (hf n hlt) c (List.mem_of_mem_take hlast)
        · rw [Nat.sub_eq_zero_of_le hge] at hlast
          cases hlast

theorem toList_groupsFrom_eq_row (d : Decimal) (start : Int) (n : Nat) :
    (d.groupsFrom start n).toList = row (fun k => d.digitAt (start + k)) n := by
  rw [Decimal.groupsFrom, String.toList_join, List.flatMap_map]
  rfl

section Row

variable {f : Nat → Int} (hf : ∀ k, 0 ≤ f k ∧ f k < 10000)

include hf

theorem length_row (n : Nat) : (row f n).length = 4 * n := by
  induction n with
  | zero => rfl
  | succ n ih =>
      rw [row_succ, List.length_append, ih, length_shown (hf n)]
      ring

/-- What digits in a row stand for, after a number: each one less by a power. -/
theorem ofDigitChars_row (a n : Nat) : (Nat.ofDigitChars 10 (row f n) a : ℚ) =
    10000 ^ n * (a + ∑ k ∈ Finset.range n, (f k : ℚ) / 10000 ^ (k + 1)) := by
  induction n with
  | zero => simp [row]
  | succ n ih =>
      have hstep : (Nat.ofDigitChars 10 (row f (n + 1)) a : ℚ) =
          10000 * Nat.ofDigitChars 10 (row f n) a + f n := by
        rw [row_succ, Nat.ofDigitChars_append]
        exact_mod_cast ofDigitChars_shown (hf n) _
      rw [hstep, ih, Finset.sum_range_succ]
      field_simp
      ring

end Row

/-! ## The two parts of a text -/

namespace Decimal

variable {d : Decimal}

/-- What holds of zero and of all digits that were sent holds at every position. -/
theorem digitAt_of_forall {P : Int → Prop} (hzero : P 0) (h : ∀ x ∈ d.digits, P x) (i : Int) :
    P (d.digitAt i) := by
  rw [digitAt]
  split
  · rcases Nat.lt_or_ge i.toNat d.digits.length with hi | hi
    · rw [List.getD_eq_getElem _ _ hi]
      exact h _ (List.getElem_mem hi)
    · rwa [List.getD_eq_default _ _ hi]
  · exact hzero

theorem Payable.digitAt_bounds (h : d.Payable) (i : Int) :
    0 ≤ d.digitAt i ∧ d.digitAt i < 10000 :=
  digitAt_of_forall (P := fun x => 0 ≤ x ∧ x < 10000) (by decide) h.digits i

/-- Of the digits after the units, sent or not, the places behind the scale are zeros. -/
theorem Payable.places_digitAt (h : d.Payable) {k j : Nat} (hj : j < 4)
    (hk : d.scale < 4 * k + j + 1) : d.digitAt (d.weight + 1 + k) / 10 ^ (3 - j) % 10 = 0 := by
  rw [digitAt]
  split
  next hpos =>
    rcases Nat.lt_or_ge (d.weight + 1 + k).toNat d.digits.length with hi | hi
    · exact h.places _ j hi hj (by omega)
    · rw [List.getD_eq_default _ _ hi]
      simp
  next => simp

theorem Payable.digitAt_eq_zero (h : d.Payable) {k : Nat} (hk : d.scale ≤ 4 * k) :
    d.digitAt (d.weight + 1 + k) = 0 := by
  have hbounds := h.digitAt_bounds (d.weight + 1 + k)
  have h0 := h.places_digitAt (k := k) (j := 0) (by decide) (by omega)
  have h1 := h.places_digitAt (k := k) (j := 1) (by decide) (by omega)
  have h2 := h.places_digitAt (k := k) (j := 2) (by decide) (by omega)
  have h3 := h.places_digitAt (k := k) (j := 3) (by decide) (by omega)
  simp only [Nat.reduceSub, Int.reducePow, pow_zero, Int.ediv_one] at h0 h1 h2 h3
  omega

/-- How many digits the places take. -/
def taken (d : Decimal) : Nat := (d.scale + 3) / 4

/-- The digits after the units, in a row. -/
def tail (d : Decimal) : List Char := row (fun k => d.digitAt (d.weight + 1 + k)) d.taken

theorem toList_fractionText : d.fractionText.toList = d.tail.take d.scale := by
  rw [fractionText, String.toList_ofList, toList_groupsFrom_eq_row]
  rfl

theorem length_fractionText (d : Decimal) : d.fractionText.toList.length = d.scale := by
  have hle : 4 * d.taken ≤ d.tail.length := le_length_row _ _
  rw [taken] at hle
  rw [toList_fractionText, List.length_take]
  omega

/-- What is cut off are zeros, all of them in the last digit. -/
theorem Payable.drop_tail (h : d.Payable) :
    d.tail.drop d.scale = List.replicate (4 * d.taken - d.scale) '0' := by
  cases htaken : d.taken with
  | zero => simp [tail, row, htaken]
  | succ k =>
      have hscale : 4 * k < d.scale ∧ d.scale ≤ 4 * k + 4 := by
        rw [taken] at htaken
        omega
      have hlength := length_row (fun k => h.digitAt_bounds (d.weight + 1 + k)) k
      have hfront : (row (fun k => d.digitAt (d.weight + 1 + k)) k).drop d.scale = [] :=
        List.drop_eq_nil_of_le (by omega)
      have hzero : ∀ i, d.scale - 4 * k ≤ i → i < 4 →
          d.digitAt (d.weight + 1 + k) / 10 ^ (3 - i) % 10 = 0 :=
        fun i hi hi4 => h.places_digitAt hi4 (by omega)
      rw [tail, htaken, row_succ, List.drop_append, hfront, hlength, List.nil_append,
        drop_shown (h.digitAt_bounds _) hzero]
      congr 1
      omega

/-- What the places stand for. -/
theorem Payable.value_fractionText (h : d.Payable) :
    (Nat.ofDigitChars 10 d.fractionText.toList 0 : ℚ) / 10 ^ d.scale =
      ∑ k ∈ Finset.range d.taken, (d.digitAt (d.weight + 1 + k) : ℚ) / 10000 ^ (k + 1) := by
  have hsplit : d.tail = d.fractionText.toList ++ List.replicate (4 * d.taken - d.scale) '0' := by
    rw [toList_fractionText, ← h.drop_tail, List.take_append_drop]
  have hpow : (10000 : ℚ) ^ d.taken = 10 ^ (4 * d.taken - d.scale) * 10 ^ d.scale := by
    rw [← pow_add, Nat.sub_add_cancel (by rw [taken]; omega), pow_mul]
    norm_num
  have hrow := ofDigitChars_row (fun k => h.digitAt_bounds (d.weight + 1 + k)) 0 d.taken
  rw [← tail, hsplit, Nat.ofDigitChars_append, Nat.ofDigitChars_replicate_zero] at hrow
  push_cast at hrow
  rw [zero_add, hpow] at hrow
  field_simp at hrow ⊢
  exact hrow

/-- What the digits before the point stand for. -/
theorem Payable.value_integerText (h : d.Payable) :
    (Nat.ofDigitChars 10 d.integerText.toList 0 : ℚ) =
      ∑ i ∈ Finset.range (d.weight + 1).toNat, (d.digitAt i : ℚ) * 10000 ^ (d.weight - i) := by
  rw [integerText]
  split
  next hneg =>
    rw [show (d.weight + 1).toNat = 0 by omega, Finset.range_zero, Finset.sum_empty]
    rfl
  next hpos =>
    obtain ⟨w, hw⟩ := Int.eq_ofNat_of_zero_le (not_lt.1 hpos)
    obtain ⟨a, ha⟩ := Int.eq_ofNat_of_zero_le (h.digitAt_bounds 0).1
    have hterm : ∀ k ∈ Finset.range w,
        (d.digitAt ((k + 1 : Nat) : Int) : ℚ) * 10000 ^ ((w : Int) - (k + 1 : Nat)) =
        10000 ^ w * ((d.digitAt (1 + k) : ℚ) / 10000 ^ (k + 1)) := by
      intro k _
      rw [zpow_sub₀ (by norm_num), zpow_natCast, zpow_natCast, Int.natCast_add, Int.add_comm]
      simp only [Nat.cast_one]
      ring
    rw [String.toList_append, ha, Text.decimal_natCast, String.toList_ofList,
      Nat.ofDigitChars_append, Text.ofDigitChars_digits, toList_groupsFrom_eq_row,
      ofDigitChars_row fun k => h.digitAt_bounds _, hw, Int.toNat_natCast,
      show ((w : Int) + 1).toNat = w + 1 by omega, Finset.sum_range_succ',
      Finset.sum_congr rfl hterm, ← Finset.mul_sum, Nat.cast_zero, ha]
    rw [Int.sub_zero, zpow_natCast]
    push_cast
    ring

/-- The sum of all digits, over as many positions as are wanted. -/
theorem sum_digits {n : Nat} (hn : d.digits.length ≤ n) :
    ∑ i ∈ Finset.range d.digits.length, (d.digits.getD i 0 : ℚ) * 10000 ^ (d.weight - i) =
      ∑ i ∈ Finset.range n, (d.digitAt i : ℚ) * 10000 ^ (d.weight - i) := by
  have hdigit : ∀ i : Nat, d.digitAt i = d.digits.getD i 0 := fun i => by
    rw [digitAt, if_pos (by omega), Int.toNat_natCast]
  simp only [hdigit]
  refine (Finset.eventually_constant_sum (fun i hi => ?_) hn).symm
  rw [List.getD_eq_default _ _ hi, Int.cast_zero, zero_mul]

/-- The sum of the digits after the units, over as many positions as are wanted. -/
theorem Payable.sum_tail (h : d.Payable) {n : Nat} (hn : d.taken ≤ n) :
    ∑ k ∈ Finset.range d.taken, (d.digitAt (d.weight + 1 + k) : ℚ) / 10000 ^ (k + 1) =
      ∑ k ∈ Finset.range n, (d.digitAt (d.weight + 1 + k) : ℚ) / 10000 ^ (k + 1) := by
  refine (Finset.eventually_constant_sum (fun k hk => ?_) hn).symm
  rw [h.digitAt_eq_zero (by rw [taken] at hk; omega), Int.cast_zero, zero_div]

/-- The digits are those before the point and those that the places take. -/
theorem Payable.sum_eq (h : d.Payable) :
    ∑ i ∈ Finset.range d.digits.length, (d.digits.getD i 0 : ℚ) * 10000 ^ (d.weight - i) =
      ∑ i ∈ Finset.range (d.weight + 1).toNat, (d.digitAt i : ℚ) * 10000 ^ (d.weight - i) +
      ∑ k ∈ Finset.range d.taken, (d.digitAt (d.weight + 1 + k) : ℚ) / 10000 ^ (k + 1) := by
  obtain ⟨m, hm⟩ : ∃ m, m = d.digits.length + d.taken := ⟨_, rfl⟩
  rcases Int.le_total 0 (d.weight + 1) with hw | hw
  · -- The point stands among the positions from the first digit on.
    obtain ⟨w, hw⟩ := Int.eq_ofNat_of_zero_le hw
    rw [sum_digits (n := w + m) (by omega), h.sum_tail (n := m) (by omega), Finset.sum_range_add,
      hw, Int.toNat_natCast]
    congr 1
    refine Finset.sum_congr rfl fun k _ => ?_
    have hexp : d.weight - (w + k : Nat) = -((k + 1 : Nat) : Int) := by omega
    rw [hexp, zpow_neg, zpow_natCast, Int.natCast_add]
    rfl
  · -- It stands before the first digit, with zeros between.
    obtain ⟨w, hw⟩ := Int.eq_ofNat_of_zero_le (Int.neg_nonneg_of_nonpos hw)
    have hzero : ∀ k ∈ Finset.range w,
        (d.digitAt (d.weight + 1 + k) : ℚ) / 10000 ^ (k + 1) = 0 := by
      intro k hk
      rw [Finset.mem_range] at hk
      rw [digitAt, if_neg (by omega), Int.cast_zero, zero_div]
    rw [sum_digits (n := m) (by omega), h.sum_tail (n := w + m) (by omega), Finset.sum_range_add,
      Finset.sum_eq_zero hzero, show (d.weight + 1).toNat = 0 by omega, Finset.range_zero,
      Finset.sum_empty]
    rw [zero_add, zero_add]
    refine Finset.sum_congr rfl fun i _ => ?_
    have hindex : d.weight + 1 + (w + i : Nat) = i := by omega
    have hexp : d.weight - i = -((w + i + 1 : Nat) : Int) := by omega
    rw [hindex, hexp, zpow_neg, zpow_natCast]
    rfl

/-! ## The text -/

/-- The text of a decimal, in its parts. -/
def numeral (d : Decimal) : Numeral := ⟨d.isNegative, d.integerText.toList, d.fractionText.toList⟩

theorem text_numeral (d : Decimal) : d.numeral.text = d.text := by
  have hpart : d.fractionText.toList = [] ↔ d.scale = 0 := by
    rw [← List.length_eq_zero_iff, d.length_fractionText]
  rw [Numeral.text, text, ← String.toList_inj]
  simp only [numeral, hpart]
  by_cases hs : d.scale = 0 <;> by_cases hn : d.isNegative <;> simp [hs, hn]

/-- The digits before the point, without a sign. -/
def front (d : Decimal) : List Char :=
  if d.weight < 0 then ['0']
  else Text.digits (d.digitAt 0).natAbs ++ row (fun k => d.digitAt (1 + k)) d.weight.toNat

theorem toList_integerText (d : Decimal) : d.integerText.toList =
    (if 0 ≤ d.weight ∧ d.digitAt 0 < 0 then ['-'] else []) ++ d.front := by
  rw [integerText, front]
  split
  next hneg => rw [if_neg (by omega)]; rfl
  next hpos =>
    rw [String.toList_append, Text.toList_decimal, toList_groupsFrom_eq_row, List.append_assoc]
    simp only [not_lt.1 hpos, true_and]

/-- The digits before and after the point, if none of which something is shown is less than zero;
the sign of the first one stands before them. -/
theorem written_front (hwhole : ∀ i, 0 < i → i ≤ d.weight → 0 ≤ d.digitAt i)
    (hpart : ∀ k, (row (fun j => d.digitAt (d.weight + 1 + j)) k).length < d.scale →
      0 ≤ d.digitAt (d.weight + 1 + k)) (negative : Bool) :
    Numeral.Written ⟨negative, d.front, d.fractionText.toList⟩ := by
  refine ⟨?_, ?_, ?_⟩
  · change d.front ≠ []
    rw [front]
    split
    · decide
    · exact List.append_ne_nil_of_left_ne_nil Nat.toDigits_ne_nil _
  · change ∀ c ∈ d.front, c.isDigit
    rw [front]
    split
    · simp
    · intro c hc
      rcases List.mem_append.1 hc with hfirst | hrow
      · exact Text.isDigit_of_mem_digits hfirst
      · exact isDigit_of_mem_row (fun k hk => hwhole _ (by omega) (by omega)) c hrow
  · change ∀ c ∈ d.fractionText.toList, c.isDigit
    rw [toList_fractionText]
    exact isDigit_of_mem_take_row hpart d.taken

theorem Payable.written_numeral (h : d.Payable) : d.numeral.Written := by
  have hfirst : ¬ (0 ≤ d.weight ∧ d.digitAt 0 < 0) := fun hneg => by
    have := (h.digitAt_bounds 0).1
    omega
  have hfront : d.integerText.toList = d.front := by
    rw [toList_integerText, if_neg hfirst, List.nil_append]
  rw [numeral, hfront]
  exact written_front (fun i _ _ => (h.digitAt_bounds i).1) (fun k _ => (h.digitAt_bounds _).1) _

theorem Payable.value_numeral (h : d.Payable) : d.numeral.value = d.value := by
  have hparts : (Nat.ofDigitChars 10 d.integerText.toList 0 : ℚ) +
      Nat.ofDigitChars 10 d.fractionText.toList 0 / 10 ^ d.fractionText.toList.length =
      ∑ i ∈ Finset.range d.digits.length, (d.digits.getD i 0 : ℚ) * 10000 ^ (d.weight - i) := by
    rw [d.length_fractionText, h.value_fractionText, h.value_integerText, ← h.sum_eq]
  rw [Numeral.value, value]
  simp only [numeral, hparts]
  by_cases hs : d.sign = 0x4000
  · by_cases hall : d.digits.all (· = 0)
    · -- A zero is not written with its sign, and has none.
      have hzero : ∑ i ∈ Finset.range d.digits.length,
          (d.digits.getD i 0 : ℚ) * 10000 ^ (d.weight - i) = 0 := by
        refine Finset.sum_eq_zero fun i hi => ?_
        rw [Finset.mem_range] at hi
        have := List.all_eq_true.1 hall _ (List.getElem_mem hi)
        rw [List.getD_eq_getElem _ _ hi, of_decide_eq_true this, Int.cast_zero, zero_mul]
      rw [hzero, mul_zero, mul_zero]
    · simp [isNegative, hs, hall]
  · simp [isNegative, hs]

/-- A text with a sign is less than zero, so no zero has one. -/
theorem Payable.value_neg (h : d.Payable) (hn : d.isNegative) : d.value < 0 := by
  obtain ⟨hsign, hsome⟩ : d.sign = 0x4000 ∧ ∃ x ∈ d.digits, x ≠ 0 := by
    simpa [isNegative] using hn
  have hpos : 0 < ∑ i ∈ Finset.range d.digits.length,
      (d.digits.getD i 0 : ℚ) * 10000 ^ (d.weight - i) := by
    have hpow : ∀ i : Nat, (0 : ℚ) < 10000 ^ (d.weight - i) := fun i => zpow_pos (by norm_num) _
    refine Finset.sum_pos' (fun i hi => ?_) ?_
    · rw [Finset.mem_range] at hi
      rw [List.getD_eq_getElem _ _ hi]
      exact mul_nonneg (by exact_mod_cast (h.digits _ (List.getElem_mem hi)).1) (hpow i).le
    · obtain ⟨x, hx, hne⟩ := hsome
      obtain ⟨i, hi, rfl⟩ := List.getElem_of_mem hx
      refine ⟨i, Finset.mem_range.2 hi, mul_pos ?_ (hpow i)⟩
      rw [List.getD_eq_getElem _ _ hi]
      exact_mod_cast lt_of_le_of_ne (h.digits _ hx).1 hne.symm
  rw [value, if_pos hsign]
  linarith

/-- There are no zeros in front, unless zeros were sent there or nothing at all. -/
theorem Payable.head_integerText (h : d.Payable)
    (hhead : d.weight ≤ 0 ∨ ∃ x, d.digits.head? = some x ∧ x ≠ 0) :
    d.integerText.toList = ['0'] ∨ d.integerText.toList.head? ≠ some '0' := by
  obtain ⟨a, ha⟩ := Int.eq_ofNat_of_zero_le (h.digitAt_bounds 0).1
  have hfront : 0 < a → ∀ r, (Text.digits a ++ r).head? ≠ some '0' := by
    intro hpos r
    have hne : Text.digits a ≠ [] := Nat.toDigits_ne_nil
    rw [List.head?_append_of_ne_nil _ hne]
    exact Text.head?_digits_ne_zero hpos
  rw [integerText, ha, Text.decimal_natCast]
  split
  next => exact .inl rfl
  next hw =>
    rw [String.toList_append, String.toList_ofList]
    rcases Nat.eq_zero_or_pos a with rfl | hpos
    · rcases hhead with hle | ⟨x, hx, hne⟩
      · left
        rw [show d.weight.toNat = 0 by omega]
        rfl
      · -- The first digit is the one at the first position.
        have hzero : d.digitAt 0 = x := by
          rw [digitAt, if_pos (by omega), List.getD_eq_getElem?_getD, Int.toNat_zero,
            ← List.head?_eq_getElem?, hx, Option.getD_some]
        exact absurd (hzero.symm.trans ha) hne
    · exact .inr (hfront hpos _)

end Decimal

/-- Decimals are exact: every payload of a finite one, wherever the powers of its digits lie, is
decoded to a text of digits that shows the number the decimal stands for, with as many places as the
header announces. No zero has a sign, and no zeros stand in front unless they were sent there. -/
theorem decode_sendDecimal {d : Decimal} (h : d.Payable) :
    ∃ n : Numeral, decode 1700 (sendDecimal d) = some (.numeric (.finite n.text)) ∧ n.Written ∧
      n.value = d.value ∧ n.part.length = d.scale ∧ (n.negative → n.value < 0) ∧
      (d.weight ≤ 0 ∨ (∃ x, d.digits.head? = some x ∧ x ≠ 0) →
        n.whole = ['0'] ∨ n.whole.head? ≠ some '0') := by
  have hsign : d.sign < 65536 ∧ d.sign ≠ 0xC000 ∧ d.sign ≠ 0xD000 ∧ d.sign ≠ 0xF000 := by
    rcases h.sign with hs | hs <;> rw [hs] <;> decide
  have hnumeric : d.toNumeric = .finite d.numeral.text := by
    rw [Decimal.toNumeric, if_neg hsign.2.1, if_neg hsign.2.2.1, if_neg hsign.2.2.2, d.text_numeral]
  have hfinds : Read.Finds Read.decimal (sendDecimal d) d :=
    finds_decimal h.length h.weight hsign.1 h.scale fun x hx => by have := h.digits x hx; omega
  refine ⟨d.numeral, ?_, h.written_numeral, h.value_numeral, d.length_fractionText, fun hn => ?_,
    h.head_integerText⟩
  · refine whole_of_finds .numeric rfl ((hfinds.map fun d => Native.numeric d.toNumeric).congr ?_)
    rw [hnumeric]
  · rw [h.value_numeral]
    exact h.value_neg hn

/-- Twelve ten-thousandths of ten-thousandths, less than zero. -/
theorem decode_sendDecimal_small :
    Decimal.Payable ⟨-2, 0x4000, 8, [12]⟩ ∧
    ∃ n : Numeral, decode 1700 [0, 1, 0xFF, 0xFE, 0x40, 0, 0, 8, 0, 12] =
      some (.numeric (.finite n.text)) ∧ n.value = -12 / 10000 ^ 2 ∧ n.part.length = 8 := by
  have h : Decimal.Payable ⟨-2, 0x4000, 8, [12]⟩ :=
    { length := by decide
      weight := by decide
      sign := .inr rfl
      scale := by decide
      digits := by decide
      places := by
        intro i j hi hj hplace
        simp only [List.length_cons, List.length_nil] at hi hplace
        omega }
  obtain ⟨n, hdecode, -, hvalue, hlength, -⟩ := decode_sendDecimal h
  have hnumber : Decimal.value ⟨-2, 0x4000, 8, [12]⟩ = -12 / 10000 ^ 2 := by
    norm_num [Decimal.value]
  exact ⟨h, n, hdecode, hvalue.trans hnumber, hlength⟩

end SqlGate.Wire
