import Mathlib.Data.List.DropRight
import Mathlib.Data.List.GetD
import Mathlib.Tactic.Ring
import SqlGate.Proofs.Text.Digits
import SqlGate.Wire.Numeric

/-!
# Decimals and their groups

A decimal is sent as groups of four digits around its point, without the groups of zeros at either
end. Its text shows these groups again, so it is the decimal as it was written
(`Numeral.text_decimal`).
-/

namespace SqlGate.Wire

/-- A decimal as it is written: its sign, and the digits before and after the point. -/
structure Numeral where
  negative : Bool
  whole : List Char
  part : List Char

namespace Numeral

/-- The value of each four digits. -/
def groups : List Char → List Int
  | a :: b :: c :: d :: r => (Nat.ofDigitChars 10 [a, b, c, d] 0 : Int) :: groups r
  | _ => []

/-- How many zeros make up for the last group. -/
def gap (cs : List Char) : Nat := (4 - cs.length % 4) % 4

variable (n : Numeral)

/-- The decimal as a text. -/
def text : String :=
  String.ofList ((if n.negative then ['-'] else []) ++ n.whole ++
    if n.part = [] then [] else '.' :: n.part)

/-- The groups before the point. -/
def high : List Int := groups (List.replicate (gap n.whole) '0' ++ n.whole)

/-- The groups after the point. -/
def low : List Int := groups (n.part ++ List.replicate (gap n.part) '0')

/-- How many groups in front are zero. -/
def leading : Nat := ((n.high ++ n.low).takeWhile (· = 0)).length

/-- The groups that are sent: no group of zeros is at either end. -/
def sent : List Int := ((n.high ++ n.low).dropWhile (· = 0)).rdropWhile (· = 0)

/-- The decimal with its header. -/
def decimal : Decimal where
  weight := if n.sent = [] then 0 else n.high.length - 1 - n.leading
  sign := if n.negative then 0x4000 else 0
  scale := n.part.length
  digits := n.sent

/-- A decimal that is written as the database writes it: no zeros in front, no negative zero. -/
structure Canonical : Prop where
  whole_ne : n.whole ≠ []
  whole_digits : ∀ c ∈ n.whole, c.isDigit
  part_digits : ∀ c ∈ n.part, c.isDigit
  head : n.whole = ['0'] ∨ n.whole.head? ≠ some '0'
  sign : n.negative = true → ∃ c ∈ n.whole ++ n.part, c ≠ '0'

/-! ## Groups and their texts -/

/-- The digits of a group, four places wide. -/
def shown (x : Int) : List Char := (Text.padInt 4 x).toList

theorem shown_ofDigitChars {cs : List Char} (h4 : cs.length = 4) (hd : ∀ c ∈ cs, c.isDigit) :
    shown (Nat.ofDigitChars 10 cs 0) = cs := by
  have hne : cs ≠ [] := by
    rintro rfl
    cases h4
  have hpad := Text.padNat_ofDigitChars hne hd
  rw [h4] at hpad
  rw [shown, Text.padInt, if_neg (by omega), Int.natAbs_natCast, hpad, String.toList_ofList]

theorem flatMap_shown_groups {cs : List Char} (h4 : cs.length % 4 = 0)
    (hd : ∀ c ∈ cs, c.isDigit) : (groups cs).flatMap shown = cs := by
  induction cs using groups.induct with
  | case1 a b c d r ih =>
      have hr : r.length % 4 = 0 := by
        simp only [List.length_cons] at h4
        omega
      have hgroup : shown (Nat.ofDigitChars 10 [a, b, c, d] 0) = [a, b, c, d] :=
        shown_ofDigitChars rfl fun x hx => hd x (by simp at hx ⊢; tauto)
      rw [groups, List.flatMap_cons, hgroup, ih hr fun x hx => hd x (by simp [hx])]
      rfl
  | case2 cs hcs =>
      match cs with
      | [] => rfl
      | [_] | [_, _] | [_, _, _] => simp at h4
      | a :: b :: c :: d :: r => exact absurd rfl (hcs a b c d r)

theorem length_groups (cs : List Char) : (groups cs).length = cs.length / 4 := by
  induction cs using groups.induct with
  | case1 a b c d r ih =>
      rw [groups, List.length_cons, ih]
      simp only [List.length_cons]
      omega
  | case2 cs hcs =>
      match cs with
      | [] | [_] | [_, _] | [_, _, _] => simp [groups]
      | a :: b :: c :: d :: r => exact absurd rfl (hcs a b c d r)

/-! ## What is at a place -/

/-- The groups are what is sent, between groups of zeros. -/
theorem exists_eq_sent : ∃ k, n.high ++ n.low =
    List.replicate n.leading 0 ++ (n.sent ++ List.replicate k 0) := by
  let rest := (n.high ++ n.low).dropWhile (· = 0)
  have hlead : (n.high ++ n.low).takeWhile (· = 0) = List.replicate n.leading 0 :=
    List.eq_replicate_iff.2 ⟨rfl, fun x hx => by simpa using List.mem_takeWhile_imp hx⟩
  have htrail : rest.rtakeWhile (· = 0) = List.replicate (rest.rtakeWhile (· = 0)).length 0 :=
    List.eq_replicate_iff.2 ⟨rfl, fun x hx => by simpa using List.mem_rtakeWhile_imp hx⟩
  refine ⟨(rest.rtakeWhile (· = 0)).length, ?_⟩
  rw [← htrail, ← hlead]
  change _ = _ ++ (rest.rdropWhile (· = 0) ++ rest.rtakeWhile (· = 0))
  rw [List.rdropWhile_append_rtakeWhile, List.takeWhile_append_dropWhile]

theorem getD_replicate_zero (k i : Nat) : (List.replicate k (0 : Int)).getD i 0 = 0 := by
  rw [List.getD_eq_getElem?_getD, List.getElem?_replicate]
  split <;> rfl

theorem getD_between (a k : Nat) (xs : List Int) (i : Nat) :
    (List.replicate a 0 ++ (xs ++ List.replicate k 0)).getD i 0 =
      if a ≤ i then xs.getD (i - a) 0 else 0 := by
  split
  next h =>
    rw [List.getD_append_right _ _ _ _ (by simpa using h), List.length_replicate]
    rcases Nat.lt_or_ge (i - a) xs.length with hi | hi
    · rw [List.getD_append _ _ _ _ hi]
    · rw [List.getD_append_right _ _ _ _ hi, getD_replicate_zero, List.getD_eq_default _ _ hi]
  next h => rw [List.getD_append _ _ _ _ (by simpa using h), getD_replicate_zero]

theorem length_high : n.high.length = (n.whole.length + 3) / 4 := by
  rw [high, length_groups, List.length_append, List.length_replicate, gap]
  omega

theorem length_low : n.low.length = (n.part.length + 3) / 4 := by
  rw [low, length_groups, List.length_append, List.length_replicate, gap]
  omega

theorem digitAt_sub (d : Decimal) (i lead : Nat) :
    d.digitAt (i - lead) = if lead ≤ i then d.digits.getD (i - lead) 0 else 0 := by
  rw [Decimal.digitAt]
  by_cases hi : lead ≤ i
  · rw [if_pos (by omega), if_pos hi]
    congr 1
    omega
  · rw [if_neg (by omega), if_neg hi]

variable {n}

theorem bounds_of_mem_groups {cs : List Char} (hd : ∀ c ∈ cs, c.isDigit) :
    ∀ x ∈ groups cs, 0 ≤ x ∧ x < 10000 := by
  induction cs using groups.induct with
  | case1 a b c d r ih =>
      intro x hx
      rw [groups, List.mem_cons] at hx
      rcases hx with rfl | hx
      · have ha := Text.bounds_of_isDigit (hd a (by simp))
        have hb := Text.bounds_of_isDigit (hd b (by simp))
        have hc := Text.bounds_of_isDigit (hd c (by simp))
        have hd' := Text.bounds_of_isDigit (hd d (by simp))
        simp only [Nat.ofDigitChars_cons, Nat.ofDigitChars_nil, Char.reduceToNat]
        omega
      · exact ih (fun y hy => hd y (by simp [hy])) x hx
  | case2 cs hcs =>
      intro x hx
      rw [groups] at hx
      · cases hx
      · exact hcs

theorem Canonical.high_digits (h : n.Canonical) :
    ∀ c ∈ List.replicate (gap n.whole) '0' ++ n.whole, c.isDigit := by
  intro c hc
  rcases List.mem_append.1 hc with hc | hc
  · rw [List.eq_of_mem_replicate hc]
    rfl
  · exact h.whole_digits c hc

theorem Canonical.low_digits (h : n.Canonical) :
    ∀ c ∈ n.part ++ List.replicate (gap n.part) '0', c.isDigit := by
  intro c hc
  rcases List.mem_append.1 hc with hc | hc
  · exact h.part_digits c hc
  · rw [List.eq_of_mem_replicate hc]
    rfl

/-- Everything that is sent fits its field. -/
theorem Canonical.bounds_of_mem_sent (h : n.Canonical) : ∀ x ∈ n.sent, 0 ≤ x ∧ x < 10000 := by
  intro x hx
  have hmem : x ∈ n.high ++ n.low :=
    (List.dropWhile_sublist _).subset ((List.rdropWhile_prefix _ _).subset hx)
  rcases List.mem_append.1 hmem with hmem | hmem
  · exact bounds_of_mem_groups h.high_digits x hmem
  · exact bounds_of_mem_groups h.low_digits x hmem

/-- Every group is at its place, be it sent or not. -/
theorem exists_digitAt (hne : n.whole ≠ []) : ∃ lead : Nat,
    n.decimal.weight = n.high.length - 1 - lead ∧
    ∀ i : Nat, n.decimal.digitAt (i - lead) = (n.high ++ n.low).getD i 0 := by
  obtain ⟨k, hk⟩ := n.exists_eq_sent
  rw [hk]
  by_cases hs : n.sent = []
  · have hlen : 0 < n.high.length := by
      have := List.length_pos_iff.2 hne
      rw [length_high]
      omega
    have hweight : n.decimal.weight = 0 := if_pos hs
    have hdigits : n.decimal.digits = [] := hs
    refine ⟨n.high.length - 1, by omega, fun i => ?_⟩
    rw [getD_between, digitAt_sub, hs, hdigits, List.getD_nil, List.getD_nil, ite_self, ite_self]
  · exact ⟨n.leading, if_neg hs, fun i => by rw [getD_between, digitAt_sub]; rfl⟩

/-! ## The text -/

/-- The texts of groups that stand in a row. -/
theorem toList_groupsFrom (d : Decimal) (start : Int) (xs : List Int)
    (h : ∀ k : Nat, k < xs.length → d.digitAt (start + k) = xs.getD k 0) :
    (d.groupsFrom start xs.length).toList = xs.flatMap shown := by
  have hmap : (List.range xs.length).map (fun k : Nat => d.digitAt (start + k)) = xs := by
    refine List.ext_getElem (by simp) fun k hk hk' => ?_
    rw [List.getElem_map, List.getElem_range, h k hk', List.getD_eq_getElem _ _ hk']
  rw [Decimal.groupsFrom, String.toList_join, List.flatMap_map]
  conv_rhs => rw [← hmap, List.flatMap_map]
  rfl

theorem groups_append {x : List Char} (h4 : x.length = 4) (r : List Char) :
    groups (x ++ r) = (Nat.ofDigitChars 10 x 0 : Int) :: groups r := by
  match x with
  | [a, b, c, d] => rw [List.cons_append, List.cons_append, List.cons_append, List.cons_append,
      List.nil_append, groups]

/-- The first group may have fewer digits than four, the others have four. -/
theorem exists_high (h : n.Canonical) : ∃ first rest, n.whole = first ++ rest ∧
    n.high = (Nat.ofDigitChars 10 first 0 : Int) :: groups rest ∧ rest.length % 4 = 0 ∧
    Text.digits (Nat.ofDigitChars 10 first 0) = first := by
  have hpos : 0 < n.whole.length := List.length_pos_iff.2 h.whole_ne
  have hgap : gap n.whole < 4 := Nat.mod_lt _ (by decide)
  have hlen : (gap n.whole + n.whole.length) % 4 = 0 := by
    rw [gap]
    omega
  let first := n.whole.take (4 - gap n.whole)
  let rest := n.whole.drop (4 - gap n.whole)
  have hwhole : n.whole = first ++ rest := (List.take_append_drop _ _).symm
  have h4 : (List.replicate (gap n.whole) '0' ++ first).length = 4 := by
    rw [List.length_append, List.length_replicate, List.length_take]
    omega
  have hfirst : first ≠ [] := by
    rw [← List.length_pos_iff, List.length_take]
    omega
  have hhead : first = ['0'] ∨ first.head? ≠ some '0' := by
    rcases h.head with h0 | h0
    · left
      change n.whole.take (4 - gap n.whole) = _
      rw [h0]
      rfl
    · right
      rwa [hwhole, List.head?_append_of_ne_nil _ hfirst] at h0
  refine ⟨first, rest, hwhole, ?_, ?_, Text.digits_ofDigitChars hfirst (fun c hc => ?_) hhead⟩
  · have hpadded : List.replicate (gap n.whole) '0' ++ n.whole =
        (List.replicate (gap n.whole) '0' ++ first) ++ rest := by
      rw [List.append_assoc, ← hwhole]
    rw [high, hpadded, groups_append h4, Nat.ofDigitChars_append,
      Nat.ofDigitChars_replicate_zero, Nat.mul_zero]
  · rw [List.length_drop]
    omega
  · exact h.whole_digits c (List.mem_of_mem_take hc)

/-- The integer part is shown as it was written. -/
theorem integerText_decimal (h : n.Canonical) :
    n.decimal.integerText = String.ofList n.whole := by
  obtain ⟨first, rest, hwhole, hhigh, h4, hfirst⟩ := exists_high h
  obtain ⟨lead, hweight, hdigit⟩ := exists_digitAt h.whole_ne
  have hrest : ∀ c ∈ rest, c.isDigit := fun c hc => h.whole_digits c (by simp [hwhole, hc])
  have hzero : n.decimal.digitAt (0 - lead) = Nat.ofDigitChars 10 first 0 := by
    have := hdigit 0
    rwa [hhigh] at this
  rw [Decimal.integerText]
  rcases Nat.eq_zero_or_pos lead with rfl | hlead
  · -- Nothing before the point is left out.
    have hlen : n.decimal.weight = (groups rest).length := by
      rw [hweight, hhigh, List.length_cons]
      omega
    have hgroups : ∀ k : Nat, k < (groups rest).length →
        n.decimal.digitAt (1 + k) = (groups rest).getD k 0 := by
      intro k hk
      have := hdigit (k + 1)
      rw [hhigh, List.cons_append, List.getD_cons_succ, List.getD_append _ _ _ _ hk] at this
      rw [← this]
      congr 1
      push_cast
      ring
    rw [if_neg (by omega), hlen, Int.toNat_natCast, ← String.toList_inj, String.toList_append,
      toList_groupsFrom _ _ _ hgroups, flatMap_shown_groups h4 hrest, String.toList_ofList, hwhole]
    have hdigit₀ : n.decimal.digitAt 0 = Nat.ofDigitChars 10 first 0 := by simpa using hzero
    rw [hdigit₀, Text.decimal_natCast, String.toList_ofList, hfirst]
  · -- The first group is zero, so the integer part is.
    have hvalue : Nat.ofDigitChars 10 first 0 = 0 := by
      rw [Decimal.digitAt, if_neg (by omega)] at hzero
      exact_mod_cast hzero.symm
    have hfirst₀ : first = ['0'] := by
      rw [← hfirst, hvalue]
      rfl
    have hwhole₀ : n.whole = ['0'] := by
      rcases h.head with h0 | h0
      · exact h0
      · rw [hwhole, hfirst₀] at h0
        exact absurd rfl h0
    have hlen : n.high.length = 1 := by
      rw [length_high, hwhole₀]
      rfl
    rw [if_pos (by omega), hwhole₀]

theorem flatMap_shown_low (h : n.Canonical) :
    n.low.flatMap shown = n.part ++ List.replicate (gap n.part) '0' := by
  refine flatMap_shown_groups ?_ h.low_digits
  rw [List.length_append, List.length_replicate, gap]
  omega

/-- The places after the point are shown as they were written. -/
theorem fractionText_decimal (h : n.Canonical) :
    n.decimal.fractionText = String.ofList n.part := by
  obtain ⟨lead, hweight, hdigit⟩ := exists_digitAt h.whole_ne
  have hgroups : ∀ k : Nat, k < n.low.length →
      n.decimal.digitAt (n.decimal.weight + 1 + k) = n.low.getD k 0 := by
    intro k hk
    have := hdigit (n.high.length + k)
    rw [List.getD_append_right _ _ _ _ (by omega), Nat.add_sub_cancel_left] at this
    rw [← this, hweight]
    congr 1
    push_cast
    ring
  have hscale : n.decimal.scale = n.part.length := rfl
  rw [Decimal.fractionText, hscale, ← length_low, toList_groupsFrom _ _ _ hgroups,
    flatMap_shown_low h, List.take_left]

theorem flatMap_shown_high (h : n.Canonical) :
    n.high.flatMap shown = List.replicate (gap n.whole) '0' ++ n.whole := by
  refine flatMap_shown_groups ?_ h.high_digits
  rw [List.length_append, List.length_replicate, gap]
  omega

/-- A decimal has its sign, because no zero was written with one. -/
theorem isNegative_decimal (h : n.Canonical) : n.decimal.isNegative = n.negative := by
  cases hn : n.negative with
  | false => simp [Decimal.isNegative, decimal, hn]
  | true =>
      obtain ⟨c, hc, hne⟩ := h.sign hn
      have hsome : ¬ ∀ x ∈ n.sent, x = 0 := by
        intro hall
        obtain ⟨k, hk⟩ := n.exists_eq_sent
        have hzero : ∀ x ∈ n.high ++ n.low, x = 0 := by
          rw [hk]
          intro x hx
          simp only [List.mem_append, List.mem_replicate] at hx
          rcases hx with hx | hx | hx
          · exact hx.2
          · exact hall x hx
          · exact hx.2
        have hchars : c ∈ (n.high ++ n.low).flatMap shown := by
          rw [List.flatMap_append, flatMap_shown_high h, flatMap_shown_low h]
          simp only [List.mem_append] at hc ⊢
          tauto
        obtain ⟨x, hx, hcx⟩ := List.mem_flatMap.1 hchars
        have hzeros : c ∈ List.replicate 4 '0' := by rwa [hzero x hx] at hcx
        exact hne (List.eq_of_mem_replicate hzeros)
      have hall : n.decimal.digits.all (· = 0) = false := by
        change n.sent.all (· = 0) = false
        rw [← Bool.not_eq_true, List.all_eq_true]
        simpa using hsome
      have hsign : n.decimal.sign = 0x4000 := if_pos hn
      rw [Decimal.isNegative, hall, hsign]
      rfl

/-- The text of a decimal is what was written. -/
theorem text_decimal (h : n.Canonical) : n.decimal.text = n.text := by
  have hscale : n.decimal.scale = n.part.length := rfl
  have hpart : n.part.length = 0 ↔ n.part = [] := List.length_eq_zero_iff
  rw [Decimal.text, integerText_decimal h, fractionText_decimal h, isNegative_decimal h, text,
    ← String.toList_inj]
  simp only [hscale, hpart]
  by_cases hp : n.part = [] <;> cases n.negative <;> simp [hp]

end Numeral

end SqlGate.Wire
