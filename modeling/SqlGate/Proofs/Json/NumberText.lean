import SqlGate.Json.Printer
import SqlGate.Proofs.Json.Numerals
import SqlGate.Proofs.Number.Shortest

/-!
# The texts of numbers are numerals

An integer is written in decimal, and a finite double as its shortest decimal in one of two forms.
All of them are numerals as a reader expects them, perhaps with a minus sign in front.
-/

namespace SqlGate.Json

open Number Numeral

/-! ## Integers -/

/-- A natural number as a numeral. -/
def Numeral.Written.ofNat (n : Nat) : Written := ⟨Text.digits n, [], none⟩

theorem isRun_digits (n : Nat) : IsRun (Text.digits n) :=
  ⟨Nat.toDigits_ne_nil, fun _ => Text.isDigit_of_mem_digits⟩

theorem sound_ofNat (n : Nat) : (Written.ofNat n).Sound where
  whole := isRun_digits n
  leading := by
    rcases Nat.eq_zero_or_pos n with rfl | h
    · exact .inl rfl
    · exact .inr (Text.head?_digits_ne_zero h)
  part := by simp [Written.ofNat]
  exponent := by simp [Written.ofNat]

theorem chars_ofNat (n : Nat) : (Written.ofNat n).chars = Text.digits n := List.append_nil _

theorem ofDigitChars_le {ds : List Char} (n : Nat) : n ≤ Nat.ofDigitChars 10 ds n := by
  rw [Nat.ofDigitChars_eq_ofDigitChars_zero]
  have hpow : 0 < 10 ^ ds.length := Nat.pow_pos (by decide)
  exact Nat.le_trans (Nat.le_mul_of_pos_left n hpow) (Nat.le_add_right _ _)

/-- Digits of a number within the limit are all appended. -/
theorem accumulate_values {limit n : Nat} {ds : List Char} (h : Nat.ofDigitChars 10 ds n ≤ limit) :
    accumulate limit n (values ds) = (Nat.ofDigitChars 10 ds n, []) := by
  induction ds generalizing n with
  | nil => rfl
  | cons d ds ih =>
      rw [Nat.ofDigitChars_cons] at h ⊢
      have hstep : n * 10 + (d.toNat - 48) = 10 * n + (d.toNat - '0'.toNat) := by
        rw [Nat.mul_comm]
        rfl
      have hle : n * 10 + (d.toNat - 48) ≤ limit := by
        rw [hstep]
        exact Nat.le_trans (ofDigitChars_le _) h
      change accumulate limit n ((d.toNat - 48) :: values ds) = _
      rw [accumulate, if_pos hle, hstep]
      exact ih h

theorem outcome_ofNat {n : Nat} (negative : Bool) (h : n ≤ maxUnsigned) :
    (Written.ofNat n).outcome negative = some (integer negative n) := by
  have hn : Nat.ofDigitChars 10 (Text.digits n) 0 = n := Text.ofDigitChars_digits n
  have hread : accumulate maxUnsigned 0 (values (Text.digits n)) = (n, []) := by
    rw [accumulate_values (by rw [hn]; exact h), hn]
  rw [Written.outcome, Written.ofNat, hread]
  rfl

/-- A minus sign in front of negative numbers. -/
def sign (negative : Bool) : List Char := if negative then ['-'] else []

theorem toList_text_natCast (n : Nat) :
    (Num.text (.int n)).toList = sign false ++ (Written.ofNat n).chars := by
  rw [Num.text, Text.decimal_natCast, chars_ofNat, String.toList_ofList]
  rfl

theorem toList_text_neg {n : Nat} (h : 0 < n) :
    (Num.text (.int (-n))).toList = sign true ++ (Written.ofNat n).chars := by
  rw [Num.text, Text.decimal_neg h, chars_ofNat]
  simp [sign]

theorem natCast_or_neg (i : Int) : (∃ n : Nat, i = n) ∨ ∃ n : Nat, 0 < n ∧ i = -n := by
  rcases Int.lt_or_le i 0 with hneg | hpos
  · exact .inr ⟨i.natAbs, by omega, by omega⟩
  · exact .inl (Int.eq_ofNat_of_zero_le hpos)

/-! ## Decimals -/

/-- A decimal in positional form. -/
def Numeral.Written.positional (d : Decimal) : Written :=
  let ds := Text.digits d.digits
  if d.point ≤ 0 then ⟨['0'], List.replicate (-d.point).toNat '0' ++ ds, none⟩
  else if (ds.length : Int) ≤ d.point then
    ⟨ds ++ List.replicate (d.point.toNat - ds.length) '0', ['0'], none⟩
  else ⟨ds.take d.point.toNat, ds.drop d.point.toNat, none⟩

/-- A decimal in scientific form. -/
def Numeral.Written.scientific (d : Decimal) : Written :=
  let ds := Text.digits d.digits
  let exponent := d.point - 1
  ⟨ds.take 1, ds.drop 1, some (decide (exponent < 0), Text.digits exponent.natAbs)⟩

variable {d : Decimal}

theorem chars_positional (d : Decimal) :
    (Number.positional ".0" d).toList = (Written.positional d).chars := by
  unfold Number.positional Written.positional
  dsimp only
  split_ifs with hlow hhigh
  · obtain ⟨c, cs, hcs⟩ := List.exists_cons_of_ne_nil (isRun_digits d.digits).1
    cases hzeros : List.replicate (-d.point).toNat '0' with
    | nil => simp [Written.chars, Text.zeros, hzeros, hcs, pointed, lettered]
    | cons z zs => simp [Written.chars, Text.zeros, hzeros, pointed, lettered]
  · simp [Written.chars, Text.zeros, pointed, lettered]
  · have hdrop : (Text.digits d.digits).drop d.point.toNat ≠ [] := by
      rw [Ne, List.drop_eq_nil_iff]
      omega
    obtain ⟨c, cs, hcs⟩ := List.exists_cons_of_ne_nil hdrop
    simp [Written.chars, hcs, pointed, lettered]

theorem chars_scientific (d : Decimal) :
    (Number.scientific d).toList = (Written.scientific d).chars := by
  unfold Number.scientific Written.scientific
  obtain ⟨c, cs, hcs⟩ := List.exists_cons_of_ne_nil (isRun_digits d.digits).1
  dsimp only
  rw [hcs, Text.decimal_natCast]
  by_cases hsign : 0 ≤ d.point - 1
  · rw [if_pos hsign]
    cases cs <;> simp [Written.chars, Int.not_lt.2 hsign, pointed, lettered]
  · rw [if_neg hsign]
    cases cs <;> simp [Written.chars, Int.not_le.1 hsign, pointed, lettered]

theorem head?_append_ne {cs : List Char} (r : List Char) (h : cs ≠ []) (hc : cs.head? ≠ some '0') :
    (cs ++ r).head? ≠ some '0' := by
  obtain ⟨c, cs, rfl⟩ := List.exists_cons_of_ne_nil h
  exact hc

theorem isDigit_replicate_zero {n : Nat} : ∀ c ∈ List.replicate n '0', c.isDigit := by
  intro c hc
  rw [(List.mem_replicate.1 hc).2]
  rfl

theorem sound_positional (h : 0 < d.digits) : (Written.positional d).Sound := by
  have hne : Text.digits d.digits ≠ [] := (isRun_digits d.digits).1
  have hdigit : ∀ c ∈ Text.digits d.digits, c.isDigit := (isRun_digits d.digits).2
  have hlead : (Text.digits d.digits).head? ≠ some '0' := Text.head?_digits_ne_zero h
  unfold Written.positional
  dsimp only
  split_ifs with hlow hhigh
  · refine ⟨⟨by simp, by simp [Char.isDigit]⟩, .inl rfl, ?_, by simp⟩
    intro c hc
    rcases List.mem_append.1 hc with hc | hc
    · exact isDigit_replicate_zero c hc
    · exact hdigit c hc
  · refine ⟨⟨by simp [hne], ?_⟩, .inr (head?_append_ne _ hne hlead), by simp [Char.isDigit], by simp⟩
    intro c hc
    rcases List.mem_append.1 hc with hc | hc
    · exact hdigit c hc
    · exact isDigit_replicate_zero c hc
  · obtain ⟨k, hk⟩ : ∃ k, d.point.toNat = k + 1 := ⟨d.point.toNat - 1, by omega⟩
    obtain ⟨c, cs, hcs⟩ := List.exists_cons_of_ne_nil hne
    refine ⟨⟨by simp [hcs, hk], fun c hc => hdigit c (List.mem_of_mem_take hc)⟩, .inr ?_,
      fun c hc => hdigit c (List.mem_of_mem_drop hc), by simp⟩
    rw [hcs, hk, List.take_succ_cons]
    rw [hcs] at hlead
    exact hlead

theorem sound_scientific (h : 0 < d.digits) : (Written.scientific d).Sound := by
  have hdigit : ∀ c ∈ Text.digits d.digits, c.isDigit := (isRun_digits d.digits).2
  have hlead : (Text.digits d.digits).head? ≠ some '0' := Text.head?_digits_ne_zero h
  obtain ⟨c, cs, hcs⟩ := List.exists_cons_of_ne_nil (isRun_digits d.digits).1
  unfold Written.scientific
  dsimp only
  rw [hcs] at hdigit hlead ⊢
  refine ⟨⟨by simp, fun c hc => hdigit c (List.mem_of_mem_take hc)⟩, .inr hlead,
    fun c hc => hdigit c (List.mem_of_mem_drop hc), ?_⟩
  intro e he
  cases he
  exact isRun_digits _

/-- The numeral of a positive decimal. -/
def Numeral.Written.ofDecimal (d : Decimal) : Written :=
  if -5 ≤ d.point - 1 ∧ d.point - 1 ≤ 15 then .positional d else .scientific d

theorem chars_ofDecimal (d : Decimal) : (jsonDecimal d).toList = (Written.ofDecimal d).chars := by
  unfold jsonDecimal Written.ofDecimal
  dsimp only
  split_ifs
  · exact chars_positional d
  · exact chars_scientific d

theorem sound_ofDecimal (h : 0 < d.digits) : (Written.ofDecimal d).Sound := by
  unfold Written.ofDecimal
  split_ifs
  · exact sound_positional h
  · exact sound_scientific h

/-! ## Doubles -/

/-- The numeral of a zero. -/
def Numeral.Written.zero : Written := ⟨['0'], ['0'], none⟩

theorem sound_zero : Written.zero.Sound := by
  have hdigit : ∀ c ∈ ['0'], c.isDigit := by simp [Char.isDigit]
  exact ⟨⟨List.cons_ne_nil _ _, hdigit⟩, .inl rfl, hdigit, by simp [Written.zero]⟩

theorem toList_signed (negative : Bool) (s : String) :
    (signed negative s).toList = sign negative ++ s.toList := by
  cases negative <;> simp [signed, sign]

theorem split_of_value {x : Double} {negative : Bool} {m : Nat} {e : Int}
    (h : x.value = .finite negative m e) :
    negative = decide (double.signBit ≤ x.bits.toNat) ∧
      x.bits.toNat % double.signBit < double.infinite ∧
      double.split (x.bits.toNat % double.signBit) = (m, e) := split_of_decode h

theorem toList_json_zero {x : Double} {negative : Bool} {e : Int}
    (h : x.value = .finite negative 0 e) : x.json.toList = sign negative ++ Written.zero.chars := by
  unfold Double.json Double.json?
  rw [h]
  exact toList_signed negative "0.0"

theorem toList_json {x : Double} {negative : Bool} {m : Nat} {e : Int}
    (h : x.value = .finite negative m e) (hm : m ≠ 0) :
    x.json.toList =
      sign negative ++ (Written.ofDecimal (shortest double (x.bits.toNat % double.signBit))).chars := by
  unfold Double.json Double.json?
  rw [h]
  dsimp only
  rw [if_neg hm, ← chars_ofDecimal]
  exact toList_signed negative _

theorem digits_shortest_of_value {x : Double} {negative : Bool} {m : Nat} {e : Int}
    (h : x.value = .finite negative m e) (hm : m ≠ 0) :
    0 < (shortest double (x.bits.toNat % double.signBit)).digits := by
  refine digits_shortest_pos ?_
  rw [(split_of_value h).2.2]
  exact Nat.pos_of_ne_zero hm

/-- The text of a finite double is a numeral. -/
theorem exists_written_json {x : Double} {negative : Bool} {m : Nat} {e : Int}
    (h : x.value = .finite negative m e) :
    ∃ w : Written, w.Sound ∧ x.json.toList = sign negative ++ w.chars := by
  by_cases hm : m = 0
  · subst hm
    exact ⟨.zero, sound_zero, toList_json_zero h⟩
  · exact ⟨_, sound_ofDecimal (digits_shortest_of_value h hm), toList_json h hm⟩

end SqlGate.Json
