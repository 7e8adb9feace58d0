import SqlGate.Proofs.Json.RoundTrip

/-!
# Doubles that are read back

A numeral is read as a significand and a power of ten, which are multiplied or divided as doubles.
If both are exact, only the last step rounds, and the result is the nearest double. So a double is
read back if the significand of its text has no more than 53 bits and the exponent is no greater than
that of the largest exact power of ten (`kept_of_short`).
-/

namespace SqlGate.Json

open Number Numeral

/-! ## Exact doubles -/

theorem infinite_lt_signBit : double.infinite < double.signBit := by decide

theorem toNat_ofMagnitude {magnitude : Nat} (h : magnitude < double.signBit) (negative : Bool) :
    (Double.ofMagnitude negative magnitude).bits.toNat =
      magnitude + if negative then double.signBit else 0 := by
  have hbit : double.signBit = 9223372036854775808 := rfl
  have hlt : magnitude + (if negative then double.signBit else 0) < 2 ^ 64 := by
    split_ifs <;> omega
  exact UInt64.toNat_ofNat_of_lt' hlt

theorem value_ofMagnitude {magnitude : Nat} (h : magnitude < double.infinite) (negative : Bool) :
    (Double.ofMagnitude negative magnitude).value =
      .finite negative (double.split magnitude).1 (double.split magnitude).2 := by
  have hsign := Nat.lt_trans h infinite_lt_signBit
  unfold Double.value Format.decode
  dsimp only
  rw [toNat_ofMagnitude hsign]
  cases negative with
  | true => simp [Nat.mod_eq_of_lt hsign, h]
  | false => simp [Nat.mod_eq_of_lt hsign, h, Nat.not_le.2 hsign]

/-- A double whose value is a natural number. -/
def Exact (x : Double) (n : Nat) : Prop :=
  (doubleQuotient x).2 ≠ 0 ∧ (doubleQuotient x).1 = n * (doubleQuotient x).2

theorem timesDouble_exact {x y : Double} {s t : Nat} (hx : Exact x s) (hy : Exact y t) :
    timesDouble x y = Double.ofQuotient false (s * t) 1 := by
  obtain ⟨hx₀, hx⟩ := hx
  obtain ⟨hy₀, hy⟩ := hy
  unfold timesDouble Double.ofQuotient
  dsimp only
  rw [hx, hy, Nat.mul_mul_mul_comm]
  refine congrArg (Double.ofMagnitude false) (nearest_congr (Nat.mul_ne_zero hx₀ hy₀) Nat.one_ne_zero ?_)
  rw [Nat.mul_one]

theorem overDouble_exact {x y : Double} {s t : Nat} (hx : Exact x s) (hy : Exact y t)
    (ht : t ≠ 0) : overDouble x y = Double.ofQuotient false s t := by
  obtain ⟨hx₀, hx⟩ := hx
  obtain ⟨hy₀, hy⟩ := hy
  unfold overDouble Double.ofQuotient
  dsimp only
  rw [hx, hy]
  refine congrArg (Double.ofMagnitude false)
    (nearest_congr (Nat.mul_ne_zero hx₀ (Nat.mul_ne_zero ht hy₀)) ht ?_)
  rw [Nat.mul_assoc, Nat.mul_assoc, Nat.mul_comm _ t]

theorem exact_powerOfTen : ∀ k < 23, Exact (powerOfTen k) (10 ^ k) := by
  unfold Exact
  decide +kernel

theorem exact_ofMagnitude {m : Nat} {e : Int} (h : IsSplit double m e) (hm : m ≠ 0)
    (hfinite : (e - double.least).toNat * double.hidden + m < double.infinite) {n : Nat}
    (hn : n * (binaryQuotient m e).2 = (binaryQuotient m e).1) :
    Exact (Double.ofQuotient false n 1) n := by
  have hp : 0 < double.precision := by decide
  obtain ⟨-, hden⟩ := binaryQuotient_ne_zero e hm
  have hnearest : double.nearest n 1 = (e - double.least).toNat * double.hidden + m := by
    rw [nearest_congr Nat.one_ne_zero hden (hn.trans (Nat.mul_one _).symm), h.nearest hp hm]
    exact Nat.min_eq_left (Nat.le_of_lt hfinite)
  have hquotient : doubleQuotient (Double.ofQuotient false n 1) = binaryQuotient m e := by
    unfold doubleQuotient Double.ofQuotient
    rw [hnearest, value_ofMagnitude hfinite, h.split_join hp]
  unfold Exact
  rw [hquotient]
  exact ⟨hden, hn.symm⟩

theorem exact_of_short {n : Nat} (hpos : n ≠ 0) (h : n < 2 ^ 53) :
    Exact (Double.ofQuotient false n 1) n := by
  have hlog : n.log2 < 53 := (Nat.log2_lt hpos).2 h
  obtain ⟨k, hk⟩ : ∃ k, n.log2 + k = 52 := ⟨52 - n.log2, by omega⟩
  have hlow : 2 ^ 52 ≤ n * 2 ^ k := by
    rw [← hk, Nat.pow_add]
    exact Nat.mul_le_mul_right _ (Nat.log2_self_le hpos)
  have hhigh : n * 2 ^ k < 2 ^ 53 := by
    have hsucc : n.log2 + 1 + k = 53 := by omega
    rw [← hsucc, Nat.pow_add]
    exact Nat.mul_lt_mul_of_pos_right Nat.lt_log2_self (Nat.two_pow_pos k)
  have hleast : double.least = -1074 := rfl
  have hhidden : double.hidden = 2 ^ 52 := rfl
  have hinfinite : double.infinite = 2047 * 2 ^ 52 := rfl
  have hsplit : IsSplit double (n * 2 ^ k) (-(k : Int)) :=
    ⟨by omega, hhigh, .inr (hhidden ▸ hlow)⟩
  have hexponent : (-(k : Int) - double.least).toNat ≤ 1074 := by omega
  refine exact_ofMagnitude hsplit (Nat.mul_ne_zero hpos (Nat.ne_of_gt (Nat.two_pow_pos k))) ?_ ?_
  · rw [hhidden, hinfinite]
    omega
  · unfold binaryQuotient
    split_ifs with hzero
    · obtain rfl : k = 0 := by omega
      simp
    · rw [Int.neg_neg, Int.toNat_natCast]
      rfl

/-! ## Scaling by a power of ten -/

theorem isInfinite_ofQuotient {num den : Nat} (h : double.nearest num den < double.infinite) :
    (Double.ofQuotient false num den).isInfinite = false := by
  unfold Double.ofQuotient Double.isInfinite
  rw [value_ofMagnitude h]

/-- Scaling an exact significand by an exact power of ten rounds once. -/
theorem scaled_of_short {s : Nat} {e : Int} (hpos : s ≠ 0) (hs : s < 2 ^ 53) (he : e.natAbs ≤ 22)
    (hfinite : (Decimal.mk s e).nearest double < double.infinite) (negative : Bool) :
    scaled negative s e =
      some (Double.ofMagnitude negative ((Decimal.mk s e).nearest double)) := by
  have hexact := exact_of_short hpos hs
  have hpower := exact_powerOfTen e.natAbs (by omega)
  have hten : 10 ^ e.natAbs ≠ 0 := Nat.ne_of_gt (Nat.pow_pos (by decide))
  have hscale : scaleTen 5 (Double.ofQuotient false s 1) e =
      some (Double.ofMagnitude false ((Decimal.mk s e).nearest double)) := by
    unfold Decimal.nearest Double.decimalQuotient at hfinite ⊢
    rw [scaleTen, if_pos (by omega), timesDouble_exact hexact hpower,
      overDouble_exact hexact hpower hten]
    dsimp only at hfinite ⊢
    split_ifs at hfinite ⊢ with hsign hinfinite
    · have hfalse := isInfinite_ofQuotient hfinite
      have habs : e.toNat = e.natAbs := by omega
      rw [habs] at hfalse
      exact nomatch hinfinite.symm.trans hfalse
    · have habs : e.toNat = e.natAbs := by omega
      rw [habs]
      rfl
    · have habs : (-e).toNat = e.natAbs := by omega
      rw [habs]
      rfl
  unfold scaled
  rw [hscale, Option.map_some, toNat_ofMagnitude (Nat.lt_trans hfinite infinite_lt_signBit)]
  rfl

/-! ## What is read of a decimal -/

/-- The exponent of a numeral. -/
def Numeral.Written.shift (w : Written) : Int :=
  match w.exponent with
  | none => 0
  | some (negative, ds) =>
    if negative then -(Nat.ofDigitChars 10 ds 0 : Int) else Nat.ofDigitChars 10 ds 0

/-- The decimal that a numeral stands for. -/
def Numeral.Written.decimal (w : Written) : Decimal :=
  ⟨Nat.ofDigitChars 10 (w.whole ++ w.part) 0, w.shift - w.part.length⟩

/-- A numeral with a fraction or an exponent, whose digits fit 64 bits, is read as its decimal. -/
theorem outcome_of_le {w : Written} (negative : Bool) (h : w.decimal.digits ≤ maxUnsigned)
    (hexponent : ∀ e ∈ w.exponent, Nat.ofDigitChars 10 e.2 0 ≤ maxExponent)
    (hsome : w.part ≠ [] ∨ w.exponent ≠ none) :
    w.outcome negative = (scaled negative w.decimal.digits w.decimal.exponent).map .real := by
  obtain ⟨whole, part, e⟩ := w
  have hscaled : ∀ significand, scaledBy negative significand (-(part.length : Int)) e =
      (scaled negative significand (Written.decimal ⟨whole, part, e⟩).exponent).map .real := by
    intro significand
    unfold Written.decimal Written.shift
    match e with
    | none => simp [scaledBy]
    | some (sign, ds) =>
        rw [scaledBy, accumulate_values (hexponent (sign, ds) rfl)]
        cases sign <;> simp [Int.add_comm, Int.sub_eq_add_neg]
  rw [← hscaled]
  dsimp only [Written.decimal] at h hsome ⊢
  rw [Nat.ofDigitChars_append] at h ⊢
  rw [Written.outcome, accumulate_values (Nat.le_trans (ofDigitChars_le _) h)]
  dsimp only
  cases part with
  | nil =>
      cases e with
      | none => simp at hsome
      | some x => rfl
  | cons d ds =>
      rw [followed, extended, accumulate_values h]
      simp

theorem ofDigitChars_replicate_zero (n k : Nat) :
    Nat.ofDigitChars 10 (List.replicate k '0') n = n * 10 ^ k := by
  induction k generalizing n with
  | zero => simp
  | succ k ih =>
      have hzero : '0'.toNat - '0'.toNat = 0 := rfl
      rw [List.replicate_succ, Nat.ofDigitChars_cons, ih, Nat.pow_succ', hzero, Nat.add_zero,
        Nat.mul_comm 10 n, Nat.mul_assoc]

section Taken

variable {d : Decimal}

/-- The significand and the exponent that reading takes from the written form of a decimal. -/
def taken (d : Decimal) : Nat × Int :=
  if 0 ≤ d.exponent ∧ d.point ≤ 16 then (d.digits * 10 ^ (d.exponent.toNat + 1), -1)
  else (d.digits, d.exponent)

theorem taken_of_neg (h : d.exponent < 0) : taken d = (d.digits, d.exponent) := by
  rw [taken, if_neg (by omega)]

theorem taken_of_nonneg (h : 0 ≤ d.exponent) (hpoint : d.point ≤ 16) :
    taken d = (d.digits * 10 ^ (d.exponent.toNat + 1), -1) := by
  rw [taken, if_pos ⟨h, hpoint⟩]

/-- The value of a decimal is taken from its written form. -/
theorem nearest_taken (f : Format) (d : Decimal) :
    (Decimal.mk (taken d).1 (taken d).2).nearest f = d.nearest f := by
  unfold taken
  split_ifs with h
  · have hexponent : ((d.exponent.toNat + 1 : Nat) : Int) - (1 : Nat) = d.exponent := by omega
    refine Decimal.nearest_congr (show ((0 : Nat) : Int) - (1 : Nat) = -1 by rfl) hexponent ?_
    simp
  · rfl

theorem decimal_positional (hpoint : d.point ≤ 16) :
    (Written.positional d).decimal = ⟨(taken d).1, (taken d).2⟩ := by
  have hdigits : Nat.ofDigitChars 10 (Text.digits d.digits) 0 = d.digits :=
    Text.ofDigitChars_digits d.digits
  have hlength : 0 < (Text.digits d.digits).length := List.length_pos_iff.2 (isRun_digits d.digits).1
  have hdef : d.point = (Text.digits d.digits).length + d.exponent := rfl
  unfold Written.positional
  dsimp only
  split_ifs with hlow hwhole
  · have hvalue : Nat.ofDigitChars 10
        (['0'] ++ (List.replicate (-d.point).toNat '0' ++ Text.digits d.digits)) 0 = d.digits := by
      rw [← List.append_assoc, Nat.ofDigitChars_append, ← List.replicate_one,
        List.replicate_append_replicate, ofDigitChars_replicate_zero, Nat.zero_mul, hdigits]
    have hexponent : 0 - ((List.replicate (-d.point).toNat '0' ++ Text.digits d.digits).length : Int) =
        d.exponent := by
      rw [List.length_append, List.length_replicate]
      omega
    rw [taken_of_neg (by omega)]
    exact congrArg₂ Decimal.mk hvalue hexponent
  · have hvalue : Nat.ofDigitChars 10 (Text.digits d.digits ++
        List.replicate (d.point.toNat - (Text.digits d.digits).length) '0' ++ ['0']) 0 =
          d.digits * 10 ^ (d.exponent.toNat + 1) := by
      have hzeros : d.point.toNat - (Text.digits d.digits).length = d.exponent.toNat := by omega
      rw [List.append_assoc, ← List.replicate_succ', Nat.ofDigitChars_append, hdigits,
        ofDigitChars_replicate_zero, hzeros]
    rw [taken_of_nonneg (by omega) hpoint]
    exact congrArg₂ Decimal.mk hvalue rfl
  · have hexponent : 0 - (((Text.digits d.digits).drop d.point.toNat).length : Int) = d.exponent := by
      rw [List.length_drop]
      omega
    rw [taken_of_neg (by omega)]
    refine congrArg₂ Decimal.mk ?_ hexponent
    rw [List.take_append_drop, hdigits]

theorem decimal_scientific (hpoint : 16 < d.point ∨ d.exponent < 0) :
    (Written.scientific d).decimal = ⟨(taken d).1, (taken d).2⟩ := by
  have hlength : 0 < (Text.digits d.digits).length := List.length_pos_iff.2 (isRun_digits d.digits).1
  have hdef : d.point = (Text.digits d.digits).length + d.exponent := rfl
  have htaken : taken d = (d.digits, d.exponent) := by
    rw [taken, if_neg (by omega)]
  have hshift : Nat.ofDigitChars 10 (Text.digits (d.point - 1).natAbs) 0 = (d.point - 1).natAbs :=
    Text.ofDigitChars_digits _
  rw [htaken]
  refine congrArg₂ Decimal.mk ?_ ?_
  · dsimp only [Written.scientific]
    rw [List.take_append_drop]
    exact Text.ofDigitChars_digits d.digits
  · dsimp only [Written.scientific, Written.shift]
    rw [hshift, List.length_drop]
    split_ifs with hsign
    · have hneg := of_decide_eq_true hsign
      omega
    · have hpos := of_decide_eq_false (Bool.eq_false_iff.2 hsign)
      omega

/-- The written form of a decimal stands for a decimal of its value. -/
theorem decimal_ofDecimal (d : Decimal) :
    (Written.ofDecimal d).decimal = ⟨(taken d).1, (taken d).2⟩ := by
  have hdef : d.point = (Text.digits d.digits).length + d.exponent := rfl
  have hlength : 0 < (Text.digits d.digits).length := List.length_pos_iff.2 (isRun_digits d.digits).1
  unfold Written.ofDecimal
  split_ifs with hrange
  · exact decimal_positional (by omega)
  · exact decimal_scientific (by omega)

theorem part_positional_ne_nil (d : Decimal) : (Written.positional d).part ≠ [] := by
  unfold Written.positional
  dsimp only
  split_ifs with hlow hwhole
  · simp [(isRun_digits d.digits).1]
  · exact List.cons_ne_nil _ _
  · rw [Ne, List.drop_eq_nil_iff]
    omega

/-- A decimal is written with a fraction or an exponent. -/
theorem part_or_exponent_ofDecimal (d : Decimal) :
    (Written.ofDecimal d).part ≠ [] ∨ (Written.ofDecimal d).exponent ≠ none := by
  unfold Written.ofDecimal
  split_ifs
  · exact .inl (part_positional_ne_nil d)
  · exact .inr (Option.some_ne_none _)

end Taken

/-! ## Short doubles -/

theorem outcome_ofDecimal {d : Decimal} (negative : Bool) (hdigits : (taken d).1 < 2 ^ 53)
    (hexponent : (taken d).2.natAbs ≤ 22) :
    (Written.ofDecimal d).outcome negative =
      (scaled negative (taken d).1 (taken d).2).map .real := by
  have hmax : (Written.ofDecimal d).decimal.digits ≤ maxUnsigned := by
    rw [decimal_ofDecimal, maxUnsigned]
    dsimp only
    omega
  rw [outcome_of_le negative hmax ?_ (part_or_exponent_ofDecimal d), decimal_ofDecimal]
  intro e he
  unfold Written.ofDecimal at he
  split_ifs at he with hrange
  · unfold Written.positional at he
    dsimp only at he
    split_ifs at he <;> cases he
  · cases he
    have hdef : d.point = (Text.digits d.digits).length + d.exponent := rfl
    have hlength : 0 < (Text.digits d.digits).length :=
      List.length_pos_iff.2 (isRun_digits d.digits).1
    rw [taken, if_neg (by omega)] at hdigits hexponent
    have hshort : (Text.digits d.digits).length ≤ 16 :=
      (Nat.length_toDigits_le_iff (by decide) (by decide)).2 (by omega)
    refine Nat.le_trans (Nat.le_of_eq (Text.ofDigitChars_digits _)) ?_
    rw [maxExponent]
    omega

/-- A finite double, zero or one whose text is read as an exact significand and an exact power of
ten. -/
def Short (x : Double) : Prop :=
  ∃ negative m e, x.value = .finite negative m e ∧
    (m = 0 ∨ (taken (shortest double (x.bits.toNat % double.signBit))).1 < 2 ^ 53 ∧
      (taken (shortest double (x.bits.toNat % double.signBit))).2.natAbs ≤ 22)

theorem ofMagnitude_mod (x : Double) :
    Double.ofMagnitude (decide (double.signBit ≤ x.bits.toNat)) (x.bits.toNat % double.signBit) =
      x := by
  have hbit : double.signBit = 9223372036854775808 := rfl
  have hbits := x.bits.toNat_lt
  have hsum : x.bits.toNat % double.signBit +
      (if decide (double.signBit ≤ x.bits.toNat) = true then double.signBit else 0) =
        x.bits.toNat := by
    split_ifs with h
    · have hle := of_decide_eq_true h
      rw [hbit] at hle ⊢
      omega
    · have hlt := of_decide_eq_false (Bool.eq_false_iff.2 h)
      exact Nat.mod_eq_of_lt (Nat.not_le.1 hlt)
  unfold Double.ofMagnitude
  rw [hsum, UInt64.ofNat_toNat]

theorem outcome_zero (negative : Bool) :
    Written.zero.outcome negative = some (.real (Double.zero negative)) := by
  cases negative <;> decide +kernel

/-- A short double is read back. -/
theorem kept_of_short {x : Double} (h : Short x) : Kept x := by
  obtain ⟨negative, m, e, hvalue, hshort⟩ := h
  obtain ⟨rfl, hfinite, hsplit⟩ := split_of_value hvalue
  by_cases hm : m = 0
  · subst hm
    have hzero : x.bits.toNat % double.signBit = 0 := (eq_zero_iff_of_split hsplit).1 rfl
    rw [Kept, ofString?_numeral sound_zero (toList_json_zero hvalue), outcome_zero, Double.zero,
      ← hzero, ofMagnitude_mod]
    rfl
  · obtain ⟨hdigits, hexponent⟩ := hshort.resolve_left hm
    have hpos : x.bits.toNat % double.signBit ≠ 0 := mt (eq_zero_iff_of_split hsplit).2 hm
    have hnearest := nearest_shortest (by decide) hpos hfinite
    rw [← nearest_taken] at hnearest
    have htaken : (taken (shortest double (x.bits.toNat % double.signBit))).1 ≠ 0 := by
      intro hzero
      rw [nearest_of_digits_eq_zero hzero] at hnearest
      exact hpos hnearest.symm
    rw [Kept, ofString?_numeral (sound_ofDecimal (digits_shortest_of_value hvalue hm))
      (toList_json hvalue hm), outcome_ofDecimal _ hdigits hexponent,
      scaled_of_short htaken hdigits hexponent (by rw [hnearest]; exact hfinite), hnearest,
      ofMagnitude_mod]
    rfl

/-- A significand of 54 bits, and the last digit comes out different. -/
example : (Double.mk 0x405704e959e9408c).json = "92.07674262789277" ∧
    (ofString? "92.07674262789277").map text = some "92.07674262789276" := by
  decide +kernel

end SqlGate.Json
