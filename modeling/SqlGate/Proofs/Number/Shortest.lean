import Mathlib.Algebra.Group.Nat.Defs
import Mathlib.Tactic.SplitIfs
import SqlGate.Number.Shortest
import SqlGate.Number.Text

/-!
# Rounding and the shortest decimal

## Rounding to the nearest number

What a quotient is rounded to does not depend on how the quotient is written (`nearest_congr`), and a
number of the format is rounded to itself (`nearest_split`). Both follow from what the exponent of a
quotient is: the least one of the format at which the significand is not too long (`IsExponent`).
-/

namespace SqlGate.Number

variable {num den num' den' : Nat} {k k' e e' : Int}

/-! ## Quotients and powers of two -/

/-- `num / den < 2 ^ k`. -/
def Below (num den : Nat) (k : Int) : Prop := num * 2 ^ (-k).toNat < den * 2 ^ k.toNat

/-- Any two powers of two will do that are so far apart. -/
theorem below_iff {a b : Nat} (h : (b : Int) - a = k) :
    Below num den k ↔ num * 2 ^ a < den * 2 ^ b := by
  obtain ⟨c, ha, hb⟩ : ∃ c, a = (-k).toNat + c ∧ b = k.toNat + c :=
    ⟨min a b, by omega, by omega⟩
  rw [Below, ha, hb, Nat.pow_add, Nat.pow_add, ← Nat.mul_assoc, ← Nat.mul_assoc]
  exact (Nat.mul_lt_mul_right (Nat.two_pow_pos c)).symm

theorem Below.mono (h : Below num den k) (hk : k ≤ k') : Below num den k' := by
  obtain ⟨j, rfl⟩ := Int.le.dest hk
  have hlater : Below num den (k + j) ↔ num * 2 ^ (-k).toNat < den * 2 ^ (k.toNat + j) :=
    below_iff (by omega)
  refine hlater.2 (Nat.lt_of_lt_of_le h (Nat.mul_le_mul_left den ?_))
  exact Nat.pow_le_pow_right (by decide) (Nat.le_add_right _ j)

theorem below_mul_iff {c : Nat} (hc : 0 < c) : Below (c * num) (c * den) k ↔ Below num den k := by
  rw [Below, Below, Nat.mul_assoc, Nat.mul_assoc]
  exact Nat.mul_lt_mul_left hc

theorem below_log2 (num : Nat) (hden : den ≠ 0) :
    Below num den ((num.log2 : Int) - den.log2 + 1) := by
  refine (below_iff (show ((num.log2 + 1 : Nat) : Int) - (den.log2 : Nat) = _ by omega)).2 ?_
  calc num * 2 ^ den.log2
      < 2 ^ (num.log2 + 1) * 2 ^ den.log2 :=
        Nat.mul_lt_mul_of_pos_right Nat.lt_log2_self (Nat.two_pow_pos _)
    _ ≤ 2 ^ (num.log2 + 1) * den := Nat.mul_le_mul_left _ (Nat.log2_self_le hden)
    _ = den * 2 ^ (num.log2 + 1) := Nat.mul_comm _ _

theorem not_below_log2 (den : Nat) (hnum : num ≠ 0) :
    ¬ Below num den ((num.log2 : Int) - den.log2 - 1) := by
  intro h
  have hlt := (below_iff (show ((num.log2 : Nat) : Int) - (den.log2 + 1 : Nat) = _ by omega)).1 h
  have hle : den * 2 ^ num.log2 ≤ num * 2 ^ (den.log2 + 1) := by
    calc den * 2 ^ num.log2
        ≤ 2 ^ (den.log2 + 1) * num :=
          Nat.mul_le_mul (Nat.le_of_lt Nat.lt_log2_self) (Nat.log2_self_le hnum)
      _ = num * 2 ^ (den.log2 + 1) := Nat.mul_comm _ _
  exact absurd hlt (Nat.not_lt.2 hle)

/-! ## The exponent of a quotient -/

/-- The least exponent of a format at which the significand of a quotient is not too long. -/
structure IsExponent (f : Format) (num den : Nat) (e : Int) : Prop where
  least : f.least ≤ e
  fits : Below num den (e + f.precision)
  minimal : e = f.least ∨ ¬ Below num den (e - 1 + f.precision)

variable {f : Format}

theorem IsExponent.le (h : IsExponent f num den e) (h' : IsExponent f num den e') : e ≤ e' := by
  rcases h.minimal with heq | hmin
  · exact heq ▸ h'.least
  · exact Int.not_lt.1 fun hlt => hmin (h'.fits.mono (by omega))

theorem IsExponent.unique (h : IsExponent f num den e) (h' : IsExponent f num den e') : e = e' :=
  Int.le_antisymm (h.le h') (h'.le h)

theorem scaleDown_lt_iff (e : Int) (hden : 0 < den) :
    (scaleDown num den e).1 / (scaleDown num den e).2 < 2 ^ f.precision ↔
      Below num den (e + f.precision) := by
  unfold scaleDown
  split_ifs with he
  · have hpos : 0 < den * Nat.pow 2 e.toNat := Nat.mul_pos hden (Nat.two_pow_pos _)
    have hright : 2 ^ f.precision * (den * Nat.pow 2 e.toNat) = den * 2 ^ (e.toNat + f.precision) := by
      rw [Nat.pow_add, Nat.mul_left_comm, Nat.mul_comm (2 ^ f.precision)]
      rfl
    rw [below_iff (show ((e.toNat + f.precision : Nat) : Int) - (0 : Nat) = _ by omega),
      Nat.div_lt_iff_lt_mul hpos, hright, Nat.pow_zero, Nat.mul_one]
  · rw [below_iff (show ((f.precision : Nat) : Int) - ((-e).toNat : Nat) = _ by omega),
      Nat.div_lt_iff_lt_mul hden, Nat.mul_comm den]
    rfl

theorem isExponent_exponentOf (hnum : num ≠ 0) (hden : den ≠ 0) :
    IsExponent f num den (f.exponentOf num den) := by
  have habove := below_log2 num hden
  have hbelow := not_below_log2 den hnum
  have hfits : ∀ e, (scaleDown num den e).1 / (scaleDown num den e).2 < 2 ^ f.precision ↔
      Below num den (e + f.precision) := fun e => scaleDown_lt_iff e (Nat.pos_of_ne_zero hden)
  unfold Format.exponentOf
  dsimp only
  generalize hestimate : (num.log2 : Int) - den.log2 - f.precision = estimate
  split_ifs with hlt
  · replace hlt := (hfits _).1 hlt
    refine ⟨Int.le_max_right _ _, hlt, ?_⟩
    rcases Int.le_total estimate f.least with hle | hle
    · exact .inl (Int.max_eq_right hle)
    · rw [Int.max_eq_left hle]
      exact .inr fun h => hbelow (h.mono (by omega))
  · have hnot : ¬ Below num den (max estimate f.least + f.precision) := fun h => hlt ((hfits _).2 h)
    refine ⟨by omega, habove.mono (by omega), .inr ?_⟩
    rwa [Int.add_sub_cancel]

theorem isExponent_mul_iff {c : Nat} (hc : 0 < c) :
    IsExponent f (c * num) (c * den) e ↔ IsExponent f num den e := by
  constructor
  · rintro ⟨hleast, hfits, hmin⟩
    rw [below_mul_iff hc] at hfits hmin
    exact ⟨hleast, hfits, hmin⟩
  · rintro ⟨hleast, hfits, hmin⟩
    rw [← below_mul_iff hc] at hfits hmin
    exact ⟨hleast, hfits, hmin⟩

/-! ## The nearest number -/

theorem divNearest_mul {c : Nat} (hc : 0 < c) :
    divNearest (c * num) (c * den) = divNearest num den := by
  unfold divNearest
  rw [Nat.mul_div_mul_left _ _ hc, Nat.mul_mod_mul_left]
  have htwice : 2 * (c * (num % den)) = c * (2 * (num % den)) := Nat.mul_left_comm _ _ _
  have hlt : c * den < 2 * (c * (num % den)) ↔ den < 2 * (num % den) := by
    rw [htwice]
    exact Nat.mul_lt_mul_left hc
  have heq : 2 * (c * (num % den)) = c * den ↔ 2 * (num % den) = den := by
    rw [htwice]
    exact Nat.mul_right_inj (Nat.ne_of_gt hc)
  simp only [hlt, heq]

theorem scaleDown_mul (c num den : Nat) (e : Int) :
    scaleDown (c * num) (c * den) e = (c * (scaleDown num den e).1, c * (scaleDown num den e).2) := by
  unfold scaleDown
  split_ifs
  · rw [Nat.mul_assoc]
  · rw [Nat.mul_assoc]

theorem nearest_mul {c : Nat} (hc : 0 < c) (hden : den ≠ 0) :
    f.nearest (c * num) (c * den) = f.nearest num den := by
  by_cases hnum : num = 0
  · rw [hnum, Nat.mul_zero, Format.nearest, Format.nearest, if_pos rfl, if_pos rfl]
  · have hnum' : c * num ≠ 0 := Nat.mul_ne_zero (Nat.ne_of_gt hc) hnum
    have hden' : c * den ≠ 0 := Nat.mul_ne_zero (Nat.ne_of_gt hc) hden
    have hexponent : f.exponentOf (c * num) (c * den) = f.exponentOf num den :=
      ((isExponent_mul_iff hc).1 (isExponent_exponentOf hnum' hden')).unique
        (isExponent_exponentOf hnum hden)
    rw [Format.nearest, Format.nearest, if_neg hnum', if_neg hnum, hexponent]
    dsimp only
    rw [scaleDown_mul]
    dsimp only
    rw [divNearest_mul hc]

/-- The same quotient is rounded to the same number, however it is written. -/
theorem nearest_congr (hden : den ≠ 0) (hden' : den' ≠ 0) (h : num * den' = num' * den) :
    f.nearest num den = f.nearest num' den' := by
  rw [← nearest_mul (Nat.pos_of_ne_zero hden') hden, ← nearest_mul (Nat.pos_of_ne_zero hden) hden',
    Nat.mul_comm den' num, h, Nat.mul_comm num' den, Nat.mul_comm den' den]

theorem divNearest_le (num den : Nat) : divNearest num den ≤ num / den + 1 := by
  unfold divNearest
  dsimp only
  split_ifs <;> omega

theorem nearest_le_infinite (num den : Nat) : f.nearest num den ≤ f.infinite := by
  unfold Format.nearest
  split_ifs
  · exact Nat.zero_le _
  · exact Nat.min_le_right _ _

/-- A quotient below a power of two that is well below the greatest number is in range. -/
theorem nearest_lt_infinite (hden : den ≠ 0) (h : Below num den (e + f.precision))
    (hleast : f.least ≤ e)
    (hroom : (e - f.least).toNat * f.hidden + 2 ^ f.precision < f.infinite) :
    f.nearest num den < f.infinite := by
  unfold Format.nearest
  split_ifs with hnum
  · exact Nat.lt_of_le_of_lt (Nat.zero_le _) hroom
  · have hexponent := isExponent_exponentOf hnum hden (f := f)
    have hle : f.exponentOf num den ≤ e := by
      rcases hexponent.minimal with heq | hmin
      · exact heq ▸ hleast
      · exact Int.not_lt.1 fun hlt => hmin (h.mono (by omega))
    have hfits := (scaleDown_lt_iff _ (Nat.pos_of_ne_zero hden)).2 hexponent.fits
    have hround := divNearest_le (scaleDown num den (f.exponentOf num den)).1
      (scaleDown num den (f.exponentOf num den)).2
    have hfield : (f.exponentOf num den - f.least).toNat * f.hidden ≤
        (e - f.least).toNat * f.hidden := Nat.mul_le_mul_right _ (by omega)
    have hsum := Nat.add_le_add hfield (Nat.le_trans hround (Nat.succ_le_of_lt hfits))
    exact Nat.lt_of_le_of_lt (Nat.le_trans (Nat.min_le_left _ _) hsum) hroom

/-! ## Numbers of the format -/

theorem below_binaryQuotient_iff (m : Nat) (e : Int) (j : Nat) :
    Below (binaryQuotient m e).1 (binaryQuotient m e).2 (e + j) ↔ m < 2 ^ j := by
  unfold binaryQuotient
  split_ifs with he
  · rw [below_iff (show ((e.toNat + j : Nat) : Int) - (0 : Nat) = _ by omega), Nat.pow_zero,
      Nat.mul_one, Nat.one_mul, Nat.pow_add, Nat.mul_comm m]
    exact Nat.mul_lt_mul_left (Nat.two_pow_pos _)
  · rw [below_iff (show ((j : Nat) : Int) - ((-e).toNat : Nat) = _ by omega), Nat.mul_comm m]
    exact Nat.mul_lt_mul_left (Nat.two_pow_pos _)

theorem exists_scaleDown_binaryQuotient (m : Nat) (e : Int) : ∃ c, 0 < c ∧
    scaleDown (binaryQuotient m e).1 (binaryQuotient m e).2 e = (c * m, c * 1) := by
  unfold scaleDown binaryQuotient
  split_ifs
  · exact ⟨2 ^ e.toNat, Nat.two_pow_pos _, by rw [Nat.mul_comm m, Nat.one_mul, Nat.mul_one]; rfl⟩
  · exact ⟨2 ^ (-e).toNat, Nat.two_pow_pos _, by rw [Nat.mul_comm m, Nat.mul_one]; rfl⟩

theorem binaryQuotient_ne_zero {m : Nat} (e : Int) (hm : m ≠ 0) :
    (binaryQuotient m e).1 ≠ 0 ∧ (binaryQuotient m e).2 ≠ 0 := by
  unfold binaryQuotient
  split_ifs
  · exact ⟨Nat.mul_ne_zero hm (Nat.ne_of_gt (Nat.two_pow_pos _)), Nat.one_ne_zero⟩
  · exact ⟨hm, Nat.ne_of_gt (Nat.two_pow_pos _)⟩

theorem divNearest_one (n : Nat) : divNearest n 1 = n := by
  simp [divNearest, Nat.mod_one]

/-- A significand with an exponent of the format, which no shorter significand could have. -/
structure IsSplit (f : Format) (m : Nat) (e : Int) : Prop where
  least : f.least ≤ e
  short : m < 2 ^ f.precision
  normal : e = f.least ∨ f.hidden ≤ m

theorem hidden_add_hidden (hp : 0 < f.precision) : f.hidden + f.hidden = 2 ^ f.precision := by
  change 2 ^ (f.precision - 1) + 2 ^ (f.precision - 1) = _
  rw [← Nat.two_mul, ← Nat.pow_succ', Nat.succ_eq_add_one, Nat.sub_add_cancel hp]

/-- A number with such a significand and exponent is rounded to itself. -/
theorem IsSplit.nearest {m : Nat} (h : IsSplit f m e) (hp : 0 < f.precision) (hm : m ≠ 0) :
    f.nearest (binaryQuotient m e).1 (binaryQuotient m e).2 =
      min ((e - f.least).toNat * f.hidden + m) f.infinite := by
  obtain ⟨hnum, hden⟩ := binaryQuotient_ne_zero e hm
  have hexponent : IsExponent f (binaryQuotient m e).1 (binaryQuotient m e).2 e := by
    refine ⟨h.least, (below_binaryQuotient_iff m e _).2 h.short, h.normal.imp_right fun hle => ?_⟩
    have hprecision : e - 1 + (f.precision : Int) = e + (f.precision - 1 : Nat) := by omega
    rw [hprecision, below_binaryQuotient_iff]
    exact Nat.not_lt.2 hle
  obtain ⟨c, hc, hscale⟩ := exists_scaleDown_binaryQuotient m e
  rw [Format.nearest, if_neg hnum, (isExponent_exponentOf hnum hden).unique hexponent]
  dsimp only
  rw [hscale]
  dsimp only
  rw [divNearest_mul hc, divNearest_one]

theorem isSplit_split (f : Format) (hp : 0 < f.precision) (magnitude : Nat) :
    IsSplit f (f.split magnitude).1 (f.split magnitude).2 := by
  have hhidden : 0 < f.hidden := Nat.two_pow_pos _
  have htwice := hidden_add_hidden hp
  have hfraction := Nat.mod_lt magnitude hhidden
  unfold Format.split
  dsimp only
  split_ifs
  · exact ⟨Int.le_refl _, by dsimp only; omega, .inl rfl⟩
  · exact ⟨by dsimp only; omega, by dsimp only; omega, .inr (Nat.le_add_right _ _)⟩

/-- A significand and an exponent are got back from the number that they make. -/
theorem IsSplit.split_join {m : Nat} (h : IsSplit f m e) (hp : 0 < f.precision) :
    f.split ((e - f.least).toNat * f.hidden + m) = (m, e) := by
  have hhidden : 0 < f.hidden := Nat.two_pow_pos _
  have htwice := hidden_add_hidden hp
  obtain ⟨hleast, hshort, hnormal⟩ := h
  unfold Format.split
  dsimp only
  rcases Nat.lt_or_ge m f.hidden with hm | hm
  · obtain rfl : e = f.least := hnormal.resolve_right (Nat.not_le.2 hm)
    rw [Int.sub_self, Int.toNat_zero, Nat.zero_mul, Nat.zero_add, Nat.div_eq_of_lt hm,
      Nat.mod_eq_of_lt hm, if_pos rfl]
  · obtain ⟨r, rfl⟩ := Nat.exists_eq_add_of_le hm
    have hr : r < f.hidden := by omega
    have hjoin : (e - f.least).toNat * f.hidden + (f.hidden + r) =
        r + f.hidden * ((e - f.least).toNat + 1) := by
      rw [← Nat.add_assoc, ← Nat.add_one_mul, Nat.mul_comm, Nat.add_comm]
    rw [hjoin, Nat.add_mul_div_left _ _ hhidden, Nat.add_mul_mod_self_left, Nat.div_eq_of_lt hr,
      Nat.mod_eq_of_lt hr, Nat.zero_add, if_neg (Nat.succ_ne_zero _), Nat.add_sub_cancel]
    exact Prod.ext rfl (by dsimp only; omega)

theorem join_split (f : Format) (magnitude : Nat) :
    ((f.split magnitude).2 - f.least).toNat * f.hidden + (f.split magnitude).1 = magnitude := by
  have hdiv := Nat.div_add_mod' magnitude f.hidden
  unfold Format.split
  dsimp only
  split_ifs with hfield
  · rw [hfield, Nat.zero_mul, Nat.zero_add] at hdiv
    simpa using hdiv
  · obtain ⟨k, hk⟩ := Nat.exists_eq_add_one_of_ne_zero hfield
    have hexponent : (f.least + (k : Int) - f.least).toNat = k := by omega
    rw [hk, Nat.add_one_mul] at hdiv
    dsimp only
    rw [hk, Nat.add_sub_cancel, hexponent, ← Nat.add_assoc]
    exact hdiv

theorem split_ne_zero {magnitude : Nat} (h : magnitude ≠ 0) : (f.split magnitude).1 ≠ 0 := by
  have hhidden : 0 < f.hidden := Nat.two_pow_pos _
  unfold Format.split
  dsimp only
  split_ifs with hfield
  · intro hzero
    have hdiv := Nat.div_add_mod' magnitude f.hidden
    rw [hfield, Nat.zero_mul, Nat.zero_add] at hdiv
    exact h (hdiv.symm.trans hzero)
  · exact Nat.ne_of_gt (Nat.lt_of_lt_of_le hhidden (Nat.le_add_right _ _))

/-- A number of the format is rounded to itself. -/
theorem nearest_split {magnitude : Nat} (hp : 0 < f.precision) (hpos : magnitude ≠ 0)
    (hfinite : magnitude < f.infinite) :
    f.nearest (binaryQuotient (f.split magnitude).1 (f.split magnitude).2).1
      (binaryQuotient (f.split magnitude).1 (f.split magnitude).2).2 = magnitude := by
  rw [(isSplit_split f hp magnitude).nearest hp (split_ne_zero hpos), join_split]
  exact Nat.min_eq_left (Nat.le_of_lt hfinite)

end SqlGate.Number

/-!
## What the shortest decimal is

The shortest decimal of a positive number is a positive decimal, and it is rounded to that number:
it was found among those that are, or it is the exact value.
-/

namespace SqlGate.Number

variable {f : Format} {magnitude : Nat}

theorem nearest_of_shortestFrom {num den : Nat} {point : Int} {fuel count : Nat} {d : Decimal}
    (h : shortestFrom f magnitude num den point fuel count = some d) :
    d.nearest f = magnitude := by
  induction fuel generalizing count with
  | zero => cases h
  | succ fuel ih =>
      unfold shortestFrom at h
      cases hfind : (neighbours num den (point - count)).find?
          (fun d => d.nearest f = magnitude) with
      | none =>
          rw [hfind] at h
          exact ih h
      | some d' =>
          rw [hfind] at h
          obtain rfl : d' = d := Option.some.inj h
          simpa using List.find?_some hfind

theorem nearest_of_digits_eq_zero {d : Decimal} (h : d.digits = 0) : d.nearest f = 0 := by
  unfold Decimal.nearest Double.decimalQuotient
  split_ifs <;> simp [h, Format.nearest]

/-- Dropping zeros leaves a digit. -/
theorem digits_trim_pos {d : Decimal} (fuel : Nat) (h : 0 < d.digits) :
    0 < (d.trim fuel).digits := by
  induction fuel generalizing d with
  | zero => exact h
  | succ fuel ih =>
      unfold Decimal.trim
      split_ifs with hzero
      · exact ih (by dsimp only; omega)
      · exact h

theorem digits_exactDecimal_pos {m : Nat} (e : Int) (h : 0 < m) : 0 < (exactDecimal m e).digits := by
  unfold exactDecimal
  split_ifs
  · exact Nat.mul_pos h (Nat.pow_pos (by decide))
  · exact Nat.mul_pos h (Nat.pow_pos (by decide))

theorem split_zero : (f.split 0).1 = 0 := by
  simp [Format.split]

/-- A number is zero just where its mantissa is. -/
theorem eq_zero_iff_of_split {m : Nat} (h : f.split magnitude = (m, e)) :
    m = 0 ↔ magnitude = 0 := by
  obtain rfl : (f.split magnitude).1 = m := congrArg Prod.fst h
  constructor
  · exact fun hm => Classical.not_not.1 fun hne => split_ne_zero hne hm
  · rintro rfl
    exact split_zero

theorem split_of_decode {bits : Nat} {negative : Bool} {m : Nat}
    (h : f.decode bits = .finite negative m e) : negative = decide (f.signBit ≤ bits) ∧
      bits % f.signBit < f.infinite ∧ f.split (bits % f.signBit) = (m, e) := by
  unfold Format.decode at h
  dsimp only at h
  split_ifs at h with hfinite
  cases h
  exact ⟨rfl, hfinite, rfl⟩

theorem digits_getD_pos {num den m : Nat} {point e : Int} (fuel count : Nat)
    (hmagnitude : magnitude ≠ 0) (h : 0 < m) :
    0 < ((shortestFrom f magnitude num den point fuel count).getD (exactDecimal m e)).digits := by
  cases hfrom : shortestFrom f magnitude num den point fuel count with
  | none => exact digits_exactDecimal_pos e h
  | some d =>
      refine Nat.pos_of_ne_zero fun hzero => hmagnitude ?_
      rw [← nearest_of_shortestFrom hfrom]
      exact nearest_of_digits_eq_zero hzero

theorem digits_shortest_pos (h : 0 < (f.split magnitude).1) :
    0 < (shortest f magnitude).digits := by
  have hmagnitude : magnitude ≠ 0 := by
    rintro rfl
    rw [split_zero] at h
    exact absurd h (Nat.lt_irrefl 0)
  unfold shortest
  generalize f.split magnitude = split at h ⊢
  obtain ⟨m, e⟩ := split
  exact digits_trim_pos _ (digits_getD_pos 17 1 hmagnitude h)

/-! ## What it is rounded to -/

/-- A decimal as a quotient of any two powers of ten that are so far apart. -/
theorem decimalQuotient_mul (n : Nat) {e : Int} {x y : Nat} (h : (x : Int) - y = e) :
    (Double.decimalQuotient n e).1 * 10 ^ y = n * 10 ^ x * (Double.decimalQuotient n e).2 := by
  unfold Double.decimalQuotient
  split_ifs with he
  · obtain rfl : x = e.toNat + y := by omega
    rw [Nat.mul_one, Nat.pow_add, Nat.mul_assoc]
    rfl
  · obtain rfl : y = x + (-e).toNat := by omega
    rw [Nat.pow_add, Nat.mul_assoc]
    rfl

theorem decimalQuotient_ne_zero (n : Nat) (e : Int) : (Double.decimalQuotient n e).2 ≠ 0 := by
  unfold Double.decimalQuotient
  split_ifs
  · exact Nat.one_ne_zero
  · exact Nat.ne_of_gt (Nat.pow_pos (by decide))

/-- Decimals of the same value are rounded to the same number. -/
theorem Decimal.nearest_congr {d d' : Decimal} {x x' y : Nat} (hd : (x : Int) - y = d.exponent)
    (hd' : (x' : Int) - y = d'.exponent) (h : d.digits * 10 ^ x = d'.digits * 10 ^ x') :
    d.nearest f = d'.nearest f := by
  have hq := decimalQuotient_mul d.digits hd
  have hq' := decimalQuotient_mul d'.digits hd'
  have hne := decimalQuotient_ne_zero d.digits d.exponent
  have hne' := decimalQuotient_ne_zero d'.digits d'.exponent
  unfold Decimal.nearest
  generalize Double.decimalQuotient d.digits d.exponent = q at hq hne
  generalize Double.decimalQuotient d'.digits d'.exponent = q' at hq' hne'
  have hpow : 0 < 10 ^ y := Nat.pow_pos (by decide)
  refine Number.nearest_congr hne hne' (Nat.eq_of_mul_eq_mul_right hpow ?_)
  calc q.1 * q'.2 * 10 ^ y
      = q.1 * 10 ^ y * q'.2 := Nat.mul_right_comm _ _ _
    _ = d.digits * 10 ^ x * q.2 * q'.2 := by rw [hq]
    _ = d'.digits * 10 ^ x' * q'.2 * q.2 := by rw [h, Nat.mul_right_comm]
    _ = q'.1 * 10 ^ y * q.2 := by rw [hq']
    _ = q'.1 * q.2 * 10 ^ y := Nat.mul_right_comm _ _ _

/-- Zeros at the end of a decimal do not matter. -/
theorem nearest_trim (fuel : Nat) (d : Decimal) : (d.trim fuel).nearest f = d.nearest f := by
  induction fuel generalizing d with
  | zero => rfl
  | succ fuel ih =>
      unfold Decimal.trim
      split_ifs with hzero
      · obtain ⟨x, y, h⟩ : ∃ x y : Nat, (x : Int) - y = d.exponent :=
          ⟨d.exponent.toNat, (-d.exponent).toNat, by omega⟩
        rw [ih]
        refine Decimal.nearest_congr (show ((x + 1 : Nat) : Int) - y = d.exponent + 1 by omega) h ?_
        dsimp only
        rw [Nat.pow_succ', ← Nat.mul_assoc, Nat.div_mul_cancel (Nat.dvd_of_mod_eq_zero hzero.2)]
      · rfl

theorem nearest_exactDecimal (m : Nat) (e : Int) :
    (exactDecimal m e).nearest f = f.nearest (binaryQuotient m e).1 (binaryQuotient m e).2 := by
  unfold Decimal.nearest exactDecimal binaryQuotient
  split_ifs with he
  · simp [Double.decimalQuotient]
  · have hten : (10 : Nat) ^ (-e).toNat = 5 ^ (-e).toNat * 2 ^ (-e).toNat := by
      rw [← Nat.mul_pow]
    simp only [Double.decimalQuotient, if_neg he]
    refine Number.nearest_congr (Nat.ne_of_gt (Nat.pow_pos (by decide)))
      (Nat.ne_of_gt (Nat.two_pow_pos _)) ?_
    change m * 5 ^ (-e).toNat * 2 ^ (-e).toNat = m * 10 ^ (-e).toNat
    rw [hten, Nat.mul_assoc]

/-- The shortest decimal of a number is rounded to that number. -/
theorem nearest_shortest (hp : 0 < f.precision) (hpos : magnitude ≠ 0)
    (hfinite : magnitude < f.infinite) : (shortest f magnitude).nearest f = magnitude := by
  have hsplit := nearest_split hp hpos hfinite
  unfold shortest
  generalize f.split magnitude = split at hsplit ⊢
  obtain ⟨m, e⟩ := split
  dsimp only at hsplit ⊢
  rw [nearest_trim]
  cases hfrom : shortestFrom f magnitude (binaryQuotient m e).1 (binaryQuotient m e).2
      (decimalPoint (binaryQuotient m e).1 (binaryQuotient m e).2) 17 1 with
  | none =>
      rw [Option.getD_none, nearest_exactDecimal]
      exact hsplit
  | some d => exact nearest_of_shortestFrom hfrom

end SqlGate.Number
