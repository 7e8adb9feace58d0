import SqlGate.Proofs.Except
import SqlGate.Proofs.Json.Doubles

/-!
# What is read is sound

## Doubles that are read are finite

A numeral that is out of range is refused. What is left is a double that reading has scaled by powers
of ten, and whether it multiplied or divided, the result is finite (`isFinite_scaled`).
-/

namespace SqlGate.Json

open Number

theorem isFinite_ofMagnitude {magnitude : Nat} (h : magnitude < double.infinite) (negative : Bool) :
    (Double.ofMagnitude negative magnitude).IsFinite :=
  ⟨negative, _, _, value_ofMagnitude h negative⟩

/-- A quotient below `2 ^ 1022` is in range. -/
theorem nearest_of_below {num den : Nat} (hden : den ≠ 0) (h : Below num den 1022) :
    double.nearest num den < double.infinite :=
  nearest_lt_infinite (e := 969) hden h (by decide) (by decide)

theorem nearest_of_le {n : Nat} (h : n ≤ maxUnsigned) : double.nearest n 1 < double.infinite := by
  refine nearest_of_below Nat.one_ne_zero ?_
  rw [maxUnsigned] at h
  have hbelow : Below n 1 64 := by
    rw [below_iff (show ((64 : Nat) : Int) - (0 : Nat) = 64 by rfl)]
    omega
  exact hbelow.mono (by decide)

/-! ## Doubles without a sign -/

/-- A finite double without a sign. -/
def IsMagnitude (x : Double) : Prop := x.bits.toNat < double.infinite

theorem isMagnitude_ofQuotient {num den : Nat} (h : double.nearest num den < double.infinite) :
    IsMagnitude (Double.ofQuotient false num den) := by
  unfold IsMagnitude Double.ofQuotient
  rw [toNat_ofMagnitude (Nat.lt_trans h infinite_lt_signBit)]
  exact h

/-- Such a double is below `2 ^ 1024`. -/
theorem doubleQuotient_of_isMagnitude {x : Double} (h : IsMagnitude x) :
    (doubleQuotient x).2 ≠ 0 ∧ Below (doubleQuotient x).1 (doubleQuotient x).2 1024 := by
  have hvalue : x.value = .finite false (double.split x.bits.toNat).1 (double.split x.bits.toNat).2 := by
    rw [← value_ofMagnitude h false]
    unfold Double.ofMagnitude
    rw [if_neg Bool.false_ne_true, Nat.add_zero, UInt64.ofNat_toNat]
  have hshort := (isSplit_split double (by decide) x.bits.toNat).short
  have hexponent : (double.split x.bits.toNat).2 + (53 : Nat) ≤ 1024 := by
    have hinfinite : double.infinite = 2047 * 4503599627370496 := rfl
    have hhidden : double.hidden = 4503599627370496 := rfl
    have hleast : double.least = -1074 := rfl
    unfold IsMagnitude at h
    unfold Format.split
    rw [hinfinite] at h
    rw [hhidden, hleast]
    dsimp only
    split_ifs <;> dsimp only <;> omega
  unfold doubleQuotient
  rw [hvalue]
  dsimp only
  refine ⟨?_, ((below_binaryQuotient_iff _ _ 53).2 hshort).mono hexponent⟩
  unfold binaryQuotient
  split_ifs
  · exact Nat.one_ne_zero
  · exact Nat.ne_of_gt (Nat.two_pow_pos _)

/-- The powers of ten that are divided by are no less than four. -/
theorem doubleQuotient_powerOfTen : ∀ k < 309, k ≠ 0 → (doubleQuotient (powerOfTen k)).2 ≠ 0 ∧
    4 * (doubleQuotient (powerOfTen k)).2 ≤ (doubleQuotient (powerOfTen k)).1 := by
  decide +kernel

theorem isMagnitude_overDouble {x : Double} (hx : IsMagnitude x) {k : Nat} (hk : k < 309)
    (h : k ≠ 0) : IsMagnitude (overDouble x (powerOfTen k)) := by
  obtain ⟨hden, hbelow⟩ := doubleQuotient_of_isMagnitude hx
  obtain ⟨hten, hgreat⟩ := doubleQuotient_powerOfTen k hk h
  unfold overDouble
  generalize doubleQuotient x = q at hden hbelow ⊢
  generalize doubleQuotient (powerOfTen k) = p at hten hgreat ⊢
  obtain ⟨a, b⟩ := q
  obtain ⟨c, d⟩ := p
  dsimp only at hden hbelow hten hgreat ⊢
  have hc : c ≠ 0 := by omega
  refine isMagnitude_ofQuotient (nearest_of_below (Nat.mul_ne_zero hden hc) ?_)
  rw [below_iff (show ((1024 : Nat) : Int) - (0 : Nat) = 1024 by rfl)] at hbelow
  rw [below_iff (show ((1024 : Nat) : Int) - (2 : Nat) = 1022 by rfl)]
  calc a * d * 2 ^ 2
      = a * 2 ^ 0 * (4 * d) := by
        rw [Nat.pow_zero, Nat.mul_one, Nat.mul_assoc, Nat.mul_comm d]
        rfl
    _ < b * 2 ^ 1024 * (4 * d) := Nat.mul_lt_mul_of_pos_right hbelow (by omega)
    _ ≤ b * 2 ^ 1024 * c := Nat.mul_le_mul_left _ hgreat
    _ = b * c * 2 ^ 1024 := Nat.mul_right_comm _ _ _

/-- A quotient that is rounded to no infinity is in range. -/
theorem nearest_of_isInfinite {num den : Nat}
    (h : (Double.ofQuotient false num den).isInfinite = false) :
    double.nearest num den < double.infinite := by
  refine Nat.lt_of_le_of_ne (nearest_le_infinite num den) fun heq => ?_
  have hinfinite : (Double.ofMagnitude false double.infinite).isInfinite = true := by decide
  rw [Double.ofQuotient, heq, hinfinite] at h
  cases h

/-! ## Scaling -/

theorem isMagnitude_scaleTen {x y : Double} {e : Int} {fuel : Nat} (hx : IsMagnitude x)
    (h : scaleTen fuel x e = some y) : IsMagnitude y := by
  induction fuel generalizing x e with
  | zero =>
      cases h
      exact hx
  | succ fuel ih =>
      unfold scaleTen at h
      dsimp only at h
      split_ifs at h with hsize hsign hinfinite hzero
      · cases h
        exact isMagnitude_ofQuotient (nearest_of_isInfinite (Bool.eq_false_iff.2 hinfinite))
      · cases h
        exact isMagnitude_overDouble hx (by omega) (by omega)
      · cases h
        exact hx
      · exact ih (isMagnitude_overDouble hx (by decide) (by decide)) h

/-- What a significand of 64 bits is scaled to is finite. -/
theorem isFinite_scaled {negative : Bool} {significand : Nat} {e : Int} {x : Double}
    (hs : significand ≤ maxUnsigned) (h : scaled negative significand e = some x) :
    x.IsFinite := by
  obtain ⟨y, hy, rfl⟩ := Option.map_eq_some_iff.1 h
  have hmagnitude := isMagnitude_scaleTen (isMagnitude_ofQuotient (nearest_of_le hs)) hy
  exact isFinite_ofMagnitude hmagnitude negative

end SqlGate.Json

/-!
## What is read is readable

Whatever a text holds, a value that is read from it has its keys in order, each of them once,
integers that fit 64 bits, and finite doubles.
-/

namespace SqlGate.Json

variable {negative : Bool} {significand : Nat} {start : Int} {c c' : Cursor} {n : Num}

/-! ## Numbers -/

namespace Numeral

theorem accumulate_le {limit n : Nat} (ds : List Nat) (h : n ≤ limit) :
    (accumulate limit n ds).1 ≤ limit := by
  induction ds generalizing n with
  | nil => exact h
  | cons d ds ih =>
      unfold accumulate
      split_ifs with hd
      · exact ih hd
      · exact h

/-- A number that a text can have and that is a double. -/
def IsDouble (n : Num) : Prop := ∃ x : Number.Double, n = .real x ∧ x.IsFinite

theorem isDouble_zero (negative : Bool) : IsDouble (.real (Number.Double.zero negative)) :=
  ⟨_, rfl, isFinite_ofMagnitude (by decide) negative⟩

/-- What is scaled is a double. -/
theorem isDouble_of_finish {e : Int} (hs : significand ≤ maxUnsigned)
    (h : finish negative significand e c = .ok (n, c')) : IsDouble n := by
  unfold finish at h
  cases hx : scaled negative significand e with
  | none =>
      rw [hx] at h
      cases h
  | some x =>
      rw [hx] at h
      cases h
      exact ⟨x, rfl, isFinite_scaled hs hx⟩

theorem isDouble_of_exponent (hs : significand ≤ maxUnsigned)
    (h : exponent negative significand start c = .ok (n, c')) : IsDouble n := by
  unfold exponent at h
  dsimp only at h
  split at h
  · cases h
  · split at h
    · cases h
    · split at h
      · exact isDouble_of_finish hs h
      · split_ifs at h
        cases h
        exact isDouble_zero negative

theorem isDouble_of_fraction (hs : significand ≤ maxUnsigned)
    (h : fraction negative significand start c = .ok (n, c')) : IsDouble n := by
  unfold fraction at h
  dsimp only at h
  split at h
  · cases h
  · have hle := accumulate_le (digitRun c.advance).1 hs
    split_ifs at h
    · exact isDouble_of_exponent hle h
    · exact isDouble_of_finish hle h

theorem readable_of_isDouble (h : IsDouble n) : Readable (.num n) := by
  obtain ⟨x, rfl, hx⟩ := h
  exact .real hx

theorem readable_of_integral (hs : significand ≤ maxUnsigned)
    (h : integral negative significand c = .ok (n, c')) : Readable (.num n) := by
  have hfinite := isFinite_ofMagnitude (nearest_of_le hs) true
  rw [maxUnsigned] at hs
  unfold integral at h
  split_ifs at h
  · exact readable_of_isDouble (isDouble_of_fraction hs h)
  · exact readable_of_isDouble (isDouble_of_exponent hs h)
  · cases h
    exact .real hfinite
  · cases h
    exact .int (by omega) (by omega)
  · cases h
    exact .int (by omega) (by omega)

theorem readable_of_read (h : Numeral.read negative c = .ok (n, c')) : Readable (.num n) := by
  unfold Numeral.read at h
  split at h
  · cases h
  · split at h
    · cases h
    · dsimp only at h
      split at h
      · cases h
      · exact readable_of_integral (by decide) h
    · have hle := accumulate_le (digitRun c).1 (Nat.zero_le maxUnsigned)
      dsimp only at h
      split at h
      · rename_i hn
        rw [hn] at hle
        exact readable_of_integral hle h
      · rename_i hn
        rw [hn] at hle
        split_ifs at h
        · exact readable_of_isDouble (isDouble_of_fraction hle h)
        · exact readable_of_isDouble (isDouble_of_exponent hle h)
        · exact readable_of_isDouble (isDouble_of_finish hle h)

end Numeral

/-! ## Values -/

theorem readable_of_scalar {x : Char} {v : Json} (h : scalar x c = .ok (v, c')) : Readable v := by
  unfold scalar at h
  split_ifs at h
  · obtain ⟨c₁, -, h⟩ := exists_of_bind_eq_ok h
    cases h
    exact .null
  · obtain ⟨c₁, -, h⟩ := exists_of_bind_eq_ok h
    cases h
    exact .bool true
  · obtain ⟨c₁, -, h⟩ := exists_of_bind_eq_ok h
    cases h
    exact .bool false
  · obtain ⟨⟨n, c₁⟩, hn, h⟩ := exists_of_bind_eq_ok h
    cases h
    exact Numeral.readable_of_read hn
  · obtain ⟨⟨n, c₁⟩, hn, h⟩ := exists_of_bind_eq_ok h
    cases h
    exact Numeral.readable_of_read hn
  · obtain ⟨⟨s, c₁⟩, -, h⟩ := exists_of_bind_eq_ok h
    cases h
    exact .str s

theorem mem_insert {k : String} {v : Json} {m : String × Json} {ms : List (String × Json)}
    (h : m ∈ insert k v ms) : m = (k, v) ∨ m ∈ ms := by
  induction ms with
  | nil => simpa [insert] using h
  | cons m' ms ih =>
      unfold insert at h
      split_ifs at h
      · simpa using h
      · rcases List.mem_cons.1 h with h | h
        · exact .inl h
        · exact .inr (List.mem_cons_of_mem m' h)
      · rcases List.mem_cons.1 h with rfl | h
        · exact .inr List.mem_cons_self
        · exact (ih h).imp_right (List.mem_cons_of_mem m')

/-- A member more leaves the keys in order. -/
theorem pairwise_insert (k : String) (v : Json) {ms : List (String × Json)}
    (h : ms.Pairwise fun m m' => m.1 < m'.1) :
    (insert k v ms).Pairwise fun m m' => m.1 < m'.1 := by
  induction ms with
  | nil => simp [insert]
  | cons m ms ih =>
      obtain ⟨hm, hms⟩ := List.pairwise_cons.1 h
      unfold insert
      split_ifs with hlt heq
      · refine List.pairwise_cons.2 ⟨fun m' hm' => ?_, h⟩
        rcases List.mem_cons.1 hm' with rfl | hm'
        · exact hlt
        · exact String.lt_trans hlt (hm m' hm')
      · refine List.pairwise_cons.2 ⟨fun m' hm' => ?_, hms⟩
        rw [heq]
        exact hm m' hm'
      · refine List.pairwise_cons.2 ⟨fun m' hm' => ?_, ih hms⟩
        rcases mem_insert hm' with rfl | hm'
        · exact Std.lt_of_le_of_ne (String.not_lt.1 hlt) (Ne.symm heq)
        · exact hm m' hm'

theorem forall_mem_insert {P : Json → Prop} {k : String} {v : Json} {ms : List (String × Json)}
    (hv : P v) (h : ∀ m ∈ ms, P m.2) : ∀ m ∈ insert k v ms, P m.2 := by
  intro m hm
  rcases mem_insert hm with rfl | hm
  · exact hv
  · exact h m hm

theorem Proper.insert {k : String} {v : Json} {ms : List (String × Json)} (hv : Proper v)
    (h : Proper (.obj ms)) : Proper (.obj (Json.insert k v ms)) := by
  cases h with
  | obj hkeys h => exact .obj (pairwise_insert k v hkeys) (forall_mem_insert hv h)

theorem Readable.insert {k : String} {v : Json} {ms : List (String × Json)} (hv : Readable v)
    (h : Readable (.obj ms)) : Readable (.obj (Json.insert k v ms)) := by
  cases h with
  | obj hkeys h => exact .obj (pairwise_insert k v hkeys) (forall_mem_insert hv h)

/-- Reading gives readable values, by the fuel that reading has. -/
theorem readable_of_reads (fuel : Nat) :
    (∀ depth c v c', value fuel depth c = .ok (v, c') → Readable v) ∧
    (∀ depth first c xs c', items fuel depth first c = .ok (xs, c') → ∀ x ∈ xs, Readable x) ∧
    (∀ depth first acc c ms c', Readable (.obj acc) → members fuel depth first acc c = .ok (ms, c') →
      Readable (.obj ms)) := by
  induction fuel with
  | zero =>
      refine ⟨fun _ _ _ _ h => ?_, fun _ _ _ _ _ h => ?_, fun _ _ _ _ _ _ _ h => ?_⟩
      · rw [value] at h; cases h
      · rw [items] at h; cases h
      · rw [members] at h; cases h
  | succ fuel ih =>
      obtain ⟨hvalue, hitems, hmembers⟩ := ih
      refine ⟨fun depth c v c' h => ?_, fun depth first c xs c' h => ?_,
        fun depth first acc c ms c' hacc h => ?_⟩
      · rw [value] at h
        dsimp only at h
        split at h
        · cases h
        · split_ifs at h
          · obtain ⟨⟨xs, c₁⟩, hxs, h⟩ := exists_of_bind_eq_ok h
            obtain ⟨c₂, -, h⟩ := exists_of_bind_eq_ok h
            cases h
            exact .arr (hitems _ _ _ _ _ hxs)
          · obtain ⟨⟨ms, c₁⟩, hms, h⟩ := exists_of_bind_eq_ok h
            obtain ⟨c₂, -, h⟩ := exists_of_bind_eq_ok h
            cases h
            exact hmembers _ _ _ _ _ _ (.obj .nil fun m hm => absurd hm List.not_mem_nil) hms
          · exact readable_of_scalar h
      · rw [items] at h
        obtain ⟨⟨more, c₁⟩, -, h⟩ := exists_of_bind_eq_ok h
        dsimp only at h
        split_ifs at h
        · obtain ⟨⟨x, c₂⟩, hx, h⟩ := exists_of_bind_eq_ok h
          obtain ⟨⟨xs, c₃⟩, hxs, h⟩ := exists_of_bind_eq_ok h
          cases h
          exact List.forall_mem_cons.2 ⟨hvalue _ _ _ _ hx, hitems _ _ _ _ _ hxs⟩
        · cases h
          exact fun x hx => absurd hx List.not_mem_nil
      · rw [members] at h
        obtain ⟨⟨more, c₁⟩, -, h⟩ := exists_of_bind_eq_ok h
        dsimp only at h
        split_ifs at h
        · obtain ⟨⟨k, c₂⟩, -, h⟩ := exists_of_bind_eq_ok h
          obtain ⟨c₃, -, h⟩ := exists_of_bind_eq_ok h
          obtain ⟨⟨v, c₄⟩, hv, h⟩ := exists_of_bind_eq_ok h
          exact hmembers _ _ _ _ _ _ ((hvalue _ _ _ _ hv).insert hacc) h
        · cases h
          exact hacc

/-- The value of a text is readable. -/
theorem readable_of_ofString? {s : String} {v : Json} (h : ofString? s = some v) : Readable v := by
  have hread : ofString s = .ok v := eq_ok_iff_toOption.2 h
  unfold ofString ofStringDepth at hread
  obtain ⟨⟨v', c⟩, hv, hread⟩ := exists_of_bind_eq_ok hread
  obtain ⟨u, -, hread⟩ := exists_of_bind_eq_ok hread
  cases hread
  exact (readable_of_reads _).1 _ _ _ _ hv

theorem proper_of_ofString? {s : String} {v : Json} (h : ofString? s = some v) : Proper v :=
  (readable_of_ofString? h).proper

end SqlGate.Json
