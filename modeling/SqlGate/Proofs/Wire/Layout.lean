import Mathlib.Data.List.Basic
import Mathlib.Tactic.Ring
import Mathlib.Tactic.Zify
import SqlGate.Wire.Reader

/-!
# Fields of a payload

A read finds a value in some bytes if it takes just these bytes off the front of any payload that
begins with them and gives the value. Fields stand one after the other, so what a sequence of reads
finds is put together from what each of them finds (`Finds.bind`).

What a read takes off the front does not hang on what follows (`Extends`). So a read that finds
something in some bytes finds nothing in fewer of them (`Finds.eq_none_of_prefix`).
-/

namespace SqlGate.Wire

/-! ## Writing -/

/-- A number in `n` bytes, the most significant first. -/
def big : Nat → Nat → List UInt8
  | 0, _ => []
  | n + 1, x => UInt8.ofNat (x / 256 ^ n) :: big n x

/-- A signed number in `n` bytes, a negative one by its complement. -/
def signed (n : Nat) (i : Int) : List UInt8 := big n (i % 256 ^ n).toNat

@[simp] theorem length_big (n x : Nat) : (big n x).length = n := by
  induction n with
  | zero => rfl
  | succ n ih => rw [big, List.length_cons, ih]

@[simp] theorem length_signed (n : Nat) (i : Int) : (signed n i).length = n := length_big n _

namespace Read

variable {α β : Type} {read : Read α} {bs bs' : List UInt8} {x : α}

theorem foldl_bigEndian (bs : List UInt8) (n : Nat) :
    bs.foldl (fun n b => n * 256 + b.toNat) n = n * 256 ^ bs.length + bigEndian bs := by
  induction bs generalizing n with
  | nil => simp [bigEndian]
  | cons b bs ih =>
      rw [bigEndian, List.foldl_cons, List.foldl_cons, ih, ih (0 * 256 + b.toNat),
        List.length_cons]
      ring

theorem bigEndian_big (n x : Nat) : bigEndian (big n x) = x % 256 ^ n := by
  induction n with
  | zero => simp [big, bigEndian, Nat.mod_one]
  | succ n ih =>
      have hmod : x % (256 ^ n * 256) = x % 256 ^ n + 256 ^ n * (x / 256 ^ n % 256) := Nat.mod_mul
      rw [big, bigEndian, List.foldl_cons, foldl_bigEndian, ih, length_big, UInt8.toNat_ofNat',
        Nat.pow_succ 256, hmod]
      ring

theorem bigEndian_cons (b : UInt8) (bs : List UInt8) :
    bigEndian (b :: bs) = bigEndian bs + b.toNat * 256 ^ bs.length := by
  rw [bigEndian, List.foldl_cons, foldl_bigEndian]
  ring

theorem bigEndian_lt (bs : List UInt8) : bigEndian bs < 256 ^ bs.length := by
  induction bs with
  | nil => decide
  | cons b bs ih =>
      have hb : b.toNat + 1 ≤ 256 := UInt8.toNat_lt b
      rw [bigEndian_cons, List.length_cons]
      calc
        bigEndian bs + b.toNat * 256 ^ bs.length < (b.toNat + 1) * 256 ^ bs.length := by
          rw [Nat.add_one_mul]
          omega
        _ ≤ 256 * 256 ^ bs.length := Nat.mul_le_mul_right _ hb
        _ = 256 ^ (bs.length + 1) := (Nat.pow_succ').symm

/-- What `n` bytes have no room for does not show in them. -/
theorem big_add_mul (n x a : Nat) : big n (x + a * 256 ^ n) = big n x := by
  induction n generalizing a with
  | zero => rfl
  | succ n ih =>
      have hcarry : a * 256 ^ (n + 1) = 256 * a * 256 ^ n := by ring
      have hbyte : UInt8.ofNat (x / 256 ^ n + 256 * a) = UInt8.ofNat (x / 256 ^ n) := by
        apply UInt8.toNat_inj.1
        rw [UInt8.toNat_ofNat', UInt8.toNat_ofNat', Nat.add_mul_mod_self_left]
      rw [hcarry, big, big, ih, Nat.add_mul_div_right _ _ (Nat.pow_pos (by decide)), hbyte]

/-- Bytes are those of the number that they are. -/
theorem big_bigEndian (bs : List UInt8) : big bs.length (bigEndian bs) = bs := by
  induction bs with
  | nil => rfl
  | cons b bs ih =>
      have hb : (bigEndian bs + b.toNat * 256 ^ bs.length) / 256 ^ bs.length = b.toNat := by
        rw [Nat.add_mul_div_right _ _ (Nat.pow_pos (by decide)),
          Nat.div_eq_of_lt (bigEndian_lt bs), Nat.zero_add]
      rw [List.length_cons, big, bigEndian_cons, hb, UInt8.ofNat_toNat, big_add_mul, ih]

/-! ## Reading -/

/-- A read takes some bytes off the front and finds a value in them. -/
def Finds (read : Read α) (bs : List UInt8) (x : α) : Prop :=
  ∀ rest, read (bs ++ rest) = some (x, rest)

theorem Finds.whole (h : Finds read bs x) : read.whole bs = some x := by
  have hread := h []
  rw [List.append_nil] at hread
  rw [Read.whole, hread]

theorem finds_pure (x : α) : Finds (pure x) [] x := fun _ => rfl

theorem Finds.bind {f : α → Read β} {y : β} (h : Finds read bs x) (hf : Finds (f x) bs' y) :
    Finds (read >>= f) (bs ++ bs') y := by
  intro rest
  have hread := h (bs' ++ rest)
  rw [← List.append_assoc] at hread
  change (read (bs ++ bs' ++ rest)).bind (fun r => f r.1 r.2) = _
  rw [hread, Option.bind_some]
  exact hf rest

/-- A last read, after which nothing more is taken. -/
theorem Finds.bind_nil {f : α → Read β} {y : β} (h : Finds read bs x) (hf : Finds (f x) [] y) :
    Finds (read >>= f) bs y := by
  have hbind := h.bind hf
  rwa [List.append_nil] at hbind

theorem Finds.map (f : α → β) (h : Finds read bs x) : Finds (f <$> read) bs (f x) := by
  intro rest
  change (read (bs ++ rest)).bind (fun r => some (f r.1, r.2)) = _
  rw [h rest, Option.bind_some]

theorem Finds.congr {y : α} (h : Finds read bs x) (hxy : x = y) : Finds read bs y := hxy ▸ h

theorem finds_take {n : Nat} (h : bs.length = n) : Finds (take n) bs bs := by
  intro rest
  subst h
  rw [take, if_pos (by simp), List.take_left, List.drop_left]

theorem finds_unsigned {n v : Nat} (h : v < 256 ^ n) : Finds (unsigned n) (big n v) v :=
  ((finds_take (length_big n v)).map bigEndian).congr (by rw [bigEndian_big, Nat.mod_eq_of_lt h])

theorem finds_byte (b : UInt8) : Finds byte [b] b := by
  have hb : [b] = big 1 b.toNat := by simp [big]
  rw [hb]
  exact ((finds_unsigned (UInt8.toNat_lt b)).map UInt8.ofNat).congr (UInt8.ofNat_toNat)

theorem toNat_emod_lt {b : Nat} (hb : 0 < b) (n : Nat) (i : Int) :
    (i % b ^ n).toNat < b ^ n := by
  have hpos : (0 : Int) < b ^ n := Int.pow_pos (Int.natCast_pos.2 hb)
  have hlt := Int.emod_lt_of_pos i hpos
  have hnonneg := Int.emod_nonneg i hpos.ne'
  zify
  rwa [Int.toNat_of_nonneg hnonneg]

theorem ofNat_emod_eq_ofInt (w : Nat) (i : Int) :
    BitVec.ofNat w (i % 2 ^ w).toNat = BitVec.ofInt w i := by
  apply BitVec.eq_of_toNat_eq
  rw [BitVec.toNat_ofNat, BitVec.toNat_ofInt]
  exact Nat.mod_eq_of_lt (toNat_emod_lt (by decide) w i)

theorem finds_int16 (i : Int) : Finds int16 (signed 2 i) (Int16.ofInt i) :=
  ((finds_unsigned (toNat_emod_lt (by decide) 2 i)).map fun n => (UInt16.ofNat n).toInt16).congr
    (Int16.toBitVec_inj.1 (ofNat_emod_eq_ofInt 16 i))

theorem finds_int32 (i : Int) : Finds int32 (signed 4 i) (Int32.ofInt i) :=
  ((finds_unsigned (toNat_emod_lt (by decide) 4 i)).map fun n => (UInt32.ofNat n).toInt32).congr
    (Int32.toBitVec_inj.1 (ofNat_emod_eq_ofInt 32 i))

theorem finds_int64 (i : Int) : Finds int64 (signed 8 i) (Int64.ofInt i) :=
  ((finds_unsigned (toNat_emod_lt (by decide) 8 i)).map fun n => (UInt64.ofNat n).toInt64).congr
    (Int64.toBitVec_inj.1 (ofNat_emod_eq_ofInt 64 i))

theorem toInt_ofInt_int16 {i : Int} (hlow : -32768 ≤ i) (hhigh : i ≤ 32767) :
    (Int16.ofInt i).toInt = i := Int16.toInt_ofInt_of_le hlow (by omega)

theorem toInt_ofInt_int32 {i : Int} (hlow : -2147483648 ≤ i) (hhigh : i ≤ 2147483647) :
    (Int32.ofInt i).toInt = i := Int32.toInt_ofInt_of_le hlow (by omega)

theorem toInt_ofInt_int64 {i : Int} (hlow : -9223372036854775808 ≤ i)
    (hhigh : i ≤ 9223372036854775807) : (Int64.ofInt i).toInt = i :=
  Int64.toInt_ofInt_of_le hlow (by omega)

theorem finds_count {n : Nat} (h : n < 2147483648) : Finds count (signed 4 n) n := by
  have hn : (Int32.ofInt n).toInt = n := toInt_ofInt_int32 (by omega) (by omega)
  refine (finds_int32 n).bind_nil ?_
  rw [hn, if_pos (by omega)]
  exact finds_pure n

/-- A field that is there, after its length. -/
theorem finds_field (h : bs.length < 2147483648) :
    Finds field (signed 4 bs.length ++ bs) (some bs) := by
  have hn : (Int32.ofInt bs.length).toInt = bs.length := toInt_ofInt_int32 (by omega) (by omega)
  refine (finds_int32 bs.length).bind ?_
  rw [hn, if_neg (by omega), if_neg (by omega)]
  exact (finds_take rfl).map some

theorem finds_times {γ : Type} (write : γ → List UInt8) (found : γ → α) {ys : List γ}
    (h : ∀ y ∈ ys, Finds read (write y) (found y)) :
    Finds (times read ys.length) (ys.flatMap write) (ys.map found) := by
  induction ys with
  | nil => exact finds_pure []
  | cons y ys ih =>
      have hy : Finds read (write y) (found y) := h y List.mem_cons_self
      have hys := ih fun z hz => h z (List.mem_cons_of_mem y hz)
      exact hy.bind (hys.bind_nil (finds_pure (found y :: ys.map found)))

/-! ## Reading less -/

/-- A read finds in a payload what it finds in a beginning of it. -/
def Extends (read : Read α) : Prop :=
  ∀ ⦃bs x rest⦄, read bs = some (x, rest) → ∀ more, read (bs ++ more) = some (x, rest ++ more)

theorem extends_pure (x : α) : Extends (pure x) := by
  intro bs y rest h more
  cases h
  rfl

theorem extends_failure : Extends (failure : Read α) := nofun

theorem Extends.bind {f : α → Read β} (h : Extends read) (hf : ∀ x, Extends (f x)) :
    Extends (read >>= f) := by
  intro bs y rest hread more
  obtain ⟨⟨x, mid⟩, hx, hy⟩ := Option.bind_eq_some_iff.1 hread
  change (read (bs ++ more)).bind (fun r => f r.1 r.2) = _
  rw [h hx more, Option.bind_some]
  exact hf x hy more

theorem Extends.map (f : α → β) (h : Extends read) : Extends (f <$> read) :=
  h.bind fun x => extends_pure (f x)

theorem extends_take (n : Nat) : Extends (take n) := by
  intro bs x rest h more
  rw [take] at h
  split at h
  next hlen =>
    cases h
    rw [take, if_pos (by rw [List.length_append]; omega), List.take_append_of_le_length hlen,
      List.drop_append_of_le_length hlen]
  next => cases h

theorem extends_unsigned (n : Nat) : Extends (unsigned n) := (extends_take n).map _

theorem extends_int32 : Extends int32 := (extends_unsigned 4).map _

theorem extends_count : Extends count := by
  refine extends_int32.bind fun n => ?_
  split
  · exact extends_pure _
  · exact extends_failure

theorem extends_field : Extends field := by
  refine extends_int32.bind fun n => ?_
  split
  · exact extends_pure none
  · split
    · exact extends_failure
    · exact (extends_take _).map some

theorem Extends.times (h : Extends read) (n : Nat) : Extends (times read n) := by
  induction n with
  | zero => exact extends_pure []
  | succ n ih => exact h.bind fun x => ih.bind fun xs => extends_pure (x :: xs)

/-- A read that finds something in some bytes finds nothing in fewer of them. -/
theorem Finds.eq_none_of_prefix (h : Finds read bs x) (hread : Extends read) (hp : bs' <+: bs)
    (hne : bs' ≠ bs) : read bs' = none := by
  obtain ⟨more, rfl⟩ := hp
  cases hfound : read bs' with
  | none => rfl
  | some found =>
      -- Then it leaves what follows, though it finds something in all.
      have hall := h []
      rw [List.append_nil, hread hfound more] at hall
      have hmore : found.2 ++ more = [] := congrArg Prod.snd (Option.some.inj hall)
      rw [(List.append_eq_nil_iff.1 hmore).2, List.append_nil] at hne
      exact absurd rfl hne

theorem Finds.whole_eq_none_of_prefix (h : Finds read bs x) (hread : Extends read)
    (hp : bs' <+: bs) (hne : bs' ≠ bs) : read.whole bs' = none := by
  rw [Read.whole, h.eq_none_of_prefix hread hp hne]

/-- A whole payload ends where the read does. -/
theorem Finds.whole_append (h : Finds read bs x) {more : List UInt8} (hmore : more ≠ []) :
    read.whole (bs ++ more) = none := by
  rw [Read.whole, h more]
  cases more with
  | nil => exact absurd rfl hmore
  | cons => rfl

/-! ## What was read -/

theorem bind_eq_some_iff {f : α → Read β} {y : β} {rest : List UInt8} :
    (read >>= f) bs = some (y, rest) ↔
      ∃ x mid, read bs = some (x, mid) ∧ f x mid = some (y, rest) := by
  change (read bs).bind (fun r => f r.1 r.2) = _ ↔ _
  rw [Option.bind_eq_some_iff, Prod.exists]

theorem map_eq_some_iff {f : α → β} {y : β} {rest : List UInt8} :
    (f <$> read) bs = some (y, rest) ↔ ∃ x, read bs = some (x, rest) ∧ f x = y := by
  change (read >>= fun x => pure (f x)) bs = _ ↔ _
  rw [bind_eq_some_iff]
  refine exists_congr fun x => ⟨?_, fun ⟨h, hf⟩ => ⟨rest, h, hf ▸ rfl⟩⟩
  rintro ⟨mid, h, hf⟩
  cases hf
  exact ⟨h, rfl⟩

theorem whole_eq_some_iff : read.whole bs = some x ↔ read bs = some (x, []) := by
  rw [Read.whole]
  cases hread : read bs with
  | none => simp
  | some r =>
      obtain ⟨y, rest⟩ := r
      cases rest <;> simp

theorem eq_of_take {n : Nat} {front rest : List UInt8} (h : take n bs = some (front, rest)) :
    front.length = n ∧ bs = front ++ rest := by
  rw [take] at h
  split at h
  next hlen =>
    cases h
    exact ⟨List.length_take_of_le hlen, (List.take_append_drop n bs).symm⟩
  next => cases h

/-- A number is read off its bytes. -/
theorem eq_of_unsigned {n m : Nat} {rest : List UInt8} (h : unsigned n bs = some (m, rest)) :
    m < 256 ^ n ∧ bs = big n m ++ rest := by
  obtain ⟨front, hfront, rfl⟩ := map_eq_some_iff.1 h
  obtain ⟨rfl, rfl⟩ := eq_of_take hfront
  exact ⟨bigEndian_lt front, by rw [big_bigEndian]⟩

/-- A number and what it is with a sign are the same bytes. -/
theorem signed_toInt_ofNat (n m : Nat) : signed n (BitVec.ofNat (8 * n) m).toInt = big n m := by
  have hpow : 2 ^ (8 * n) = 256 ^ n := by rw [Nat.pow_mul]
  have hmod : ((BitVec.ofNat (8 * n) m).toInt % (256 ^ n : Nat)).toNat = m % 256 ^ n := by
    rw [BitVec.toInt_eq_toNat_bmod, BitVec.toNat_ofNat, hpow, Int.bmod_emod, ← Int.natCast_emod,
      Nat.mod_mod, Int.toNat_natCast]
  rw [signed]
  push_cast at hmod
  rw [hmod]
  conv_rhs => rw [← Nat.mod_add_div m (256 ^ n), Nat.mul_comm, big_add_mul]

theorem eq_of_int16 {i : Int16} {rest : List UInt8} (h : int16 bs = some (i, rest)) :
    bs = signed 2 i.toInt ++ rest := by
  obtain ⟨m, hm, rfl⟩ := map_eq_some_iff.1 h
  rw [(eq_of_unsigned hm).2, ← signed_toInt_ofNat 2 m]
  rfl

theorem eq_of_int32 {i : Int32} {rest : List UInt8} (h : int32 bs = some (i, rest)) :
    bs = signed 4 i.toInt ++ rest := by
  obtain ⟨m, hm, rfl⟩ := map_eq_some_iff.1 h
  rw [(eq_of_unsigned hm).2, ← signed_toInt_ofNat 4 m]
  rfl

theorem eq_of_int64 {i : Int64} {rest : List UInt8} (h : int64 bs = some (i, rest)) :
    bs = signed 8 i.toInt ++ rest := by
  obtain ⟨m, hm, rfl⟩ := map_eq_some_iff.1 h
  rw [(eq_of_unsigned hm).2, ← signed_toInt_ofNat 8 m]
  rfl

theorem eq_of_count {n : Nat} {rest : List UInt8} (h : count bs = some (n, rest)) :
    n < 2147483648 ∧ bs = signed 4 n ++ rest := by
  obtain ⟨i, mid, hi, hn⟩ := bind_eq_some_iff.1 h
  have hlt := i.toInt_lt
  split at hn
  next hpos =>
    cases hn
    rw [eq_of_int32 hi, Int.toNat_of_nonneg hpos]
    exact ⟨by omega, rfl⟩
  next => cases hn

/-- What is read off one thing after the other. -/
theorem exists_of_times {γ : Type} {P : γ → Prop} {write : γ → List UInt8} {found : γ → α}
    (h : ∀ bs x rest, read bs = some (x, rest) → ∃ y, P y ∧ found y = x ∧ bs = write y ++ rest)
    {n : Nat} {xs : List α} {rest : List UInt8} (hread : times read n bs = some (xs, rest)) :
    ∃ ys : List γ, ys.length = n ∧ (∀ y ∈ ys, P y) ∧ ys.map found = xs ∧
      bs = ys.flatMap write ++ rest := by
  induction n generalizing bs xs with
  | zero =>
      cases hread
      exact ⟨[], rfl, nofun, rfl, rfl⟩
  | succ n ih =>
      obtain ⟨x, mid, hx, hrest⟩ := bind_eq_some_iff.1 hread
      obtain ⟨xs, last, hxs, hpure⟩ := bind_eq_some_iff.1 hrest
      cases hpure
      obtain ⟨y, hy, rfl, rfl⟩ := h _ _ _ hx
      obtain ⟨ys, rfl, hys, rfl, rfl⟩ := ih hxs
      exact ⟨y :: ys, rfl, List.forall_mem_cons.2 ⟨hy, hys⟩, rfl, by simp⟩

/-! ## A single number -/

/-- What is read after a part of a payload is read off the rest. -/
theorem Finds.whole_bind_append {f : α → Read β} (h : Finds read bs x) (rest : List UInt8) :
    (read >>= f).whole (bs ++ rest) = (f x).whole rest := by
  have hbind : (read >>= f) (bs ++ rest) = f x rest := by
    change (read (bs ++ rest)).bind (fun r => f r.1 r.2) = _
    rw [h rest, Option.bind_some]
  rw [Read.whole, hbind, Read.whole]

/-- What is read after all of a payload takes nothing. -/
theorem Finds.whole_bind {f : α → Read β} (h : Finds read bs x) :
    (read >>= f).whole bs = (f x).whole [] := by
  rw [← h.whole_bind_append, List.append_nil]

/-- What is read off a number is all that is read, if nothing more is taken. -/
theorem exists_of_whole_bind {f : β → Option α} {read : Read β} {k : β → Read α}
    (hk : ∀ m rest, k m rest = (f m).map (·, rest)) (h : (read >>= k).whole bs = some x) :
    ∃ m, read bs = some (m, []) ∧ f m = some x := by
  obtain ⟨m, mid, hm, hx⟩ := bind_eq_some_iff.1 (whole_eq_some_iff.1 h)
  rw [hk] at hx
  obtain ⟨y, hf, hy⟩ := Option.map_eq_some_iff.1 hx
  cases hy
  exact ⟨m, hm, hf⟩

theorem exists_signed_of_whole_int32 {f : Int32 → Option α} {k : Int32 → Read α}
    (hk : ∀ m rest, k m rest = (f m).map (·, rest)) (h : (int32 >>= k).whole bs = some x) :
    ∃ m : Int32, bs = signed 4 m.toInt ∧ f m = some x := by
  obtain ⟨m, hm, hf⟩ := exists_of_whole_bind hk h
  exact ⟨m, by rw [eq_of_int32 hm, List.append_nil], hf⟩

theorem exists_signed_of_whole_int64 {f : Int64 → Option α} {k : Int64 → Read α}
    (hk : ∀ m rest, k m rest = (f m).map (·, rest)) (h : (int64 >>= k).whole bs = some x) :
    ∃ m : Int64, bs = signed 8 m.toInt ∧ f m = some x := by
  obtain ⟨m, hm, hf⟩ := exists_of_whole_bind hk h
  exact ⟨m, by rw [eq_of_int64 hm, List.append_nil], hf⟩

end Read

end SqlGate.Wire
