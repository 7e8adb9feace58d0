import Mathlib.Data.Option.NAry
import SqlGate.Proofs.Wire.Grid
import SqlGate.Proofs.Wire.RoundTrip

/-!
# Where payloads end

A payload of a type with a binary layout says where it ends: less of it is refused, and so is more
(`PrefixFree`), and a type of one size takes only payloads of that size. This holds of all such
types but the hardware addresses, of ranges and of arrays (`decode_framed`).

A read that takes the same off the front whatever follows accepts such a set of payloads
(`Extends.prefixFree`). That and the size of what it takes are put together from the fields
(`Framed.bind`).
-/

namespace SqlGate.Wire

/-- What is accepted is neither accepted in part nor with something more. -/
def PrefixFree {α : Type} (decode : List UInt8 → Option α) : Prop :=
  ∀ ⦃bs x⦄, decode bs = some x →
    (∀ p, p <+: bs → p ≠ bs → decode p = none) ∧ ∀ more, more ≠ [] → decode (bs ++ more) = none

namespace Kind

/-- The types whose payloads have a binary layout: no bytes, texts or documents. -/
def IsBinary : Kind → Prop
  | .bytea | .char | .text | .json | .jsonb => False
  | _ => True

/-- The size of all payloads of a type, if it is one. -/
def size? : Kind → Option Nat
  | .bool => some 1
  | .int2 => some 2
  | .int4 | .oid | .float4 | .date => some 4
  | .int8 | .float8 | .money | .time | .timestamp => some 8
  | .timeTz => some 12
  | .uuid | .interval | .point => some 16
  | .line | .circle => some 24
  | .segment | .box => some 32
  | _ => none

end Kind

/-! ## Reads -/

namespace Read

variable {α β : Type} {read : Read α} {m n : Option Nat}

theorem Extends.finds (h : Extends read) {bs : List UInt8} {x : α}
    (hread : read.whole bs = some x) : Finds read bs x := h (whole_eq_some_iff.1 hread)

/-- A read that does not hang on what follows ends each payload in one place. -/
theorem Extends.prefixFree (h : Extends read) : PrefixFree read.whole := fun _ _ hread =>
  ⟨fun _ hp hne => Finds.whole_eq_none_of_prefix (h.finds hread) h hp hne,
    fun _ hmore => (h.finds hread).whole_append hmore⟩

/-- A read that does not hang on what follows and takes so many bytes, if their number is one. -/
structure Framed (size : Option Nat) (read : Read α) : Prop where
  extends_ : Extends read
  length_eq : ∀ n ∈ size, ∀ ⦃bs x rest⦄, read bs = some (x, rest) → bs.length = n + rest.length

theorem Framed.length_of_whole (h : Framed n read) {k : Nat} (hk : k ∈ n) {bs : List UInt8} {x : α}
    (hread : read.whole bs = some x) : bs.length = k := h.length_eq k hk (whole_eq_some_iff.1 hread)

theorem Extends.framed (h : Extends read) : Framed none read := ⟨h, nofun⟩

theorem framed_pure (x : α) : Framed (some 0) (pure x) where
  extends_ := extends_pure x
  length_eq := by
    rintro _ ⟨⟩ bs y rest hread
    cases hread
    exact (Nat.zero_add _).symm

theorem framed_failure : Framed n (failure : Read α) := ⟨extends_failure, fun _ _ => nofun⟩

theorem Framed.bind {f : α → Read β} (h : Framed m read) (hf : ∀ x, Framed n (f x)) :
    Framed (Option.map₂ (· + ·) m n) (read >>= f) where
  extends_ := h.extends_.bind fun x => (hf x).extends_
  length_eq := by
    intro k hk bs y rest hread
    obtain ⟨a, b, ha, hb, rfl⟩ := Option.mem_map₂_iff.1 hk
    obtain ⟨x, mid, hx, hy⟩ := bind_eq_some_iff.1 hread
    rw [h.length_eq a ha hx, (hf x).length_eq b hb hy, Nat.add_assoc]

theorem Framed.map (f : α → β) (h : Framed (some k) read) : Framed (some k) (f <$> read) :=
  h.bind fun x => framed_pure (f x)

theorem framed_take (n : Nat) : Framed (some n) (take n) where
  extends_ := extends_take n
  length_eq := by
    rintro _ ⟨⟩ bs front rest hread
    obtain ⟨hlength, rfl⟩ := eq_of_take hread
    rw [List.length_append, hlength]

/-! ## Fields -/

theorem framed_unsigned (n : Nat) : Framed (some n) (unsigned n) := (framed_take n).map _

theorem framed_byte : Framed (some 1) byte := (framed_unsigned 1).map _

theorem framed_int16 : Framed (some 2) int16 := (framed_unsigned 2).map _

theorem framed_int32 : Framed (some 4) int32 := (framed_unsigned 4).map _

theorem framed_int64 : Framed (some 8) int64 := (framed_unsigned 8).map _

theorem framed_double : Framed (some 8) double := (framed_unsigned 8).map _

theorem framed_point : Framed (some 16) point :=
  framed_double.bind fun x => framed_double.bind fun y => framed_pure (Native.Point.mk x y)

theorem extends_points : Extends points := extends_count.bind framed_point.extends_.times

theorem extends_inet : Extends inet := by
  have hbyte := framed_byte.extends_
  refine hbyte.bind fun family => hbyte.bind fun bits => hbyte.bind fun cidr =>
    hbyte.bind fun size => ?_
  split
  · exact hbyte.bind fun a => hbyte.bind fun b => hbyte.bind fun c => hbyte.bind fun d =>
      extends_pure _
  · split
    · exact (extends_take 16).bind fun bs => extends_pure _
    · exact extends_failure

theorem extends_decimal : Extends decimal := by
  have hint := framed_int16.extends_
  refine hint.bind fun n => ?_
  split
  · exact nofun
  · exact hint.bind fun weight => (extends_unsigned 2).bind fun sign => (extends_unsigned 2).bind
      fun scale => (hint.times _).bind fun digits => extends_pure _

theorem extends_bound (decode : List UInt8 → Option Native) (isOpen inclusive : Bool) :
    Extends (bound decode isOpen inclusive) := by
  rw [bound]
  split
  · exact extends_pure none
  · refine extends_field.bind fun cell => ?_
    cases cell with
    | none => exact extends_failure
    | some raw => exact extends_pure _

theorem extends_range (decode : List UInt8 → Option Native) : Extends (range decode) := by
  refine framed_byte.extends_.bind fun flags => ?_
  dsimp only
  split
  · exact extends_pure _
  · exact (extends_bound ..).bind fun lower => (extends_bound ..).bind fun upper => extends_pure _

/-- What is read of a type with a binary layout, and its size. -/
theorem framed_ofKind {kind : Kind} {read : Read Native} (h : ofKind kind = some read) :
    Framed kind.size? read := by
  cases kind <;> cases h
  case bool => exact framed_byte.bind fun _ => framed_pure _
  case int2 => exact framed_int16.bind fun _ => framed_pure _
  case int4 => exact framed_int32.bind fun _ => framed_pure _
  case int8 | money => exact framed_int64.map _
  case oid | float4 => exact (framed_unsigned 4).map _
  case float8 => exact framed_double.map _
  case numeric => exact (extends_decimal.map _).framed
  case uuid => exact (framed_take 16).map _
  case date =>
    refine framed_int32.bind (n := some 0) fun days => ?_
    split
    · exact framed_pure _
    · exact framed_failure
  case time | timestamp =>
    refine framed_int64.bind (n := some 0) fun micros => ?_
    split
    · exact framed_pure _
    · exact framed_failure
  case timeTz =>
    refine framed_int64.bind fun micros => framed_int32.bind (n := some 0) fun west => ?_
    split
    · exact framed_pure _
    · exact framed_failure
  case interval =>
    exact framed_int64.bind fun _ => framed_int32.bind fun _ => framed_int32.bind fun _ =>
      framed_pure _
  case inet => exact (extends_inet.map _).framed
  case point => exact framed_point.map _
  case line =>
    exact framed_double.bind fun _ => framed_double.bind fun _ => framed_double.bind fun _ =>
      framed_pure _
  case segment | box => exact framed_point.bind fun _ => framed_point.bind fun _ => framed_pure _
  case path =>
    exact (framed_byte.extends_.bind fun _ => extends_points.bind fun _ => extends_pure _).framed
  case polygon => exact (extends_points.map _).framed
  case circle => exact framed_point.bind fun _ => framed_double.bind fun _ => framed_pure _
  case bits =>
    exact (extends_count.bind fun n => (extends_take _).bind fun bs => extends_pure _).framed

end Read

/-! ## Payloads -/

/-- The payloads of a type with a binary layout are read as a whole, if they are read at all. -/
theorem exists_framed {oid : Nat} {kind : Kind} (hkind : kindOf? oid = some kind)
    (hbinary : kind.IsBinary) (hmac : kind ≠ .mac) :
    ∃ read : Read Native, decode oid = read.whole ∧ Read.Framed kind.size? read := by
  by_cases hrange : ∃ subtype, kind = .range subtype
  · obtain ⟨subtype, rfl⟩ := hrange
    exact ⟨_, funext (decode_eq_decodeRange hkind), (Read.extends_range _).framed⟩
  · rw [decode_eq_decodeScalar hkind fun subtype hkind => hrange ⟨subtype, hkind⟩]
    cases kind with
    | bytea => exact hbinary.elim
    | char => exact hbinary.elim
    | text => exact hbinary.elim
    | json => exact hbinary.elim
    | jsonb => exact hbinary.elim
    | mac => exact absurd rfl hmac
    | range subtype => exact absurd ⟨subtype, rfl⟩ hrange
    | _ => exact ⟨_, rfl, Read.framed_ofKind rfl⟩

/-- The payload of an array is neither decoded in part nor with something more. -/
theorem arrayOutcome_of_ne {bs : List UInt8} {v : Native} (h : arrayOutcome bs = .value v) :
    (∀ p, p <+: bs → p ≠ bs → arrayOutcome p = .refused) ∧
      ∀ more, more ≠ [] → arrayOutcome (bs ++ more) = .refused := by
  obtain ⟨g, rfl, ⟨hg, hfits⟩ | ⟨hg, rfl⟩⟩ := exists_of_arrayOutcome h
  · exact ⟨fun _ => hg.arrayOutcome_of_prefix hfits, fun _ => hg.arrayOutcome_append hfits⟩
  · -- Without dimensions the header is all.
    have hsend : g.send = g.header := by
      rw [Grid.send, hg.cells]
      exact List.append_nil _
    have hlengths : g.lengths = [] := List.map_eq_nil_iff.2 hg.dims
    rw [hsend]
    refine ⟨fun _ => hg.announceable.arrayOutcome_of_prefix, fun more hmore => ?_⟩
    rw [arrayOutcome, hg.announceable.finds_header more, hlengths]
    exact congrArg Outcome.ofOption ((Read.finds_pure (Native.array [])).whole_append hmore)

/-- Payloads end where they say. For a type with a binary layout, what is accepted is neither
accepted in part nor with something more, unless the type is that of hardware addresses; and a type
of one size takes only payloads of it. For ranges, whatever type their bounds are of, and for arrays
the same holds; a payload that was cut off does not break the reading of an array off either. -/
theorem decode_framed (oid subtype : Nat) :
    (∀ kind, kindOf? oid = some kind → kind.IsBinary →
      (PrefixFree (decode oid) ↔ kind ≠ .mac) ∧
      ∀ n ∈ kind.size?, ∀ bs v, decode oid bs = some v → bs.length = n) ∧
    PrefixFree (decodeRange subtype) ∧
    ∀ bs v, arrayOutcome bs = .value v →
      (∀ p, p <+: bs → p ≠ bs → arrayOutcome p = .refused) ∧
      ∀ more, more ≠ [] → arrayOutcome (bs ++ more) = .refused := by
  refine ⟨fun kind hkind hbinary => ?_, (Read.extends_range _).prefixFree,
    fun _ _ => arrayOutcome_of_ne⟩
  by_cases hmac : kind = .mac
  · subst hmac
    have hall : ∀ bs, decode oid bs = some (.mac bs) :=
      fun bs => congrFun (decode_eq_decodeScalar hkind nofun) bs
    refine ⟨⟨fun hfree => ?_, fun hne => absurd rfl hne⟩, nofun⟩
    have hnone := (hfree (hall [])).2 [0] nofun
    rw [hall] at hnone
    cases hnone
  · obtain ⟨read, hread, hframed⟩ := exists_framed hkind hbinary hmac
    rw [hread]
    exact ⟨⟨fun _ => hmac, fun _ => hframed.extends_.prefixFree⟩,
      fun n hn bs v => hframed.length_of_whole hn⟩

/-- A span of time takes sixteen bytes, and five bits are refused with a byte more or less. -/
theorem decode_framed_bits :
    (∀ bs v, decode 1186 bs = some v → bs.length = 16) ∧
    decode 1560 [0, 0, 0, 5, 0xB0] = some (.bits 5 [0xB0]) ∧ decode 1560 [0, 0, 0, 5] = none ∧
    decode 1560 [0, 0, 0, 5, 0xB0, 0] = none := by
  have hbits : decode 1560 [0, 0, 0, 5, 0xB0] = some (.bits 5 [0xB0]) := rfl
  have hfree : PrefixFree (decode 1560) := ((decode_framed 1560 23).1 .bits rfl trivial).1.2 nofun
  exact ⟨((decode_framed 1186 23).1 .interval rfl trivial).2 16 rfl, hbits,
    (hfree hbits).1 _ (by decide) (by decide), (hfree hbits).2 [0] nofun⟩

/-- A hardware address is accepted without its last byte. -/
theorem decode_accepts_cut_off :
    let bs : List UInt8 := [0xDE, 0xAD, 0xBE, 0xEF, 0x00]
    decode 829 (bs ++ [0x01]) = some (.mac (bs ++ [0x01])) ∧ decode 829 bs = some (.mac bs) :=
  ⟨rfl, rfl⟩

end SqlGate.Wire
