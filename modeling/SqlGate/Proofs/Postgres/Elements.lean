import SqlGate.Postgres.ColumnType
import SqlGate.Proofs.Wire.Grid
import SqlGate.Proofs.Wire.RoundTrip

/-!
# Elements of arrays beside columns

An element of an array is decoded by the number that the array names, a column by what the server
says of its type. The two agree on the types whose numbers say how they are read and on those whose
payloads are shown as they are, and on no others (`element_eq_column_iff`). A column of any other
type is decoded by the base of the domain or the bounds of the range, an element is shown raw.
-/

namespace SqlGate

/-- The values that payloads without a decoder are shown as. -/
def Native.IsRaw : Native → Prop
  | .text _ | .bytes _ => True
  | _ => False

namespace Wire

/-! ## Payloads that are not shown raw -/

theorem isRaw_fallback (bs : List UInt8) : (fallback bs).IsRaw := by
  unfold fallback textOf?
  cases Text.Utf8.decode? bs <;> trivial

theorem ne_fallback {v : Native} (h : ¬ v.IsRaw) (bs : List UInt8) : v ≠ fallback bs :=
  fun hv => h (hv ▸ isRaw_fallback bs)

theorem textOf?_getD_fallback (bs : List UInt8) :
    (textOf? bs).getD (fallback bs) = fallback bs := by
  unfold fallback
  cases textOf? bs <;> rfl

/-- A payload of a kind, mostly the one of zeros. Bytes without text and text that is not UTF-8 are
the ones that differ from what they are shown as. -/
def sample : Kind → List UInt8
  | .bytea | .text | .mac => []
  | .char => [0xFF]
  | .json => [0x30]
  | .jsonb => [1, 0x30]
  | .range _ => [1]
  | .inet => [2, 0, 0, 4, 0, 0, 0, 0]
  | .bool => [0]
  | .int2 => List.replicate 2 0
  | .int4 | .oid | .float4 | .date | .polygon | .bits => List.replicate 4 0
  | .path => List.replicate 5 0
  | .int8 | .float8 | .money | .numeric | .time | .timestamp => List.replicate 8 0
  | .timeTz => List.replicate 12 0
  | .uuid | .interval | .point => List.replicate 16 0
  | .line | .circle => List.replicate 24 0
  | .segment | .box => List.replicate 32 0

theorem length_sample_lt (kind : Kind) : (sample kind).length < 2147483648 := by
  cases kind <;> simp [sample]

theorem exists_decodeScalar_sample {kind : Kind} (htext : kind ≠ .text)
    (hrange : ∀ subtype, kind ≠ .range subtype) :
    ∃ v, decodeScalar kind (sample kind) = some v ∧ v ≠ fallback (sample kind) := by
  cases kind with
  | text => exact absurd rfl htext
  | range subtype => exact absurd rfl (hrange subtype)
  | bytea => exact ⟨_, rfl, nofun⟩
  | char => exact ⟨_, rfl, nofun⟩
  | _ =>
      refine ⟨_, rfl, ne_fallback ?_ _⟩
      exact not_false

/-- Every type with a decoder that is no text has a payload that is not shown raw. -/
theorem exists_decode_sample {oid : Nat} {kind : Kind} (hkind : kindOf? oid = some kind)
    (htext : kind ≠ .text) :
    ∃ v, decode oid (sample kind) = some v ∧ v ≠ fallback (sample kind) := by
  by_cases hrange : ∃ subtype, kind = .range subtype
  · obtain ⟨subtype, rfl⟩ := hrange
    refine ⟨.emptyRange, ?_, ne_fallback (v := .emptyRange) not_false _⟩
    rw [decode, hkind]
    exact (finds_emptyRange _).whole
  · rw [decode_eq_decodeScalar hkind fun subtype hkind => hrange ⟨subtype, hkind⟩]
    exact exists_decodeScalar_sample htext fun subtype hkind => hrange ⟨subtype, hkind⟩

/-- A payload is in the cell at an index of an array that there is room for. -/
structure Grid.Holds (g : Grid) (index : List Nat) (bs : List UInt8) : Prop where
  sendable : g.Sendable
  fits : g.Fits
  within : Within index g.lengths
  cell : g.cells[rowMajor g.lengths index]? = some (some bs)

theorem Grid.Holds.exists_value {g : Grid} {index : List Nat} {bs : List UInt8}
    (h : g.Holds index bs) :
    ∃ v, arrayOutcome g.send = .value v ∧ v.at? index = some (decodeOrFallback g.oid bs) := by
  obtain ⟨v, hv, -, hat⟩ := h.sendable.exists_value h.fits
  obtain ⟨cell, hcell, hvalue⟩ := hat index h.within
  cases h.cell.symm.trans hcell
  exact ⟨v, hv, hvalue⟩

/-- An array of one element. -/
def Grid.single (oid : Nat) (bs : List UInt8) : Grid := ⟨0, oid, [(1, 1)], [some bs]⟩

theorem Grid.holds_single {oid : Nat} {bs : List UInt8} (hoid : oid < 4294967296)
    (hbs : bs.length < 2147483648) : (Grid.single oid bs).Holds [0] bs where
  sendable :=
    { dims_ne := List.cons_ne_nil _ _
      rank := (by decide : 1 < 2147483648)
      lengths := by simp [single]
      oid := hoid
      cells := rfl
      fields := by simpa [single] using hbs }
  fits :=
    { counted := fun k => by cases k <;> simp [single, Grid.lengths]
      room := (by decide : 1 ≤ room) }
  within := .cons Nat.zero_lt_one .nil
  cell := rfl

end Wire

namespace Postgres.ColumnType

open Wire

/-! ## Kinds of types -/

/-- Types as a catalog has them: a domain or an array has not the number of a type with a decoder,
and a range that has one is the range over that subtype. -/
def Known : ColumnType → Prop
  | scalar oid => oid < 4294967296
  | domain oid base => oid < 4294967296 ∧ kindOf? oid = none ∧ base.Known
  | array oid => oid < 4294967296 ∧ kindOf? oid = none
  | range oid subtype => oid < 4294967296 ∧ subtype.Known ∧
      (kindOf? oid = none ∨ kindOf? oid = some (.range subtype.oid))

/-- The number of a type says how it is read: it is no domain or array, nor a range that a user has
made. -/
def ReadByNumber : ColumnType → Prop
  | scalar _ => True
  | domain .. | array _ => False
  | range oid _ => kindOf? oid ≠ none

/-- The payloads of a type are shown as they are: it is a type of texts or one without a decoder, or
a domain over such a type. -/
def ShownAsIs : ColumnType → Prop
  | scalar oid => kindOf? oid = none ∨ kindOf? oid = some .text
  | domain _ base => base.ShownAsIs
  | array _ | range .. => False

theorem Known.oid_lt {t : ColumnType} (h : t.Known) : t.oid < 4294967296 := by
  cases t with
  | scalar oid => exact h
  | domain oid base => exact h.1
  | array oid => exact h.1
  | range oid subtype => exact h.1

/-! ## Columns -/

theorem decode?_of_outcome {t : ColumnType} {bs : List UInt8} {decoded : Option Native}
    (h : t.outcome bs = .ofOption decoded) : t.decode? bs = some (decoded.getD (fallback bs)) := by
  rw [decode?, h]
  cases decoded <;> rfl

theorem Known.decode?_of_readByNumber {t : ColumnType} (h : t.Known) (hnumber : t.ReadByNumber)
    (bs : List UInt8) : t.decode? bs = some (decodeOrFallback t.oid bs) := by
  cases t with
  | scalar oid => exact decode?_of_outcome rfl
  | domain oid base => exact hnumber.elim
  | array oid => exact hnumber.elim
  | range oid subtype =>
      obtain ⟨-, -, hmade | hbuiltIn⟩ := h
      · exact absurd hmade hnumber
      · exact decode?_of_outcome (congrArg _ (decode_eq_decodeRange hbuiltIn bs).symm)

theorem ShownAsIs.decode? {t : ColumnType} (h : t.ShownAsIs) (bs : List UInt8) :
    t.decode? bs = some (fallback bs) := by
  induction t with
  | scalar oid =>
      refine (decode?_of_outcome rfl).trans (congrArg some ?_)
      obtain hnone | htext := h
      · rw [decode_eq_none hnone]
        rfl
      · rw [decode, htext]
        exact textOf?_getD_fallback bs
  | domain oid base ih => exact ih h
  | array oid => exact h.elim
  | range oid subtype => exact h.elim

/-- A column that does not show its payloads as they are has one that it shows otherwise. -/
theorem exists_decode?_ne {t : ColumnType} (h : ¬ t.ShownAsIs) :
    ∃ bs, bs.length < 2147483648 ∧ t.decode? bs ≠ some (fallback bs) := by
  induction t with
  | scalar oid =>
      rw [ShownAsIs, not_or] at h
      obtain ⟨kind, hkind⟩ := Option.ne_none_iff_exists'.1 h.1
      obtain ⟨v, hv, hne⟩ := exists_decode_sample hkind fun htext => h.2 (htext ▸ hkind)
      refine ⟨sample kind, length_sample_lt kind, ?_⟩
      rw [decode?_of_outcome (t := scalar oid) rfl, hv]
      exact fun heq => hne (Option.some.inj heq)
  | domain oid base ih => exact ih h
  | array oid =>
      refine ⟨List.replicate 12 0, by decide, fun heq => ?_⟩
      exact ne_fallback (v := .array []) not_false _ (Option.some.inj heq)
  | range oid subtype =>
      refine ⟨[1], by decide, ?_⟩
      rw [decode?_of_outcome (t := range oid subtype) rfl, decodeRange,
        (finds_emptyRange _).whole]
      exact fun heq => ne_fallback (v := .emptyRange) not_false _ (Option.some.inj heq)

/-! ## Elements -/

theorem Known.decodeOrFallback_of_not_readByNumber {t : ColumnType} (h : t.Known)
    (hnumber : ¬ t.ReadByNumber) (bs : List UInt8) :
    decodeOrFallback t.oid bs = fallback bs := by
  have hnone : kindOf? t.oid = none := by
    cases t with
    | scalar oid => exact absurd trivial hnumber
    | domain oid base => exact h.2.1
    | array oid => exact h.2
    | range oid subtype => exact not_not.1 hnumber
  rw [decodeOrFallback, decode_eq_none hnone]
  rfl

theorem Known.at?_send {t : ColumnType} (ht : t.Known) {g : Grid} {index : List Nat}
    {bs : List UInt8} (hoid : g.oid = t.oid) (h : g.Holds index bs) :
    ∃ v, arrayOutcome g.send = .value v ∧ (t.ReadByNumber → v.at? index = t.decode? bs) ∧
      (¬ t.ReadByNumber → v.at? index = some (fallback bs)) := by
  obtain ⟨v, hv, hat⟩ := h.exists_value
  rw [hoid] at hat
  refine ⟨v, hv, fun hnumber => ?_, fun hnumber => ?_⟩
  · rw [hat, ht.decode?_of_readByNumber hnumber]
  · rw [hat, ht.decodeOrFallback_of_not_readByNumber hnumber]

/-- The elements of all arrays of a type are decoded as a column of the type is if and only if its
number says how it is read or its payloads are shown as they are. The elements of any other type
are shown raw. -/
theorem element_eq_column_iff {t : ColumnType} (ht : t.Known) :
    ((∀ (g : Grid) (index : List Nat) (bs : List UInt8), g.oid = t.oid → g.Holds index bs →
        ∃ v, arrayOutcome g.send = .value v ∧ v.at? index = t.decode? bs) ↔
      t.ReadByNumber ∨ t.ShownAsIs) ∧
    (¬ t.ReadByNumber →
      ∀ (g : Grid) (index : List Nat) (bs : List UInt8), g.oid = t.oid → g.Holds index bs →
        ∃ v, arrayOutcome g.send = .value v ∧ v.at? index = some (fallback bs)) := by
  refine ⟨⟨fun hagree => ?_, fun hkind g index bs hoid h => ?_⟩,
    fun hnumber g index bs hoid h => ?_⟩
  · by_contra hkind
    obtain ⟨hnumber, hshown⟩ := not_or.1 hkind
    obtain ⟨bs, hbs, hne⟩ := exists_decode?_ne hshown
    have hholds := Grid.holds_single ht.oid_lt hbs
    obtain ⟨v, hv, -, hraw⟩ := ht.at?_send rfl hholds
    obtain ⟨w, hw, hcolumn⟩ := hagree _ _ _ rfl hholds
    cases hv.symm.trans hw
    exact hne (hcolumn.symm.trans (hraw hnumber))
  · obtain ⟨v, hv, hcolumn, hraw⟩ := ht.at?_send hoid h
    refine ⟨v, hv, ?_⟩
    by_cases hnumber : t.ReadByNumber
    · exact hcolumn hnumber
    · rw [hraw hnumber, (hkind.resolve_left hnumber).decode?]
  · obtain ⟨v, hv, -, hraw⟩ := ht.at?_send hoid h
    exact ⟨v, hv, hraw hnumber⟩

/-- Ranges of integers, built in and made by a user. The empty one is decoded as a column of either,
and as an element of the built-in one only. -/
theorem element_eq_column_iff_ranges :
    let builtIn := range 3904 (scalar 23)
    let made := range 90002 (scalar 23)
    builtIn.Known ∧ made.Known ∧
      (∃ v, arrayOutcome (Grid.single 3904 [1]).send = .value v ∧
        v.at? [0] = builtIn.decode? [1]) ∧
      ∃ v, arrayOutcome (Grid.single 90002 [1]).send = .value v ∧
        v.at? [0] = some (.text "\x01") := by
  intro builtIn made
  have hbuiltIn : builtIn.Known := ⟨by decide, (by decide : 23 < 4294967296), .inr rfl⟩
  have hmade : made.Known := ⟨by decide, (by decide : 23 < 4294967296), .inl rfl⟩
  refine ⟨hbuiltIn, hmade, ?_, ?_⟩
  · exact (element_eq_column_iff hbuiltIn).1.2 (.inl nofun) _ _ _ rfl
      (Grid.holds_single (by decide) (by decide))
  · exact (element_eq_column_iff hmade).2 (not_not.2 rfl) _ _ _ rfl
      (Grid.holds_single (by decide) (by decide))

/-- A domain over integers: the element of an array is shown as bytes, the column as the integer. -/
theorem element_of_domain_stays_raw :
    let t := domain 90001 (scalar 23)
    let bs : List UInt8 := [0xFF, 0xFF, 0xFF, 0xFB]
    let g := Grid.single 90001 bs
    t.Known ∧ g.oid = t.oid ∧ g.Holds [0] bs ∧ t.decode? bs = some (.int (-5)) ∧
      ∃ v, arrayOutcome g.send = .value v ∧ v.at? [0] = some (.bytes bs) := by
  intro t bs g
  have hknown : t.Known := ⟨by decide, rfl, (by decide : 23 < 4294967296)⟩
  have hholds : g.Holds [0] bs := Grid.holds_single (by decide) (by decide)
  obtain ⟨v, hv, -, hraw⟩ := hknown.at?_send (g := g) rfl hholds
  exact ⟨hknown, rfl, hholds, rfl, v, hv, hraw not_false⟩

end Postgres.ColumnType

end SqlGate
