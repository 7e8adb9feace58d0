import Mathlib.Algebra.BigOperators.Ring.List
import SqlGate.Proofs.Wire.Grid

/-!
# How much an array is decoded to

The payload of an array has eight bytes for each dimension and four or more for each cell
(`Grid.le_length_send`), and nothing else is decoded to an array. What it is decoded to has a value
for each element and one for each nested array. The arrays along a dimension are as many as there
are elements at most (`spread_le`), unless a dimension is empty: then no elements are there to make
up for the arrays. So a small payload is not decoded to a large array (`decodeArray_extent`), but it
may be decoded to one of more values than it has bytes (`decodeArray_outgrows`).
-/

namespace SqlGate

namespace Native

mutual

/-- How many values there are in one: in an array itself and those in its items. -/
def nodes : Native → Nat
  | .array items => 1 + nodesAll items
  | _ => 1

/-- How many values there are in some. -/
def nodesAll : List Native → Nat
  | [] => 0
  | v :: vs => v.nodes + nodesAll vs

end

theorem nodesAll_eq {n : Nat} {items : List Native} (h : ∀ item ∈ items, item.nodes = n) :
    nodesAll items = items.length * n := by
  induction items with
  | nil => rw [nodesAll, List.length_nil, Nat.zero_mul]
  | cons v vs ih =>
      have ih := ih fun item hitem => h item (List.mem_cons_of_mem v hitem)
      rw [nodesAll, h v List.mem_cons_self, ih, List.length_cons, Nat.add_mul, Nat.one_mul,
        Nat.add_comm]

end Native

namespace Wire

/-! ## Nested values -/

/-- How many values there are in one that is nested along lengths. -/
def spread : List Nat → Nat
  | [] => 1
  | d :: ds => 1 + d * spread ds

theorem nodes_eq_spread {lengths : List Nat} {v : Native} (hshape : v.HasShape lengths)
    (hleaf : ∀ index w, Within index lengths → v.at? index = some w → w.nodes = 1) :
    v.nodes = spread lengths := by
  induction lengths generalizing v with
  | nil => exact hleaf [] v .nil (by rw [Native.at?])
  | cons d ds ih =>
      cases v with
      | array items =>
          obtain ⟨hlength, hitems⟩ := hshape
          have hnodes : ∀ item ∈ items, item.nodes = spread ds := by
            intro item hitem
            refine ih (hitems item hitem) fun index w hindex hw => ?_
            obtain ⟨i, hi, rfl⟩ := List.getElem_of_mem hitem
            refine hleaf (i :: index) w (.cons (hlength ▸ hi) hindex) ?_
            rw [Native.at?, List.getElem?_eq_getElem hi, Option.bind_some, hw]
          rw [Native.nodes, Native.nodesAll_eq hnodes, hlength, spread]
      | _ => exact hshape.elim

/-- Each dimension has so many arrays at most as there are elements, unless one is empty. -/
theorem spread_le {lengths : List Nat} (h : 0 ∉ lengths) :
    spread lengths ≤ 1 + lengths.length * lengths.prod := by
  induction lengths with
  | nil => decide
  | cons d ds ih =>
      have hds : 0 ∉ ds := fun hmem => h (List.mem_cons_of_mem d hmem)
      have hprod : 1 ≤ ds.prod := Nat.one_le_iff_ne_zero.2 fun hzero =>
        hds (List.prod_eq_zero_iff.1 hzero)
      calc
        spread (d :: ds) ≤ 1 + d * (1 + ds.length * ds.prod) :=
          Nat.add_le_add_left (Nat.mul_le_mul_left d (ih hds)) 1
        _ = 1 + (d * 1 + ds.length * (d * ds.prod)) := by ring
        _ ≤ 1 + (d * ds.prod + ds.length * (d * ds.prod)) := by
          have := Nat.mul_le_mul_left d hprod
          omega
        _ = 1 + (d :: ds).length * (d :: ds).prod := by
          rw [List.length_cons, List.prod_cons]
          ring

/-! ## Elements -/

theorem nodes_timeOf? {micros : Int} {v : Native} (h : timeOf? micros = some v) : v.nodes = 1 := by
  rw [timeOf?] at h
  split at h
  next =>
    cases h
    rfl
  next =>
    obtain ⟨t, -, rfl⟩ := Option.map_eq_some_iff.1 h
    rfl

theorem nodes_timeTzOf? {micros west : Int} {v : Native} (h : timeTzOf? micros west = some v) :
    v.nodes = 1 := by
  rw [timeTzOf?] at h
  split at h
  next =>
    obtain ⟨t, -, rfl⟩ := Option.map_eq_some_iff.1 h
    rfl
  next => cases h

/-- What holds of all that a read finds. -/
def Read.Gives {α : Type} (P : α → Prop) (read : Read α) : Prop :=
  ∀ ⦃bs x rest⦄, read bs = some (x, rest) → P x

namespace Read

variable {α β : Type} {P : α → Prop}

theorem gives_pure {x : α} (h : P x) : Gives P (pure x) := by
  intro bs y rest hread
  cases hread
  exact h

theorem gives_failure : Gives P failure := nofun

theorem gives_bind {read : Read β} {f : β → Read α} (h : ∀ x, Gives P (f x)) :
    Gives P (read >>= f) := by
  intro bs y rest hread
  obtain ⟨x, mid, -, hy⟩ := bind_eq_some_iff.1 hread
  exact h x hy

theorem gives_map {read : Read β} {f : β → α} (h : ∀ x, P (f x)) : Gives P (f <$> read) :=
  gives_bind fun x => gives_pure (h x)

/-- What a payload is decoded to is a single value. -/
theorem gives_single_ofKind {kind : Kind} {read : Read Native} (h : ofKind kind = some read) :
    Gives (fun v => v.nodes = 1) read := by
  cases kind <;> cases h
  case int8 | oid | float4 | float8 | money | numeric | uuid | inet | point | polygon =>
    exact gives_map fun _ => rfl
  case bool | int2 | int4 => exact gives_bind fun _ => gives_pure rfl
  case date | timestamp =>
    refine gives_bind fun _ => ?_
    split
    · exact gives_pure rfl
    · exact gives_failure
  case time =>
    refine gives_bind fun _ => ?_
    split
    next hv => exact gives_pure (nodes_timeOf? hv)
    next => exact gives_failure
  case timeTz =>
    refine gives_bind fun _ => gives_bind fun _ => ?_
    split
    next hv => exact gives_pure (nodes_timeTzOf? hv)
    next => exact gives_failure
  case segment | box | path | circle | bits =>
    exact gives_bind fun _ => gives_bind fun _ => gives_pure rfl
  case line | interval =>
    exact gives_bind fun _ => gives_bind fun _ => gives_bind fun _ => gives_pure rfl

theorem gives_single_range (decode : List UInt8 → Option Native) :
    Gives (fun v => v.nodes = 1) (range decode) := by
  refine gives_bind fun flags => ?_
  dsimp only
  split
  · exact gives_pure rfl
  · exact gives_bind fun _ => gives_bind fun _ => gives_pure rfl

theorem Gives.whole {read : Read α} {bs : List UInt8} {x : α} (h : Gives P read)
    (hread : read.whole bs = some x) : P x := h (whole_eq_some_iff.1 hread)

end Read

theorem nodes_decodeScalar {kind : Kind} {bs : List UInt8} {v : Native}
    (h : decodeScalar kind bs = some v) : v.nodes = 1 := by
  have hjson : ∀ {document}, jsonOf? document = some v → v.nodes = 1 := fun h => by
    obtain ⟨document, -, rfl⟩ := Option.map_eq_some_iff.1 h
    rfl
  unfold decodeScalar at h
  split at h
  next => cases h; rfl
  next => cases h; rfl
  next =>
    obtain ⟨s, -, rfl⟩ := Option.map_eq_some_iff.1 h
    rfl
  next => exact hjson h
  next =>
    split at h
    next => exact hjson h
    next => cases h
  next => cases h; rfl
  next =>
    obtain ⟨read, hread, h⟩ := Option.bind_eq_some_iff.1 h
    exact (Read.gives_single_ofKind hread).whole h

theorem nodes_decode {oid : Nat} {bs : List UInt8} {v : Native} (h : decode oid bs = some v) :
    v.nodes = 1 := by
  unfold decode at h
  split at h
  next => cases h
  next => exact (Read.gives_single_range _).whole h
  next => exact nodes_decodeScalar h

theorem nodes_cellValue (oid : Nat) (cell : Option (List UInt8)) :
    (cellValue oid cell).nodes = 1 := by
  cases cell with
  | none => rfl
  | some bs =>
      rw [cellValue]
      cases hv : decode oid bs with
      | some v => exact nodes_decode hv
      | none =>
          rw [Option.getD_none, fallback, textOf?]
          cases Text.Utf8.decode? bs <;> rfl

/-! ## Payloads -/

/-- The lengths of the dimensions that a payload announces. -/
def announced? (bs : List UInt8) : Option (List Nat) :=
  (Read.arrayHeader bs).map fun r => r.1.2

/-- The number of elements for which room is reserved before the first one is read: the one that the
reading breaks off by (`arrayOutcome_eq_brokenOff_iff`). -/
def reserved? (bs : List UInt8) : Option Nat :=
  (announced? bs).bind fun lengths => if lengths = [] then none else elementCount 1 lengths

/-- The reading breaks off where there is not so much room. -/
theorem arrayOutcome_eq_brokenOff_iff {bs : List UInt8} :
    arrayOutcome bs = .brokenOff ↔ ∃ n ∈ reserved? bs, room < n := by
  have hended : ∀ o, Outcome.ofOption o ≠ .brokenOff := by
    intro o
    cases o <;> exact nofun
  rw [arrayOutcome, reserved?, announced?]
  split
  next hheader => simp [hheader]
  next hheader => simp [hheader, hended]
  next oid lengths rest hne hheader =>
    have hne : lengths ≠ [] := hne
    rw [hheader, Option.map_some, Option.bind_some, if_neg hne]
    cases elementCount 1 lengths with
    | none => simp
    | some n => by_cases hroom : room < n <;> simp [hroom, hended]

namespace Grid

variable {g : Grid}

theorem length_header (g : Grid) : g.header.length = 12 + 8 * g.dims.length := by
  have hdims : (g.dims.flatMap fun d => signed 4 d.1 ++ signed 4 d.2).length =
      8 * g.dims.length := by
    rw [List.length_flatMap]
    simp [Nat.mul_comm]
  simp only [header, List.length_append, length_signed, length_big, hdims]
  omega

theorem le_length_cells (cells : List (Option (List UInt8))) :
    4 * cells.length ≤ (cells.flatMap sendCell).length := by
  induction cells with
  | nil => exact Nat.zero_le _
  | cons cell cells ih =>
      have hcell : 4 ≤ (sendCell cell).length := by
        cases cell <;> simp [sendCell]
      rw [List.flatMap_cons, List.length_append, List.length_cons]
      omega

/-- Each dimension takes eight bytes, and each cell four or more. -/
theorem le_length_send (g : Grid) :
    12 + 8 * g.dims.length + 4 * g.cells.length ≤ g.send.length := by
  rw [send, List.length_append, length_header]
  exact Nat.add_le_add_left (le_length_cells g.cells) _

theorem Announceable.announced?_send (h : g.Announceable) : announced? g.send = some g.lengths := by
  rw [announced?, send, h.finds_header]
  rfl

theorem Sendable.reserved?_send (h : g.Sendable) (hcounted : g.Counted) :
    reserved? g.send = some g.cells.length := by
  have hne : g.lengths ≠ [] := fun hnil => h.dims_ne (List.map_eq_nil_iff.1 hnil)
  rw [reserved?, h.announceable.announced?_send, Option.bind_some, if_neg hne,
    elementCount_eq fun k => (Nat.one_mul _).symm ▸ hcounted k, Nat.one_mul, h.cells]

/-- An array is decoded to as many values as its lengths make. -/
theorem Sendable.nodes_eq (h : g.Sendable) (hfits : g.Fits) {v : Native}
    (hv : arrayOutcome g.send = .value v) : v.nodes = spread g.lengths := by
  obtain ⟨w, hw, hshape, hat⟩ := h.exists_value hfits
  obtain rfl : w = v := Outcome.value.inj (hw.symm.trans hv)
  refine nodes_eq_spread hshape fun index x hindex hx => ?_
  obtain ⟨cell, -, hcell⟩ := hat index hindex
  cases hx.symm.trans hcell
  exact nodes_cellValue g.oid cell

end Grid

theorem decodeArray_eq_some_iff {bs : List UInt8} {v : Native} :
    decodeArray bs = some v ↔ arrayOutcome bs = .value v := by
  rw [decodeArray]
  cases arrayOutcome bs <;> simp [Outcome.value?]

/-- A small payload is not decoded to a large array. It holds eight bytes for each dimension that it
announces and four for each element that room was reserved for. Unless a dimension is empty, each
dimension has as many arrays at most as there are elements; so there are no more values than bytes
and, for each dimension beyond the fourth, as many again as there are elements. -/
theorem decodeArray_extent {bs : List UInt8} {v : Native} (h : decodeArray bs = some v) :
    ∃ lengths, announced? bs = some lengths ∧
      (∀ n ∈ reserved? bs, 12 + 8 * lengths.length + 4 * n ≤ bs.length) ∧
      (0 ∉ lengths → v.nodes ≤ 1 + lengths.length * lengths.prod ∧
        v.nodes ≤ bs.length + (lengths.length - 4) * lengths.prod) := by
  have hv := decodeArray_eq_some_iff.1 h
  obtain ⟨g, rfl, ⟨hg, hfits⟩ | ⟨hg, rfl⟩⟩ := exists_of_arrayOutcome hv
  · have hrank : g.lengths.length = g.dims.length := List.length_map _
    have hlength := g.le_length_send
    rw [← hrank, hg.cells] at hlength
    refine ⟨g.lengths, hg.announceable.announced?_send, fun n hn => ?_, fun hzero => ?_⟩
    · rw [hg.reserved?_send hfits.counted, hg.cells] at hn
      cases hn
      exact hlength
    · have hnodes := hg.nodes_eq hfits hv ▸ spread_le hzero
      have hdims : g.lengths.length * g.lengths.prod ≤
          4 * g.lengths.prod + (g.lengths.length - 4) * g.lengths.prod := by
        rw [← Nat.add_mul]
        exact Nat.mul_le_mul_right _ (by omega)
      exact ⟨hnodes, by omega⟩
  · -- Nothing comes after the header.
    have hlengths : g.lengths = [] := List.map_eq_nil_iff.2 hg.dims
    have hannounced := hg.announceable.announced?_send
    have hlength := g.length_header
    rw [hlengths] at hannounced
    refine ⟨[], hannounced, fun n hn => ?_, fun _ => ⟨le_rfl, ?_⟩⟩
    · rw [reserved?, hannounced] at hn
      cases hn
    · have hsend := g.le_length_send
      change 1 ≤ _
      omega

/-- Two rows of two, with nothing in them. -/
theorem decodeArray_extent_table :
    let g := Grid.blank 23 2 2
    g.send.length = 44 ∧ reserved? g.send = some 4 ∧ 12 + 8 * 2 + 4 * 4 ≤ g.send.length ∧
      ∃ v, decodeArray g.send = some v ∧ v.nodes ≤ 9 ∧ v.nodes ≤ 44 := by
  intro g
  have hg : g.Sendable := Grid.sendable_blank (by decide) (by decide) (by decide)
  have hcounted : g.Counted := (Grid.elementCount_eq_some (n := 4) rfl).2
  have hreserved : reserved? g.send = some 4 := hg.reserved?_send hcounted
  obtain ⟨v, hv, -⟩ := hg.exists_value ⟨hcounted, by decide⟩
  have hdecode : decodeArray g.send = some v := decodeArray_eq_some_iff.2 hv
  obtain ⟨lengths, hlengths, hlength, hnodes⟩ := decodeArray_extent hdecode
  cases hlengths.symm.trans hg.announceable.announced?_send
  exact ⟨rfl, hreserved, hlength 4 hreserved, v, hdecode, hnodes (by decide)⟩

/-- Thirty elements in six dimensions. -/
theorem decodeArray_outgrows :
    let g : Grid := ⟨1, 23, [(30, 1), (1, 1), (1, 1), (1, 1), (1, 1), (1, 1)], .replicate 30 none⟩
    g.send.length = 180 ∧ ∃ v, decodeArray g.send = some v ∧ v.nodes = 181 := by
  intro g
  have hg : g.Sendable :=
    { dims_ne := nofun
      rank := by decide
      lengths := by decide
      oid := by decide
      cells := rfl
      fields := fun bs hbs => nomatch List.eq_of_mem_replicate hbs }
  have hfits : g.Fits :=
    { counted := (Grid.elementCount_eq_some (n := 30) rfl).2
      room := by decide }
  obtain ⟨v, hv, -⟩ := hg.exists_value hfits
  exact ⟨rfl, v, decodeArray_eq_some_iff.2 hv, hg.nodes_eq hfits hv⟩

end Wire

end SqlGate
