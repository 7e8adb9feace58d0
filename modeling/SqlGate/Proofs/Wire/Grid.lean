import Mathlib.Algebra.BigOperators.Group.List.Basic
import SqlGate.Proofs.Wire.Layout
import SqlGate.Wire.Decode

/-!
# Arrays on the wire

An array is sent as its dimensions, the type of its elements, and its cells in row-major order
(`Grid.send`). Decoding puts the cells back into their places, whatever the number of dimensions
(`arrayOutcome_send`), and it takes neither less nor more than what was sent. Nothing but such
payloads is decoded (`exists_of_arrayOutcome`).

The cells of a value that is nested along some lengths are said by its shape and by what stands at
each index (`Laid`). `nest` keeps this for one dimension more, with the elements that are left over
for those who come after it (`nest_append`).
-/

namespace SqlGate

/-- What stands at an index of a nested value. -/
def Native.at? : Native → List Nat → Option Native
  | v, [] => some v
  | .array items, i :: index => items[i]?.bind fun item => item.at? index
  | _, _ :: _ => none

/-- A nested value that has just so many items at each level. -/
def Native.HasShape : List Nat → Native → Prop
  | [], _ => True
  | d :: ds, .array items => items.length = d ∧ ∀ item ∈ items, item.HasShape ds
  | _ :: _, _ => False

namespace Wire

/-! ## Places -/

/-- An index into dimensions of some lengths. -/
abbrev Within (index lengths : List Nat) : Prop := List.Forall₂ (· < ·) index lengths

/-- The place of an index in row-major order. -/
def rowMajor : List Nat → List Nat → Nat
  | _ :: ds, i :: index => i * ds.prod + rowMajor ds index
  | _, _ => 0

theorem rowMajor_lt {index lengths : List Nat} (h : Within index lengths) :
    rowMajor lengths index < lengths.prod := by
  induction h with
  | nil => decide
  | @cons i d index ds hi _ ih =>
      have hrows : (i + 1) * ds.prod ≤ d * ds.prod := Nat.mul_le_mul_right _ hi
      rw [Nat.add_mul, Nat.one_mul] at hrows
      rw [rowMajor, List.prod_cons]
      omega

/-- A nested value has its shape and, at each index, the element at its place. -/
def Laid (lengths : List Nat) (xs : List Native) (v : Native) : Prop :=
  v.HasShape lengths ∧ ∀ index, Within index lengths → v.at? index = xs[rowMajor lengths index]?

theorem laid_array {d : Nat} {ds : List Nat} {xs items : List Native} (hlen : items.length = d)
    (h : ∀ (i : Nat) (hi : i < items.length),
      Laid ds ((xs.drop (i * ds.prod)).take ds.prod) items[i]) :
    Laid (d :: ds) xs (.array items) := by
  refine ⟨⟨hlen, fun item hitem => ?_⟩, fun index hindex => ?_⟩
  · obtain ⟨i, hi, rfl⟩ := List.getElem_of_mem hitem
    exact (h i hi).1
  · cases hindex with
    | @cons i _ index _ hi hindex =>
        have hi : i < items.length := hlen ▸ hi
        rw [Native.at?, List.getElem?_eq_getElem hi, Option.bind_some, (h i hi).2 index hindex,
          List.getElem?_take_of_lt (rowMajor_lt hindex), List.getElem?_drop, rowMajor]

/-! ## Nesting -/

/-- Elements that are laid out in a row of nested values, given that one of them is. -/
theorem nestMany_append {ds : List Nat}
    (h : ∀ xs rest : List Native, xs.length = ds.prod →
      ∃ v, nest (xs ++ rest) ds = some (v, rest) ∧ Laid ds xs v)
    (n : Nat) : ∀ xs rest : List Native, xs.length = n * ds.prod →
      ∃ items, nestMany (xs ++ rest) ds n = some (items, rest) ∧ items.length = n ∧
        ∀ (i : Nat) (hi : i < items.length),
          Laid ds ((xs.drop (i * ds.prod)).take ds.prod) items[i] := by
  induction n with
  | zero =>
      intro xs rest hlen
      rw [Nat.zero_mul, List.length_eq_zero_iff] at hlen
      subst hlen
      exact ⟨[], by rw [nestMany, List.nil_append], rfl, nofun⟩
  | succ n ih =>
      intro xs rest hlen
      rw [Nat.add_mul, Nat.one_mul] at hlen
      obtain ⟨v, hv, hlaid⟩ := h (xs.take ds.prod) (xs.drop ds.prod ++ rest)
        (by rw [List.length_take]; omega)
      obtain ⟨items, hitems, hcount, hall⟩ := ih (xs.drop ds.prod) rest
        (by rw [List.length_drop]; omega)
      rw [← List.append_assoc, List.take_append_drop] at hv
      refine ⟨v :: items, ?_, congrArg (· + 1) hcount, fun i hi => ?_⟩
      · rw [nestMany, hv]
        change (nestMany _ _ _).bind _ = _
        rw [hitems]
        rfl
      · cases i with
        | zero => simpa using hlaid
        | succ i =>
            have hplace : (i + 1) * ds.prod = ds.prod + i * ds.prod := by
              rw [Nat.add_mul, Nat.one_mul, Nat.add_comm]
            have hi : i < items.length := Nat.lt_of_succ_lt_succ hi
            rw [hplace, ← List.drop_drop]
            exact hall i hi

/-- Elements are nested along lengths, and what is left over stays as it is. -/
theorem nest_append {lengths : List Nat} (hne : lengths ≠ []) :
    ∀ xs rest : List Native, xs.length = lengths.prod →
      ∃ v, nest (xs ++ rest) lengths = some (v, rest) ∧ Laid lengths xs v := by
  induction lengths with
  | nil => exact absurd rfl hne
  | cons d ds ih =>
      intro xs rest hlen
      cases ds with
      | nil =>
          have hlen : xs.length = d := by simpa using hlen
          refine ⟨.array xs, ?_, laid_array hlen fun i hi => ⟨trivial, ?_⟩⟩
          · rw [nest, if_pos (by rw [List.length_append]; omega), List.take_left' hlen,
              List.drop_left' hlen]
          · rintro _ ⟨⟩
            simp [Native.at?, rowMajor, hi]
      | cons e ds =>
          obtain ⟨items, hitems, hcount, hall⟩ :=
            nestMany_append (ih (List.cons_ne_nil e ds)) d xs rest hlen
          refine ⟨.array items, ?_, laid_array hcount hall⟩
          rw [nest, hitems]
          · rfl
          · exact List.cons_ne_nil e ds

/-! ## Sending -/

/-- An array: its flags, the number of the type of its elements, the length and the first index of
each dimension, and in row-major order the payloads in its cells. -/
structure Grid where
  flags : Int
  oid : Nat
  dims : List (Nat × Int)
  cells : List (Option (List UInt8))

/-- A cell after its length; an empty one has the length -1. -/
def sendCell : Option (List UInt8) → List UInt8
  | none => signed 4 (-1)
  | some bs => signed 4 bs.length ++ bs

/-- The value in a cell. -/
def cellValue (oid : Nat) : Option (List UInt8) → Native
  | none => .null
  | some bs => (decode oid bs).getD (fallback bs)

namespace Grid

variable (g : Grid)

def lengths : List Nat := g.dims.map Prod.fst

/-- What is sent before the cells. -/
def header : List UInt8 :=
  signed 4 g.dims.length ++ (signed 4 g.flags ++ (big 4 g.oid ++
    g.dims.flatMap fun d => signed 4 d.1 ++ signed 4 d.2))

/-- The payload of an array. -/
def send : List UInt8 := g.header ++ g.cells.flatMap sendCell

/-- An array of one dimension or more, with as many cells as its lengths make, that fits the fields
of a payload. -/
structure Sendable : Prop where
  dims_ne : g.dims ≠ []
  rank : g.dims.length < 2147483648
  lengths : ∀ d ∈ g.dims, d.1 < 2147483648
  oid : g.oid < 4294967296
  cells : g.cells.length = g.lengths.prod
  fields : ∀ bs, some bs ∈ g.cells → bs.length < 2147483648

/-- An array whose dimensions fit the fields of a header. -/
structure Announceable : Prop where
  rank : g.dims.length < 2147483648
  lengths : ∀ d ∈ g.dims, d.1 < 2147483648
  oid : g.oid < 4294967296

/-- The number of the nested values on each level can be counted in 64 bits. -/
def Counted : Prop := ∀ k, (g.lengths.take k).prod < 2 ^ 64

/-- An array that there is room for. -/
structure Fits : Prop where
  counted : g.Counted
  room : g.cells.length ≤ room

end Grid

/-! ## Reading -/

open Read

theorem extends_element (oid : Nat) : Extends (element oid) := by
  refine extends_field.bind fun cell => ?_
  cases cell <;> exact extends_pure _

theorem extends_elements (oid total : Nat) (lengths : List Nat) :
    Extends (elements oid total lengths) := by
  refine ((extends_element oid).times total).bind fun xs => ?_
  split
  · exact extends_pure _
  · exact extends_failure

theorem extends_arrayHeader : Extends arrayHeader := by
  have hlength : Extends (do let n ← count; let _lowerBound ← int32; return n) :=
    extends_count.bind fun n => extends_int32.bind fun _ => extends_pure n
  exact extends_count.bind fun n => extends_int32.bind fun _ => (extends_unsigned 4).bind fun oid =>
    (hlength.times n).bind fun lengths => extends_pure (oid, lengths)

theorem finds_element {oid : Nat} {cell : Option (List UInt8)}
    (h : ∀ bs, cell = some bs → bs.length < 2147483648) :
    Finds (element oid) (sendCell cell) (cellValue oid cell) := by
  cases cell with
  | none =>
      have hnone : Finds field (signed 4 (-1)) none := by
        refine (finds_int32 (-1)).bind_nil ?_
        rw [if_pos (by decide)]
        exact finds_pure none
      exact hnone.bind_nil (finds_pure Native.null)
  | some bs => exact (finds_field (h bs rfl)).bind_nil (finds_pure _)

namespace Grid

variable {g : Grid}

theorem Sendable.announceable (h : g.Sendable) : g.Announceable := ⟨h.rank, h.lengths, h.oid⟩

theorem Announceable.finds_header (h : g.Announceable) :
    Finds arrayHeader g.header (g.oid, g.lengths) := by
  have hlength : ∀ d ∈ g.dims, Finds (do let n ← count; let _lowerBound ← int32; return n)
      (signed 4 d.1 ++ signed 4 d.2) d.1 := fun d hd =>
    (finds_count (h.lengths d hd)).bind ((finds_int32 d.2).bind_nil (finds_pure d.1))
  exact (finds_count h.rank).bind ((finds_int32 g.flags).bind ((finds_unsigned h.oid).bind
    ((finds_times _ Prod.fst hlength).bind_nil (finds_pure (g.oid, g.lengths)))))

theorem Sendable.finds_elements (h : g.Sendable) :
    ∃ v, Finds (elements g.oid g.cells.length g.lengths) (g.cells.flatMap sendCell) v ∧
      Laid g.lengths (g.cells.map (cellValue g.oid)) v := by
  have hne : g.lengths ≠ [] := fun hnil => h.dims_ne (List.map_eq_nil_iff.1 hnil)
  have hcells : Finds (times (element g.oid) g.cells.length) (g.cells.flatMap sendCell)
      (g.cells.map (cellValue g.oid)) :=
    finds_times _ _ fun cell hcell => finds_element fun bs hbs => h.fields bs (hbs ▸ hcell)
  obtain ⟨v, hv, hlaid⟩ := nest_append hne (g.cells.map (cellValue g.oid)) []
    (by rw [List.length_map, h.cells])
  rw [List.append_nil] at hv
  refine ⟨v, hcells.bind_nil ?_, hlaid⟩
  rw [hv]
  exact finds_pure v

theorem elementCount_eq {ls : List Nat} {n : Nat} (h : ∀ k, n * (ls.take k).prod < 2 ^ 64) :
    elementCount n ls = some (n * ls.prod) := by
  induction ls generalizing n with
  | nil => simp [elementCount]
  | cons d ds ih =>
      have hd : n * d < 2 ^ 64 := by simpa using h 1
      have hrest : ∀ k, n * d * (ds.take k).prod < 2 ^ 64 := fun k => by
        rw [Nat.mul_assoc, ← List.prod_cons, ← List.take_succ_cons]
        exact h (k + 1)
      rw [elementCount, if_pos (show n * d < Nat.pow 2 64 from hd), ih hrest, List.prod_cons,
        Nat.mul_assoc]

theorem elementCount_eq_none {ls : List Nat} {n : Nat} (hn : n < 2 ^ 64)
    (h : ¬ ∀ k, n * (ls.take k).prod < 2 ^ 64) : elementCount n ls = none := by
  induction ls generalizing n with
  | nil => exact absurd (fun k => by simpa using hn) h
  | cons d ds ih =>
      rw [elementCount]
      split
      next hd =>
        refine ih hd fun hall => h fun k => ?_
        cases k with
        | zero => simpa using hn
        | succ k =>
            rw [List.take_succ_cons, List.prod_cons, ← Nat.mul_assoc]
            exact hall k
      next => rfl

/-- A number of elements that can be counted is the product of the lengths. -/
theorem elementCount_eq_some {ls : List Nat} {n : Nat} (h : elementCount 1 ls = some n) :
    n = ls.prod ∧ ∀ k, (ls.take k).prod < 2 ^ 64 := by
  by_cases hcounted : ∀ k, (ls.take k).prod < 2 ^ 64
  · rw [elementCount_eq fun k => (Nat.one_mul _).symm ▸ hcounted k, Nat.one_mul] at h
    exact ⟨(Option.some.inj h).symm, hcounted⟩
  · rw [elementCount_eq_none (by decide) fun hall => hcounted fun k => by
      simpa only [Nat.one_mul] using hall k] at h
    cases h

/-- The number of elements decides first, if it can be counted. -/
theorem Sendable.arrayOutcome_header_append (h : g.Sendable) (bs : List UInt8) :
    arrayOutcome (g.header ++ bs) = (elementCount 1 g.lengths).elim .refused fun total =>
      if room < total then .brokenOff
      else .ofOption ((elements g.oid total g.lengths).whole bs) := by
  rw [arrayOutcome, h.announceable.finds_header bs]
  cases hlengths : g.lengths with
  | nil => exact absurd (List.map_eq_nil_iff.1 hlengths) h.dims_ne
  | cons d ds =>
      dsimp only
      cases elementCount 1 (d :: ds) <;> rfl

/-- What follows the header decides, if the number of elements can be counted. -/
theorem Sendable.arrayOutcome_header (h : g.Sendable) (hcounted : g.Counted) (bs : List UInt8) :
    arrayOutcome (g.header ++ bs) =
      if room < g.cells.length then .brokenOff
      else .ofOption ((elements g.oid g.cells.length g.lengths).whole bs) := by
  have hcount : elementCount 1 g.lengths = some g.cells.length := by
    rw [elementCount_eq fun k => (Nat.one_mul _).symm ▸ hcounted k, Nat.one_mul, h.cells]
  rw [h.arrayOutcome_header_append, hcount, Option.elim_some]

theorem Sendable.arrayOutcome_uncounted (h : g.Sendable) (hcounted : ¬ g.Counted)
    (bs : List UInt8) : arrayOutcome (g.header ++ bs) = .refused := by
  have hcount : elementCount 1 g.lengths = none :=
    elementCount_eq_none (by decide) fun hall => hcounted fun k => by
      simpa only [Nat.one_mul] using hall k
  rw [h.arrayOutcome_header_append, hcount, Option.elim_none]

/-- Less than the header is refused. -/
theorem Announceable.arrayOutcome_of_prefix (h : g.Announceable) {p : List UInt8}
    (hp : p <+: g.header) (hne : p ≠ g.header) : arrayOutcome p = .refused := by
  rw [arrayOutcome, h.finds_header.eq_none_of_prefix extends_arrayHeader hp hne]

/-- An array that there is room for is decoded to a nested value with its cells in their places. -/
theorem Sendable.exists_value (h : g.Sendable) (hfits : g.Fits) :
    ∃ v, arrayOutcome g.send = .value v ∧ v.HasShape g.lengths ∧
      ∀ index, Within index g.lengths → ∃ cell, g.cells[rowMajor g.lengths index]? = some cell ∧
        v.at? index = some (cellValue g.oid cell) := by
  obtain ⟨v, hv, hshape, hat⟩ := h.finds_elements
  refine ⟨v, ?_, hshape, fun index hindex => ?_⟩
  · rw [send, h.arrayOutcome_header hfits.counted, if_neg (Nat.not_lt.2 hfits.room), hv.whole]
    rfl
  · have hlt : rowMajor g.lengths index < g.cells.length := h.cells ▸ rowMajor_lt hindex
    refine ⟨_, List.getElem?_eq_getElem hlt, ?_⟩
    rw [hat index hindex, List.getElem?_map, List.getElem?_eq_getElem hlt, Option.map_some]

/-- Anything less than what was sent is refused, be it cut in the header or in the cells. -/
theorem Sendable.arrayOutcome_of_prefix (h : g.Sendable) (hfits : g.Fits) {p : List UInt8}
    (hp : p <+: g.send) (hne : p ≠ g.send) : arrayOutcome p = .refused := by
  have hcells : ∀ q, q <+: g.cells.flatMap sendCell → q ≠ g.cells.flatMap sendCell →
      arrayOutcome (g.header ++ q) = .refused := by
    intro q hq hqne
    obtain ⟨v, hv, -⟩ := h.finds_elements
    rw [h.arrayOutcome_header hfits.counted, if_neg (Nat.not_lt.2 hfits.room),
      hv.whole_eq_none_of_prefix (extends_elements ..) hq hqne]
    rfl
  by_cases hheader : g.header <+: p
  · obtain ⟨q, rfl⟩ := hheader
    exact hcells q ((List.prefix_append_right_inj _).1 hp) fun hq => hne (congrArg _ hq)
  · refine h.announceable.arrayOutcome_of_prefix ?_ fun hp => hheader (hp ▸ List.prefix_rfl)
    exact (List.prefix_or_prefix_of_prefix hp (List.prefix_append _ _)).resolve_right hheader

/-- Anything more than what was sent is refused. -/
theorem Sendable.arrayOutcome_append (h : g.Sendable) (hfits : g.Fits) {more : List UInt8}
    (hmore : more ≠ []) : arrayOutcome (g.send ++ more) = .refused := by
  obtain ⟨v, hv, -⟩ := h.finds_elements
  rw [send, List.append_assoc, h.arrayOutcome_header hfits.counted,
    if_neg (Nat.not_lt.2 hfits.room), hv.whole_append hmore]
  rfl

/-- An array that there is no room for is not decoded, whatever comes after its header. -/
theorem Sendable.arrayOutcome_of_not_fits (h : g.Sendable) (hfits : ¬ g.Fits) (bs : List UInt8) :
    (g.Counted → arrayOutcome (g.header ++ bs) = .brokenOff) ∧
      (¬ g.Counted → arrayOutcome (g.header ++ bs) = .refused) := by
  refine ⟨fun hcounted => ?_, fun hcounted => h.arrayOutcome_uncounted hcounted bs⟩
  have hroom : room < g.cells.length := Nat.lt_of_not_le fun hle => hfits ⟨hcounted, hle⟩
  rw [h.arrayOutcome_header hcounted, if_pos hroom]

end Grid

/-- Decoding restores arrays of any dimensions that there is room for: the value has as many items
at each level as the dimension has, and at each index the value of the payload in the cell there, or
null where the cell is empty; and it takes neither less nor more than what was sent. Where there is
no room, what is less than a header is still refused. The reading of anything else breaks off, or is
refused too if there are more items on some level than can be counted. -/
theorem arrayOutcome_send {g : Grid} (h : g.Sendable) :
    (g.Fits →
      (∃ v, arrayOutcome g.send = .value v ∧ v.HasShape g.lengths ∧
        ∀ index, Within index g.lengths → ∃ cell,
          g.cells[rowMajor g.lengths index]? = some cell ∧
          v.at? index = some (cellValue g.oid cell)) ∧
      (∀ p, p <+: g.send → p ≠ g.send → arrayOutcome p = .refused) ∧
      ∀ more, more ≠ [] → arrayOutcome (g.send ++ more) = .refused) ∧
    (¬ g.Fits →
      (∀ p, p <+: g.header → p ≠ g.header → arrayOutcome p = .refused) ∧
      ∀ bs, (g.Counted → arrayOutcome (g.header ++ bs) = .brokenOff) ∧
        (¬ g.Counted → arrayOutcome (g.header ++ bs) = .refused)) :=
  ⟨fun hfits => ⟨h.exists_value hfits, fun _ => h.arrayOutcome_of_prefix hfits,
      fun _ => h.arrayOutcome_append hfits⟩,
    fun hfits => ⟨fun _ => h.announceable.arrayOutcome_of_prefix, h.arrayOutcome_of_not_fits hfits⟩⟩

/-- Two rows of two integers: one, nothing, two, and three bytes that are no integer. -/
theorem arrayOutcome_send_table :
    let g : Grid := ⟨1, 23, [(2, 1), (2, 1)],
      [some [0, 0, 0, 1], none, some [0, 0, 0, 2], some [0x61, 0x62, 0x63]]⟩
    g.Sendable ∧ g.Fits ∧ ∃ v, arrayOutcome g.send = .value v ∧ v.at? [0, 1] = some .null ∧
      v.at? [1, 0] = some (.int 2) ∧ v.at? [1, 1] = some (.text "abc") := by
  intro g
  have hsendable : g.Sendable :=
    { dims_ne := nofun
      rank := by decide
      lengths := by decide
      oid := by decide
      cells := rfl
      fields := by
        intro bs hbs
        simp only [g, List.mem_cons, Option.some.injEq, List.not_mem_nil, or_false,
          reduceCtorEq, false_or] at hbs
        rcases hbs with rfl | rfl | rfl <;> decide }
  have hfits : g.Fits :=
    { counted := fun k => by
        have hlengths : g.lengths = [2, 2] := rfl
        rw [hlengths]
        match k with
        | 0 | 1 | _ + 2 => simp
      room := by decide }
  obtain ⟨⟨v, hv, -, hat⟩, -, -⟩ := (arrayOutcome_send hsendable).1 hfits
  have hplace : ∀ (i j : Nat) (cell : Option (List UInt8)), i < 2 → j < 2 →
      g.cells[rowMajor [2, 2] [i, j]]? = some cell → v.at? [i, j] = some (cellValue 23 cell) := by
    intro i j cell hi hj hcell
    obtain ⟨found, hfound, hvalue⟩ := hat [i, j] (.cons hi (.cons hj .nil))
    cases hfound.symm.trans hcell
    exact hvalue
  exact ⟨hsendable, hfits, v, hv, hplace 0 1 none (by decide) (by decide) rfl,
    hplace 1 0 (some [0, 0, 0, 2]) (by decide) (by decide) rfl,
    hplace 1 1 (some [0x61, 0x62, 0x63]) (by decide) (by decide) rfl⟩

/-- A table of `n` rows and `m` columns with nothing in its cells. -/
def Grid.blank (oid n m : Nat) : Grid := ⟨0, oid, [(n, 1), (m, 1)], List.replicate (n * m) none⟩

theorem Grid.sendable_blank {oid n m : Nat} (hoid : oid < 4294967296) (hn : n < 2147483648)
    (hm : m < 2147483648) : (Grid.blank oid n m).Sendable where
  dims_ne := List.cons_ne_nil _ _
  rank := (by decide : 2 < 2147483648)
  lengths := by simp [blank, hn, hm]
  oid := hoid
  cells := by simp [blank, Grid.lengths]
  fields := by simp [blank]

/-- What was cut after the header need not be refused: the reading of it breaks off if the header
announces too much. -/
theorem arrayOutcome_breaks_off :
    let p : List UInt8 := [0, 0, 0, 2, 0, 0, 0, 0, 0, 0, 0, 23, 0x7F, 0xFF, 0xFF, 0xFF, 0, 0, 0, 1,
      0x7F, 0xFF, 0xFF, 0xFF, 0, 0, 0, 1]
    let g := Grid.blank 23 2147483647 2147483647
    g.Sendable ∧ p <+: g.send ∧ p ≠ g.send ∧ arrayOutcome p = .brokenOff := by
  intro p g
  have hsendable : g.Sendable := Grid.sendable_blank (by decide) (by decide) (by decide)
  have hheader : g.header = p := by decide
  have hcount : g.cells.length = 4611686014132420609 := List.length_replicate
  have hcounted : g.Counted := fun k => by
    have hlengths : g.lengths = [2147483647, 2147483647] := rfl
    rw [hlengths]
    match k with
    | 0 | 1 | _ + 2 => simp
  have hfits : ¬ g.Fits := fun hfits => absurd (hcount ▸ hfits.room) (by decide)
  refine ⟨hsendable, hheader ▸ List.prefix_append _ _, fun hsend => ?_, ?_⟩
  · have hcells : g.cells.flatMap sendCell = [] := by
      rw [Grid.send, hheader] at hsend
      exact List.self_eq_append_right.1 hsend
    have hnone : none ∈ g.cells := List.mem_replicate.2 ⟨by decide, rfl⟩
    exact absurd (List.flatMap_eq_nil_iff.1 hcells none hnone) (by decide)
  · rw [← List.append_nil p, ← hheader]
    exact (hsendable.arrayOutcome_of_not_fits hfits []).1 hcounted

/-! ## What is decoded was sent -/

theorem eq_of_field {bs rest : List UInt8} {cell : Option (List UInt8)}
    (h : field bs = some (cell, rest)) :
    (∀ raw, cell = some raw → raw.length < 2147483648) ∧ bs = sendCell cell ++ rest := by
  obtain ⟨n, mid, hn, h⟩ := bind_eq_some_iff.1 h
  have hlt := n.toInt_lt
  rw [eq_of_int32 hn]
  split at h
  next hnone =>
    cases h
    rw [hnone]
    exact ⟨nofun, rfl⟩
  next =>
    split at h
    next => cases h
    next hpos =>
      obtain ⟨raw, hraw, rfl⟩ := map_eq_some_iff.1 h
      obtain ⟨hlength, rfl⟩ := eq_of_take hraw
      have hn : n.toInt = raw.length := by omega
      rw [hn, sendCell, List.append_assoc]
      refine ⟨?_, rfl⟩
      rintro _ ⟨⟩
      omega

/-- An element is read off its cell. -/
theorem exists_of_element {oid : Nat} {bs rest : List UInt8} {x : Native}
    (h : element oid bs = some (x, rest)) :
    ∃ cell, (∀ raw, cell = some raw → raw.length < 2147483648) ∧ cellValue oid cell = x ∧
      bs = sendCell cell ++ rest := by
  obtain ⟨cell, mid, hcell, hx⟩ := bind_eq_some_iff.1 h
  obtain ⟨hlength, rfl⟩ := eq_of_field hcell
  refine ⟨cell, hlength, ?_⟩
  cases cell with
  | none =>
      cases hx
      exact ⟨rfl, rfl⟩
  | some raw =>
      cases hx
      exact ⟨rfl, rfl⟩

/-- The lengths of the dimensions are read off a header. -/
theorem exists_of_arrayHeader {bs rest : List UInt8} {oid : Nat} {lengths : List Nat}
    (h : arrayHeader bs = some ((oid, lengths), rest)) :
    ∃ flags dims, ∀ cells, let g : Grid := ⟨flags, oid, dims, cells⟩
      g.Announceable ∧ g.lengths = lengths ∧ bs = g.header ++ rest := by
  have hlength : ∀ bs x rest,
      (do let n ← count; let _lowerBound ← int32; return n : Read Nat) bs = some (x, rest) →
      ∃ d : Nat × Int, d.1 < 2147483648 ∧ d.1 = x ∧ bs = signed 4 d.1 ++ signed 4 d.2 ++ rest := by
    intro bs x rest h
    obtain ⟨n, mid, hn, hrest⟩ := bind_eq_some_iff.1 h
    obtain ⟨first, mid, hfirst, hpure⟩ := bind_eq_some_iff.1 hrest
    cases hpure
    obtain ⟨hlt, rfl⟩ := eq_of_count hn
    exact ⟨(x, first.toInt), hlt, rfl, by rw [eq_of_int32 hfirst, List.append_assoc]⟩
  obtain ⟨n, mid, hn, h⟩ := bind_eq_some_iff.1 h
  obtain ⟨flags, mid, hflags, h⟩ := bind_eq_some_iff.1 h
  obtain ⟨oid', mid, hoid, h⟩ := bind_eq_some_iff.1 h
  obtain ⟨lengths', mid, hlengths, h⟩ := bind_eq_some_iff.1 h
  cases h
  obtain ⟨hrank, rfl⟩ := eq_of_count hn
  obtain rfl := eq_of_int32 hflags
  obtain ⟨hlt, rfl⟩ := eq_of_unsigned hoid
  obtain ⟨dims, rfl, hdims, rfl, rfl⟩ := exists_of_times hlength hlengths
  refine ⟨flags.toInt, dims, fun cells => ⟨⟨hrank, hdims, hlt⟩, rfl, ?_⟩⟩
  simp only [Grid.header, List.append_assoc]

/-- The elements are read off the cells, which are all that is left. -/
theorem exists_of_elements {oid total : Nat} {lengths : List Nat} {bs : List UInt8} {v : Native}
    (h : (elements oid total lengths).whole bs = some v) :
    ∃ cells : List (Option (List UInt8)), cells.length = total ∧
      (∀ raw, some raw ∈ cells → raw.length < 2147483648) ∧ bs = cells.flatMap sendCell := by
  obtain ⟨xs, mid, hxs, hnest⟩ := bind_eq_some_iff.1 (whole_eq_some_iff.1 h)
  obtain ⟨cells, hlength, hfields, -, rfl⟩ := exists_of_times (fun _ _ _ => exists_of_element) hxs
  have hmid : mid = [] := by
    cases hv : nest xs lengths <;> rw [hv] at hnest <;> cases hnest
    rfl
  refine ⟨cells, hlength, fun raw hraw => hfields _ hraw raw rfl, ?_⟩
  rw [hmid, List.append_nil]

theorem Outcome.ofOption_eq_value {o : Option Native} {v : Native}
    (h : Outcome.ofOption o = .value v) : o = some v := by
  cases o <;> cases h
  rfl

/-- An array of no dimensions, sent as a header. -/
structure Grid.Bare (g : Grid) : Prop where
  dims : g.dims = []
  cells : g.cells = []
  oid : g.oid < 4294967296

theorem Grid.Bare.announceable {g : Grid} (h : g.Bare) : g.Announceable := by
  refine ⟨?_, ?_, h.oid⟩ <;> rw [h.dims]
  · decide
  · exact nofun

/-- Only the payloads of arrays are decoded. -/
theorem exists_of_arrayOutcome {bs : List UInt8} {v : Native} (h : arrayOutcome bs = .value v) :
    ∃ g : Grid, bs = g.send ∧ (g.Sendable ∧ g.Fits ∨ g.Bare ∧ v = .array []) := by
  rw [arrayOutcome] at h
  split at h
  next => cases h
  next oid rest hheader =>
    obtain ⟨flags, dims, hg⟩ := exists_of_arrayHeader hheader
    obtain ⟨hannounced, hlengths, rfl⟩ := hg []
    have hdims : dims = [] := List.map_eq_nil_iff.1 hlengths
    cases whole_eq_some_iff.1 (Outcome.ofOption_eq_value h)
    exact ⟨_, rfl, .inr ⟨⟨hdims, rfl, hannounced.oid⟩, rfl⟩⟩
  next oid lengths rest hne hheader =>
    obtain ⟨flags, dims, hg⟩ := exists_of_arrayHeader hheader
    split at h
    next => cases h
    next total htotal =>
      split at h
      next => cases h
      next hroom =>
        obtain ⟨cells, rfl, hfields, rfl⟩ := exists_of_elements (Outcome.ofOption_eq_value h)
        obtain ⟨hannounced, rfl, rfl⟩ := hg cells
        obtain ⟨hcells, hcounted⟩ := Grid.elementCount_eq_some htotal
        have hdims : dims ≠ [] := fun hnil => hne (List.map_eq_nil_iff.2 hnil)
        exact ⟨_, rfl, .inl ⟨⟨hdims, hannounced.rank, hannounced.lengths, hannounced.oid, hcells,
          hfields⟩, hcounted, Nat.not_lt.1 hroom⟩⟩

end Wire

end SqlGate
