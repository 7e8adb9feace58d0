import Mathlib.Data.List.Sort
import SqlGate.Proofs.QueryResult.Rereading

/-!
# Values under the names of their columns

A row has its values under the names of their columns. Of several columns of one name only the last
one is found under it, and that one always is, whatever the names are (`lookup_rowOf`). So two rows
of values become the same object if and only if they are the same in the columns that are the last
ones of their names (`rowOf_eq_rowOf_iff`).
-/

namespace SqlGate

namespace Json

variable {ms ms' : List (String × Json)}

theorem lookup_cons_eq_ite (name k : String) (v : Json) (ms : List (String × Json)) :
    ((k, v) :: ms).lookup name = if name = k then some v else ms.lookup name := by
  rw [List.lookup_cons]
  by_cases h : name = k
  · rw [beq_iff_eq.2 h, if_pos h]
  · rw [beq_eq_false_iff_ne.2 h, if_neg h]

/-- A member that is put in is found under its key, and the others are found as before. -/
theorem lookup_insert (name k : String) (v : Json) (ms : List (String × Json)) :
    (insert k v ms).lookup name = if name = k then some v else ms.lookup name := by
  induction ms with
  | nil => rw [insert, lookup_cons_eq_ite]
  | cons m ms ih =>
      obtain ⟨k', v'⟩ := m
      by_cases hlt : k < k'
      · rw [insert, if_pos hlt, lookup_cons_eq_ite]
      · by_cases heq : k = k'
        · rw [insert, if_neg hlt, if_pos heq, lookup_cons_eq_ite, lookup_cons_eq_ite, ← heq]
          split_ifs <;> rfl
        · rw [insert, if_neg hlt, if_neg heq, lookup_cons_eq_ite, lookup_cons_eq_ite, ih]
          by_cases hname : name = k
          · rw [if_pos hname, if_pos hname, if_neg (hname ▸ heq)]
          · rw [if_neg hname, if_neg hname]

theorem mem_iff_lookup (h : ms.Pairwise fun m m' => m.1 < m'.1) (name : String) (v : Json) :
    (name, v) ∈ ms ↔ ms.lookup name = some v := by
  rw [List.lookup_eq_some_iff]
  constructor
  · intro hmem
    obtain ⟨front, back, rfl⟩ := List.append_of_mem hmem
    refine ⟨front, back, rfl, fun m hm => bne_iff_ne.2 ?_⟩
    exact (String.ne_of_lt ((List.pairwise_append.1 h).2.2 m hm _ List.mem_cons_self)).symm
  · rintro ⟨front, back, rfl, -⟩
    exact List.mem_append_right _ List.mem_cons_self

/-- Members with their keys in order are settled by what is found under each key. -/
theorem eq_of_lookup_eq (h : ms.Pairwise fun m m' => m.1 < m'.1)
    (h' : ms'.Pairwise fun m m' => m.1 < m'.1) (heq : ∀ name, ms.lookup name = ms'.lookup name) :
    ms = ms' := by
  have : Std.Antisymm fun m m' : String × Json => m.1 < m'.1 :=
    ⟨fun _ _ hlt hgt => absurd hgt (String.lt_asymm hlt)⟩
  have : Std.Irrefl fun m m' : String × Json => m.1 < m'.1 := ⟨fun _ => String.lt_irrefl _⟩
  refine h.eq_of_mem_iff h' fun ⟨name, v⟩ => ?_
  rw [mem_iff_lookup h, mem_iff_lookup h', heq]

end Json

/-- Each row has a value for each column. -/
def Backend.Execution.Full (e : Backend.Execution) : Prop :=
  ∀ values ∈ e.rows, values.length = e.columns.length

namespace QueryResult

open Json

variable {columns : List String} {values values' : List Native} {i : Nat} {name : String}
  {v : Native}

/-- The column at a place has a name that no column after it has. -/
structure LastOfName (columns : List String) (i : Nat) (name : String) : Prop where
  at_place : columns[i]? = some name
  not_later : name ∉ columns.drop (i + 1)

theorem lastOfName_of_nodup (h : columns.Nodup) (hname : columns[i]? = some name) :
    LastOfName columns i name := by
  refine ⟨hname, fun hlater => ?_⟩
  obtain ⟨hi, rfl⟩ := List.getElem?_eq_some_iff.1 hname
  rw [← List.take_append_drop i columns, List.drop_eq_getElem_cons hi] at h
  exact (List.nodup_cons.1 (List.nodup_append.1 h).2.1).1 hlater

theorem exists_lastOfName (h : name ∈ columns) : ∃ i, LastOfName columns i name := by
  induction columns with
  | nil => cases h
  | cons c columns ih =>
      by_cases hlater : name ∈ columns
      · obtain ⟨i, hi⟩ := ih hlater
        exact ⟨i + 1, hi.at_place, hi.not_later⟩
      · have hc : name = c := (List.mem_cons.1 h).resolve_right hlater
        exact ⟨0, congrArg some hc.symm, hlater⟩

/-! ## Rows -/

/-- Cells that are put into a row one after the other: the last one of a name is found. -/
theorem lookup_foldl_insert (cells : List (String × Json)) (row : Row) :
    (cells.foldl (fun row cell => Json.insert cell.1 cell.2 row) row).lookup name =
      (cells.reverse.lookup name).or (row.lookup name) := by
  induction cells generalizing row with
  | nil => rfl
  | cons cell cells ih =>
      obtain ⟨k, v⟩ := cell
      rw [List.foldl_cons, ih, lookup_insert, List.reverse_cons, List.lookup_append,
        lookup_cons_eq_ite, List.lookup_nil, Option.or_assoc]
      congr 1
      split_ifs <;> rfl

theorem lookup_rowOf_eq (columns : List String) (values : List Native) (name : String) :
    (rowOf columns values).lookup name =
      (columns.zip (values.map Native.render)).reverse.lookup name := by
  rw [rowOf, lookup_foldl_insert, List.lookup_nil, Option.or_none]

/-- Under a name there is the value of the last column that has it. -/
theorem lookup_rowOf (hlen : values.length = columns.length) (h : LastOfName columns i name)
    (hv : values[i]? = some v) : (rowOf columns values).lookup name = some v.render := by
  obtain ⟨hi, rfl⟩ := List.getElem?_eq_some_iff.1 h.at_place
  obtain ⟨hi', rfl⟩ := List.getElem?_eq_some_iff.1 hv
  let back := (columns.drop (i + 1)).zip ((values.drop (i + 1)).map Native.render)
  have hback : back.reverse.lookup columns[i] = none := by
    rw [List.lookup_eq_none_iff]
    intro cell hcell
    have hlater := (List.of_mem_zip (List.mem_reverse.1 hcell)).1
    exact bne_iff_ne.2 fun heq => h.not_later (heq ▸ hlater)
  have hcells : columns.zip (values.map Native.render) =
      (columns.take i).zip ((values.take i).map Native.render) ++
        (columns[i], values[i].render) :: back := by
    conv_lhs => rw [← List.take_append_drop i columns, ← List.take_append_drop i values]
    rw [List.map_append, List.zip_append (by simp [hlen]), List.drop_eq_getElem_cons hi,
      List.drop_eq_getElem_cons hi', List.map_cons, List.zip_cons_cons]
  rw [lookup_rowOf_eq, hcells, List.reverse_append, List.reverse_cons, List.append_assoc,
    List.lookup_append, hback, Option.none_or, List.singleton_append, List.lookup_cons_self]

theorem lookup_rowOf_eq_none (h : name ∉ columns) (values : List Native) :
    (rowOf columns values).lookup name = none := by
  rw [lookup_rowOf_eq, List.lookup_eq_none_iff]
  intro cell hcell
  have hcolumn := (List.of_mem_zip (List.mem_reverse.1 hcell)).1
  exact bne_iff_ne.2 fun heq => h (heq ▸ hcolumn)

theorem pairwise_foldl_insert (cells : List (String × Json)) {row : Row}
    (h : row.Pairwise fun m m' => m.1 < m'.1) :
    (cells.foldl (fun row cell => Json.insert cell.1 cell.2 row) row).Pairwise
      fun m m' => m.1 < m'.1 := by
  induction cells generalizing row with
  | nil => exact h
  | cons cell cells ih => exact ih (pairwise_insert cell.1 cell.2 h)

/-- Two rows of values become the same object if and only if they have the same in every column that
is the last one of its name. -/
theorem rowOf_eq_rowOf_iff (hlen : values.length = columns.length)
    (hlen' : values'.length = columns.length) :
    rowOf columns values = rowOf columns values' ↔
      ∀ i name v v', LastOfName columns i name → values[i]? = some v → values'[i]? = some v' →
        v.render = v'.render := by
  constructor
  · intro heq i name v v' hlast hv hv'
    have hrow := lookup_rowOf hlen hlast hv
    rw [heq, lookup_rowOf hlen' hlast hv'] at hrow
    exact (Option.some.inj hrow).symm
  · intro h
    refine eq_of_lookup_eq (pairwise_foldl_insert _ .nil) (pairwise_foldl_insert _ .nil)
      fun name => ?_
    by_cases hname : name ∈ columns
    · obtain ⟨i, hlast⟩ := exists_lastOfName hname
      obtain ⟨hi, -⟩ := List.getElem?_eq_some_iff.1 hlast.at_place
      have hv : values[i]? = some values[i] := List.getElem?_eq_getElem (hlen ▸ hi)
      have hv' : values'[i]? = some values'[i] := List.getElem?_eq_getElem (hlen' ▸ hi)
      rw [lookup_rowOf hlen hlast hv, lookup_rowOf hlen' hlast hv', h i name _ _ hlast hv hv']
    · rw [lookup_rowOf_eq_none hname, lookup_rowOf_eq_none hname]

/-! ## Results -/

/-- An object that has the names of some columns and no others, and under each name the value of the
last column of that name. -/
structure Shows (columns : List String) (values : List Native) (row : Row) : Prop where
  names : ∀ name, (get? name (.obj row)).isSome ↔ name ∈ columns
  last : ∀ i name v, LastOfName columns i name → values[i]? = some v →
    get? name (.obj row) = some v.render

theorem shows_rowOf (hlen : values.length = columns.length) :
    Shows columns values (rowOf columns values) where
  names name := by
    change ((rowOf columns values).lookup name).isSome ↔ _
    by_cases hname : name ∈ columns
    · obtain ⟨i, hlast⟩ := exists_lastOfName hname
      obtain ⟨hi, -⟩ := List.getElem?_eq_some_iff.1 hlast.at_place
      rw [lookup_rowOf hlen hlast (List.getElem?_eq_getElem (hlen ▸ hi))]
      exact iff_of_true rfl hname
    · rw [lookup_rowOf_eq_none hname]
      exact iff_of_false Bool.false_ne_true hname
  last _ _ _ hlast hv := lookup_rowOf hlen hlast hv

theorem mem_zip_rows {e : Backend.Execution} {x : List Native × Row}
    (h : x ∈ e.rows.zip (ofExecution e).rows) : x.1 ∈ e.rows ∧ x.2 = rowOf e.columns x.1 := by
  obtain ⟨values, row⟩ := x
  change (values, row) ∈ e.rows.zip (e.rows.map (rowOf e.columns)) at h
  rw [List.zip_map_right, List.mem_map] at h
  obtain ⟨⟨x, y⟩, hxy, heq⟩ := h
  obtain ⟨rfl, rfl⟩ := Prod.mk.inj heq
  rw [← List.map_id e.rows, List.zip_map'] at hxy
  obtain ⟨z, hz, hpair⟩ := List.mem_map.1 hxy
  obtain ⟨rfl, rfl⟩ := Prod.mk.inj hpair
  exact ⟨hz, rfl⟩

/-- In the result of an execution whose rows have a value for each column, each row is an object
with the names of the columns and, under each name, the value of the last column of that name. So
rows become different objects if and only if they differ in a column that is the last one of its
name; where no name is repeated, that may be any column. -/
theorem ofExecution_keeps_last {e : Backend.Execution} (hfull : e.Full) :
    List.Forall₂ (Shows e.columns) e.rows (ofExecution e).rows ∧
    ∀ x ∈ e.rows.zip (ofExecution e).rows, ∀ y ∈ e.rows.zip (ofExecution e).rows,
      (x.2 = y.2 ↔ ∀ i name v v', LastOfName e.columns i name → x.1[i]? = some v →
        y.1[i]? = some v' → v.render = v'.render) ∧
      (e.columns.Nodup → x.2 = y.2 → x.1.map Native.render = y.1.map Native.render) := by
  constructor
  · refine List.forall₂_map_right_iff.2 (List.forall₂_same.2 fun values hvalues => ?_)
    exact shows_rowOf (hfull values hvalues)
  · intro x hx y hy
    obtain ⟨hxrows, hxrow⟩ := mem_zip_rows hx
    obtain ⟨hyrows, hyrow⟩ := mem_zip_rows hy
    have hiff := rowOf_eq_rowOf_iff (hfull _ hxrows) (hfull _ hyrows)
    rw [← hxrow, ← hyrow] at hiff
    refine ⟨hiff, fun hnodup heq => List.ext_getElem ?_ fun i hi hi' => ?_⟩
    · rw [List.length_map, List.length_map, hfull _ hxrows, hfull _ hyrows]
    · rw [List.length_map] at hi hi'
      rw [List.getElem_map, List.getElem_map]
      exact hiff.1 heq i _ _ _
        (lastOfName_of_nodup hnodup (List.getElem?_eq_getElem (hfull _ hxrows ▸ hi)))
        (List.getElem?_eq_getElem hi) (List.getElem?_eq_getElem hi')

/-- A join whose tables both have an `id`: the second one is found under the name, and rows that
differ in it stay different. -/
theorem ofExecution_keeps_last_join :
    let e : Backend.Execution := ⟨["id", "name", "id"],
      [[.int 1, .text "a", .int 5], [.int 1, .text "a", .int 6]], 0⟩
    e.Full ∧ LastOfName e.columns 2 "id" ∧
      List.Forall₂ (Shows e.columns) e.rows (ofExecution e).rows ∧
      rowOf e.columns [.int 1, .text "a", .int 5] ≠ rowOf e.columns [.int 1, .text "a", .int 6] := by
  intro e
  have hfull : e.Full := List.forall_mem_cons.2 ⟨rfl, List.forall_mem_singleton.2 rfl⟩
  have hlast : LastOfName e.columns 2 "id" := ⟨rfl, List.not_mem_nil⟩
  have hkeeps := ofExecution_keeps_last hfull
  refine ⟨hfull, hlast, hkeeps.1, fun heq => ?_⟩
  have hsame := (hkeeps.2 ([.int 1, .text "a", .int 5], _) List.mem_cons_self
    ([.int 1, .text "a", .int 6], _) (List.mem_cons_of_mem _ List.mem_cons_self)).1.1 heq 2 "id" _ _
    hlast rfl rfl
  cases hsame

/-- Rows that differ in the first of two columns of one name become the same object: nothing that is
told the columns can read the first value back from the object. -/
theorem ofExecution_loses_earlier :
    let e : Backend.Execution := ⟨["id", "id"], [[.int 1, .int 2], [.int 3, .int 2]], 0⟩
    e.Full ∧ (ofExecution e).rows = [[("id", .int 2)], [("id", .int 2)]] ∧
      (Native.int 1).render ≠ (Native.int 3).render ∧
      ¬ ∃ read : List String → Nat → Row → Option Json, ∀ e : Backend.Execution, e.Full →
        ∀ x ∈ e.rows.zip (ofExecution e).rows, ∀ i v, x.1[i]? = some v →
          read e.columns i x.2 = some v.render := by
  intro e
  have hfull : e.Full := List.forall_mem_cons.2 ⟨rfl, List.forall_mem_singleton.2 rfl⟩
  have hne : (Native.int 1).render ≠ (Native.int 3).render := nofun
  have hrows : (ofExecution e).rows = [[("id", .int 2)], [("id", .int 2)]] := rfl
  refine ⟨hfull, hrows, hne, ?_⟩
  rintro ⟨read, hread⟩
  have hzip : e.rows.zip (ofExecution e).rows =
      [([.int 1, .int 2], [("id", .int 2)]), ([.int 3, .int 2], [("id", .int 2)])] := by
    rw [hrows]
    rfl
  have hall := hread e hfull
  rw [hzip] at hall
  have hone := hall _ List.mem_cons_self 0 (.int 1) rfl
  have hthree := hall _ (List.mem_cons_of_mem _ List.mem_cons_self) 0 (.int 3) rfl
  exact hne (Option.some.inj (hone.symm.trans hthree))

end QueryResult

end SqlGate
