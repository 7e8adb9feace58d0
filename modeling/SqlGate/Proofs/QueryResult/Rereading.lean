import SqlGate.Pipeline.Outcome
import SqlGate.QueryResult
import SqlGate.Proofs.Json.Sound
import SqlGate.Proofs.Json.Typed

/-!
# Results are read back

A database value has one place where a JSON value of any shape comes in as it is: a document that
the database keeps as one. If such documents are proper, so is all that is made of the value, and
every row of values is an object with its keys in order.

The written form of a result is read field by field, and of all that is in it only the cells may
come out different: a result is read back if each of its cells is (`ofText_text_eq_ok_iff`).
-/

/-! ## Documents in database values -/

namespace SqlGate

namespace Native

open Json

mutual

/-- The documents that stand in the written form of a value as they are. -/
def documents : Native → List Json
  | .json v => [v]
  | .array xs => documentsOf xs
  | _ => []

/-- The documents in some values. -/
def documentsOf : List Native → List Json
  | [] => []
  | x :: xs => documents x ++ documentsOf xs

end

theorem proper_ofBytes (bs : List UInt8) : Proper (ofBytes bs) := by
  unfold ofBytes
  cases h : (Text.Utf8.decode? bs).bind ofString? with
  | none => exact .str _
  | some v =>
      obtain ⟨s, -, hs⟩ := Option.bind_eq_some_iff.1 h
      exact proper_of_ofString? hs

theorem proper_ofDouble (x : Number.Double) : Proper (ofDouble x) := by
  cases hvalue : x.value with
  | finite negative m e =>
      rw [ofDouble_of_finite hvalue]
      exact .real x
  | nan | infinity negative =>
      unfold ofDouble
      rw [hvalue]
      exact .str _

theorem proper_toInt (i : Int64) : Proper (.int i.toInt) := by
  have hlow := i.le_toInt
  have hhigh := i.toInt_lt
  exact .int (by omega) (by omega)

mutual

theorem proper_render {x : Native} (h : ∀ v ∈ x.documents, Proper v) : Proper x.render := by
  match x with
  | .null => exact .null
  | .bool b => exact .bool b
  | .int i => exact proper_toInt i
  | .real x => exact proper_ofDouble x.widen
  | .double x => exact proper_ofDouble x
  | .json v => exact h v List.mem_cons_self
  | .bytes bs => exact proper_ofBytes bs
  | .array xs => exact .arr (proper_renderAll h)
  | .path true _ | .path false _ | .numeric _ | .money _ | .text _ | .uuid _ | .timestamp _
  | .date _ | .time _ | .timeTz _ _ | .interval _ | .inet _ | .mac _ | .point _ | .line _ _ _
  | .segment _ _ | .box _ _ | .polygon _ | .circle _ _ | .bits _ _ | .emptyRange
  | .range _ _ => exact .str _

theorem proper_renderAll {xs : List Native} (h : ∀ v ∈ documentsOf xs, Proper v) :
    ∀ y ∈ renderAll xs, Proper y := by
  match xs with
  | [] => exact fun y hy => nomatch hy
  | x :: xs =>
      rw [documentsOf, List.forall_mem_append] at h
      rw [renderAll, List.forall_mem_cons]
      exact ⟨proper_render h.1, proper_renderAll h.2⟩

end

end Native

namespace QueryResult

open Json

/-- Cells that are put into a row one after the other leave it in order. -/
theorem proper_foldl_insert {cells : List (String × Json)} (h : ∀ cell ∈ cells, Proper cell.2)
    {row : Row} (hrow : Proper (.obj row)) :
    Proper (.obj (cells.foldl (fun row cell => Json.insert cell.1 cell.2 row) row)) := by
  induction cells generalizing row with
  | nil => exact hrow
  | cons cell cells ih =>
      obtain ⟨hcell, hcells⟩ := List.forall_mem_cons.1 h
      exact ih hcells (hcell.insert hrow)

theorem proper_rowOf (columns : List String) {values : List Native}
    (h : ∀ x ∈ values, ∀ v ∈ x.documents, Proper v) : Proper (.obj (rowOf columns values)) := by
  refine proper_foldl_insert (fun cell hcell => ?_) (.obj .nil (List.forall_mem_nil _))
  obtain ⟨x, hx, hrender⟩ := List.mem_map.1 (List.of_mem_zip hcell).2
  rw [← hrender]
  exact Native.proper_render (h x hx)

end QueryResult

end SqlGate

/-! ## Results -/

namespace SqlGate.QueryResult

open Json Json.Typed

/-- What reading makes of the cells of some rows. -/
def rereadRows (rows : List Row) : Option (List Row) := rows.mapM (rereadMembers cellDepth)

theorem mapM_some {α : Type} (xs : List α) : xs.mapM some = some xs := by
  induction xs with
  | nil => rfl
  | cons x xs ih => rw [List.mapM_cons, ih]; rfl

theorem reads_strings (ss : List String) :
    Reads (list string) (chars (.arr (ss.map .str))) (some ss) := by
  rw [chars_arr, separated_map, ← mapM_some ss]
  exact reads_list (fun s _ => begins_chars (.str s)) fun s _ => reads_string s

theorem reads_objects {rows : List Row} (h : ∀ row ∈ rows, Proper (.obj row)) :
    Reads (list (anyObject cellDepth)) (chars (rowsJson rows)) (rereadRows rows) := by
  rw [rowsJson, chars_arr, separated_map]
  exact reads_list (fun row _ => begins_chars (.obj row))
    fun row hrow => reads_anyObject (h row hrow) cellDepth

/-! ## Field by field -/

section Fields

variable (d : Draft)

theorem nodup_fields : (fields.map Field.name).Nodup := by decide

theorem reads_columns (columns : List String) :
    Reads ((fields.get ⟨0, by decide⟩).read d) (chars (.arr (columns.map .str)))
      (some { d with columns := some columns }) :=
  (reads_strings columns).map fun v : List String => ({ d with columns := some v } : Draft)

theorem reads_rows {rows : List Row} (h : ∀ row ∈ rows, Proper (.obj row)) :
    Reads ((fields.get ⟨1, by decide⟩).read d) (chars (rowsJson rows))
      ((rereadRows rows).map fun v => { d with rows := some v }) :=
  (reads_objects h).map fun v : List Row => ({ d with rows := some v } : Draft)

theorem reads_rowsAffected {n : Nat} (h : n < 18446744073709551616) :
    Reads ((fields.get ⟨2, by decide⟩).read d) (chars (.nat n))
      (some { d with rowsAffected := some n }) :=
  (reads_unsigned h).map fun v : Nat => ({ d with rowsAffected := some v } : Draft)

theorem reads_error (error : Option String) :
    Reads ((fields.get ⟨3, by decide⟩).read d) (chars (.ofText? error))
      (some { d with error := some error }) :=
  (reads_optional_string error).map fun v : Option String => ({ d with error := some v } : Draft)

theorem five_le_fuelFor (k : String) (v : Json) (cs : List Char) (place : Place) :
    5 ≤ fuelFor ⟨'\x7b' :: (memberText (k, v) ++ cs), place⟩ := by
  simp [fuelFor, memberText, toList_quote]
  omega

end Fields

variable {r : QueryResult}

/-- A result is read back but for the cells of its rows. -/
theorem reads_result (hrows : ∀ row ∈ r.rows, Proper (.obj row))
    (hcount : r.rowsAffected < 18446744073709551616) :
    Reads (record [] "QueryResult" fields ⟨none, none, none, none⟩) (chars r.toJson)
      ((rereadRows r.rows).map fun rows =>
        ⟨some r.columns, some rows, some r.rowsAffected, some r.error⟩) := by
  intro rest place _
  rw [toJson, chars_obj, List.cons_append, List.append_assoc, List.singleton_append, record_brace,
    separated, List.append_assoc]
  obtain ⟨fuel, hfuel⟩ := Nat.exists_eq_add_of_le' (five_le_fuelFor "columns"
    (.arr (r.columns.map .str)) (trailing memberText [("rows", rowsJson r.rows),
      ("rows_affected", .nat r.rowsAffected), ("error", .ofText? r.error)] ++ '\x7d' :: rest) place)
  rw [hfuel]
  refine gives_field_some nodup_fields ⟨0, by decide⟩ (reads_columns ⟨none, none, none, none⟩ _) rfl
    (moreMembers_member _ _ _) (ends_members _ rest) fun place => ?_
  have hbind : (rereadRows r.rows).map (fun rows =>
      (⟨some r.columns, some rows, some r.rowsAffected, some r.error⟩ : Draft)) =
      ((rereadRows r.rows).map fun rows => (⟨some r.columns, some rows, none, none⟩ : Draft)).bind
        fun d => some { d with rowsAffected := some r.rowsAffected, error := some r.error } := by
    cases rereadRows r.rows <;> rfl
  rw [hbind]
  refine gives_field nodup_fields ⟨1, by decide⟩ (reads_rows ⟨some r.columns, none, none, none⟩ hrows)
    rfl (moreMembers_trailing _ _ _ _) (ends_members _ rest) fun d place hd => ?_
  obtain ⟨rows, -, rfl⟩ := Option.map_eq_some_iff.1 hd
  refine gives_field_some nodup_fields ⟨2, by decide⟩
    (reads_rowsAffected ⟨some r.columns, some rows, none, none⟩ hcount) rfl
    (moreMembers_trailing _ _ _ _) (ends_members _ rest) fun place => ?_
  refine gives_field_some nodup_fields ⟨3, by decide⟩
    (reads_error ⟨some r.columns, some rows, some r.rowsAffected, none⟩ r.error) rfl
    (moreMembers_trailing _ _ _ _) (ends_members _ rest) fun place => ?_
  exact gives_end rfl rest place

/-- A result whose written form is read again has all it had, but for the cells of its rows. -/
theorem toOption_ofText (hrows : ∀ row ∈ r.rows, Proper (.obj row))
    (hcount : r.rowsAffected < 18446744073709551616) :
    (ofText r.text).toOption = (rereadRows r.rows).map fun rows => { r with rows := rows } := by
  have hread := (reads_result hrows hcount).toOption_ofString
  change (Typed.ofString (record [] "QueryResult" fields ⟨none, none, none, none⟩)
    r.text).toOption = _ at hread
  calc (ofText r.text).toOption
      = (Typed.ofString (record [] "QueryResult" fields ⟨none, none, none, none⟩)
          r.text).toOption.map ofDraft := by
        unfold ofText
        cases Typed.ofString (record [] "QueryResult" fields ⟨none, none, none, none⟩) r.text <;>
          rfl
    _ = (rereadRows r.rows).map fun rows => { r with rows := rows } := by
        rw [hread, Option.map_map]
        rfl

/-- No cell nests too deep for a cell of a row, and each double in a cell is the one that its own
text is read as. -/
def Faithful (r : QueryResult) : Prop :=
  ∀ row ∈ r.rows, ∀ cell ∈ row, nesting cell.2 < cellDepth ∧ ∀ x ∈ doubles cell.2, Kept x

theorem rereadRows_eq_some_iff {rows : List Row} (h : ∀ row ∈ rows, Proper (.obj row)) :
    rereadRows rows = some rows ↔ ∀ row ∈ rows, ∀ cell ∈ row,
      nesting cell.2 < cellDepth ∧ ∀ x ∈ doubles cell.2, Kept x := by
  unfold rereadRows
  induction rows with
  | nil => simp
  | cons row rows ih =>
      obtain ⟨hrow, hrows⟩ := List.forall_mem_cons.1 h
      have hcells : rereadMembers cellDepth row = some row ↔
          ∀ cell ∈ row, nesting cell.2 < cellDepth ∧ ∀ x ∈ doubles cell.2, Kept x := by
        rw [rereadMembers_eq_some_iff]
        cases hrow with
        | obj hkeys hrow =>
            exact forall₂_congr fun cell hcell => reread_eq_some_iff (hrow cell hcell) (by decide)
      rw [List.forall_mem_cons, ← ih hrows, ← hcells, List.mapM_cons]
      cases rereadMembers cellDepth row with
      | none => simp
      | some row' => cases rows.mapM (rereadMembers cellDepth) <;> simp

/-- A result is read back if it is faithful, and only then. -/
theorem ofText_text_eq_ok_iff (hrows : ∀ row ∈ r.rows, Proper (.obj row))
    (hcount : r.rowsAffected < 18446744073709551616) :
    ofText r.text = .ok r ↔ r.Faithful := by
  rw [eq_ok_iff_toOption, toOption_ofText hrows hcount, Faithful, ← rereadRows_eq_some_iff hrows]
  constructor
  · intro h
    obtain ⟨rows, hread, hr⟩ := Option.map_eq_some_iff.1 h
    rw [hread, ← congrArg QueryResult.rows hr]
  · intro h
    rw [h]
    rfl

end SqlGate.QueryResult
