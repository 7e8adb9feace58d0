import SqlGate.Json.Typed

/-!
# Results of statements

What one execution gives: the names of the columns, the rows, how many rows were affected, and an
error if it failed. The written form is an object with these four fields in this order; reading it
takes missing fields for empty.
-/

namespace SqlGate

/-- A row: its cells by the names of their columns, in the order of the names. -/
abbrev Row := List (String × Json)

/-- The result of one execution. -/
structure QueryResult where
  columns : List String
  rows : List Row
  rowsAffected : Nat
  error : Option String

namespace QueryResult

/-- The result without any content. -/
def empty : QueryResult := ⟨[], [], 0, none⟩

/-- A result that holds only an error. -/
def failed (message : String) : QueryResult := { empty with error := some message }

/-- Whether a result is an error. -/
def isError (r : QueryResult) : Bool := r.error.isSome

/-- Rows as a value. -/
def rowsJson (rows : List Row) : Json := .arr (rows.map .obj)

/-- A result as a value, its fields in their order. -/
def toJson (r : QueryResult) : Json :=
  .obj [("columns", .arr (r.columns.map .str)), ("rows", rowsJson r.rows),
    ("rows_affected", .nat r.rowsAffected), ("error", .ofText? r.error)]

/-- A result as a text. -/
def text (r : QueryResult) : String := r.toJson.text

/-- A result under reading: the fields read so far. -/
structure Draft where
  columns : Option (List String)
  rows : Option (List Row)
  rowsAffected : Option Nat
  error : Option (Option String)

/-- How deep the cells of a row in a text may nest. -/
def cellDepth : Nat := Json.maxDepth - 3

/-- The fields of a result. -/
def fields : List (Json.Typed.Field Draft) :=
  [⟨"columns", true, (·.columns.isSome), fun d c => do
      let (v, c) ← Json.Typed.list Json.Typed.string c
      return ({ d with columns := some v }, c)⟩,
   ⟨"rows", true, (·.rows.isSome), fun d c => do
      let (v, c) ← Json.Typed.list (Json.Typed.anyObject cellDepth) c
      return ({ d with rows := some v }, c)⟩,
   ⟨"rows_affected", true, (·.rowsAffected.isSome), fun d c => do
      let (v, c) ← Json.Typed.unsigned c
      return ({ d with rowsAffected := some v }, c)⟩,
   ⟨"error", true, (·.error.isSome), fun d c => do
      let (v, c) ← Json.Typed.optional Json.Typed.string c
      return ({ d with error := some v }, c)⟩]

/-- The result that a draft became. -/
def ofDraft (d : Draft) : QueryResult :=
  ⟨d.columns.getD [], d.rows.getD [], d.rowsAffected.getD 0, d.error.getD none⟩

/-- The result of a text. -/
def ofText (s : String) : Except Json.Fault QueryResult := do
  let d ← Json.Typed.ofString
    (Json.Typed.record [] "QueryResult" fields ⟨none, none, none, none⟩) s
  return ofDraft d

end QueryResult

end SqlGate
