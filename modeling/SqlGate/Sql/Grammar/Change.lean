import SqlGate.Sql.Grammar.Query

/-!
# Statements that change rows

Rows are inserted, updated, deleted, merged and copied. The readers here start after the first word
of the statement, because a query may have such a statement for its body.
-/

namespace SqlGate.Sql

namespace Grammar

open Reader

variable (g : Grammar)

/-- A column, or several, and the value they get. -/
def assignment : Reader Expr := do
  if ← symbolAhead "(" then
    let _ ← parens (commas name)
  else
    let _ ← name
  expectSymbol "="
  g.any

/-- Assignments with commas between them. -/
def assignments : Reader (List Expr) := commas g.assignment

/-- What is given of each changed row, or nothing. -/
def returning : Reader (List Expr) := listAfter "RETURNING" (commas g.selected)

/-- What to do with a row that is refused, in the words of one dialect. -/
def conflictWord : Reader Unit := do
  if ← word "OR" then
    let _ ← expectOneOf ["REPLACE", "ROLLBACK", "ABORT", "FAIL", "IGNORE"]

/-- What to do with a row that is there already, or nothing. -/
def onConflict : Reader (List Expr) := do
  if !(← word "ON") then return []
  if ← word "CONFLICT" then
    if ← words ["ON", "CONSTRAINT"] then
      let _ ← name
    else
      let _ ← names?
    expectWord "DO"
    if ← word "NOTHING" then return []
    expectWords ["UPDATE", "SET"]
    let values ← g.assignments
    return values ++ (← g.clauses "WHERE")
  else
    expectWords ["DUPLICATE", "KEY", "UPDATE"]
    g.assignments

/-- The format of a file. -/
def fileFormat : Reader Unit := do
  let _ ← expectOneOf
    ["TEXTFILE", "SEQUENCEFILE", "ORC", "PARQUET", "AVRO", "RCFILE", "JSONFILE"]

/-- The rest of an `INSERT`. -/
def insert : Reader Statement := do
  conflictWord
  let _ ← word "OVERWRITE"
  let _ ← word "INTO"
  let _ ← word "LOCAL"
  if ← word "DIRECTORY" then
    let _ ← text
    if ← words ["STORED", "AS"] then fileFormat
    return .other "INSERT DIRECTORY" [] [← g.query] []
  let _ ← word "TABLE"
  let _ ← name
  if ← word "AS" then let _ ← ident
  let (parts, source) ←
    if ← words ["DEFAULT", "VALUES"] then pure ([], none)
    else
      let parts ←
        if (← symbolAhead "(") && (← peekAfter 1).keyword = "SELECT" then pure []
        else
          let _ ← names?
          listAfter "PARTITION" (parens g.anyList)
      if ["FORMAT", "SETTINGS"].contains (← peekWord) then pure (parts, none)
      else pure (parts, some (← g.query))
  let conflict ← g.onConflict
  return .insert source (parts ++ conflict ++ (← g.returning))

/-- The rest of an `UPDATE`. -/
def update : Reader Statement := do
  conflictWord
  let target ← g.joinedRelation
  let before ← listAfter "FROM" g.relations
  expectWord "SET"
  let values ← g.assignments
  let sources ← if before.isEmpty then listAfter "FROM" g.relations else pure before
  let condition ← g.clause? "WHERE"
  let given ← g.returning
  let limit ← g.clauses "LIMIT"
  return .update condition (target :: sources) (values ++ given ++ limit)

/-- The rest of a `DELETE`. -/
def delete : Reader Statement := do
  if !(← word "FROM") then
    let _ ← commas name
    expectWord "FROM"
  let targets ← g.relations
  let sources ← listAfter "USING" g.relations
  let condition ← g.clause? "WHERE"
  let given ← g.returning
  let order ← g.orderBy
  let limit ← listAfter "LIMIT" do if ← word "ALL" then return [] else single g.any
  return .delete condition (targets ++ sources) (given ++ order ++ limit)

/-- What a `MERGE` does with some rows, or nothing. -/
def mergeClause : Reader (Option (List Expr)) := do
  if !(← word "WHEN") then return none
  let missing ← word "NOT"
  expectWord "MATCHED"
  let bySource ← if missing then words ["BY", "SOURCE"] else pure false
  if missing && !bySource then let _ ← words ["BY", "TARGET"]
  let inserts := missing && !bySource
  let condition ← g.clauses "AND"
  expectWord "THEN"
  match ← oneOf ["UPDATE", "INSERT", "DELETE"] with
  | some "UPDATE" =>
    if inserts then refuse "UPDATE is not allowed in a NOT MATCHED merge clause"
    expectWord "SET"
    return some (condition ++ (← g.assignments))
  | some "DELETE" =>
    if inserts then refuse "DELETE is not allowed in a NOT MATCHED merge clause"
    return some condition
  | some _ =>
    if !inserts then refuse "INSERT is not allowed in a MATCHED merge clause"
    let _ ← names?
    expectWord "VALUES"
    return some (condition ++ (← g.rows))
  | none => refuse "expected UPDATE, DELETE or INSERT in merge clause"

/-- The rest of a `MERGE`. -/
def merge : Reader Statement := do
  let _ ← word "INTO"
  let target ← g.relation
  expectWord "USING"
  let source ← g.relation
  expectWord "ON"
  let condition ← g.any
  let clauses ← manyLists g.mergeClause
  let given ←
    match ← oneOf ["OUTPUT", "RETURNING"] with
    | none => pure []
    | some w =>
      let es ← commas g.selected
      if w = "OUTPUT" then intoTable
      pure es
  return .merge [target, source] (condition :: clauses ++ given)

/-- A statement that changes rows, after its first word. -/
def changeAfter (w : String) : Reader Statement :=
  match w with
  | "INSERT" => g.insert
  | "UPDATE" => g.update
  | "DELETE" => g.delete
  | _ => g.merge

/-! ## Copies -/

/-- An option of a copy in parentheses. -/
def copyOption : Reader Unit := do
  let flag : Reader Unit := do let _ ← oneOf ["TRUE", "FALSE"]
  match ← oneOf ["FORMAT", "FREEZE", "DELIMITER", "NULL", "HEADER", "QUOTE", "ESCAPE",
    "FORCE_QUOTE", "FORCE_NOT_NULL", "FORCE_NULL", "ENCODING"] with
  | some "FORMAT" => let _ ← ident
  | some "FREEZE" | some "HEADER" => flag
  | some "DELIMITER" | some "QUOTE" | some "ESCAPE" => character
  | some "NULL" | some "ENCODING" => let _ ← text
  | some _ => let _ ← names
  | none => expected "option"

/-- An option of the kind `CSV`. -/
def csvOption : Reader Unit := do
  match ← oneOf ["HEADER", "QUOTE", "ESCAPE", "FORCE"] with
  | some "HEADER" => pure ()
  | some "FORCE" =>
    if ← words ["NOT", "NULL"] then pure () else expectWord "QUOTE"
    let _ ← commas ident
  | some _ =>
    let _ ← word "AS"
    character
  | none => expected "csv option"

/-- An option of a copy in the older form, a bare word with what it needs. -/
def bareOption : Reader Unit := do
  let as_ : Reader Unit := do let _ ← word "AS"
  let optionalText : Reader Unit := do
    match ← peek with
    | .quoted .plain _ => let _ ← next
    | _ => pure ()
  let flag : Reader Unit := do let _ ← oneOf ["ON", "OFF", "TRUE", "FALSE"]
  match ← oneOf ["ACCEPTANYDATE", "ACCEPTINVCHARS", "ADDQUOTES", "ALLOWOVERWRITE", "BINARY",
    "BLANKSASNULL", "BZIP2", "CLEANPATH", "COMPUPDATE", "CREDENTIALS", "CSV", "DATEFORMAT",
    "DELIMITER", "EMPTYASNULL", "ENCRYPTED", "ESCAPE", "EXTENSION", "FIXEDWIDTH", "GZIP", "HEADER",
    "IAM_ROLE", "IGNOREHEADER", "JSON", "MANIFEST", "MAXFILESIZE", "NULL", "PARALLEL", "PARQUET",
    "PARTITION", "REGION", "REMOVEQUOTES", "ROWGROUPSIZE", "STATUPDATE", "TIMEFORMAT",
    "TRUNCATECOLUMNS", "ZSTD"] with
  | some w =>
    match w with
    | "ACCEPTINVCHARS" | "DATEFORMAT" | "JSON" =>
      as_
      optionalText
    | "COMPUPDATE" => if ← word "PRESET" then pure () else flag
    | "CREDENTIALS" | "EXTENSION" => let _ ← text
    | "CSV" => let _ ← many (attempt csvOption)
    | "DELIMITER" =>
      as_
      character
    | "ENCRYPTED" => let _ ← word "AUTO"
    | "FIXEDWIDTH" | "NULL" | "REGION" | "TIMEFORMAT" =>
      as_
      let _ ← text
    | "IAM_ROLE" => if ← word "DEFAULT" then pure () else let _ ← text
    | "IGNOREHEADER" =>
      as_
      count
    | "MANIFEST" => let _ ← word "VERBOSE"
    | "MAXFILESIZE" | "ROWGROUPSIZE" =>
      as_
      number
      let _ ← oneOf ["MB", "GB"]
    | "PARALLEL" | "STATUPDATE" => flag
    | "PARTITION" =>
      expectWord "BY"
      let _ ← names
      let _ ← word "INCLUDE"
    | _ => pure ()
  | none => expected "option"

/-- The block of data after a copy: everything up to a backslash and a point, statements or not.
-/
def dataBlock : Nat → Reader Unit
  | 0 => pure ()
  | fuel + 1 => do
    match ← nextOrBlank with
    | none => pure ()
    | some (.symbol "\\") =>
      if ← symbol "." then pure ()
      else
        let _ ← next
        dataBlock fuel
    | some _ => dataBlock fuel

/-- The rest of a `COPY`. -/
def copy : Reader Statement := do
  let source ←
    if ← symbol "(" then
      let q ← g.query
      expectSymbol ")"
      pure (some q)
    else
      let _ ← name
      let _ ← names?
      pure none
  let out ← match ← oneOf ["FROM", "TO"] with
    | some "TO" => pure true
    | some _ => pure false
    | none => expected "FROM or TO"
  if !out && source.isSome then refuse "COPY ... FROM does not support query as a source"
  let inline ← word "STDIN"
  if !inline then
    if ← word "STDOUT" then pure ()
    else
      let _ ← word "PROGRAM"
      let _ ← text
  let _ ← word "WITH"
  if ← symbolAhead "(" then
    let _ ← parens (commas copyOption)
  let _ ← many (attempt bareOption)
  if inline then
    expectSymbol ";"
    dataBlock (← read).rest.length
  return .copy source out

end Grammar

end SqlGate.Sql
