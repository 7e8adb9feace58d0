import SqlGate.Sql.Grammar.Query

/-!
# Definitions of tables, views and indexes

Columns with their options, constraints, and the statements that make tables, views and indexes of
them. A view and a table may be made from a query, which is kept.
-/

namespace SqlGate.Sql

namespace Grammar

open Reader

variable (g : Grammar)

/-- An option with a name and a value. -/
def option : Reader Expr := do
  let _ ← ident
  expectSymbol "="
  g.any

/-- Options in parentheses after some words, or nothing. -/
def options (ws : List String) : Reader (List Expr) :=
  listAfterWords ws (parens (commasBefore ")" g.option))

/-- When a constraint is checked. -/
def checkTime : Reader Unit := do
  let _ ← many do
    for ws in [["NOT", "DEFERRABLE"], ["DEFERRABLE"], ["INITIALLY", "DEFERRED"],
        ["INITIALLY", "IMMEDIATE"], ["ENFORCED"], ["NOT", "ENFORCED"]] do
      if ← words ws then return some ()
    return none

/-- What becomes of a row whose key is changed. -/
def keyAction : Reader Unit := do
  for ws in [["RESTRICT"], ["CASCADE"], ["SET", "NULL"], ["NO", "ACTION"], ["SET", "DEFAULT"]] do
    if ← words ws then return ()
  expected "one of RESTRICT, CASCADE, SET NULL, NO ACTION or SET DEFAULT"

/-- What a key refers to, after `REFERENCES`. -/
def reference : Reader Unit := do
  let _ ← name
  let _ ← names?
  let _ ← many do
    if ← word "MATCH" then
      let _ ← expectOneOf ["FULL", "PARTIAL", "SIMPLE"]
      return some ()
    else if ← words ["ON", "DELETE"] then return some (← keyAction)
    else if ← words ["ON", "UPDATE"] then return some (← keyAction)
    else return none
  checkTime

/-- The options of a sequence of numbers. -/
def sequenceOptions : Reader Unit := do
  if ← word "INCREMENT" then
    let _ ← word "BY"
    signedNumber
  if ← word "MINVALUE" then signedNumber else let _ ← words ["NO", "MINVALUE"]
  if ← word "MAXVALUE" then signedNumber else let _ ← words ["NO", "MAXVALUE"]
  if ← word "START" then
    let _ ← word "WITH"
    signedNumber
  if ← word "CACHE" then signedNumber
  if ← words ["NO", "CYCLE"] then pure () else let _ ← word "CYCLE"

/-- How the values of a column are made, after `GENERATED`. -/
def generated : Reader (Option (List Expr)) := do
  let identity : Reader (Option (List Expr)) := do
    if ← symbolAhead "(" then parens sequenceOptions
    return some []
  if ← words ["ALWAYS", "AS", "IDENTITY"] then identity
  else if ← words ["BY", "DEFAULT", "AS", "IDENTITY"] then identity
  else if ← words ["ALWAYS", "AS"] then
    if ← symbolAhead "(" then
      let e ← parens (withColumn false g.any)
      expectWord "STORED"
      return some [e]
    else return none
  else return none

/-- An option of a column, or nothing. -/
def columnOption : Reader (Option (List Expr)) := withColumn true do
  if ← words ["CHARACTER", "SET"] then
    let _ ← name
    return some []
  else if ← word "COLLATE" then
    let _ ← name
    return some []
  else if ← words ["NOT", "NULL"] then return some []
  else if ← word "COMMENT" then
    let _ ← text
    return some []
  else if ← word "NULL" then return some []
  else if ← word "DEFAULT" then return some [← g.any]
  else if (← words ["PRIMARY", "KEY"]) || (← word "UNIQUE") then
    checkTime
    return some []
  else if ← word "REFERENCES" then
    reference
    return some []
  else if ← word "CHECK" then return some [← parens (withColumn false g.any)]
  else if ← word "GENERATED" then g.generated
  else return none

/-- The options of a column, which may have names. -/
def columnOptions : Reader (List Expr) := manyLists do
  if ← word "CONSTRAINT" then
    let _ ← ident
    match ← g.columnOption with
    | some es => return some es
    | none => expected "constraint details after CONSTRAINT <name>"
  else g.columnOption

/-- A column with its type and options. -/
def column : Reader (List Expr) := do
  let _ ← ident
  let _ ← g.typeName
  g.columnOptions

/-- The kind of an index after `USING`, or nothing. -/
def indexKind : Reader Unit := do if ← word "USING" then let _ ← ident

/-- An expression of an index, with the operators it is searched by and its order. -/
def indexed : Reader Expr := do
  let e ← g.any
  if !(["ASC", "DESC", "NULLS", "WITH"].contains (← peekWord)) then
    let _ ← attempt name
  orderOptions
  return e

/-- The expressions of an index. -/
def indexColumns : Reader (List Expr) := do
  if ← symbolAhead "(" then parens (commas g.indexed)
  else expected "a list of columns in parentheses"

/-- The options after the expressions of an index. -/
def indexOptions : Reader Unit := do
  let _ ← many do
    if ← word "USING" then return some (← skip (β := Unit) ident)
    else if ← word "COMMENT" then return some (← skip text)
    else return none

/-- A constraint of a table, or nothing. -/
def tableConstraint : Reader (Option (List Expr)) := do
  let isNamed ← word "CONSTRAINT"
  if isNamed then let _ ← ident
  match ← oneOf ["UNIQUE", "PRIMARY", "FOREIGN", "CHECK"] with
  | some "UNIQUE" =>
    if ["KEY", "INDEX"].contains (← peekWord) then
      expected "\x60index_name\x60 or \x60(column_name [, ...])\x60"
    if ← word "NULLS" then
      let _ ← word "NOT"
      expectWord "DISTINCT"
    let _ ← ident?
    indexKind
    let es ← g.indexColumns
    indexOptions
    checkTime
    return some es
  | some "PRIMARY" =>
    expectWord "KEY"
    let _ ← ident?
    indexKind
    let es ← g.indexColumns
    indexOptions
    checkTime
    return some es
  | some "FOREIGN" =>
    expectWord "KEY"
    let _ ← ident?
    let _ ← names
    expectWord "REFERENCES"
    reference
    return some []
  | some _ =>
    let e ← parens g.any
    if ← word "ENFORCED" then pure () else let _ ← words ["NOT", "ENFORCED"]
    return some [e]
  | none => if isNamed then expected "PRIMARY, UNIQUE, FOREIGN, or CHECK" else return none

/-- The columns and constraints of a table in parentheses, or nothing. -/
def columns : Reader (List Expr) := do
  if !(← symbol "(") then return []
  if ← symbol ")" then return []
  let es ← commaLists do
    match ← g.tableConstraint with
    | some es => return es
    | none =>
      match ← peek with
      | .word .. => g.column
      | _ => expected "column name or constraint definition"
  if ← symbol ")" then return es
  else expected "',' or ')' after column definition"

/-- How the rows of a file are cut into fields. -/
def rowFormat : Reader Unit := do
  expectWord "FORMAT"
  if ← word "SERDE" then
    let _ ← text
  else
    expectWord "DELIMITED"
    let _ ← many do
      for ws in [["FIELDS", "TERMINATED", "BY"], ["ESCAPED", "BY"],
          ["COLLECTION", "ITEMS", "TERMINATED", "BY"], ["MAP", "KEYS", "TERMINATED", "BY"],
          ["LINES", "TERMINATED", "BY"], ["NULL", "DEFINED", "AS"]] do
        if ← words ws then return some (← skip (β := Unit) ident)
      return none

/-- Where and in which form the rows of a table are stored. -/
def storage : Reader (List Expr) := manyLists do
  if ← word "ROW" then
    rowFormat
    return some []
  else if ← word "STORED" then
    expectWord "AS"
    if ← word "INPUTFORMAT" then
      let input ← g.any
      expectWord "OUTPUTFORMAT"
      return some [input, ← g.any]
    else
      fileFormat
      return some []
  else if ← word "LOCATION" then
    let _ ← text
    return some []
  else if ← wordsAhead ["WITH", "SERDEPROPERTIES"] then
    return some (← g.options ["WITH", "SERDEPROPERTIES"])
  else return none
where
  fileFormat : Reader Unit := do
    let _ ← expectOneOf
      ["TEXTFILE", "SEQUENCEFILE", "ORC", "PARQUET", "AVRO", "RCFILE", "JSONFILE"]

/-- The first words of the bare options of a table that have a value. -/
def valuedOptions : List (List String) :=
  [["DEFAULT", "CHARSET"], ["CHARSET"], ["DEFAULT", "CHARACTER", "SET"], ["CHARACTER", "SET"],
    ["DEFAULT", "COLLATE"], ["COLLATE"], ["DATA", "DIRECTORY"], ["INDEX", "DIRECTORY"],
    ["KEY_BLOCK_SIZE"], ["ROW_FORMAT"], ["PACK_KEYS"], ["STATS_AUTO_RECALC"],
    ["STATS_PERSISTENT"], ["STATS_SAMPLE_PAGES"], ["DELAY_KEY_WRITE"], ["COMPRESSION"],
    ["ENCRYPTION"], ["MAX_ROWS"], ["MIN_ROWS"], ["AUTOEXTEND_SIZE"], ["AVG_ROW_LENGTH"],
    ["CHECKSUM"], ["CONNECTION"], ["ENGINE_ATTRIBUTE"], ["PASSWORD"],
    ["SECONDARY_ENGINE_ATTRIBUTE"], ["INSERT_METHOD"], ["AUTO_INCREMENT"]]

/-- A bare option of a table, or nothing. -/
def bareTableOption : Reader (Option Unit) := do
  if ← words ["START", "TRANSACTION"] then return some ()
  if ← word "COMMENT" then
    let _ ← symbol "="
    match ← next with
    | .quoted .plain _ => return some ()
    | _ => expected "Token::SingleQuotedString"
  if ← word "ENGINE" then
    let _ ← symbol "="
    match ← next with
    | .word .. =>
      if ← symbolAhead "(" then
        let _ ← parens (commas ident)
      return some ()
    | _ => expected "Token::Word"
  if ← word "TABLESPACE" then
    let _ ← symbol "="
    match ← next with
    | .word .. | .quoted .plain _ =>
      if ← word "STORAGE" then
        let _ ← oneOf ["DISK", "MEMORY"]
      return some ()
    | _ => expected "Token::Word"
  if ← word "UNION" then
    let _ ← symbol "="
    let _ ← names
    return some ()
  for ws in valuedOptions do
    if ← words ws then
      let _ ← symbol "="
      match ← attempt value with
      | some _ => pure ()
      | none => let _ ← ident
      return some ()
  return none

/-- The options of a table. -/
def tableOptions : Reader (List Expr) := do
  if ← word "INHERITS" then
    let _ ← parens (commas name)
  let options ← g.options ["WITH"]
  let properties ← g.options ["TBLPROPERTIES"]
  let partition ← listAfterWords ["PARTITION", "BY"] (single g.any)
  if options.isEmpty && properties.isEmpty then
    let _ ← many do
      match ← bareTableOption with
      | some () =>
        let _ ← symbol ","
        return some ()
      | none => return none
  return options ++ properties ++ partition

/-- The rest of a statement that makes a table. -/
def createTable : Reader Statement := do
  let _ ← ifNotExists
  let _ ← name
  onCluster
  match ← oneOf ["LIKE", "ILIKE"] with
  | some _ => let _ ← name
  | none => pure ()
  if ← word "CLONE" then let _ ← attempt name
  let columns ← g.columns
  let _ ← words ["WITHOUT", "ROWID"]
  let parts ← listAfterWords ["PARTITIONED", "BY"] (parens (commaLists g.column))
  let storage ← g.storage
  let options ← g.tableOptions
  let order ← listAfterWords ["ORDER", "BY"] do
    if ← symbolAhead "(" then parens (commasBefore ")" g.any) else single g.any
  if ← words ["ON", "COMMIT"] then
    if (← words ["DELETE", "ROWS"]) || (← words ["PRESERVE", "ROWS"]) || (← word "DROP") then
      pure ()
    else refuse "Expecting DELETE ROWS, PRESERVE ROWS or DROP"
  let _ ← word "STRICT"
  let source ← if ← word "AS" then single g.query else pure []
  return .other "CREATE TABLE" (columns ++ parts ++ storage ++ options ++ order) source []

/-- The rest of a statement that makes a table over files. -/
def createExternalTable : Reader Statement := do
  expectWord "TABLE"
  let _ ← ifNotExists
  let _ ← name
  let columns ← g.columns
  let parts ← listAfterWords ["PARTITIONED", "BY"] (parens (commaLists g.column))
  let storage ← g.storage
  let properties ← g.options ["TBLPROPERTIES"]
  return .other "CREATE EXTERNAL TABLE" (columns ++ parts ++ storage ++ properties) [] []

/-- The columns of a view in parentheses, or nothing. -/
def viewColumns : Reader (List Expr) := do
  if !(← symbol "(") then return []
  if ← symbol ")" then return []
  let es ← commaLists do
    let _ ← ident
    g.columnOptions
  expectSymbol ")"
  return es

/-- The rest of a statement that makes a view. -/
def createView : Reader Statement := do
  let _ ← word "SECURE"
  let _ ← word "MATERIALIZED"
  expectWord "VIEW"
  if ← ifNotExists then
    let _ ← name
  else
    let _ ← name
    let _ ← ifNotExists
  let columns ← g.viewColumns
  let options ← g.options ["WITH"]
  if ← word "CLUSTER" then
    expectWord "BY"
    let _ ← names?
  expectWord "AS"
  return .other "CREATE VIEW" (columns ++ options) [← g.query] []

/-- The rest of a statement that makes an index. -/
def createIndex : Reader Statement := do
  let _ ← word "CONCURRENTLY"
  let conditional ← ifNotExists
  if conditional || !(← word "ON") then
    let _ ← name
    indexKind
    expectWord "ON"
  let _ ← name
  indexKind
  let es ← g.indexColumns
  if ← word "INCLUDE" then
    let _ ← names
  if ← word "NULLS" then
    let _ ← word "NOT"
    expectWord "DISTINCT"
  let settings ← listAfter "WITH" (parens g.anyList)
  let condition ← g.clauses "WHERE"
  indexOptions
  return .other "CREATE INDEX" (es ++ settings ++ condition) [] []

end Grammar

end SqlGate.Sql
