import SqlGate.Sql.Grammar.Table

/-!
# Statements of upkeep

What is left: statements that empty, check, describe, load or watch objects, and those that only
other systems know but the grammar takes. The readers start after the first word of the statement.
-/

namespace SqlGate.Sql

namespace Grammar

open Reader

variable (g : Grammar)

/-- A statement that no rule looks into, with its operands. -/
def plain (kind : String) (p : Reader (List Expr)) : Reader Statement :=
  return .other kind (← p) [] []

/-- The rest of a statement that empties tables. -/
def truncate : Reader Statement := do
  let _ ← word "TABLE"
  let _ ← commas do
    let _ ← word "ONLY"
    let _ ← name
    symbol "*"
  let parts ← listAfter "PARTITION" (parens g.anyList)
  if ← words ["RESTART", "IDENTITY"] then pure () else let _ ← words ["CONTINUE", "IDENTITY"]
  dropBehavior
  onCluster
  return .truncate parts

/-- The rest of a statement that gathers statistics. -/
def analyze : Reader Statement := plain "ANALYZE" do
  let _ ← word "TABLE"
  let _ ← name
  manyLists do
    match ← oneOf ["PARTITION", "FOR", "CACHE", "NOSCAN", "COMPUTE"] with
    | some "PARTITION" => return some (← parens g.anyList)
    | some "FOR" =>
      expectWord "COLUMNS"
      let _ ← attempt (commas ident)
      return some []
    | some "CACHE" =>
      expectWord "METADATA"
      return some []
    | some "COMPUTE" =>
      expectWord "STATISTICS"
      return some []
    | some _ => return some []
    | none => return none

/-- The rest of a statement that gives back space. -/
def vacuum : Reader Statement := plain "VACUUM" do
  let _ ← word "FULL"
  let _ ← words ["SORT", "ONLY"]
  let _ ← words ["DELETE", "ONLY"]
  let _ ← word "REINDEX"
  let _ ← word "RECLUSTER"
  match ← attempt name with
  | none => return []
  | some _ =>
    if ← word "TO" then
      let _ ← value
      expectWord "PERCENT"
    let _ ← word "BOOST"
    return []

/-- The rest of a statement that comments on an object. -/
def comment : Reader Statement := plain "COMMENT" do
  ifExists
  expectWord "ON"
  match ← oneOf ["COLUMN", "DATABASE", "DOMAIN", "EXTENSION", "FUNCTION", "INDEX", "MATERIALIZED",
    "PROCEDURE", "ROLE", "SCHEMA", "SEQUENCE", "TABLE", "TYPE", "USER", "VIEW"] with
  | some "MATERIALIZED" => expectWord "VIEW"
  | some _ => pure ()
  | none => expected "comment object_type"
  let _ ← name
  expectWord "IS"
  if ← word "NULL" then return [] else skip text

/-- The rest of a statement that calls a procedure. -/
def callStatement : Reader Statement := plain "CALL" do
  let f ← name
  if ← symbolAhead "(" then single (g.call f) else return []

/-- The rest of a statement that notifies a channel. -/
def notify : Reader Statement := plain "NOTIFY" do
  let _ ← ident
  if ← symbol "," then skip text else return []

/-- The rest of a statement that renames tables. -/
def rename : Reader Statement := plain "RENAME" do
  expectWord "TABLE"
  skip (commas do
    let _ ← name
    expectWord "TO"
    name)

/-- The rest of a statement that ends a connection or a query. -/
def kill : Reader Statement := plain "KILL" do
  let kind ← oneOf ["CONNECTION", "QUERY", "MUTATION"]
  count
  if kind = some "MUTATION" then
    expected "Unsupported type for KILL, allowed: CONNECTION | QUERY"
  return []

/-- The rest of a statement that attaches a database. -/
def attach : Reader Statement := plain "ATTACH" do
  let _ ← word "DATABASE"
  let e ← g.any
  expectWord "AS"
  let _ ← ident
  return [e]

/-- The rest of a statement that repairs a table. -/
def check : Reader Statement := plain "MSCK" do
  let _ ← word "REPAIR"
  expectWord "TABLE"
  let _ ← name
  skip (attempt do
    let _ ← oneOf ["ADD", "DROP", "SYNC"]
    expectWord "PARTITIONS")

/-- The rest of a statement that keeps a table in memory. -/
def cache : Reader Statement := do
  let rest : Reader Statement := do
    let _ ← name
    let options ← g.options ["OPTIONS"]
    match ← peek with
    | .eof => return .other "CACHE" options [] []
    | _ =>
      let _ ← word "AS"
      return .other "CACHE" options [← g.query] []
  if ← word "TABLE" then rest
  else
    let _ ← name
    expectWord "TABLE"
    rest

/-- The rest of a statement that reports an error. -/
def raiseError : Reader Statement := plain "RAISERROR" do
  let es ← parens do
    let message ← g.any
    expectSymbol ","
    let severity ← g.any
    expectSymbol ","
    let state ← g.any
    return [message, severity, state] ++ (← if ← symbol "," then g.anyList else pure [])
  if ← word "WITH" then
    let _ ← commas (expectOneOf ["LOG", "NOWAIT", "SETERROR"])
  return es

/-- The rest of a statement that raises an exception. -/
def raise : Reader Statement := plain "RAISE" do
  if ← words ["USING", "MESSAGE"] then
    expectSymbol "="
    single g.any
  else return (← attempt g.any).toList

/-- The rest of a statement that sets or shows a setting of the database file. -/
def pragma : Reader Statement := plain "PRAGMA" do
  let _ ← name
  let setting : Reader Unit := do
    match ← value with
    | .number _ | .placeholder _ | .quoted .plain _ | .word _ (some _) => pure ()
    | _ => expected "number or string or ? placeholder"
  if ← symbol "(" then
    setting
    expectSymbol ")"
  else if ← symbol "=" then setting
  return []

/-- The rest of a statement that writes rows out to files. -/
def unload : Reader Statement := do
  let q ← parens do
    match ← peek with
    | .quoted .plain _ => skip next
    | _ => single g.query
  expectWord "TO"
  let _ ← ident
  return .other "UNLOAD" (← g.options ["WITH"]) q []

/-- The rest of a statement that exports the rows of a query. -/
def exportRows : Reader Statement := do
  expectWord "DATA"
  if ← words ["WITH", "CONNECTION"] then let _ ← name
  expectWord "OPTIONS"
  let options ← parens (commas g.option)
  expectWord "AS"
  return .other "EXPORT" options [← g.query] []

/-- The rest of a statement that checks a condition. -/
def assert : Reader Statement := plain "ASSERT" do
  let e ← g.any
  return e :: (← g.clauses "AS")

end Grammar

end SqlGate.Sql
