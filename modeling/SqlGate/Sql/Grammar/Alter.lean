import SqlGate.Sql.Grammar.Define

/-!
# Changes of definitions

The statements that start with `ALTER`, by the kind of object they change.
-/

namespace SqlGate.Sql

namespace Grammar

open Reader

variable (g : Grammar)

/-- A statement that changes an object of some kind. -/
def altered (kind : String) (es : List Expr) : Statement := .other ("ALTER " ++ kind) es [] []

/-! ## Tables -/

/-- A new name after `TO`. -/
def newName : Reader Unit := do
  expectWord "TO"
  let _ ← ident

/-- What is added to a table. -/
def addToTable : Reader (List Expr) := do
  match ← g.tableConstraint with
  | some es =>
    let _ ← words ["NOT", "VALID"]
    return es
  | none =>
    let _ ← ifNotExists
    let parts ← many do
      if ← word "PARTITION" then return some (← parens g.anyList) else return none
    if parts.isEmpty then
      let _ ← word "COLUMN"
      let _ ← ifNotExists
      g.column
    else return parts.flatten

/-- What is switched on or off for a table. -/
def switch (on : Bool) : Reader Unit := do
  if ← words ["ROW", "LEVEL", "SECURITY"] then pure ()
  else
    if on then let _ ← oneOf ["ALWAYS", "REPLICA"]
    match ← oneOf ["RULE", "TRIGGER"] with
    | some _ => let _ ← ident
    | none => expected "ROW LEVEL SECURITY, RULE, or TRIGGER"

/-- What is removed from a table. -/
def dropFromTable : Reader (List Expr) := do
  if ← words ["IF", "EXISTS", "PARTITION"] then parens g.anyList
  else if ← word "PARTITION" then parens g.anyList
  else if ← word "CONSTRAINT" then
    ifExists
    let _ ← ident
    dropBehavior
    return []
  else if ← words ["PRIMARY", "KEY"] then
    dropBehavior
    return []
  else if ← words ["FOREIGN", "KEY"] then
    let _ ← ident
    dropBehavior
    return []
  else if ← word "INDEX" then skip ident
  else if ← words ["CLUSTERING", "KEY"] then return []
  else
    let _ ← word "COLUMN"
    ifExists
    let _ ← ident
    dropBehavior
    return []

/-- The new type of a column and how its values are made from the old ones. -/
def newType : Reader (List Expr) := do
  let _ ← g.typeName
  g.clauses "USING"

/-- What is changed of a column. -/
def alterColumn : Reader (List Expr) := do
  let _ ← word "COLUMN"
  let _ ← ident
  if ← words ["SET", "NOT", "NULL"] then return []
  else if ← words ["DROP", "NOT", "NULL"] then return []
  else if ← words ["SET", "DEFAULT"] then single g.any
  else if ← words ["DROP", "DEFAULT"] then return []
  else if ← words ["SET", "DATA", "TYPE"] then g.newType
  else if ← word "TYPE" then g.newType
  else if ← words ["ADD", "GENERATED"] then
    if ← word "ALWAYS" then pure () else let _ ← words ["BY", "DEFAULT"]
    expectWords ["AS", "IDENTITY"]
    if ← symbolAhead "(" then parens sequenceOptions
    return []
  else
    expected
      "SET/DROP NOT NULL, SET DEFAULT, SET DATA TYPE, or ADD GENERATED after ALTER COLUMN"

/-- What an `ALTER TABLE` may go on with, as a message names it. -/
def tableChanges : String :=
  "ADD, RENAME, PARTITION, SWAP, DROP, REPLICA IDENTITY, SET, or SET TBLPROPERTIES " ++
    "after ALTER TABLE"

/-- One change of a table. -/
def tableChange : Reader (List Expr) := do
  let w ← peekWord
  match w with
  | "ADD" =>
    let _ ← next
    g.addToTable
  | "RENAME" =>
    let _ ← next
    if ← word "CONSTRAINT" then
      let _ ← ident
      newName
      return []
    else if ← word "TO" then skip name
    else if ← word "AS" then skip name
    else
      let _ ← word "COLUMN"
      let _ ← ident
      newName
      return []
  | "DISABLE" =>
    let _ ← next
    skip (switch false)
  | "ENABLE" =>
    let _ ← next
    skip (switch true)
  | "DROP" =>
    let _ ← next
    g.dropFromTable
  | "PARTITION" =>
    let _ ← next
    let before ← parens g.anyList
    expectWords ["RENAME", "TO", "PARTITION"]
    return before ++ (← parens g.anyList)
  | "CHANGE" =>
    let _ ← next
    let _ ← word "COLUMN"
    let _ ← ident
    g.column
  | "MODIFY" =>
    let _ ← next
    let _ ← word "COLUMN"
    g.column
  | "ALTER" =>
    let _ ← next
    g.alterColumn
  | "SWAP" =>
    let _ ← next
    expectWord "WITH"
    skip name
  | "OWNER" =>
    expectWords ["OWNER", "TO"]
    skip owner
  | "CLUSTER" =>
    expectWords ["CLUSTER", "BY"]
    parens g.anyList
  | "SUSPEND" | "RESUME" =>
    let _ ← next
    skip (expectWord "RECLUSTER")
  | "LOCK" =>
    let _ ← next
    let _ ← symbol "="
    skip (expectOneOf ["DEFAULT", "EXCLUSIVE", "NONE", "SHARED"])
  | "ALGORITHM" =>
    let _ ← next
    let _ ← symbol "="
    skip (expectOneOf ["DEFAULT", "INSTANT", "INPLACE", "COPY"])
  | "AUTO_INCREMENT" =>
    let _ ← next
    let _ ← symbol "="
    skip number
  | "REPLICA" =>
    expectWords ["REPLICA", "IDENTITY"]
    if (← oneOf ["NONE", "FULL", "DEFAULT"]).isSome then return []
    else if ← words ["USING", "INDEX"] then skip ident
    else expected "NONE, FULL, DEFAULT, or USING INDEX index_name after REPLICA IDENTITY"
  | "VALIDATE" =>
    expectWords ["VALIDATE", "CONSTRAINT"]
    skip ident
  | "SET" =>
    let es ← g.options ["SET", "TBLPROPERTIES"]
    if es.isEmpty then
      let es ← g.options ["SET"]
      if es.isEmpty then expected tableChanges else return es
    else return es
  | _ => expected tableChanges

/-- The rest of a statement that changes a table. -/
def alterTable : Reader Statement := do
  ifExists
  let _ ← word "ONLY"
  let _ ← name
  onCluster
  let es ← commaLists g.tableChange
  if ← word "LOCATION" then
    let _ ← ident
  else if ← words ["SET", "LOCATION"] then
    let _ ← ident
  return altered "TABLE" es

/-! ## Other objects -/

/-- The rest of a statement that changes a schema. -/
def alterSchema : Reader Statement := do
  ifExists
  let _ ← name
  if ← words ["SET", "DEFAULT", "COLLATE"] then return altered "SCHEMA" [← g.any]
  else if ← word "SET" then return altered "SCHEMA" (← g.options ["OPTIONS"])
  else if ← word "RENAME" then
    expectWord "TO"
    let _ ← name
    return altered "SCHEMA" []
  else if ← words ["OWNER", "TO"] then
    owner
    return altered "SCHEMA" []
  else expected "ALTER SCHEMA operation"

/-- The rest of a statement that changes a view. -/
def alterView : Reader Statement := do
  let _ ← name
  let _ ← names?
  let options ← g.options ["WITH"]
  expectWord "AS"
  return .other "ALTER VIEW" options [← g.query] []

/-- The rest of a statement that changes a type. -/
def alterType : Reader Statement := do
  let _ ← name
  if ← words ["RENAME", "TO"] then
    let _ ← ident
  else if ← words ["RENAME", "VALUE"] then
    let _ ← ident
    newName
  else if ← words ["ADD", "VALUE"] then
    let _ ← ifNotExists
    let _ ← ident
    if (← oneOf ["BEFORE", "AFTER"]).isSome then let _ ← ident
  else expected "\x7bRENAME TO | \x7b RENAME | ADD \x7d VALUE\x7d"
  return altered "TYPE" []

/-- An option of a role that is changed. -/
def roleOption : Reader Unit := do
  match ← oneOf ["BYPASSRLS", "NOBYPASSRLS", "CREATEDB", "NOCREATEDB", "CREATEROLE",
    "NOCREATEROLE", "INHERIT", "NOINHERIT", "LOGIN", "NOLOGIN", "REPLICATION", "NOREPLICATION",
    "SUPERUSER", "NOSUPERUSER", "CONNECTION", "PASSWORD", "VALID"] with
  | some "CONNECTION" =>
    expectWord "LIMIT"
    number
  | some "PASSWORD" => if ← word "NULL" then pure () else let _ ← value
  | some "VALID" =>
    expectWord "UNTIL"
    let _ ← value
  | some _ => pure ()
  | none => expected "option"

/-- The rest of a statement that changes a role. -/
def alterRole : Reader Statement := do
  let _ ← ident
  if ← words ["IN", "DATABASE"] then let _ ← attempt name
  if ← word "RENAME" then
    newName
    return altered "ROLE" []
  else if ← word "SET" then
    let _ ← name
    if ← words ["FROM", "CURRENT"] then return altered "ROLE" []
    else if (← symbol "=") || (← word "TO") then
      if ← word "DEFAULT" then return altered "ROLE" [] else return altered "ROLE" [← g.any]
    else expected "'TO' or '=' or 'FROM CURRENT'"
  else if ← word "RESET" then
    if ← word "ALL" then pure () else let _ ← name
    return altered "ROLE" []
  else
    let _ ← word "WITH"
    let options ← many (attempt roleOption)
    if options.isEmpty then expected "option" else return altered "ROLE" []

/-- The rest of a statement that changes a policy. -/
def alterPolicy : Reader Statement := do
  let _ ← ident
  expectWord "ON"
  let _ ← name
  if ← word "RENAME" then
    newName
    return altered "POLICY" []
  else return altered "POLICY" (← g.policyClauses)

/-- The rest of a statement that changes a connector. -/
def alterConnector : Reader Statement := do
  let _ ← ident
  let es ← g.options ["SET", "DCPROPERTIES"]
  if ← words ["SET", "URL"] then let _ ← text
  if ← words ["SET", "OWNER"] then
    let _ ← oneOf ["USER", "ROLE"]
    let _ ← ident
  return altered "CONNECTOR" es

/-- The rest of a statement that changes a user. -/
def alterUser : Reader Statement := do
  ifExists
  let _ ← ident
  if ← words ["RENAME", "TO"] then let _ ← ident
  let _ ← words ["RESET", "PASSWORD"]
  let _ ← words ["ABORT", "ALL", "QUERIES"]
  if ← word "SET" then settings [] ((← read).rest.length + 1)
  return altered "USER" []

/-- The rest of a statement that changes an operator, or a family or class of operators. -/
def alterOperator : Reader Statement := do
  let group ← oneOf ["FAMILY", "CLASS"]
  if group.isSome then
    let _ ← name
    expectWord "USING"
    let _ ← ident
  else
    operatorName
    g.sides
  if ← words ["OWNER", "TO"] then owner
  else if ← words ["SET", "SCHEMA"] then
    let _ ← name
  else if group.isSome then
    if ← words ["RENAME", "TO"] then
      let _ ← ident
    else if group = some "FAMILY" then
      let _ ← expectOneOf ["ADD", "DROP"]
      let _ ← commas g.operatorItem
    else expected "RENAME TO, OWNER TO, or SET SCHEMA after ALTER OPERATOR CLASS"
  else
    expectWord "SET"
    let _ ← parens (commas do
      let _ ← ident
      if ← symbol "=" then
        if ← word "NONE" then pure () else let _ ← name)
  return altered "OPERATOR" []

/-- The rest of a statement that changes a definition. -/
def alter : Reader Statement := do
  match ← expectOneOf ["VIEW", "TYPE", "TABLE", "INDEX", "ROLE", "POLICY", "CONNECTOR", "ICEBERG",
    "SCHEMA", "USER", "OPERATOR"] with
  | "VIEW" => g.alterView
  | "TYPE" => alterType
  | "TABLE" => g.alterTable
  | "ICEBERG" =>
    expectWord "TABLE"
    g.alterTable
  | "INDEX" =>
    let _ ← name
    expectWords ["RENAME", "TO"]
    let _ ← name
    return altered "INDEX" []
  | "ROLE" => g.alterRole
  | "POLICY" => g.alterPolicy
  | "CONNECTOR" => g.alterConnector
  | "SCHEMA" => g.alterSchema
  | "USER" => alterUser
  | _ => g.alterOperator

end Grammar

end SqlGate.Sql
