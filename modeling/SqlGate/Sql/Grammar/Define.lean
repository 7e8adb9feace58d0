import SqlGate.Sql.Grammar.Table
import SqlGate.Sql.Grammar.Block

/-!
# Definitions of other objects

Functions and procedures, triggers, policies, types, roles and the many smaller kinds of objects,
and their removal. The body of a function written in the statement is a text, which is not looked
into; the body of a procedure is a list of statements.
-/

namespace SqlGate.Sql

namespace Grammar

open Reader

variable (g : Grammar)

/-! ## Functions, procedures and triggers -/

/-- A parameter of a function: a type, perhaps with a name before it and a default value. -/
def parameter : Reader (List Expr) := do
  let _ ← oneOf ["IN", "OUT", "INOUT"]
  let _ ← g.typeName
  let first := (← read).last
  let second ← attempt do
    if (← peekWord) = "DEFAULT" then refuse "The DEFAULT keyword is not a type" else g.typeName
  if second.isSome then
    match first with
    | .word .. => pure ()
    | _ => expected "a name or type"
  if (← word "DEFAULT") || (← symbol "=") then single g.any else return []

/-- A function named with its parameters. -/
def signature : Reader (List Expr) := do
  let _ ← name
  if ← symbolAhead "(" then
    let ps ← parens (commasBefore ")" g.parameter)
    return ps.flatten
  else return []

/-- The body of a function as a text. -/
def bodyText : Reader Unit := do
  match ← peek with
  | .quoted (.dollar _) _ => let _ ← next
  | _ => let _ ← text

/-- A clause of a function: what it sets, which may be set once only, and its expressions. -/
def routineClause : Reader (Option (String × List Expr)) := do
  if ← word "AS" then
    bodyText
    if ← symbol "," then bodyText
    return some ("AS", [])
  else if ← word "LANGUAGE" then
    let _ ← ident
    return some ("LANGUAGE", [])
  else if (← oneOf ["IMMUTABLE", "STABLE", "VOLATILE"]).isSome then
    return some ("IMMUTABLE | STABLE | VOLATILE", [])
  else if (← words ["CALLED", "ON", "NULL", "INPUT"]) ||
      (← words ["RETURNS", "NULL", "ON", "NULL", "INPUT"]) || (← word "STRICT") then
    return some ("CALLED ON NULL INPUT | RETURNS NULL ON NULL INPUT | STRICT", [])
  else if ← word "PARALLEL" then
    match ← oneOf ["UNSAFE", "RESTRICTED", "SAFE"] with
    | some _ => return some ("PARALLEL \x7b UNSAFE | RESTRICTED | SAFE \x7d", [])
    | none => expected "one of UNSAFE | RESTRICTED | SAFE"
  else if ← word "RETURN" then return some ("AS", [← g.any])
  else return none

/-- The clauses of a function. -/
def routineClauses : Nat → List String → Reader (List Expr)
  | 0, _ => return []
  | fuel + 1, done => do
    match ← g.routineClause with
    | none => return []
    | some (what, es) =>
      if done.contains what then refuse (what ++ " specified more than once")
      else return es ++ (← routineClauses fuel (what :: done))

/-- The rest of a statement that makes a function. -/
def createFunction : Reader Statement := do
  let _ ← name
  let ps ← parens (commasBefore ")" g.parameter)
  if ← word "RETURNS" then let _ ← g.typeName
  let es ← g.routineClauses ((← read).rest.length + 1) []
  return .routine (ps.flatten ++ es) []

/-- A parameter of a procedure. -/
def procedureParameter : Reader (List Expr) := do
  let _ ← oneOf ["IN", "OUT", "INOUT"]
  let _ ← ident
  let _ ← g.typeName
  if ← symbol "=" then single g.any else return []

/-- The rest of a statement that makes a procedure. -/
def createProcedure : Reader Statement := do
  let _ ← name
  let ps ← if ← symbolAhead "(" then parens (commasBefore ")" g.procedureParameter) else pure []
  if ← word "LANGUAGE" then let _ ← ident
  expectWord "AS"
  return .routine ps.flatten (← g.blockUpTo ["END"])

/-- An event that sets off a trigger. -/
def triggerEvent : Reader Unit := do
  match ← expectOneOf ["INSERT", "UPDATE", "DELETE", "TRUNCATE"] with
  | "UPDATE" => if ← word "OF" then let _ ← commas ident
  | _ => pure ()

/-- The rest of a statement that makes a trigger. -/
def createTrigger : Reader Statement := do
  let _ ← name
  let _ ← attempt do
    match ← expectOneOf ["FOR", "BEFORE", "AFTER", "INSTEAD"] with
    | "INSTEAD" => expectWord "OF"
    | _ => pure ()
  let _ ← separated (word "OR") triggerEvent
  expectWord "ON"
  let _ ← name
  if ← word "FROM" then let _ ← attempt name
  checkTime
  if ← word "REFERENCING" then
    let _ ← many do
      if (← words ["OLD", "TABLE"]) || (← words ["NEW", "TABLE"]) then
        let _ ← word "AS"
        return some (← skip (β := Unit) name)
      else return none
  if ← word "FOR" then
    let _ ← word "EACH"
    let _ ← expectOneOf ["ROW", "STATEMENT"]
  let condition ← g.clauses "WHEN"
  if ← word "EXECUTE" then
    let _ ← expectOneOf ["FUNCTION", "PROCEDURE"]
    let ps ← g.signature
    return .other "CREATE TRIGGER" (condition ++ ps) [] []
  else return .other "CREATE TRIGGER" condition [] (← g.blockUpTo ["END"])

/-! ## Smaller objects -/

/-- To whom a policy applies and on which rows. -/
def policyClauses : Reader (List Expr) := do
  if ← word "TO" then let _ ← commas owner
  let using_ ← listAfter "USING" (single (parens g.any))
  let check ← listAfterWords ["WITH", "CHECK"] (single (parens g.any))
  return using_ ++ check

/-- The rest of a statement that makes a policy. -/
def createPolicy : Reader Statement := do
  let _ ← ident
  expectWord "ON"
  let _ ← name
  if ← word "AS" then let _ ← expectOneOf ["PERMISSIVE", "RESTRICTIVE"]
  if ← word "FOR" then let _ ← expectOneOf ["ALL", "SELECT", "INSERT", "UPDATE", "DELETE"]
  return .other "CREATE POLICY" (← g.policyClauses) [] []

/-- The rest of a statement that makes a domain. -/
def createDomain : Reader Statement := do
  let _ ← name
  expectWord "AS"
  let _ ← g.typeName
  if ← word "COLLATE" then let _ ← ident
  let default ← g.clauses "DEFAULT"
  let constraints ← manyLists g.tableConstraint
  return .other "CREATE DOMAIN" (default ++ constraints) [] []

/-- The rest of a statement that makes a secret. -/
def createSecret : Reader Statement := do
  let _ ← ifNotExists
  if !(← symbolAhead "(") then
    if ← word "IN" then
      let _ ← attempt ident
    else
      let _ ← attempt ident
      if ← word "IN" then let _ ← attempt ident
  parens do
    expectWord "TYPE"
    let _ ← ident
    let _ ← many do
      if ← symbol "," then
        let _ ← ident
        return some (← skip (β := Unit) ident)
      else return none
  return .other "CREATE SECRET" [] [] []

/-- The value of a named setting. -/
def settingValue (inner : Reader Unit) : Reader Unit := do
  match ← peek with
  | .quoted .plain _ | .number _ => let _ ← value
  | .word .. => let _ ← next
  | .symbol "(" =>
    match ← attempt (parens (commasBefore ")" value)) with
    | some _ => pure ()
    | none =>
      expectSymbol "("
      inner
      expectSymbol ")"
  | _ => expected "expected option value"

/-- Named settings without commas or with them, up to one of some words. -/
def settings (final : List String) : Nat → Reader Unit
  | 0 => pure ()
  | fuel + 1 => do
    match ← peek with
    | .word v q =>
      if final.contains (Token.word v q).keyword then pure ()
      else
        let _ ← next
        expectSymbol "="
        settingValue (settings [] fuel)
        settings final fuel
    | .symbol "," =>
      let _ ← next
      settings final fuel
    | _ => pure ()

/-- The rest of a statement that makes a user. -/
def createUser : Reader Statement := do
  let _ ← ifNotExists
  let _ ← ident
  let size := (← read).rest.length + 1
  settings ["WITH", "TAG"] size
  let _ ← word "WITH"
  if ← word "TAG" then parens (settings [] size)
  return .other "CREATE USER" [] [] []

/-- The rest of a statement that makes an extension. -/
def createExtension : Reader Statement := do
  let _ ← ifNotExists
  let _ ← ident
  if ← word "WITH" then
    if ← word "SCHEMA" then let _ ← ident
    if ← word "VERSION" then let _ ← ident
    let _ ← word "CASCADE"
  return .other "CREATE EXTENSION" [] [] []

/-- The rest of a statement that makes a virtual table. -/
def createVirtualTable : Reader Statement := do
  expectWord "TABLE"
  let _ ← ifNotExists
  let _ ← name
  expectWord "USING"
  let _ ← ident
  let _ ← names?
  return .other "CREATE VIRTUAL TABLE" [] [] []

/-- The rest of a statement that makes a schema. -/
def createSchema : Reader Statement := do
  let _ ← ifNotExists
  if ← word "AUTHORIZATION" then
    let _ ← ident
  else
    let _ ← name
    if ← word "AUTHORIZATION" then let _ ← ident
  let collation ← listAfterWords ["DEFAULT", "COLLATE"] (single g.any)
  let with_ ← g.options ["WITH"]
  let options ← g.options ["OPTIONS"]
  if ← word "CLONE" then let _ ← name
  return .other "CREATE SCHEMA" (collation ++ with_ ++ options) [] []

/-- The rest of a statement that makes a database. -/
def createDatabase : Reader Statement := do
  let _ ← ifNotExists
  let _ ← name
  let _ ← many do
    match ← oneOf ["LOCATION", "MANAGEDLOCATION"] with
    | some _ => return some (← skip (β := Unit) text)
    | none => return none
  if ← word "CLONE" then let _ ← name
  return .other "CREATE DATABASE" [] [] []

/-- An option of a new role: what it sets, which may be set once only. -/
def roleClause : Reader (Option String) := do
  match ← oneOf ["LOGIN", "NOLOGIN", "INHERIT", "NOINHERIT", "BYPASSRLS", "NOBYPASSRLS", "PASSWORD",
    "CREATEDB", "NOCREATEDB", "CREATEROLE", "NOCREATEROLE", "SUPERUSER", "NOSUPERUSER",
    "REPLICATION", "NOREPLICATION", "CONNECTION", "VALID", "IN", "ROLE", "ADMIN", "USER"] with
  | none => return none
  | some "PASSWORD" =>
    if ← word "NULL" then pure () else let _ ← value
    return some "PASSWORD"
  | some "CONNECTION" =>
    expectWord "LIMIT"
    number
    return some "CONNECTION LIMIT"
  | some "VALID" =>
    expectWord "UNTIL"
    let _ ← value
    return some "VALID UNTIL"
  | some "IN" =>
    match ← oneOf ["ROLE", "GROUP"] with
    | some w =>
      let _ ← commas ident
      return some ("IN " ++ w)
    | none => expected "ROLE or GROUP after IN"
  | some w =>
    if ["ROLE", "ADMIN", "USER"].contains w then
      let _ ← commas ident
      return some w
    else return some (if w.startsWith "NO" then (w.drop 2).toString else w)

/-- The options of a new role. -/
def roleClauses : Nat → List String → Reader Unit
  | 0, _ => pure ()
  | fuel + 1, done => do
    match ← roleClause with
    | none => pure ()
    | some w =>
      if done.contains w then refuse ("Found multiple " ++ w) else roleClauses fuel (w :: done)

/-- The rest of a statement that makes a role. -/
def createRole : Reader Statement := do
  let _ ← ifNotExists
  let _ ← commas name
  let _ ← word "WITH"
  roleClauses ((← read).rest.length + 1) []
  return .other "CREATE ROLE" [] [] []

/-- The rest of a statement that makes a sequence. -/
def createSequence : Reader Statement := do
  let _ ← ifNotExists
  let _ ← name
  if ← word "AS" then let _ ← g.typeName
  sequenceOptions
  if ← words ["OWNED", "BY"] then
    if ← word "NONE" then pure () else let _ ← name
  return .other "CREATE SEQUENCE" [] [] []

/-- An option of a type that is made without `AS`. -/
def typeOption : Reader (List Expr) := do
  let w ← expectOneOf ["INPUT", "OUTPUT", "RECEIVE", "SEND", "TYPMOD_IN", "TYPMOD_OUT", "ANALYZE",
    "SUBSCRIPT", "INTERNALLENGTH", "PASSEDBYVALUE", "ALIGNMENT", "STORAGE", "LIKE", "CATEGORY",
    "PREFERRED", "DEFAULT", "ELEMENT", "DELIMITER", "COLLATABLE"]
  if w = "PASSEDBYVALUE" then return []
  expectSymbol "="
  match w with
  | "INTERNALLENGTH" =>
    if ← word "VARIABLE" then pure () else count
    return []
  | "ALIGNMENT" => skip (expectOneOf ["CHAR", "INT2", "INT4", "DOUBLE"])
  | "STORAGE" => skip (expectOneOf ["PLAIN", "EXTERNAL", "EXTENDED", "MAIN"])
  | "CATEGORY" | "DELIMITER" => skip text
  | "PREFERRED" | "COLLATABLE" => skip (expectOneOf ["TRUE", "FALSE"])
  | "DEFAULT" => single g.any
  | "ELEMENT" => skip g.typeName
  | _ => skip name

/-- An option of a range type. -/
def rangeOption : Reader Unit := do
  let w ← expectOneOf ["SUBTYPE", "SUBTYPE_OPCLASS", "COLLATION", "CANONICAL", "SUBTYPE_DIFF",
    "MULTIRANGE_TYPE_NAME"]
  expectSymbol "="
  if w = "SUBTYPE" then
    let _ ← g.typeName
  else
    let _ ← name

/-- The rest of a statement that makes a type. -/
def createType : Reader Statement := do
  let _ ← name
  let done (es : List Expr) : Statement := .other "CREATE TYPE" es [] []
  if !(← word "AS") then
    if ← symbolAhead "(" then return done (← parens (commaLists g.typeOption))
    else return done []
  else if ← word "ENUM" then return done (← skip (parens (commasBefore ")" ident)))
  else if ← word "RANGE" then return done (← skip (parens (commasBefore ")" g.rangeOption)))
  else if ← symbolAhead "(" then
    return done (← skip (parens (commasBefore ")" (do
      let _ ← ident
      let _ ← g.typeName
      if ← word "COLLATE" then let _ ← name))))
  else expected "ENUM, RANGE, or '(' after AS"

/-- The rest of a statement that makes a connector. -/
def createConnector : Reader Statement := do
  let _ ← ifNotExists
  let _ ← ident
  if ← word "TYPE" then let _ ← text
  if ← word "URL" then let _ ← text
  if ← word "COMMENT" then
    let _ ← symbol "="
    let _ ← text
  return .other "CREATE CONNECTOR" (← g.options ["WITH", "DCPROPERTIES"]) [] []

/-- An option of a new operator: whether it is the function of the operator. -/
def operatorOption : Reader Bool := do
  let w ← expectOneOf ["FUNCTION", "PROCEDURE", "LEFTARG", "RIGHTARG", "COMMUTATOR", "NEGATOR",
    "RESTRICT", "JOIN", "HASHES", "MERGES"]
  if w = "HASHES" ∨ w = "MERGES" then return false
  expectSymbol "="
  match w with
  | "LEFTARG" | "RIGHTARG" =>
    let _ ← g.typeName
    return false
  | "COMMUTATOR" | "NEGATOR" =>
    if ← word "OPERATOR" then parens operatorName else operatorName
    return false
  | "RESTRICT" | "JOIN" =>
    let _ ← name
    return false
  | _ =>
    let _ ← name
    return true

/-- An item of a class of operators. -/
def operatorItem : Reader Unit := do
  match ← expectOneOf ["OPERATOR", "FUNCTION", "STORAGE"] with
  | "STORAGE" => let _ ← g.typeName
  | "OPERATOR" =>
    count
    operatorName
    if ← symbolAhead "(" then
      let _ ← parens (commas g.typeName)
    if ← word "FOR" then
      if ← word "SEARCH" then pure ()
      else
        expectWords ["ORDER", "BY"]
        let _ ← name
  | _ =>
    count
    if ← symbolAhead "(" then
      let _ ← parens (commas g.typeName)
    let _ ← name
    if ← symbolAhead "(" then
      let _ ← parens (commasBefore ")" g.typeName)

/-- The rest of a statement that makes an operator, or a family or class of operators. -/
def createOperator : Reader Statement := do
  if ← word "FAMILY" then
    let _ ← name
    expectWord "USING"
    let _ ← ident
    return .other "CREATE OPERATOR FAMILY" [] [] []
  else if ← word "CLASS" then
    let _ ← name
    let _ ← word "DEFAULT"
    expectWords ["FOR", "TYPE"]
    let _ ← g.typeName
    expectWord "USING"
    let _ ← ident
    if ← word "FAMILY" then let _ ← name
    expectWord "AS"
    let _ ← commas g.operatorItem
    return .other "CREATE OPERATOR CLASS" [] [] []
  else
    operatorName
    let done ← parens (commas g.operatorOption)
    if done.contains true then return .other "CREATE OPERATOR" [] [] []
    else refuse "CREATE OPERATOR requires FUNCTION parameter"

/-- The rest of a statement that makes a server. -/
def createServer : Reader Statement := do
  let _ ← ifNotExists
  let _ ← name
  if ← word "TYPE" then let _ ← ident
  if ← word "VERSION" then let _ ← ident
  expectWords ["FOREIGN", "DATA", "WRAPPER"]
  let _ ← name
  if ← word "OPTIONS" then
    let _ ← parens (commas do
      let _ ← ident
      let _ ← ident)
  return .other "CREATE SERVER" [] [] []

/-- What is said of a view before the word `VIEW`. -/
def viewSettings : Reader Unit := do
  if ← word "ALGORITHM" then
    expectSymbol "="
    let _ ← expectOneOf ["UNDEFINED", "MERGE", "TEMPTABLE"]
  if ← word "DEFINER" then
    expectSymbol "="
    let _ ← name
  if ← words ["SQL", "SECURITY"] then let _ ← expectOneOf ["DEFINER", "INVOKER"]

/-- The rest of a statement that makes something. -/
def create : Reader Statement := do
  let replaces ← words ["OR", "REPLACE"]
  let _ ← words ["OR", "ALTER"]
  let _ ← word "LOCAL"
  let _ ← word "GLOBAL"
  let _ ← word "TRANSIENT"
  let _ ← oneOf ["TEMP", "TEMPORARY"]
  viewSettings
  let k ← peekWord
  let take (p : Reader Statement) : Reader Statement := do
    let _ ← next
    p
  match k with
  | "TABLE" => take g.createTable
  | "MATERIALIZED" | "VIEW" => g.createView
  | "SECURE" => g.createView
  | "POLICY" => take g.createPolicy
  | "EXTERNAL" => take g.createExternalTable
  | "FUNCTION" => take g.createFunction
  | "DOMAIN" => take g.createDomain
  | "TRIGGER" => take g.createTrigger
  | "CONSTRAINT" =>
    expectWords ["CONSTRAINT", "TRIGGER"]
    g.createTrigger
  | "SECRET" => take createSecret
  | "USER" => take createUser
  | _ =>
    if replaces then
      expected "[EXTERNAL] TABLE or [MATERIALIZED] VIEW or FUNCTION after CREATE OR REPLACE"
    else match k with
    | "EXTENSION" => take createExtension
    | "INDEX" => take g.createIndex
    | "UNIQUE" =>
      expectWords ["UNIQUE", "INDEX"]
      g.createIndex
    | "VIRTUAL" => take createVirtualTable
    | "SCHEMA" => take g.createSchema
    | "DATABASE" => take createDatabase
    | "ROLE" => take createRole
    | "SEQUENCE" => take g.createSequence
    | "TYPE" => take g.createType
    | "PROCEDURE" => take g.createProcedure
    | "CONNECTOR" => take g.createConnector
    | "OPERATOR" => take g.createOperator
    | "SERVER" => take createServer
    | _ => expected "an object type after CREATE"

/-! ## Removal -/

/-- The types of the sides of an operator in parentheses. -/
def sides : Reader Unit := parens do
  if ← word "NONE" then pure () else let _ ← g.typeName
  expectSymbol ","
  let _ ← g.typeName

/-- The names of objects to be removed. -/
def dropNames (k : String) : Reader Unit := do
  ifExists
  let _ ← commas name
  let cascade ← word "CASCADE"
  let restrict ← word "RESTRICT"
  let purge ← word "PURGE"
  if cascade && restrict then refuse "Cannot specify both CASCADE and RESTRICT in DROP"
  if k = "ROLE" && (cascade || restrict || purge) then
    refuse "Cannot specify CASCADE, RESTRICT, or PURGE in DROP ROLE"
  if ← word "ON" then let _ ← name

/-- What is removed, after its first word. -/
def dropped (k : String) : Reader Unit := do
  match k with
  | "FUNCTION" | "PROCEDURE" =>
    ifExists
    let _ ← commas g.signature
    dropBehavior
  | "POLICY" =>
    ifExists
    let _ ← ident
    expectWord "ON"
    let _ ← name
    dropBehavior
  | "CONNECTOR" =>
    ifExists
    let _ ← ident
  | "DOMAIN" =>
    ifExists
    let _ ← name
    dropBehavior
  | "SECRET" =>
    ifExists
    let _ ← ident
    if ← word "FROM" then let _ ← ident
  | "TRIGGER" =>
    ifExists
    let _ ← name
    if ← word "ON" then let _ ← name
    dropBehavior
  | "EXTENSION" =>
    ifExists
    let _ ← commas ident
    dropBehavior
  | "OPERATOR" =>
    match ← oneOf ["FAMILY", "CLASS"] with
    | some _ =>
      ifExists
      let _ ← commas name
      expectWord "USING"
      let _ ← ident
      dropBehavior
    | none =>
      ifExists
      let _ ← commas do
        operatorName
        g.sides
      dropBehavior
  | "MATERIALIZED" =>
    expectWord "VIEW"
    dropNames "VIEW"
  | k => dropNames k

/-- The rest of a statement that removes something. -/
def drop : Reader Statement := do
  match ← oneOf ["TABLE", "VIEW", "MATERIALIZED", "INDEX", "ROLE", "SCHEMA", "DATABASE", "SEQUENCE",
    "STAGE", "TYPE", "USER", "STREAM", "FUNCTION", "POLICY", "CONNECTOR", "DOMAIN", "PROCEDURE",
    "SECRET", "TRIGGER", "EXTENSION", "OPERATOR"] with
  | some k =>
    g.dropped k
    return .drop
  | none =>
    expected ("CONNECTOR, DATABASE, EXTENSION, FUNCTION, INDEX, OPERATOR, POLICY, PROCEDURE, " ++
      "ROLE, SCHEMA, SECRET, SEQUENCE, STAGE, TABLE, TRIGGER, TYPE, VIEW, MATERIALIZED VIEW or " ++
      "USER after DROP")

end Grammar

end SqlGate.Sql
