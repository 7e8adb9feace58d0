import SqlGate.Sql.Grammar.Query

/-!
# Statements about the session

Session variables, transactions, cursors, prepared statements and what a session shows of itself.
The readers start after the first word of the statement.
-/

namespace SqlGate.Sql

namespace Grammar

open Reader

variable (g : Grammar)

/-! ## Transactions -/

/-- A setting of a transaction, or nothing. -/
def transactionMode : Reader (Option TransactionMode) := do
  if ← words ["ISOLATION", "LEVEL"] then
    for ws in [["READ", "UNCOMMITTED"], ["READ", "COMMITTED"], ["REPEATABLE", "READ"],
        ["SERIALIZABLE"], ["SNAPSHOT"]] do
      if ← words ws then return some (.isolation (" ".intercalate ws))
    expected "isolation level"
  else if ← words ["READ", "ONLY"] then return some (.access .readOnly)
  else if ← words ["READ", "WRITE"] then return some (.access .readWrite)
  else return none

/-- The settings of a transaction; after a comma another one has to come. -/
def transactionModesFrom (due : Bool) : Nat → Reader (List TransactionMode)
  | 0 => return []
  | fuel + 1 => do
    match ← transactionMode with
    | some m => return m :: (← transactionModesFrom (← symbol ",") fuel)
    | none => if due then expected "transaction mode" else return []

/-- The settings of a transaction. -/
def transactionModes : Reader (List TransactionMode) := do
  transactionModesFrom false ((← read).rest.length + 1)

/-- What may come after the end of a transaction. -/
def chain : Reader Unit := do
  let _ ← oneOf ["TRANSACTION", "WORK", "TRAN"]
  if ← word "AND" then
    let _ ← word "NO"
    expectWord "CHAIN"

/-- The rest of a statement that rolls back. -/
def rollback : Reader Statement := do
  chain
  if ← word "TO" then
    let _ ← word "SAVEPOINT"
    let _ ← ident
  return .other "ROLLBACK" [] [] []

/-! ## Session variables -/

/-- The values that a session variable gets. -/
def setValues : Reader (List Expr) := commas do
  if ← queryAhead then return .query (← g.query)
  else orElse g.any fun _ => expected "variable value"

/-- The rest of a statement that sets a session variable or a transaction. -/
def set : Reader Statement := do
  if ← word "HIVEVAR" then
    expectSymbol ":"
    setIn none
  else setIn (← oneOf ["SESSION", "LOCAL", "GLOBAL"])
where
  /-- Sets a variable whose scope may be given. -/
  setIn (scope : Option String) : Reader Statement := do
    let role ← attempt do
      expectWord "ROLE"
      if ← word "NONE" then pure () else let _ ← ident
    if role.isSome then return .other "SET ROLE" [] [] []
    else if (← words ["TIME", "ZONE"]) || (← word "TIMEZONE") then
      if (← symbol "=") || (← word "TO") then
        return .set [⟨"TIMEZONE", none⟩] (← g.setValues)
      else return .other "SET TIME ZONE" [← g.any] [] []
    else if ← word "NAMES" then
      if ← word "DEFAULT" then return .other "SET NAMES" [] [] []
      else
        let _ ← ident
        if ← word "COLLATE" then let _ ← text
        return .other "SET NAMES" [] [] []
    else if ← word "CHARACTERISTICS" then
      expectWords ["AS", "TRANSACTION"]
      return .setTransaction (← transactionModes)
    else if ← word "TRANSACTION" then
      if ← word "SNAPSHOT" then
        let _ ← value
        return .setTransaction []
      else return .setTransaction (← transactionModes)
    else if ← word "AUTHORIZATION" then
      if scope.isNone then
        expected "SESSION, LOCAL, or other scope modifier before AUTHORIZATION"
      if ← word "DEFAULT" then pure () else let _ ← ident
      return .other "SET AUTHORIZATION" [] [] []
    else
      let target ← name
      if (← symbol "=") || (← word "TO") then return .set target (← g.setValues)
      else expected "equals sign or TO"

/-- The rest of a statement that sets a session variable back. -/
def reset : Reader Statement := do
  if ← word "ALL" then return .reset none else return .reset (some (← name))

/-- The rest of a statement that discards state of the session. -/
def discard : Reader Statement := do
  match ← oneOf ["ALL", "PLANS", "SEQUENCES", "TEMP", "TEMPORARY"] with
  | some w => return .discard w
  | none => expected "ALL, PLANS, SEQUENCES, TEMP or TEMPORARY after DISCARD"

/-! ## What a session shows -/

/-- A filter on what is shown, or nothing. -/
def showFilter : Reader (List Expr) := do
  match ← oneOf ["LIKE", "ILIKE"] with
  | some _ => skip text
  | none =>
    match ← g.clause? "WHERE" with
    | some e => return [e]
    | none => skip (attempt text)

/-- Where something is shown from and which part of it. -/
def showOptions : Reader (List Expr) := do
  if (← oneOf ["FROM", "IN"]).isSome then
    let _ ← oneOf ["ACCOUNT", "DATABASE", "SCHEMA", "TABLE", "VIEW"]
    let _ ← name
    if (← oneOf ["FROM", "IN"]).isSome then let _ ← ident
  let filter ← g.showFilter
  if ← words ["STARTS", "WITH"] then let _ ← value
  let limit ← g.clauses "LIMIT"
  if ← word "FROM" then let _ ← value
  return filter ++ limit

/-- The words of a variable that is shown: all tokens up to an equals sign or the end. -/
def shownWords : Reader Unit := do
  let _ ← many do
    match ← peek with
    | .eof | .symbol "=" | .symbol ";" => return none
    | _ => return some (← skip (β := Unit) next)

/-- The rest of a statement that shows something. -/
def «show» : Reader Statement := do
  let _ ← word "TERSE"
  let extended ← word "EXTENDED"
  let full ← word "FULL"
  let _ ← word "SESSION"
  let _ ← word "GLOBAL"
  let _ ← word "EXTERNAL"
  let shown (es : List Expr) : Statement := .other "SHOW" es [] []
  if (← oneOf ["COLUMNS", "FIELDS", "TABLES", "VIEWS"]).isSome then return shown (← g.showOptions)
  else if ← words ["MATERIALIZED", "VIEWS"] then return shown (← g.showOptions)
  else if ← word "FUNCTIONS" then return shown (← g.showFilter)
  else if extended || full then
    refuse "EXTENDED/FULL are not supported with this type of SHOW query"
  else if ← word "CREATE" then
    let _ ← expectOneOf ["TABLE", "TRIGGER", "FUNCTION", "PROCEDURE", "EVENT", "VIEW"]
    let _ ← name
    return shown []
  else if ← word "COLLATION" then return shown (← g.showFilter)
  else if (← oneOf ["DATABASES", "SCHEMAS"]).isSome then
    let _ ← word "HISTORY"
    return shown (← g.showOptions)
  else if (← word "CHARSET") || (← words ["CHARACTER", "SET"]) then return shown (← g.showFilter)
  else
    shownWords
    return shown []

/-! ## Cursors and prepared statements -/

/-- The rest of a statement that declares a cursor. -/
def declare : Reader Statement := do
  let _ ← ident
  let _ ← word "BINARY"
  let _ ← oneOf ["INSENSITIVE", "ASENSITIVE"]
  if ← word "SCROLL" then pure () else let _ ← words ["NO", "SCROLL"]
  expectWord "CURSOR"
  if (← oneOf ["WITH", "WITHOUT"]).isSome then expectWord "HOLD"
  expectWord "FOR"
  return .other "DECLARE" [] [← g.query] []

/-- The rest of a statement that reads rows from a cursor. -/
def fetchRows : Reader Statement := do
  match ← oneOf ["NEXT", "PRIOR", "FIRST", "LAST", "ABSOLUTE", "RELATIVE", "FORWARD", "BACKWARD",
    "ALL"] with
  | some "ABSOLUTE" | some "RELATIVE" => number
  | some "FORWARD" | some "BACKWARD" => if ← word "ALL" then pure () else number
  | some _ => pure ()
  | none => number
  let _ ← expectOneOf ["FROM", "IN"]
  let _ ← ident
  if ← word "INTO" then let _ ← name
  return .other "FETCH" [] [] []

/-- The rest of a statement that prepares another one. -/
def prepare : Reader Statement := do
  let _ ← ident
  if ← symbolAhead "(" then
    let _ ← parens (commas g.typeName)
  expectWord "AS"
  return .prepare (← g.statement)

/-- The rest of a statement that runs a prepared one. -/
def execute : Reader Statement := do
  let _ ← name
  let args ←
    if ← symbolAhead "(" then parens (commasBefore ")" g.any)
    else
      match ← peek with
      | .eof | .symbol ";" => pure []
      | _ =>
        if ["USING", "OUTPUT", "DEFAULT"].contains (← peekWord) then pure [] else g.anyList
  if ← word "INTO" then let _ ← commas ident
  let using_ ← listAfter "USING" (commas g.named)
  let _ ← word "OUTPUT"
  let _ ← word "DEFAULT"
  return .other "EXECUTE" (args ++ using_) [] []

/-! ## Explanations -/

/-- The name of a format for an explanation. -/
def planFormat : Reader Unit := do
  let _ ← symbol "="
  let _ ← expectOneOf ["TEXT", "GRAPHVIZ", "JSON", "TREE", "TRADITIONAL"]

/-- An option of an explanation in parentheses. -/
def planOption : Reader (List Expr) := do
  let _ ← ident
  if (← symbolAhead ",") || (← symbolAhead ")") then return [] else single g.any

/-- The rest of a statement that explains another one, or shows the columns of a table. An
explanation of an explanation is refused. -/
def explain (options : Bool) : Reader Statement := do
  if options && (← symbolAhead "(") then
    let _ ← parens (commaLists g.planOption)
  else if ← words ["QUERY", "PLAN"] then pure ()
  else if ← word "ESTIMATE" then pure ()
  else
    let _ ← word "ANALYZE"
    let _ ← word "VERBOSE"
    if ← word "FORMAT" then planFormat
  match ← attempt g.statement with
  | some (.explain _) | some (.describe _) => refuse "Explain must be root of the plan"
  | some s => return .explain s
  | none =>
    let _ ← oneOf ["EXTENDED", "FORMATTED"]
    return .describe (← name)

end Grammar

end SqlGate.Sql
