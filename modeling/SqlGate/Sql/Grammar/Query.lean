import SqlGate.Sql.Grammar.Relation

/-!
# Queries

A query is a body with named queries before it and order, limit and locks after it. A body is a
`SELECT`, a list of rows, a query in parentheses, or two bodies with a set operator between them:
an intersection binds more strongly than a union or a difference, and equals are taken from the
left.
-/

namespace SqlGate.Sql

namespace Grammar

open Reader

variable (g : Grammar)

/-- `ALL`, or `DISTINCT` and the expressions it looks at. -/
def distinctness : Reader (List Expr) := do
  let all ← word "ALL"
  if ← word "DISTINCT" then
    if all then refuse "Cannot specify both ALL and DISTINCT"
    if ← word "ON" then
      expectSymbol "("
      let es ← commasBefore ")" g.any
      expectSymbol ")"
      return es
    else return []
  else return []

/-- A number of rows at most, or nothing. -/
def top : Reader (List Expr) := listAfter "TOP" do
  let size ←
    if ← symbolAhead "(" then single (parens g.any)
    else
      count
      pure []
  let _ ← word "PERCENT"
  let _ ← words ["WITH", "TIES"]
  return size

/-- An expression of a select list, which may have a name. -/
def selected : Reader Expr := do
  let e ← g.exprOrStar
  match e with
  | .wildcard _ => return e
  | .name [⟨v, none⟩] =>
    if asciiLower v = "from" then refuse ("Expected an expression, found: " ++ v)
    else
      let _ ← alias? Words.afterColumn
      return e
  | _ =>
    let _ ← alias? Words.afterColumn
    return e

/-- A table that a query makes. -/
def intoTable : Reader Unit := do
  if ← word "INTO" then
    let _ ← oneOf ["TEMP", "TEMPORARY"]
    let _ ← word "UNLOGGED"
    let _ ← word "TABLE"
    let _ ← name

/-- Views of parts of a value, row by row. -/
def lateralViews : Reader (List Expr) := many do
  if ← words ["LATERAL", "VIEW"] then
    let _ ← word "OUTER"
    let e ← g.any
    let _ ← name
    let _ ← commas (alias? ["WHERE", "GROUP", "CLUSTER", "HAVING", "LATERAL"])
    return some e
  else return none

/-- Expressions in parentheses, perhaps none. -/
def tuple : Reader (List Expr) := parens (commasBefore ")" g.any)

/-- One expression, or several in parentheses. -/
def tupleOrOne : Reader (List Expr) := do
  if ← symbolAhead "(" then g.tuple else single g.any

/-- An item of a `GROUP BY` list. -/
def groupItem : Reader (List Expr) := do
  if ← words ["GROUPING", "SETS"] then parens (commaLists g.tuple)
  else
    match ← oneOf ["CUBE", "ROLLUP"] with
    | some _ => parens (commaLists g.tupleOrOne)
    | none =>
      if (← symbolAhead "(") && (← peekAfter 1) = .symbol ")" then
        let _ ← next
        let _ ← next
        return []
      else single g.any

/-- What rows are grouped by, or nothing. -/
def groupBy : Reader (List Expr) := listAfterWords ["GROUP", "BY"] do
  if ← word "ALL" then return [] else commaLists g.groupItem

/-- Windows that get names. -/
def windows : Reader (List Expr) := commaLists do
  let _ ← ident
  expectWord "AS"
  expectSymbol "("
  g.window

/-- The windows that get names and the filter on them, in either order. -/
def windowsAndFilter : Reader (List Expr) := do
  if ← word "WINDOW" then
    let ws ← g.windows
    return ws ++ (← g.clauses "QUALIFY")
  else if ← word "QUALIFY" then
    let e ← g.any
    return e :: (← listAfter "WINDOW" g.windows)
  else return []

/-- A `SELECT` without set operators. -/
def selectForm : Reader QueryBody := do
  expectWord "SELECT"
  let distinct ← g.distinctness
  let limit ← g.top
  let columns ← if (← peekWord) = "FROM" then pure [] else commas g.selected
  intoTable
  let from_ ← listAfter "FROM" g.relations
  let views ← g.lateralViews
  let filter ← g.clauses "WHERE"
  let groups ← g.groupBy
  let clusters ← listAfterWords ["CLUSTER", "BY"] g.anyList
  let shares ← listAfterWords ["DISTRIBUTE", "BY"] g.anyList
  let sorts ← listAfterWords ["SORT", "BY"] (commas g.ordered)
  let having ← g.clauses "HAVING"
  let windows ← g.windowsAndFilter
  return .select (distinct ++ limit ++ columns ++ views ++ filter ++ groups ++ clusters ++ shares ++
    sorts ++ having ++ windows) from_

/-- Rows of values. -/
def rows : Reader (List Expr) := commaLists do
  let _ ← word "ROW"
  parens g.anyList

/-- How strongly the set operator binds that comes next, if one does. -/
def setOperatorAhead : Reader (Option Nat) := do
  match ← peekWord with
  | "UNION" | "EXCEPT" | "MINUS" => return some 10
  | "INTERSECT" => return some 20
  | _ => return none

/-- What a set operator does with equal rows and with column names. -/
def setOptions : Reader Unit := do
  if ← words ["DISTINCT", "BY", "NAME"] then pure ()
  else if ← words ["BY", "NAME"] then pure ()
  else if ← word "ALL" then let _ ← words ["BY", "NAME"]
  else let _ ← word "DISTINCT"

/-- The rows of a whole table: its name, or a schema and a name, in three tokens. -/
def tableForm : Reader QueryBody := do
  let first ← next
  let second ← next
  let third ← next
  let isWord (t : Token) : Bool := match t with
    | .word .. => true
    | _ => false
  if second = .symbol "." then
    if !isWord first then expected "Schema name"
    if !isWord third then expected "Table name"
    return .table
  else if isWord first then return .table
  else expected "Table name"

/-- A query body without set operators. -/
def simpleBody : Reader QueryBody := do
  if (← peekWord) = "SELECT" then g.selectForm
  else if ← symbolAhead "(" then return .query (← parens g.query)
  else if ← word "VALUES" then return .values (← g.rows)
  else if ← word "VALUE" then return .values (← g.rows)
  else if ← word "TABLE" then tableForm
  else expected "SELECT, VALUES, or a subquery in the query body"

/-- Goes on with set operators that bind more strongly than a number. -/
def setOperations (strength : Nat) : Nat → QueryBody → Reader QueryBody
  | 0, b => return b
  | fuel + 1, b => do
    match ← setOperatorAhead with
    | none => return b
    | some binding =>
      if binding ≤ strength then return b
      else
        let _ ← next
        setOptions
        setOperations strength fuel (.combined b (← g.body binding))

/-- A query body whose set operators bind more strongly than a number. -/
def bodyForm (strength : Nat) : Reader QueryBody := do
  let b ← g.simpleBody
  g.setOperations strength ((← read).rest.length + 1) b

/-- A named query. -/
def namedQuery : Reader Query := do
  let _ ← ident
  if !(← word "AS") then
    g.columnNames
    expectWord "AS"
  if ← word "MATERIALIZED" then pure () else let _ ← words ["NOT", "MATERIALIZED"]
  let q ← parens g.query
  if ← word "FROM" then let _ ← ident
  return q

/-- How many rows are passed over. -/
def offset : Reader (List Expr) := listAfter "OFFSET" do
  let e ← g.any
  let _ ← oneOf ["ROW", "ROWS"]
  return [e]

/-- How many rows are given and how many are passed over before them, or nothing. -/
def limits : Reader (List Expr) := do
  let skipped ← g.offset
  if ← word "LIMIT" then
    let limit ← if ← word "ALL" then pure [] else single g.any
    return skipped ++ limit ++ (← if skipped.isEmpty then g.offset else pure [])
  else return skipped

/-- How many rows are given, in the words of the standard. -/
def fetch : Reader Unit := do
  let _ ← expectOneOf ["FIRST", "NEXT"]
  match ← oneOf ["ROW", "ROWS"] with
  | some _ => pure ()
  | none =>
    let _ ← value
    let _ ← word "PERCENT"
    let _ ← expectOneOf ["ROW", "ROWS"]
  if ← word "ONLY" then pure ()
  else if ← words ["WITH", "TIES"] then pure ()
  else expected "one of ONLY or WITH TIES"

/-- A format for the rows after `FOR`, or a lock; whether more locks may follow. -/
def lock : Reader (Option Unit) := do
  if ← word "FOR" then
    match ← oneOf ["BROWSE", "JSON", "XML"] with
    | some "BROWSE" => return none
    | some _ =>
      let _ ← expectOneOf ["AUTO", "PATH", "RAW", "EXPLICIT"]
      return none
    | none =>
      let _ ← expectOneOf ["UPDATE", "SHARE"]
      if ← word "OF" then let _ ← name
      if ← word "NOWAIT" then pure () else let _ ← words ["SKIP", "LOCKED"]
      return some ()
  else return none

/-- A query. Its body may also be a statement that changes rows, read by `change` after its first
word. -/
def queryForm (change : String → Reader Statement) : Reader Query := deeper do
  let ctes ← listAfter "WITH" do
    let _ ← word "RECURSIVE"
    commas g.namedQuery
  match ← oneOf ["INSERT", "UPDATE", "DELETE", "MERGE"] with
  | some "MERGE" => return .mk ctes (.merge (← change "MERGE")) []
  | some w => return .mk ctes (.change (← change w)) []
  | none =>
    let b ← g.body 0
    let order ← g.orderBy
    let limits ← g.limits
    if ← word "FETCH" then fetch
    let _ ← many lock
    return .mk ctes b (order ++ limits)

end Grammar

end SqlGate.Sql
