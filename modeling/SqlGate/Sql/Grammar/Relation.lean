import SqlGate.Sql.Grammar.Expr

/-!
# Relations

What a `FROM` list holds: tables, functions that give rows, queries in parentheses, and joins of
these. A parenthesis opens a query if one can be read there, and else a join.
-/

namespace SqlGate.Sql

namespace Grammar

open Reader

variable (g : Grammar)

/-- The columns that a relation gets with its name; each may have a type. -/
def columnNames : Reader Unit := do
  if ← symbolAhead "(" then
    let _ ← parens (commas do
      let _ ← ident
      let _ ← attempt g.typeName)

/-- The name of a relation and of its columns, or nothing. -/
def relationAlias : Reader Unit := do
  match ← alias? Words.afterRelation with
  | some _ => g.columnNames
  | none => pure ()

/-- An expression that may have a name. -/
def named : Reader Expr := do
  let e ← g.any
  let _ ← alias? Words.afterColumn
  return e

/-- A sample of a relation, or nothing. -/
def sample : Reader (List Expr) := do
  match ← oneOf ["TABLESAMPLE", "SAMPLE"] with
  | none => return []
  | some _ =>
    let _ ← oneOf ["BERNOULLI", "ROW", "SYSTEM", "BLOCK"]
    let inside ← symbol "("
    let size ←
      if inside && (← word "BUCKET") then
        number
        expectWords ["OUT", "OF"]
        number
        g.clauses "ON"
      else
        match ← attempt g.any with
        | some e =>
          let _ ← oneOf ["ROWS", "PERCENT"]
          pure [e]
        | none =>
          match ← next with
          | .word .. => pure []
          | _ => refuse "Expecting number or byte length e.g. 100M"
    if inside then expectSymbol ")"
    match ← oneOf ["REPEATABLE", "SEED"] with
    | some _ => parens number
    | none => pure ()
    return size ++ (← g.clauses "OFFSET")

/-- A relation turned from rows to columns or back, after the word that says so. -/
def pivot (r : Relation) (w : String) : Reader Relation := do
  if w = "UNPIVOT" then let _ ← oneOf ["INCLUDE", "EXCLUDE"]; let _ ← word "NULLS"
  let operands ← parens do
    let values ← commas g.named
    expectWord "FOR"
    let targets ← if ← symbolAhead "(" then parens (commas (g.expr 60)) else single (g.expr 60)
    expectWord "IN"
    let sources ← parens do
      if ← word "ANY" then g.orderBy
      else if ← queryAhead then single (return .query (← g.query))
      else commas g.named
    return values ++ targets ++ sources
  g.relationAlias
  return .pivoted r operands

/-- A relation after which pivots may come. -/
def pivots (r : Relation) : Nat → Reader Relation
  | 0 => return r
  | fuel + 1 => do
    match ← oneOf ["PIVOT", "UNPIVOT"] with
    | some w => pivots (← g.pivot r w) fuel
    | none => return r

/-- A query as a relation, after the opening parenthesis. -/
def derived : Reader Relation := do
  let q ← g.query
  expectSymbol ")"
  g.relationAlias
  return .derived q

/-- What joins two relations. -/
def joinCondition (natural : Bool) : Reader (List Expr) := do
  if natural then return []
  else if ← word "ON" then single g.any
  else if ← word "USING" then skip (parens (commas name))
  else return []

/-- One join: the relation that it adds, and its condition. None if no join comes next. -/
def join : Reader (Option (Relation × List Expr)) := do
  let _ ← word "GLOBAL"
  if ← word "CROSS" then
    match ← oneOf ["JOIN", "APPLY"] with
    | some _ => return some (← g.relation, [])
    | none => expected "JOIN or APPLY after CROSS"
  else if ← word "OUTER" then
    expectWord "APPLY"
    return some (← g.relation, [])
  else if ← word "ASOF" then
    expectWord "JOIN"
    let r ← g.relation
    expectWord "MATCH_CONDITION"
    let near ← parens g.any
    return some (r, near :: (← g.joinCondition false))
  else
    let natural ← word "NATURAL"
    let joined : Reader (Option (Relation × List Expr)) := do
      let r ← g.relation
      return some (r, ← g.joinCondition natural)
    match ← peekWord with
    | "INNER" | "JOIN" =>
      let _ ← word "INNER"
      expectWord "JOIN"
      joined
    | "LEFT" | "RIGHT" =>
      let side ← next
      match ← oneOf ["OUTER", "SEMI", "ANTI", "JOIN"] with
      | some "JOIN" => joined
      | some _ =>
        expectWord "JOIN"
        joined
      | none => refuse ("expected OUTER, SEMI, ANTI or JOIN after " ++ side.keyword)
    | "ANTI" | "SEMI" =>
      let _ ← next
      expectWord "JOIN"
      joined
    | "FULL" =>
      let _ ← next
      let _ ← word "OUTER"
      expectWord "JOIN"
      joined
    | "OUTER" => expected "LEFT, RIGHT, or FULL"
    | "STRAIGHT_JOIN" =>
      let _ ← next
      joined
    | _ => if natural then expected "a join type after NATURAL" else return none

/-- A relation and what is joined to it. -/
def joinedRelation : Reader Relation := do
  let first ← g.relation
  match ← many g.join with
  | [] => return first
  | joins => return .joined (first :: joins.map (·.1)) (joins.flatMap (·.2))

/-- The relations of a `FROM` list. -/
def relations : Reader (List Relation) := commas g.joinedRelation

/-- A column of a table made from a document. -/
def documentColumn : Reader Unit := do
  let _ ← ident
  if ← word "FOR" then expectWord "ORDINALITY"
  else
    let _ ← g.typeName
    let _ ← word "EXISTS"
    expectWord "PATH"
    let _ ← value
    let _ ← many do
      match ← oneOf ["NULL", "ERROR", "DEFAULT"] with
      | none => return none
      | some w =>
        if w = "DEFAULT" then let _ ← value
        expectWord "ON"
        let _ ← expectOneOf ["EMPTY", "ERROR"]
        return some ()

/-- The columns of a table made from a document, which may be nested. -/
def documentColumns : Nat → Reader Unit
  | 0 => expected "a list of columns"
  | fuel + 1 => parens do
    let _ ← commas do
      if ← word "NESTED" then
        let _ ← word "PATH"
        let _ ← value
        expectWord "COLUMNS"
        documentColumns fuel
      else g.documentColumn

/-- A table made from a document, after the opening parenthesis. -/
def documentTable : Reader Relation := do
  let e ← g.any
  expectSymbol ","
  let _ ← value
  expectWord "COLUMNS"
  g.documentColumns (← read).rest.length
  expectSymbol ")"
  g.relationAlias
  return .source [e]

/-- A column of a table made from markup. -/
def markupColumn : Reader (List Expr) := do
  let _ ← ident
  if ← word "FOR" then
    expectWord "ORDINALITY"
    return []
  else
    let _ ← g.typeName
    let path ← g.clauses "PATH"
    let default ← g.clauses "DEFAULT"
    if ← words ["NOT", "NULL"] then pure () else let _ ← word "NULL"
    return path ++ default

/-- A table made from markup, after the opening parenthesis. -/
def markupTable : Reader Relation := do
  let spaces ←
    if ← word "XMLNAMESPACES" then
      let uris ← parens (commas do
        let uri ← g.any
        expectWord "AS"
        let _ ← ident
        return uri)
      expectSymbol ","
      pure uris
    else pure []
  let rows ← g.any
  let passing ← listAfter "PASSING" (commas do
    let _ ← words ["BY", "VALUE"]
    let e ← g.any
    if ← word "AS" then let _ ← ident
    return e)
  expectWord "COLUMNS"
  let columns ← commaLists g.markupColumn
  expectSymbol ")"
  g.relationAlias
  return .source (spaces ++ rows :: passing ++ columns)

/-- A table, or a function that gives rows. -/
def tableOrFunction : Reader Relation := do
  let _ ← name
  let args ←
    if ← symbol "(" then
      let args ← commasBefore ")" g.argument
      expectSymbol ")"
      pure args
    else pure []
  let _ ← words ["WITH", "ORDINALITY"]
  g.relationAlias
  let hints ←
    if (← peekWord) = "WITH" ∧ (← peekAfter 1) = .symbol "(" then
      let _ ← next
      parens g.anyList
    else pure []
  let sample ← g.sample
  g.pivots (.source (args ++ hints ++ sample)) (← read).rest.length

/-- Whether a word comes next with a parenthesis after it. -/
def callAhead (w : String) : Reader Bool := do
  return (← peekWord) = w ∧ (← peekAfter 1) = .symbol "("

/-- One relation of a `FROM` list, without joins. -/
def relationForm : Reader Relation := do
  if ← word "LATERAL" then
    if ← symbol "(" then g.derived
    else
      let _ ← name
      expectSymbol "("
      let args ← commasBefore ")" g.argument
      expectSymbol ")"
      g.relationAlias
      return .source args
  else if ← word "TABLE" then
    let e ← parens g.any
    g.relationAlias
    return .source [e]
  else if ← symbol "(" then
    match ← attempt g.derived with
    | some r => g.pivots r (← read).rest.length
    | none =>
      match ← g.joinedRelation with
      | .joined rs es =>
        expectSymbol ")"
        g.relationAlias
        return .joined rs es
      | _ => expected "joined table"
  else if ← word "UNNEST" then
    let es ← parens g.anyList
    let _ ← words ["WITH", "ORDINALITY"]
    g.relationAlias
    if ← words ["WITH", "OFFSET"] then let _ ← alias? Words.afterColumn
    return .source es
  else if ← callAhead "JSON_TABLE" then
    let _ ← next
    expectSymbol "("
    g.documentTable
  else if ← callAhead "XMLTABLE" then
    let _ ← next
    expectSymbol "("
    g.markupTable
  else g.tableOrFunction

end Grammar

end SqlGate.Sql
