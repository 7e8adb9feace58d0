import SqlGate.Sql.Grammar.Types

/-!
# Expressions

An expression is an operand with operators after it; an operator goes on with what stands before it
only if it binds more strongly than what encloses them. Most words with a form of their own, such
as `CASE` or `EXTRACT`, may also be plain names: when the form does not fit, the name is taken.

The parts of the grammar need one another. `Grammar` holds the readers that a part may call, so
that each part is an ordinary definition over it.
-/

namespace SqlGate.Sql

/-- The readers by which the parts of the grammar call one another. -/
structure Grammar where
  statement : Reader Statement
  query : Reader Query
  /-- A query body whose set operators bind more strongly than a number. -/
  body : Nat → Reader QueryBody
  /-- An expression whose operators bind more strongly than a number. -/
  expr : Nat → Reader Expr
  operand : Reader Expr
  typeName : Reader TypeName
  /-- One relation of a `FROM` list, without joins. -/
  relation : Reader Relation

namespace Grammar

open Reader

variable (g : Grammar)

/-- Any expression. -/
def any : Reader Expr := g.expr 0

/-- Any expressions with commas between them. -/
def anyList : Reader (List Expr) := commas g.any

/-- Whether a subquery comes next. -/
def queryAhead : Reader Bool := do return ["SELECT", "WITH"].contains (← peekWord)

/-- An expression of a `WHERE` clause or the like, or nothing. -/
def clause? (w : String) : Reader (Option Expr) := whenWord w g.any

/-- As `clause?`, as a list. -/
def clauses (w : String) : Reader (List Expr) := return (← g.clause? w).toList

/-- The order of an expression in an ordered list, or nothing. -/
def orderOptions : Reader Unit := do
  let _ ← oneOf ["ASC", "DESC"]
  if ← words ["NULLS", "FIRST"] then pure () else let _ ← words ["NULLS", "LAST"]

/-- An expression of an ordered list. -/
def ordered : Reader Expr := do
  let e ← g.any
  orderOptions
  return e

/-- The ordered list after `ORDER BY`, or nothing. -/
def orderBy : Reader (List Expr) := listAfterWords ["ORDER", "BY"] (commas g.ordered)

/-- Goes on with a name whose parts have points after them, to the star that ends it; without one
it says so. -/
def starAfter (path : Name) : Nat → Reader (Option Name)
  | 0 => return none
  | fuel + 1 => do
    if ← symbol "." then
      if ← symbol "*" then return some path
      match identOf? (← peek) with
      | some i =>
        let _ ← next
        starAfter (path ++ [i]) fuel
      | none => expected "an identifier or a '*' after '.'"
    else return none

/-- An expression, or a star for all columns. -/
def exprOrStar : Reader Expr := do
  if ← symbol "*" then return .wildcard []
  let fuel := (← read).rest.length
  let path? ← orNothing do
    match identOf? (← peek) with
    | none => return none
    | some i =>
      let _ ← next
      starAfter [i] fuel
  match path? with
  | some path => return .wildcard path
  | none => g.any

/-! ## Functions -/

/-- An argument, which may have a name before it. -/
def argument : Reader Expr := do
  let e ← g.exprOrStar
  match e with
  | .wildcard _ => return e
  | _ =>
    if (← word "VALUE") || (← symbol "=>") || (← symbol ":") || (← symbol ":=") then
      return .form [e, ← g.exprOrStar]
    else return e

/-- What a function does with nulls, or nothing. -/
def nullTreatment : Reader Unit := do
  match ← oneOf ["RESPECT", "IGNORE"] with
  | some _ => expectWord "NULLS"
  | none => pure ()

/-- What a function that builds documents does with nulls and which type it gives, or nothing. -/
def documentOptions : Reader Unit := do
  if ← words ["ABSENT", "ON", "NULL"] then pure () else let _ ← words ["NULL", "ON", "NULL"]
  if ← word "RETURNING" then let _ ← g.typeName

/-- What happens when an aggregated text gets too long, or nothing. -/
def onOverflow : Reader (List Expr) := do
  if ← words ["ON", "OVERFLOW"] then
    if ← word "ERROR" then return []
    expectWord "TRUNCATE"
    let filler ←
      if ["WITH", "WITHOUT"].contains (← peekWord) then pure [] else single g.any
    let _ ← expectOneOf ["WITH", "WITHOUT"]
    expectWord "COUNT"
    return filler
  else return []

/-- The arguments of a function, after the opening parenthesis and with the closing one. -/
def arguments : Reader (List Expr) := do
  g.documentOptions
  if ← symbol ")" then return []
  let all ← word "ALL"
  let distinct ← word "DISTINCT"
  if all && distinct then refuse "Cannot specify both ALL and DISTINCT"
  let args ← commas g.argument
  nullTreatment
  let order ← g.orderBy
  let limit ← g.clauses "LIMIT"
  let filler ← g.onOverflow
  g.documentOptions
  expectSymbol ")"
  return args ++ order ++ limit ++ filler

/-- A time span: an operand, and the units that may come after it. -/
def span : Reader Expr := do
  let e ← g.operand
  let unit ← peekWord
  if Words.timeUnits.contains unit then let _ ← next
  if unit = "SECOND" ∨ unit = "SECONDS" then scale?
  else
    precision?
    if ← word "TO" then
      match ← peek with
      | .word .. =>
        let final ← next
        if ["SECOND", "SECONDS"].contains final.keyword then precision?
      | _ => expected "date/time field"
  return .form [e]

/-- A bound of a window frame. -/
def frameBound : Reader (List Expr) := do
  if ← words ["CURRENT", "ROW"] then return []
  let rows ←
    if ← word "UNBOUNDED" then pure []
    else match ← peek with
      | .quoted .plain _ => single g.span
      | _ => single g.any
  match ← oneOf ["PRECEDING", "FOLLOWING"] with
  | some _ => return rows
  | none => expected "PRECEDING or FOLLOWING"

/-- A window frame. -/
def frame : Reader (List Expr) := do
  match ← oneOf ["ROWS", "RANGE", "GROUPS"] with
  | none => expected "ROWS, RANGE, GROUPS"
  | some _ =>
    if ← word "BETWEEN" then
      let low ← g.frameBound
      expectWord "AND"
      return low ++ (← g.frameBound)
    else g.frameBound

/-- A window, after the opening parenthesis and with the closing one. -/
def window : Reader (List Expr) := do
  match ← peek with
  | .word v q => if !(Token.word v q).isKeyword then let _ ← next
  | _ => pure ()
  let parts ← listAfterWords ["PARTITION", "BY"] g.anyList
  let order ← g.orderBy
  if ← symbol ")" then return parts ++ order
  let bounds ← g.frame
  expectSymbol ")"
  return parts ++ order ++ bounds

/-- The arguments of a function and the clauses after them. -/
def call (function : Name) : Reader Expr := do
  expectSymbol "("
  let args ← g.arguments
  let within ← listAfterWords ["WITHIN", "GROUP"] (parens do
    expectWords ["ORDER", "BY"]
    commas g.ordered)
  let filter ←
    if (← word "FILTER") then
      if (← symbol "(") then
        if (← word "WHERE") then
          let e ← g.any
          expectSymbol ")"
          pure [e]
        else pure []
      else pure []
    else pure []
  nullTreatment
  let window ← listAfter "OVER" do
    if ← symbol "(" then g.window else skip ident
  return .call function (args ++ within ++ filter ++ window)

/-! ## Words with forms of their own -/

/-- The rest of a `CASE` expression. -/
def caseForm : Reader Expr := do
  let subject ← if ← word "WHEN" then pure [] else (do
    let e ← g.any
    expectWord "WHEN"
    pure [e])
  let branch : Reader (List Expr) := do
    let condition ← g.any
    expectWord "THEN"
    return [condition, ← g.any]
  let branches ← separated (word "WHEN") branch
  let final ← g.clauses "ELSE"
  expectWord "END"
  return .form (subject ++ branches.flatten ++ final)

/-- A part of a date or time: a word or a text. -/
def timeField : Reader Unit := do
  match ← peek with
  | .word .. | .quoted .plain _ => let _ ← next
  | _ => expected "date/time field"

/-- A cast written as a function. -/
def castForm : Reader Expr := parens do
  let e ← g.any
  expectWord "AS"
  let _ ← g.typeName
  if ← word "FORMAT" then
    let _ ← value
    if ← words ["AT", "TIME", "ZONE"] then let _ ← value
  return .form [e]

/-- A conversion to a type or a character set. -/
def convertForm : Reader Expr := parens do
  let e ← g.any
  if ← word "USING" then
    let _ ← name
  else
    expectSymbol ","
    let _ ← g.typeName
    if ← words ["CHARACTER", "SET"] then let _ ← name
  return .form [e]

/-- A rounding to a unit of time or to some places. -/
def roundForm : Reader Expr := parens do
  let e ← g.any
  if ← word "TO" then timeField
  else if ← symbol "," then
    match ← value with
    | .number _ => pure ()
    | _ => refuse "Scale field can only be of number type"
  return .form [e]

/-- A part of a text. -/
def substringForm : Reader Expr := parens do
  let e ← g.any
  let start ← if (← word "FROM") || (← symbol ",") then single g.any else pure []
  let size ← if (← word "FOR") || (← symbol ",") then single g.any else pure []
  return .form (e :: start ++ size)

/-- A text with a part of it replaced. -/
def overlayForm : Reader Expr := parens do
  let e ← g.any
  expectWord "PLACING"
  let by_ ← g.any
  expectWord "FROM"
  let start ← g.any
  let size ← g.clauses "FOR"
  return .form ([e, by_, start] ++ size)

/-- A text without the characters at its ends. -/
def trimForm : Reader Expr := parens do
  let _ ← oneOf ["BOTH", "LEADING", "TRAILING"]
  let e ← g.any
  let source ← g.clauses "FROM"
  return .form (e :: source)

/-- The place of a text in another one. -/
def positionForm : Reader Expr := parens do
  let e ← g.expr 60
  expectWord "IN"
  return .form [e, ← g.any]

/-- The form of a word that is not a plain name here, after the word; none if it has no form. -/
def specialForm (i : Ident) (k : String) : Reader (Option Expr) := do
  match k with
  | "TRUE" | "FALSE" | "NULL" => return some (.literal (.word i.value none))
  | "CURRENT_CATALOG" | "CURRENT_USER" | "SESSION_USER" | "USER" => return some (.call [i] [])
  | "CURRENT_TIMESTAMP" | "CURRENT_TIME" | "CURRENT_DATE" | "LOCALTIME" | "LOCALTIMESTAMP" =>
    let args ← if ← symbol "(" then g.arguments else pure []
    return some (.call [i] args)
  | "CASE" => g.caseForm
  | "CONVERT" => g.convertForm
  | "CAST" | "TRY_CAST" | "SAFE_CAST" => g.castForm
  | "EXISTS" => return some (.form [.query (← parens g.query)])
  | "EXTRACT" => parens do
    timeField
    expectWord "FROM"
    return some (.form [← g.any])
  | "CEIL" | "FLOOR" => g.roundForm
  | "POSITION" =>
    if ← symbolAhead "(" then
      match ← attempt g.positionForm with
      | some e => return some e
      | none => g.call [i]
    else return none
  | "SUBSTR" | "SUBSTRING" => g.substringForm
  | "OVERLAY" => g.overlayForm
  | "TRIM" => g.trimForm
  | "INTERVAL" => g.span
  | "ARRAY" =>
    if ← symbol "[" then
      let items ← commasBefore "]" g.any
      expectSymbol "]"
      return some (.form items)
    else if ← symbol "(" then
      let q ← g.query
      expectSymbol ")"
      return some (.call [i] [.query q])
    else return none
  | "NOT" =>
    if ← word "EXISTS" then return some (.form [.query (← parens g.query)])
    else return some (.form [← g.expr 30])
  | "CIRCLE" | "BOX" | "PATH" | "LINE" | "LSEG" | "POINT" | "POLYGON" =>
    return some (.literal (← value))
  | _ => return none

/-- A word as a plain name: a function call, a text in a named character set, or the name. -/
def plainForm (i : Ident) : Reader Expr := do
  match ← peek with
  | .symbol "(" => g.call [i]
  | .quoted .plain _ | .quoted .hex _ =>
    if i.value.startsWith "_" then return .literal (← value) else return .name [i]
  | _ => return .name [i]

/-- A text after the name of its type. -/
def typedText : Reader Expr := do
  match ← g.typeName with
  | .interval => g.span
  | .known => return .literal (← value)
  | .custom => expected "a type"

/-! ## Operands -/

/-- What stands in parentheses: a query, or one or more expressions. -/
def inParens : Reader Expr := parens do
  if ← queryAhead then return .query (← g.query)
  else
    match ← withColumn false g.anyList with
    | [e] => return .form [e]
    | es => return .form es

/-- An escape in braces: a function call, or a date or time. -/
def braced : Reader Expr := do
  expectSymbol "\x7b"
  let e ← do
    if ← word "FN" then g.call (← name)
    else match ← peek with
      | .word v none =>
        if ["t", "d", "ts"].contains v then
          let _ ← next
          pure (.literal (← value))
        else expected "ODBC datetime keyword (t, d, or ts)"
      | _ => expected "an expression"
  expectSymbol "\x7d"
  return e

/-- The operators that stand before an operand, each with how strongly it binds. -/
def prefixBinding : String → Option Nat
  | "+" | "-" => some 90
  | "!!" | "|/" | "||/" | "@" | "~" | "#" | "@-@" | "@@" | "?-" | "?|" => some 80
  | _ => none

/-- An operand: an expression without operators after it. -/
def operandForm : Reader Expr := do
  match ← attempt g.typedText with
  | some e => return e
  | none =>
    let t ← peek
    match t with
    | .word v q =>
      let _ ← next
      let i : Ident := ⟨v, q⟩
      let special ←
        orElse (return .ok (← g.specialForm i t.keyword)) (fun f => return Except.error f)
      match special with
      | .ok (some e) => return e
      | .ok none => g.plainForm i
      | .error f =>
        if Words.notNames.contains t.keyword then throw f
        else orElse (g.plainForm i) fun _ => throw f
    | .number _ | .quoted .. | .placeholder _ => return .literal (← value)
    | .symbol "[" =>
      let _ ← next
      let items ← commasBefore "]" g.any
      expectSymbol "]"
      return .form items
    | .symbol "(" => g.inParens
    | .symbol ":" => return .literal (← value)
    | .symbol "\x7b" => g.braced
    | .symbol s =>
      match prefixBinding s with
      | some n =>
        let _ ← next
        return .form [← g.expr n]
      | none => expected "an expression"
    | _ => expected "an expression"

/-! ## Fields and elements -/

/-- A field of a value, names being put together. -/
def field : Expr → Expr → Expr
  | .name p, .name q => .name (p ++ q)
  | .name p, .call f args => .call (p ++ f) args
  | e, x => .access e [x]

/-- What may stand after a point. -/
def isField : Expr → Bool
  | .name _ | .literal _ | .call .. | .access .. => true
  | _ => false

/-- The bounds of a part of an array, after the opening bracket and with the closing one. -/
def elements : Reader (List Expr) := do
  let low ← if ← symbol ":" then pure none else some <$> g.any
  if ← symbol "]" then return low.toList
  if low.isSome then expectSymbol ":"
  if ← symbol "]" then return low.toList
  let high ← g.any
  if ← symbol "]" then return low.toList ++ [high]
  expectSymbol ":"
  if ← symbol "]" then return low.toList ++ [high]
  let step ← g.any
  expectSymbol "]"
  return low.toList ++ [high, step]

/-- The fields and elements taken of an operand. -/
def steps : Nat → Expr → Reader Expr
  | 0, e => return e
  | fuel + 1, e => do
    if ← symbol "." then
      match ← peek with
      | .symbol "*" =>
        let _ ← next
        match e with
        | .name p => return .wildcard p
        | _ => expected "an identifier or a '*' after '.'"
      | .quoted .plain s =>
        let _ ← next
        steps fuel (field e (.name [⟨s, some '\''⟩]))
      | .placeholder s =>
        let _ ← next
        steps fuel (field e (.literal (.placeholder s)))
      | _ =>
        let x ← attempt do
          let x ← g.expr 200
          if isField x then return x else expected "an identifier or value"
        match x with
        | some x => steps fuel (field e x)
        | none => steps fuel (field e (.name [← ident]))
    else if ← symbol "[" then
      steps fuel (.access e (← g.elements))
    else return e

/-! ## Operators -/

/-- How strongly the operator of a symbol binds; zero if it is none. -/
def symbolBinding (s : String) : Nat :=
  if ["=", "<", ">", "<=", ">=", "<>", "==", ":=", "~", "~*", "!~", "!~*", "~~", "~~*", "!~~",
    "!~~*", "<=>"].contains s then 50
  else if ["+", "-"].contains s then 80
  else if ["*", "/", "%"].contains s then 90
  else if ["->", "->>", "#>", "#>>", "@>", "<@", "#-", "@?", "@@", "?", "?&", "?|", "!", "&&", "^@",
    "||", "#", ">>", "<<", "|", "&", "?-", "##", "&<", "&>", "?-|", "&<|", "|&>", "<->", "<^", ">^",
    "?#", "?||", "~=", "<<|", "|>>"].contains s then 70
  else match s with
  | "^" => 100
  | "::" => 140
  | "[" => 130
  | "." => 200
  | _ => 0

/-- How strongly the operator binds that comes next; zero if none does. -/
def bindingAhead : Reader Nat := do
  let t ← peek
  match t with
  | .symbol s => return symbolBinding s
  | .operator _ => return 70
  | .word _ none =>
    match t.keyword with
    | "OR" => return 10
    | "AND" => return 20
    | "XOR" => return 75
    | "AT" =>
      if (← peekAfter 1).keyword = "TIME" ∧ (← peekAfter 2).keyword = "ZONE" then return 110
      else return 0
    | "NOT" =>
      let after := (← peekAfter 1).keyword
      if ["IN", "BETWEEN", "LIKE", "ILIKE", "RLIKE", "REGEXP", "MATCH", "SIMILAR",
        "MEMBER"].contains after then return 60
      else if after = "NULL" ∧ !(← read).inColumn then return 40
      else return 0
    | "NOTNULL" | "IS" => return 40
    | "IN" | "BETWEEN" | "OVERLAPS" | "LIKE" | "ILIKE" | "RLIKE" | "REGEXP" | "MATCH" | "SIMILAR"
    | "MEMBER" | "OPERATOR" => return 60
    | "DIV" => return 90
    | "COLLATE" => return if (← read).inColumn then 0 else 120
    | _ => return 0
  | _ => return 0

/-- The operators that may compare with any or all of some values. -/
def isComparison (s : String) : Bool :=
  ["=", "==", "<>", "<", ">", "<=", ">=", "~", "~*", "!~", "!~*", "~~", "~~*", "!~~",
    "!~~*"].contains s

/-- The right side of a binary operator, which may be any or all of some values. -/
def rightSide (comparison : Bool) (strength : Nat) (e : Expr) : Reader Expr := do
  match ← oneOf ["ANY", "ALL", "SOME"] with
  | none => return .form [e, ← g.expr strength]
  | some _ =>
    let plain ← orNothing do
      expectSymbol "("
      if ← queryAhead then return none else return some ()
    let right ← match plain with
      | none => g.expr strength
      | some () => do
        let right ← g.expr strength
        expectSymbol ")"
        pure right
    if comparison then return .form [e, right]
    else refuse "Expected a comparison operator before ANY, ALL or SOME"

/-- What comes after `IS`. -/
def isForm (e : Expr) : Reader Expr := do
  let _ ← word "NOT"
  match ← oneOf ["NULL", "TRUE", "FALSE", "UNKNOWN"] with
  | some _ => return .form [e]
  | none =>
    if ← words ["DISTINCT", "FROM"] then return .form [e, ← g.any]
    else
      let _ ← oneOf ["NFC", "NFD", "NFKC", "NFKD"]
      if ← word "NORMALIZED" then return .form [e]
      else expected "[NOT] NULL | TRUE | FALSE | DISTINCT | [form] NORMALIZED FROM after IS"

/-- The character that a pattern escapes with, or nothing. -/
def escape : Reader Unit := do if ← word "ESCAPE" then let _ ← value

/-- What comes after `IN`. -/
def inForm (e : Expr) : Reader Expr := do
  if ← word "UNNEST" then return .form [e, ← parens g.any]
  expectSymbol "("
  let right ← match ← attempt g.query with
    | some q => pure [.query q]
    | none => g.anyList
  expectSymbol ")"
  return .form (e :: right)

/-- A test with a word for operator, which `NOT` may stand before. -/
def testForm (e : Expr) : Reader Expr := do
  let negated ← word "NOT"
  match ← oneOf ["REGEXP", "RLIKE"] with
  | some _ => return .form [e, ← g.expr 60]
  | none =>
    let null ← if (← read).inColumn then pure false else word "NULL"
    if negated && null then return .form [e]
    else if ← word "IN" then g.inForm e
    else if ← word "BETWEEN" then
      let low ← g.expr 60
      expectWord "AND"
      return .form [e, low, ← g.expr 60]
    else
      match ← oneOf ["LIKE", "ILIKE"] with
      | some _ =>
        let _ ← word "ANY"
        let pattern ← g.expr 60
        escape
        return .form [e, pattern]
      | none =>
        if ← words ["SIMILAR", "TO"] then
          let pattern ← g.expr 60
          escape
          return .form [e, pattern]
        else expected "IN or BETWEEN after NOT"

/-- An operator and its right side, after the left one. -/
def operation (strength : Nat) (e : Expr) : Reader Expr := do
  let t ← peek
  match t with
  | .symbol "::" =>
    let _ ← next
    let _ ← g.typeName
    return .form [e]
  | .symbol "!" =>
    let _ ← next
    return .form [e]
  | .symbol "[" => refuse "No infix parser for token LBracket"
  | .symbol s =>
    let _ ← next
    g.rightSide (isComparison s) strength e
  | .operator _ =>
    let _ ← next
    g.rightSide false strength e
  | _ =>
    match t.keyword with
    | "AND" | "OR" | "XOR" | "OVERLAPS" =>
      let _ ← next
      g.rightSide false strength e
    | "OPERATOR" =>
      let _ ← next
      parens operatorName
      g.rightSide false strength e
    | "IS" =>
      let _ ← next
      g.isForm e
    | "AT" =>
      expectWords ["AT", "TIME", "ZONE"]
      return .form [e, ← g.expr strength]
    | "NOT" | "IN" | "BETWEEN" | "LIKE" | "ILIKE" | "SIMILAR" | "REGEXP" | "RLIKE" => g.testForm e
    | "NOTNULL" =>
      let _ ← next
      return .form [e]
    | "MEMBER" =>
      expectWords ["MEMBER", "OF"]
      return .form [e, ← parens g.any]
    | "COLLATE" =>
      let _ ← next
      let _ ← name
      return .form [e]
    | k => refuse ("No infix parser for token " ++ k)

/-- Goes on with operators that bind more strongly than a number. -/
def operations (strength : Nat) : Nat → Expr → Reader Expr
  | 0, e => return e
  | fuel + 1, e => do
    let binding ← bindingAhead
    if binding ≤ strength || binding = 200 then return e
    else operations strength fuel (← g.operation binding e)

/-- An expression whose operators bind more strongly than a number. -/
def exprForm (strength : Nat) : Reader Expr := deeper do
  let fuel := (← read).rest.length + 1
  let e ← g.steps fuel (← g.operand)
  let e ←
    if !(← read).inColumn && (← word "COLLATE") then
      let _ ← name
      pure (.form [e])
    else pure e
  g.operations strength fuel e

end Grammar

end SqlGate.Sql
