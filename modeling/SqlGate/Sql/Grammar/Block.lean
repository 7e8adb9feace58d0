import SqlGate.Sql.Grammar.Expr

/-!
# Statements made of statements

Conditional statements, loops and the bodies of procedures and triggers are lists of statements,
each ended by a semicolon. These are the places where a semicolon does not end the whole.
-/

namespace SqlGate.Sql

namespace Grammar

open Reader

variable (g : Grammar)

/-- Statements with a semicolon after each, up to one of some words or the end of the text. -/
def statementsUpTo (final : List String) : Reader (List Statement) := many do
  match ← peek with
  | .eof => return none
  | t =>
    if t.keyword ≠ "" ∧ final.contains t.keyword then return none
    else
      let s ← g.statement
      expectSymbol ";"
      return some s

/-- As `statementsUpTo`, or statements between `BEGIN` and `END`. -/
def blockUpTo (final : List String) : Reader (List Statement) := do
  if ← word "BEGIN" then
    let body ← g.statementsUpTo final
    expectWord "END"
    return body
  else g.statementsUpTo final

/-- A condition and what is done under it. -/
def branch (final : List String) : Reader (Expr × List Statement) := do
  let condition ← g.any
  expectWord "THEN"
  return (condition, ← g.blockUpTo final)

/-- What is done otherwise, or nothing. -/
def otherwise : Reader (List Statement) := listAfter "ELSE" (g.blockUpTo ["END"])

/-- A statement of branches. -/
def branches (kind : String) (subject : List Expr) (bs : List (Expr × List Statement))
    (final : List Statement) : Statement :=
  .other kind (subject ++ bs.map (·.1)) [] (bs.flatMap (·.2) ++ final)

/-- The rest of a `CASE` statement. -/
def caseStatement : Reader Statement := do
  let subject ← if (← peekWord) = "WHEN" then pure [] else single g.any
  expectWord "WHEN"
  let bs ← separated (word "WHEN") (g.branch ["WHEN", "ELSE", "END"])
  let final ← g.otherwise
  expectWord "END"
  let _ ← word "CASE"
  return branches "CASE" subject bs final

/-- The rest of an `IF` statement. -/
def ifStatement : Reader Statement := do
  let first ← g.branch ["ELSE", "ELSEIF", "END"]
  let more ← many do
    if ← word "ELSEIF" then return some (← g.branch ["ELSEIF", "ELSE", "END"]) else return none
  let final ← g.otherwise
  expectWords ["END", "IF"]
  return branches "IF" [] (first :: more) final

/-- The rest of a `WHILE` statement. -/
def whileStatement : Reader Statement := do
  let condition ← g.any
  return .other "WHILE" [condition] [] (← g.blockUpTo ["END"])

end Grammar

end SqlGate.Sql
