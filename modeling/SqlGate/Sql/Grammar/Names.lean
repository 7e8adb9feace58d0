import SqlGate.Sql.Grammar.Reading
import SqlGate.Sql.Grammar.Words

/-!
# Names and literals

The smallest parts of the grammar: identifiers, dotted names, literal values and texts, whole
numbers, and names given to expressions and relations.
-/

namespace SqlGate.Sql

namespace Reader

/-- The name that a token is, if it is one. -/
def identOf? : Token → Option Ident
  | .word value quote => some ⟨value, quote⟩
  | .quoted .plain s => some ⟨s, some '\''⟩
  | _ => none

/-- An identifier: a word, or a text in single quotes. -/
def ident : Reader Ident := do
  match identOf? (← peek) with
  | some i =>
    let _ ← next
    return i
  | none => expected "identifier"

/-- A word as an identifier, if one comes next. -/
def ident? : Reader (Option Ident) := do
  match ← peek with
  | .word .. => return some (← ident)
  | _ => return none

/-- A dotted name. -/
def name : Reader Name := separated (symbol ".") ident

/-- A dotted name in which a star stands for any part. -/
def nameOrStar : Reader Name :=
  separated (symbol ".") do if ← symbol "*" then return ⟨"*", none⟩ else ident

/-- Names in parentheses. -/
def names : Reader (List Ident) := parens (commas ident)

/-- Names in parentheses, or nothing. -/
def names? : Reader (List Ident) := do if ← symbolAhead "(" then names else return []

/-- A text: in quotes, or a bare word that is no keyword. -/
def text : Reader String := do
  match ← peek with
  | .word value quote =>
    if (Token.word value quote).isKeyword then expected "literal string"
    else
      let _ ← next
      return value
  | .quoted .plain s => let _ ← next; return s
  | .quoted .escaped s => let _ ← next; return s
  | .quoted .unicode s => let _ ← next; return s
  | _ => expected "literal string"

/-- A text of one character. -/
def character : Reader Unit := do
  let s ← text
  if s.length = 1 then pure () else refuse ("Expect a char, found " ++ s)

/-- The digits of a whole number below two to the 64th. -/
def isCount (digits : String) : Bool :=
  digits ≠ "" && digits.all Char.isDigit &&
    digits.toList.foldl (fun n c => n * 10 + (c.toNat - 48)) 0 < Nat.pow 2 64

/-- A whole number without sign. -/
def count : Reader Unit := do
  match ← peek with
  | .number digits =>
    let _ ← next
    if isCount digits then pure ()
    else refuse ("Could not parse '" ++ digits ++ "' as u64")
  | _ => expected "literal int"

/-- A whole number that may have a sign. -/
def signedCount : Reader Unit := do
  if ← symbol "-" then count
  else
    let _ ← symbol "+"
    count

/-- A literal value. -/
def value : Reader Token := do
  let t ← peek
  match t with
  | .word _ none =>
    if ["TRUE", "FALSE", "NULL"].contains t.keyword then next else expected "a concrete value"
  | .word .. | .number _ | .quoted .. | .placeholder _ => next
  | .symbol s =>
    if s = ":" ∨ s = "@" then
      let _ ← next
      match ← nextOrBlank with
      | some (.word v _) => return .placeholder (s ++ v)
      | some (.number v) => return .placeholder (s ++ v)
      | _ => expected "placeholder"
    else expected "a value"
  | _ => expected "a value"

/-- A literal value that is a number. -/
def number : Reader Unit := do
  match ← value with
  | .number _ | .placeholder _ => pure ()
  | _ => refuse "literal number"

/-- A number that may have a sign. -/
def signedNumber : Reader Unit := do
  if ← symbol "-" then number
  else
    let _ ← symbol "+"
    number

/-- A name that an expression or relation may have, with or without `AS`. The words of `reserved`
name nothing unless `AS` stands before them. -/
def alias? (reserved : List String) : Reader (Option Ident) := do
  let explicit ← word "AS"
  match ← peek with
  | .word v q =>
    if explicit || !(reserved.contains (Token.word v q).keyword) then
      let _ ← next
      return some ⟨v, q⟩
    else return none
  | .quoted .plain s =>
    let _ ← next
    return some ⟨s, some '\''⟩
  | _ => if explicit then expected "an identifier after AS" else return none

/-- `CASCADE` or `RESTRICT`, or neither. -/
def dropBehavior : Reader Unit := do let _ ← oneOf ["CASCADE", "RESTRICT"]

/-- `IF EXISTS`, or nothing. -/
def ifExists : Reader Unit := do let _ ← words ["IF", "EXISTS"]

/-- `IF NOT EXISTS`, or nothing. -/
def ifNotExists : Reader Bool := words ["IF", "NOT", "EXISTS"]

/-- The owner of something. -/
def owner : Reader Unit := do
  match ← oneOf ["CURRENT_USER", "CURRENT_ROLE", "SESSION_USER"] with
  | some _ => pure ()
  | none => let _ ← ident

/-- The name of an operator: any tokens with points between them. -/
def operatorName : Reader Unit := do let _ ← separated (symbol ".") next

/-- A place where a cluster is named. -/
def onCluster : Reader Unit := do if ← words ["ON", "CLUSTER"] then let _ ← ident

end Reader

end SqlGate.Sql
