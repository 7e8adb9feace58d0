import SqlGate.Json.Value
import SqlGate.Json.Printer

/-!
# Why a document is refused

A syntax fault says what the text lacks; a mismatch says which shape was wanted and what stood
there instead. Both are causes; `message` gives the wording, and a fault in a text carries the
place where reading stopped.
-/

namespace SqlGate.Json

/-- A fault in the text of a document. -/
inductive SyntaxFault where
  | eofInList
  | eofInObject
  | eofInString
  | eofInValue
  | expectedColon
  | expectedListEnd
  | expectedObjectEnd
  | expectedIdent
  | expectedValue
  | invalidEscape
  | invalidNumber
  | numberOutOfRange
  | controlCharacter
  | keyNotString
  | loneSurrogate
  | trailingComma
  | trailingCharacters
  | hexEscapeEnd
  /-- A string holds bytes that are no text. -/
  | invalidCodePoint
  | tooDeep
  deriving Repr, DecidableEq

/-- The wording of a syntax fault. -/
def SyntaxFault.message : SyntaxFault → String
  | eofInList => "EOF while parsing a list"
  | eofInObject => "EOF while parsing an object"
  | eofInString => "EOF while parsing a string"
  | eofInValue => "EOF while parsing a value"
  | expectedColon => "expected \x60:\x60"
  | expectedListEnd => "expected \x60,\x60 or \x60]\x60"
  | expectedObjectEnd => "expected \x60,\x60 or \x60\x7d\x60"
  | expectedIdent => "expected ident"
  | expectedValue => "expected value"
  | invalidEscape => "invalid escape"
  | invalidNumber => "invalid number"
  | numberOutOfRange => "number out of range"
  | controlCharacter =>
    "control character (\\u0000-\\u001F) found while parsing a string"
  | keyNotString => "key must be a string"
  | loneSurrogate => "lone leading surrogate in hex escape"
  | trailingComma => "trailing comma"
  | trailingCharacters => "trailing characters"
  | hexEscapeEnd => "unexpected end of hex escape"
  | invalidCodePoint => "invalid unicode code point"
  | tooDeep => "recursion limit exceeded"

/-- What stood where something else was wanted. -/
inductive Found where
  | null
  | bool (b : Bool)
  | int (i : Int)
  | real (x : Number.Double)
  | str (s : String)
  | seq
  | map
  deriving Repr, DecidableEq

/-- A text as it is shown between quotes in a message: quotes, backslashes and control characters
are escaped. -/
def shown (s : String) : String :=
  let one (c : Char) : List Char :=
    if c = '"' then ['\\', '"']
    else if c = '\\' then ['\\', '\\']
    else if c = '\n' then ['\\', 'n']
    else if c = '\r' then ['\\', 'r']
    else if c = '\t' then ['\\', 't']
    else if c.toNat = 0 then ['\\', '0']
    else if c.toNat < 32 ∨ c.toNat = 127 then
      "\\u\x7b".toList ++ Nat.toDigits 16 c.toNat ++ ['\x7d']
    else [c]
  "\"" ++ String.ofList (s.toList.flatMap one) ++ "\""

/-- The wording of a find. -/
def Found.message : Found → String
  | null => "null"
  | bool b => "boolean \x60" ++ (if b then "true" else "false") ++ "\x60"
  | int i => "integer \x60" ++ Text.decimal i ++ "\x60"
  | real x => "floating point \x60" ++ x.json ++ "\x60"
  | str s => "string " ++ shown s
  | seq => "sequence"
  | map => "map"

/-- What a value is, at its outermost. -/
def found : Json → Found
  | .null => .null
  | .bool b => .bool b
  | .num (.int i) => .int i
  | .num (.real x) => .real x
  | .str s => .str s
  | .arr _ => .seq
  | .obj _ => .map

/-- A document that does not have the shape its reader wants. -/
inductive Mismatch where
  | invalidType (found : Found) (expected : String)
  | invalidValue (found : Found) (expected : String)
  | invalidLength (length : Nat) (expected : String)
  | missingField (name : String)
  | duplicateField (name : String)
  | unknownField (name : String) (known : List String)
  | unknownVariant (name : String) (known : List String)
  /-- The reader of a text refused it. -/
  | refused (reason : String)
  deriving Repr, DecidableEq

/-- A name between back quotes. -/
def ticked (s : String) : String := "\x60" ++ s ++ "\x60"

/-- A choice of names. -/
def oneOf : List String → String
  | [a] => ticked a
  | [a, b] => ticked a ++ " or " ++ ticked b
  | names => "one of " ++ ", ".intercalate (names.map ticked)

/-- The wording of a mismatch. -/
def Mismatch.message : Mismatch → String
  | invalidType found expected => "invalid type: " ++ found.message ++ ", expected " ++ expected
  | invalidValue found expected => "invalid value: " ++ found.message ++ ", expected " ++ expected
  | invalidLength n expected => "invalid length " ++ Text.decimal n ++ ", expected " ++ expected
  | missingField name => "missing field " ++ ticked name
  | duplicateField name => "duplicate field " ++ ticked name
  | unknownField name [] => "unknown field " ++ ticked name ++ ", there are no fields"
  | unknownField name known => "unknown field " ++ ticked name ++ ", expected " ++ oneOf known
  | unknownVariant name known => "unknown variant " ++ ticked name ++ ", expected " ++ oneOf known
  | refused reason => reason

/-- A place in a text: the line from one, the bytes before it on the line. -/
structure Place where
  line : Nat
  column : Nat
  deriving Repr, DecidableEq

/-- Why a text could not be read as what was wanted. -/
inductive Fault where
  | syntaxAt (fault : SyntaxFault) (place : Place)
  | mismatchAt (mismatch : Mismatch) (place : Place)
  deriving Repr, DecidableEq

/-- The wording of a fault with its place. -/
def Fault.message : Fault → String
  | syntaxAt f p => f.message ++ s!" at line {p.line} column {p.column}"
  | mismatchAt m p => m.message ++ s!" at line {p.line} column {p.column}"

end SqlGate.Json
