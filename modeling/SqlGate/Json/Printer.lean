import SqlGate.Json.Value
import SqlGate.Text.Bytes

/-!
# Writing JSON

The compact form: no blanks, members in the order they are stored. In a string the quote, the
backslash and the control characters are escaped and nothing else is.
-/

namespace SqlGate.Json

/-- A character inside a string. -/
def escape (c : Char) : List Char :=
  if c = '"' then ['\\', '"']
  else if c = '\\' then ['\\', '\\']
  else if c.toNat = 8 then ['\\', 'b']
  else if c.toNat = 9 then ['\\', 't']
  else if c.toNat = 10 then ['\\', 'n']
  else if c.toNat = 12 then ['\\', 'f']
  else if c.toNat = 13 then ['\\', 'r']
  else if c.toNat < 32 then
    ['\\', 'u', '0', '0', Text.Hex.digit (c.toNat / 16), Text.Hex.digit (c.toNat % 16)]
  else [c]

/-- A string with its quotes. -/
def quote (s : String) : String :=
  "\"" ++ String.ofList (s.toList.flatMap escape) ++ "\""

/-- The text of a number. -/
def Num.text : Num → String
  | .int i => Text.decimal i
  | .real x => x.json

mutual

/-- The text of a value. -/
def text : Json → String
  | .null => "null"
  | .bool true => "true"
  | .bool false => "false"
  | .num n => n.text
  | .str s => quote s
  | .arr [] => "[]"
  | .arr (x :: xs) => "[" ++ text x ++ tailText xs ++ "]"
  | .obj [] => "\x7b\x7d"
  | .obj ((k, v) :: ms) => "\x7b" ++ quote k ++ ":" ++ text v ++ membersText ms ++ "\x7d"

/-- The items after the first, each with its comma. -/
def tailText : List Json → String
  | [] => ""
  | x :: xs => "," ++ text x ++ tailText xs

/-- The members after the first, each with its comma. -/
def membersText : List (String × Json) → String
  | [] => ""
  | (k, v) :: ms => "," ++ quote k ++ ":" ++ text v ++ membersText ms

end

end SqlGate.Json
