import SqlGate.Text.Basic

/-!
# Tokens of a statement text

A text is words, numbers, quoted texts, placeholders and symbols with blanks between them. A word
that is not quoted may act as a keyword whatever its letter case; `Token.keyword` gives the upper
case text by which the grammar knows it.
-/

namespace SqlGate.Sql

/-- Blanks, told apart because the data block of a copy command reads them. -/
inductive Blank where
  | space
  | tab
  | newline
  | comment
  deriving Repr, DecidableEq

/-- How a quoted text is introduced. -/
inductive Quoting where
  | plain
  | national
  | escaped
  | unicode
  | hex
  | bytes
  | dollar (tag : String)
  deriving Repr, DecidableEq

/-- A token. -/
inductive Token where
  | word (value : String) (quote : Option Char)
  | number (digits : String)
  | quoted (how : Quoting) (value : String)
  | placeholder (name : String)
  /-- An operator or a punctuation mark that the grammar knows. -/
  | symbol (text : String)
  /-- An operator of operator characters that the grammar does not know. -/
  | operator (text : String)
  | blank (b : Blank)
  | stray (c : Char)
  | eof
  deriving Repr, DecidableEq

/-- Upper case, for the letters of keywords and the two letters outside ASCII whose upper case is
one of those. -/
def upperChar (c : Char) : Char :=
  if c.toNat = 0x17F then 'S' else if c.toNat = 0x131 then 'I' else c.toUpper

/-- A text in upper case. -/
def upper (s : String) : String := s.map upperChar

/-- ASCII letters in upper case. -/
def asciiUpper (s : String) : String := s.map Char.toUpper

/-- ASCII letters in lower case. -/
def asciiLower (s : String) : String := s.map Char.toLower

/-- A word as it is written. -/
def wordText (value : String) : Option Char → String
  | none => value
  | some q => String.ofList [q] ++ value ++ String.ofList [q]

namespace Token

/-- The keyword that an unquoted word may be, and the empty text for every other token. -/
def keyword : Token → String
  | word value none => upper value
  | _ => ""

/-- A token as messages show it. -/
def text : Token → String
  | word value quote => wordText value quote
  | number digits => digits
  | quoted .plain s => "'" ++ s ++ "'"
  | quoted .national s => "N'" ++ s ++ "'"
  | quoted .escaped s => "E'" ++ s ++ "'"
  | quoted .unicode s => "U&'" ++ s ++ "'"
  | quoted .hex s => "X'" ++ s ++ "'"
  | quoted .bytes s => "B'" ++ s ++ "'"
  | quoted (.dollar tag) s => "$" ++ tag ++ "$" ++ s ++ "$" ++ tag ++ "$"
  | placeholder name => name
  | symbol s => s
  | operator s => s
  | blank .tab => "\t"
  | blank .newline => "\n"
  | blank _ => " "
  | stray c => String.ofList [c]
  | eof => "EOF"

/-- Whether the grammar passes over a token. -/
def isBlank : Token → Bool
  | blank _ => true
  | _ => false

end Token

/-- A place in a statement text, lines and columns counted from one. -/
structure Place where
  line : Nat
  column : Nat
  deriving Repr, DecidableEq

/-- A place at the end of a message; the end of the text has none. -/
def placeText : Option Place → String
  | none => ""
  | some p => s!" at Line: {p.line}, Column: {p.column}"

/-- A token with the place where it starts. -/
structure Located where
  token : Token
  place : Place
  deriving Repr, DecidableEq

end SqlGate.Sql
