import SqlGate.Json.Fault

/-!
# A place in a document under reading

A cursor is the text still to be read together with the place reached, counted in lines and in
bytes of the line. Reading steps forward over characters and reports faults either at the place
reached or at the character it is about to read.
-/

namespace SqlGate.Json

/-- The unread text and where it starts. -/
structure Cursor where
  rest : List Char
  place : Place
  deriving Repr

namespace Cursor

/-- The start of a text. -/
def ofString (s : String) : Cursor := ⟨s.toList, ⟨1, 0⟩⟩

/-- The place after a character. -/
def after (p : Place) (c : Char) : Place :=
  if c = '\n' then ⟨p.line + 1, 0⟩ else ⟨p.line, p.column + c.utf8Size⟩

/-- The next character. -/
def peek? (c : Cursor) : Option Char := c.rest.head?

/-- The cursor after the next character. -/
def advance (c : Cursor) : Cursor :=
  match c.rest with
  | [] => c
  | x :: r => ⟨r, after c.place x⟩

/-- A fault at the place reached. -/
def fail (f : SyntaxFault) (c : Cursor) : Fault := .syntaxAt f c.place

/-- The place of the first byte of the next character, counted as read. -/
def peekPlace (c : Cursor) : Place :=
  match c.rest with
  | [] => c.place
  | x :: _ => if x = '\n' then ⟨c.place.line + 1, 0⟩ else ⟨c.place.line, c.place.column + 1⟩

/-- A fault at the next character. -/
def failPeek (f : SyntaxFault) (c : Cursor) : Fault := .syntaxAt f c.peekPlace

/-- The blanks of JSON. -/
def isBlank (c : Char) : Bool := c = ' ' || c = '\n' || c = '\t' || c = '\r'

/-- The place after a run of characters. -/
def placeAfter (p : Place) (cs : List Char) : Place := cs.foldl after p

/-- The cursor after the blanks. -/
def skipBlanks (c : Cursor) : Cursor :=
  ⟨c.rest.dropWhile isBlank, placeAfter c.place (c.rest.takeWhile isBlank)⟩

/-- The cursor after the characters of an identifier, each of which must be next. -/
def word : List Char → Cursor → Except Fault Cursor
  | [], c => .ok c
  | w :: ws, c =>
    match c.peek? with
    | none => .error (c.fail .eofInValue)
    | some x => if x = w then word ws c.advance else .error (c.advance.fail .expectedIdent)

/-- The place `n` bytes on, a character that is only partly covered counting its covered bytes. -/
def placeAfterBytes : Nat → Place → List Char → Place
  | 0, p, _ => p
  | _, p, [] => p
  | n + 1, p, x :: r =>
    if x.utf8Size ≤ n + 1 then placeAfterBytes (n + 1 - x.utf8Size) (after p x) r
    else ⟨p.line, p.column + (n + 1)⟩
  termination_by n _ cs => (cs.length, n)

/-- How many bytes the unread text has. -/
def bytesLeft (c : Cursor) : Nat := c.rest.foldl (fun n x => n + x.utf8Size) 0

end Cursor

end SqlGate.Json
