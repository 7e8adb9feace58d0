import SqlGate.Pattern.Node
import SqlGate.Text.Property
import SqlGate.Text.Basic

/-!
# The unread part of a pattern

Flags are set in the middle of a pattern and hold to the end of the group they stand in; groups get
numbers in the order of their opening brackets, and no two have one name. All of this goes along
with the unread characters.
-/

namespace SqlGate.Pattern

open SqlGate.Text

/-- What flags can be set to. -/
structure Flags where
  ignoreCase : Bool
  multiLine : Bool
  dotAll : Bool
  swapGreed : Bool
  unicode : Bool
  crlf : Bool
  /-- Blanks and comments mean nothing. -/
  spaced : Bool
  deriving Repr, DecidableEq

/-- The flags that a pattern starts with. -/
def Flags.initial : Flags := ⟨false, false, false, false, true, false, false⟩

/-- The flags with one of them set, by its letter. -/
def Flags.set? (f : Flags) (on : Bool) : Char → Option Flags
  | 'i' => some { f with ignoreCase := on }
  | 'm' => some { f with multiLine := on }
  | 's' => some { f with dotAll := on }
  | 'U' => some { f with swapGreed := on }
  | 'u' => some { f with unicode := on }
  | 'R' => some { f with crlf := on }
  | 'x' => some { f with spaced := on }
  | _ => none

/-- The set of characters that words are made of. -/
def Flags.word (f : Flags) : CharSet :=
  if f.unicode then Property.wordCharacters
  else .ofRanges [(0x30, 0x39), (0x41, 0x5A), (0x5F, 0x5F), (0x61, 0x7A)]

/-- The last code point of a negated set. -/
def Flags.top (f : Flags) : Nat := if f.unicode then CharSet.last else 0xFF

/-- A set with the letter cases that the flags ask for. -/
def Flags.fold (f : Flags) (s : CharSet) : CharSet :=
  if !f.ignoreCase then s else if f.unicode then s.folded else s.asciiFolded

/-- A set as the flags allow it: without Unicode, of ASCII only. -/
def Flags.admit? (f : Flags) (s : CharSet) : Option CharSet :=
  if f.unicode || s.isBelow 0x80 then some s else none

/-- The unread characters of a pattern with what has been learned from the others. -/
structure Unread where
  rest : List Char
  flags : Flags
  /-- How many groups have been numbered. -/
  groups : Nat
  names : List (String × Nat)

/-- Reads a part of a pattern. -/
abbrev Reader (α : Type) := StateT Unread Option α

namespace Reader

/-- The next character. -/
def peek? : Reader (Option Char) := do return (← get).rest.head?

/-- The character after the next one. -/
def peekSecond? : Reader (Option Char) := do return ((← get).rest.drop 1).head?

/-- Takes characters away. -/
def drop (n : Nat) : Reader Unit := modify fun u => { u with rest := u.rest.drop n }

/-- Takes the next character, which must exist. -/
def next : Reader Char := do
  match (← get).rest with
  | [] => failure
  | c :: r => do
    modify fun u => { u with rest := r }
    return c

/-- Takes a text away, if it comes next. -/
def tryText (s : String) : Reader Bool := do
  if s.toList.isPrefixOf (← get).rest then do
    drop s.toList.length
    return true
  else return false

/-- Takes a character that must come next. -/
def expect (c : Char) : Reader Unit := do if (← next) = c then return () else failure

/-- Characters without the blanks and comments in front. -/
def skipSpace : List Char → Bool → List Char
  | [], _ => []
  | c :: r, inComment =>
    if inComment then skipSpace r (c ≠ '\n')
    else if c = '#' then skipSpace r true
    else if isBlank c then skipSpace r false
    else c :: r

/-- Passes over blanks and comments where they mean nothing. -/
def skip : Reader Unit := modify fun u =>
  if u.flags.spaced then { u with rest := skipSpace u.rest false } else u

/-- Takes the next character and passes over what means nothing after it. -/
def nextSkip : Reader Char := do
  let c ← next
  skip
  return c

/-- Takes the characters up to one, which is taken too. -/
def upTo (stop : Char) : Reader String := do
  let cs := (← get).rest.takeWhile (· ≠ stop)
  drop cs.length
  expect stop
  return String.ofList cs

/-- Reads with a number that bounds how far reading goes: there are no more parts than unread
characters and two. -/
def bounded (read : Nat → Reader α) : Reader α := do read (2 * (← get).rest.length + 2)

end Reader

end SqlGate.Pattern
