import SqlGate.Text.CharSet

/-!
# Search patterns

A pattern is a tree. What a flag changes — the case of letters, what the dot is, where lines end —
has gone into the sets and the tests of the tree by the time it is one.
-/

namespace SqlGate.Pattern

open SqlGate.Text

/-- A test between two characters. Words are made of the characters of a set. -/
inductive Look where
  | textStart
  | textEnd
  /-- The start of a line; with `crlf`, carriage returns end lines too. -/
  | lineStart (crlf : Bool)
  | lineEnd (crlf : Bool)
  | wordBoundary (word : CharSet)
  | noWordBoundary (word : CharSet)
  | wordStart (word : CharSet)
  | wordEnd (word : CharSet)
  /-- No word goes on from before. -/
  | wordStartHalf (word : CharSet)
  /-- No word goes on after. -/
  | wordEndHalf (word : CharSet)
  deriving Repr

/-- Whether a test holds between two characters, which are missing at the ends of the text. -/
def Look.holds (before after : Option Char) : Look → Bool
  | textStart => before.isNone
  | textEnd => after.isNone
  | lineStart false => before.isNone || before = some '\n'
  | lineEnd false => after.isNone || after = some '\n'
  | lineStart true =>
    before.isNone || before = some '\n' || (before = some '\r' && after ≠ some '\n')
  | lineEnd true =>
    after.isNone || after = some '\r' || (after = some '\n' && before ≠ some '\r')
  | wordBoundary w => before.any w.contains != after.any w.contains
  | noWordBoundary w => before.any w.contains == after.any w.contains
  | wordStart w => !before.any w.contains && after.any w.contains
  | wordEnd w => before.any w.contains && !after.any w.contains
  | wordStartHalf w => !before.any w.contains
  | wordEndHalf w => !after.any w.contains

/-- The tree of a pattern. -/
inductive Node where
  | empty
  | set (s : CharSet)
  | look (l : Look)
  /-- A group, which is recorded if it has a number. -/
  | group (number : Option Nat) (n : Node)
  /-- At least `least` and at most `most` times; greedy ones would rather go on than stop. -/
  | loop (least : Nat) (most : Option Nat) (isGreedy : Bool) (n : Node)
  | seq (ns : List Node)
  /-- The first that leads to a match. -/
  | choice (ns : List Node)
  deriving Repr

namespace Node

mutual

/-- How deep a tree nests. -/
def depth : Node → Nat
  | empty => 0
  | set _ => 0
  | look _ => 0
  | group _ n => n.depth + 1
  | loop _ _ _ n => n.depth + 1
  | seq ns => depthOfAll ns + 1
  | choice ns => depthOfAll ns + 1

/-- How deep the deepest of some trees nests. -/
def depthOfAll : List Node → Nat
  | [] => 0
  | n :: ns => max n.depth (depthOfAll ns)

end

mutual

/-- Whether a tree matches the empty text somewhere. -/
def isNullable : Node → Bool
  | empty => true
  | set _ => false
  | look _ => true
  | group _ n => n.isNullable
  | loop least _ _ n => least = 0 || n.isNullable
  | seq ns => allNullable ns
  | choice ns => someNullable ns

/-- Whether all of some trees match the empty text. -/
def allNullable : List Node → Bool
  | [] => true
  | n :: ns => n.isNullable && allNullable ns

/-- Whether one of some trees matches the empty text. -/
def someNullable : List Node → Bool
  | [] => false
  | n :: ns => n.isNullable || someNullable ns

end

/-- A sequence; one of one tree is that tree. -/
def ofSeq : List Node → Node
  | [] => empty
  | [n] => n
  | ns => seq ns

/-- A choice; one of one tree is that tree. -/
def ofChoice : List Node → Node
  | [n] => n
  | ns => choice ns

end Node

end SqlGate.Pattern
