import SqlGate.Pattern.Reader
import SqlGate.Pattern.Search
import SqlGate.Text.Basic

/-!
# Patterns

## Replacements

The text that takes the place of a match may refer to the groups of the pattern: `$name`, which
takes as many letters, digits and underscores as there are, or `$` with a name in braces. Two dollar
signs stand for one. A name of digits is the number of a group.
-/

namespace SqlGate.Pattern

/-- A part of a replacement. -/
inductive Part where
  | char (c : Char)
  | number (n : Nat)
  | name (s : String)
  deriving Repr, DecidableEq

/-- The characters of names that stand without braces. -/
def isNameChar (c : Char) : Bool := c.isAlphanum || c = '_'

/-- The reference of a name; numbers fit into 64 bits and may have a sign. -/
def Part.ofName (cs : List Char) : Part :=
  let ds := if cs.head? = some '+' then cs.drop 1 else cs
  let n := ds.foldl (fun n c => n * 10 + (c.toNat - 48)) 0
  if !ds.isEmpty && ds.all Char.isDigit && n < Nat.pow 2 64 then .number n
  else .name (String.ofList cs)

/-- The parts of a replacement. -/
def Part.ofChars : List Char → List Part
  | [] => []
  | '$' :: '$' :: r => .char '$' :: ofChars r
  | '$' :: '\x7b' :: r =>
    let name := r.takeWhile (· ≠ '\x7d')
    if name.length < r.length then .ofName name :: ofChars (r.drop (name.length + 1))
    else .char '$' :: .char '\x7b' :: ofChars r
  | '$' :: r =>
    let name := r.takeWhile isNameChar
    if name.isEmpty then .char '$' :: ofChars r
    else .ofName name :: ofChars (r.drop name.length)
  | c :: r => .char c :: ofChars r
termination_by cs => cs.length
decreasing_by all_goals simp only [List.length_drop, List.length_cons]; omega

end SqlGate.Pattern

/-!
## Search patterns

A `Pattern` is a text that has been read and made ready to search. `isMatch` says whether it matches
somewhere in a text; `replaceAll` replaces its matches, which do not overlap, from left to right. An
empty match does not count where the match before it ended.
-/

namespace SqlGate

/-- A pattern that is ready to search. -/
structure Pattern where
  machine : Pattern.Machine
  names : List (String × Nat)

namespace Pattern

/-- The pattern of a text, if it is one. -/
def ofString? (s : String) : Option Pattern := do
  let (n, u) ← Node.ofString? s
  return ⟨← Machine.ofNode? n u.groups, u.names⟩

/-- Whether a text is a pattern. -/
def isValid (s : String) : Bool := (ofString? s).isSome

/-- Whether a pattern matches somewhere in a text. -/
def isMatch (p : Pattern) (s : String) : Bool := (p.machine.find? s.toList none 0).isSome

/-- A match: where it starts and ends, and the places of all groups. -/
structure Match where
  start : Nat
  stop : Nat
  slots : Slots

/-- The first match in the unread characters of a text. -/
def findFrom (p : Pattern) (rest : List Char) (before : Option Char) (index : Nat) :
    Option Match := do
  let slots ← p.machine.find? rest before index
  return ⟨← slots[0]? >>= id, ← slots[1]? >>= id, slots⟩

/-- The matches in the unread characters of a text; `last` is where the match before them ended. -/
def matchesFrom (p : Pattern) : Nat → List Char → Option Char → Nat → Option Nat → List Match
  | 0, _, _, _, _ => []
  | fuel + 1, rest, before, index, last =>
    match p.findFrom rest before index with
    | none => []
    | some m =>
      if m.start = m.stop && last = some m.stop then
        match rest with
        | [] => []
        | c :: r => matchesFrom p fuel r (some c) (index + 1) last
      else
        let gone := rest.take (m.stop - index)
        m :: matchesFrom p fuel (rest.drop gone.length) (gone.getLast? <|> before) m.stop
          (some m.stop)

/-- The matches in a text, from left to right. -/
def matchesOf (p : Pattern) (s : List Char) : List Match :=
  p.matchesFrom (2 * s.length + 2) s none 0 none

/-- The characters of a text between two places. -/
def slice (text : Array Char) (start stop : Nat) : List Char := (text.extract start stop).toList

/-- The characters that a group matched; none if it took no part. -/
def groupText (text : Array Char) (m : Match) (n : Nat) : List Char :=
  match m.slots[2 * n]?, m.slots[2 * n + 1]? with
  | some (some a), some (some b) => slice text a b
  | _, _ => []

/-- What stands in the place of a match. -/
def expand (p : Pattern) (text : Array Char) (m : Match) (parts : List Part) : List Char :=
  parts.flatMap fun
    | .char c => [c]
    | .number n => groupText text m n
    | .name s =>
      match p.names.lookup s with
      | some n => groupText text m n
      | none => []

/-- A text from a place on, with the matches that start there replaced. -/
def replaceFrom (p : Pattern) (text : Array Char) (parts : List Part) : Nat → List Match → List Char
  | index, [] => slice text index text.size
  | index, m :: ms =>
    slice text index m.start ++ p.expand text m parts ++ replaceFrom p text parts m.stop ms

/-- A text with some of its matches replaced. -/
def replaceMatches (p : Pattern) (s replacement : String) (ms : List Match) : String :=
  String.ofList (p.replaceFrom s.toList.toArray (Part.ofChars replacement.toList) 0 ms)

/-- A text with all matches replaced. -/
def replaceAll (p : Pattern) (s replacement : String) : String :=
  p.replaceMatches s replacement (p.matchesOf s.toList)

/-- A text with all matches replaced, if there are any. -/
def replaced? (p : Pattern) (s replacement : String) : Option String :=
  match p.matchesOf s.toList with
  | [] => none
  | m :: ms => some (p.replaceMatches s replacement (m :: ms))

theorem replaceMatches_nil (p : Pattern) (s replacement : String) :
    p.replaceMatches s replacement [] = s := by
  simp [replaceMatches, replaceFrom, slice]

/-- A text without matches stays as it is. -/
theorem getD_replaced? (p : Pattern) (s replacement : String) :
    (p.replaced? s replacement).getD s = p.replaceAll s replacement := by
  unfold replaced? replaceAll
  cases p.matchesOf s.toList with
  | nil => exact (p.replaceMatches_nil s replacement).symm
  | cons m ms => rfl

end Pattern

end SqlGate
