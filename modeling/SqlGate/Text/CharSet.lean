import SqlGate.Text.Bytes

/-!
# Sets of characters

A set is kept as ranges of code points that ascend and do not touch, so that equal sets are equal
and a look-up halves. `ofRanges` puts any ranges into this form; all other operations go through it
or through `complement`.
-/

namespace SqlGate.Text

/-- A set of characters. -/
structure CharSet where
  ranges : Array (Nat × Nat)
  deriving Repr, DecidableEq

namespace CharSet

/-- Ranges in ascending order, those that overlap or touch made one. -/
def join : List (Nat × Nat) → List (Nat × Nat)
  | [] => []
  | [r] => [r]
  | r :: s :: rs =>
    if s.1 ≤ r.2 + 1 then join ((r.1, max r.2 s.2) :: rs) else r :: join (s :: rs)
termination_by rs => rs.length

/-- The set of all characters in some ranges. -/
def ofRanges (rs : List (Nat × Nat)) : CharSet :=
  ⟨(join ((rs.filter fun r => r.1 ≤ r.2).mergeSort fun r s => r.1 ≤ s.1)).toArray⟩

/-- No character. -/
def empty : CharSet := ⟨#[]⟩

/-- The code point of the last character. -/
def last : Nat := 0x10FFFF

/-- Every character. -/
def all : CharSet := ⟨#[(0, last)]⟩

/-- One character. -/
def single (c : Char) : CharSet := ⟨#[(c.toNat, c.toNat)]⟩

/-- Whether a code point is in one of the ranges from the `lo`th to the one before the `hi`th. -/
def hasIn (rs : Array (Nat × Nat)) (n lo hi : Nat) : Bool :=
  if _h : lo < hi then
    let mid := (lo + hi) / 2
    match rs[mid]? with
    | none => false
    | some (a, b) =>
      if n < a then hasIn rs n lo mid else if b < n then hasIn rs n (mid + 1) hi else true
  else false
termination_by hi - lo

/-- Whether a code point is in a set. -/
def has (s : CharSet) (n : Nat) : Bool := hasIn s.ranges n 0 s.ranges.size

/-- Whether a character is in a set. -/
def contains (s : CharSet) (c : Char) : Bool := s.has c.toNat

/-- All that is in one of two sets. -/
def union (s t : CharSet) : CharSet := ofRanges (s.ranges.toList ++ t.ranges.toList)

/-- The ranges between some ranges, from `n` up to `top`. -/
def gaps (top : Nat) : Nat → List (Nat × Nat) → List (Nat × Nat)
  | n, [] => if n ≤ top then [(n, top)] else []
  | n, (a, b) :: rs => if n < a then (n, a - 1) :: gaps top (b + 1) rs else gaps top (b + 1) rs

/-- What is not in a set, up to a code point. -/
def complement (top : Nat) (s : CharSet) : CharSet := ⟨(gaps top 0 s.ranges.toList).toArray⟩

/-- What is in both of two sets. -/
def inter (s t : CharSet) : CharSet :=
  complement last ((complement last s).union (complement last t))

/-- What is in the first set and not in the second. -/
def diff (s t : CharSet) : CharSet := s.inter (complement last t)

/-- What is in one of two sets only. -/
def symmDiff (s t : CharSet) : CharSet := (s.diff t).union (t.diff s)

/-- Whether all of a set is below a code point. -/
def isBelow (n : Nat) (s : CharSet) : Bool := s.ranges.all fun r => r.2 < n

/-- The value of hexadecimal digits. -/
def hexOf? (cs : List Char) : Option Nat :=
  if cs.isEmpty then none
  else cs.foldlM (fun n c => (Hex.digit? c).map (n * 16 + ·)) 0

/-- The range that is written as one code point or as two with a hyphen between. -/
def rangeOf? (cs : List Char) : Option (Nat × Nat) := do
  let a ← hexOf? (cs.takeWhile (· ≠ '-'))
  match cs.dropWhile (· ≠ '-') with
  | [] => some (a, a)
  | _ :: r => return (a, ← hexOf? r)

/-- The ranges of a text of words. -/
def rangesOf (s : String) : List (Nat × Nat) := (s.splitOn " ").filterMap fun w => rangeOf? w.toList

end CharSet

end SqlGate.Text
