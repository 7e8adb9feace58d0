import SqlGate.Pattern.Escape

/-!
# Bracketed sets

A set in brackets is the union of what stands in it: characters, ranges, escapes, names such as
`[:alpha:]`, and further sets. Between unions stand the operations `&&`, `--` and `~~`, which group
to the left.
-/

namespace SqlGate.Pattern

open SqlGate.Text Reader

/-- An operation between two unions. -/
inductive SetOp where
  | inter
  | diff
  | symmDiff

/-- The operation of a mark, which stands twice. -/
def SetOp.ofMark? : Char → Option SetOp
  | '&' => some inter
  | '-' => some diff
  | '~' => some symmDiff
  | _ => none

/-- What an operation makes of two sets. -/
def SetOp.apply : SetOp → CharSet → CharSet → CharSet
  | inter => CharSet.inter
  | diff => CharSet.diff
  | symmDiff => CharSet.symmDiff

/-- What stands before an operation, combined with what stands after it. -/
def combine (f : Flags) : Option (SetOp × CharSet) → CharSet → CharSet
  | none, s => s
  | some (op, l), s => op.apply (f.fold l) (f.fold s)

/-- The sets that have a name of their own in brackets. -/
def posixClasses : List (String × List (Nat × Nat)) :=
  let digit := [(0x30, 0x39)]
  let upper := [(0x41, 0x5A)]
  let lower := [(0x61, 0x7A)]
  [("alnum", digit ++ upper ++ lower), ("alpha", upper ++ lower), ("ascii", [(0, 0x7F)]),
   ("blank", [(9, 9), (0x20, 0x20)]), ("cntrl", [(0, 0x1F), (0x7F, 0x7F)]), ("digit", digit),
   ("graph", [(0x21, 0x7E)]), ("lower", lower), ("print", [(0x20, 0x7E)]),
   ("punct", [(0x21, 0x2F), (0x3A, 0x40), (0x5B, 0x60), (0x7B, 0x7E)]),
   ("space", [(9, 13), (0x20, 0x20)]), ("upper", upper),
   ("word", digit ++ upper ++ [(0x5F, 0x5F)] ++ lower),
   ("xdigit", digit ++ [(0x41, 0x46), (0x61, 0x66)])]

/-- The named set that comes next in brackets, if one does. -/
def posixClass? (f : Flags) : List Char → Option (Bool × CharSet × List Char)
  | '[' :: ':' :: r =>
    let isNegated := r.head? = some '^'
    let r := if isNegated then r.drop 1 else r
    let name := r.takeWhile (· ≠ ':')
    match r.drop name.length, posixClasses.lookup (String.ofList name) with
    | ':' :: ']' :: rest, some rs => some (isNegated, f.fold (.ofRanges rs), rest)
    | _, _ => none
  | _ => none

/-- The code point or byte of a character in brackets. -/
def codeOf (f : Flags) (c : Char) (isByte : Bool) : Reader Nat :=
  if f.unicode || c.toNat < 0x80 || isByte then pure c.toNat else failure

/-- A character or an escape in brackets. -/
def classAtom : Reader Escape := do
  if (← peek?) = some '\\' then escape else return .char (← next) false

/-- A character, an escape or a range in brackets. -/
def classRange : Reader CharSet := do
  let f := (← get).flags
  let first ← classAtom
  skip
  let u ← get
  let afterHyphen := (if f.spaced then skipSpace (u.rest.drop 1) false else u.rest.drop 1).head?
  if u.rest.head? ≠ some '-' || afterHyphen = some ']' || afterHyphen = some '-' then
    match first with
    | .char c isByte => do
      let n ← codeOf f c isByte
      return .ofRanges [(n, n)]
    | .set s => return s
    | .look _ => failure
  else
    let _ ← nextSkip
    match first, ← classAtom with
    | .char a x, .char b y => do
      if b < a then failure
      return .ofRanges [(← codeOf f a x, ← codeOf f b y)]
    | _, _ => failure

/-- The hyphens at the start of a set, which stand for themselves. -/
def leadingHyphens : Nat → Reader Bool
  | 0 => return false
  | n + 1 => do
    if (← peek?) = some '-' then do
      let _ ← nextSkip
      let _ ← leadingHyphens n
      return true
    else return false

mutual

/-- A set in brackets, the opening one of which is next. -/
def bracket : Nat → Reader CharSet
  | 0 => failure
  | fuel + 1 => do
    let f := (← get).flags
    let _ ← nextSkip
    let isNegated := (← peek?) = some '^'
    if isNegated then do let _ ← nextSkip
    let hyphens ← leadingHyphens fuel
    let start := if hyphens then CharSet.single '-' else .empty
    if !hyphens && (← peek?) = some ']' then do
      let _ ← nextSkip
      let s ← classItems fuel none (.single ']')
      classOf f isNegated (f.fold s)
    else
      let s ← classItems fuel none start
      classOf f isNegated (f.fold s)

/-- The items of a set and its closing bracket, after an operation and a union. -/
def classItems : Nat → Option (SetOp × CharSet) → CharSet → Reader CharSet
  | 0, _, _ => failure
  | fuel + 1, left, union => do
    skip
    let u ← get
    let f := u.flags
    match u.rest with
    | [] => failure
    | '[' :: _ =>
      match posixClass? f u.rest with
      | some (isNegated, s, rest) => do
        set { u with rest }
        classItems fuel left (union.union (← classOf f isNegated s))
      | none => do
        let s ← bracket fuel
        classItems fuel left (union.union s)
    | ']' :: _ => do
      let _ ← next
      return combine f left union
    | c :: r =>
      match SetOp.ofMark? c with
      | some op =>
        if r.head? = some c then do
          drop 2
          classItems fuel (some (op, combine f left union)) .empty
        else do classItems fuel left (union.union (← classRange))
      | none => do classItems fuel left (union.union (← classRange))

end

end SqlGate.Pattern
