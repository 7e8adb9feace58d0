import SqlGate.Pattern.Class

/-!
# Reading patterns

A pattern is a choice of sequences of repeated parts. `Node.ofString?` gives the tree of a text with
the names of its groups; a text that is no pattern has none, and neither has one that nests deeper
than the limit.
-/

namespace SqlGate.Pattern

open SqlGate.Text Reader

/-- How deep patterns may nest. -/
def maxDepth : Nat := 250

/-- A single character as the flags want it matched. -/
def literal (f : Flags) (c : Char) : Node := .set (f.fold (.single c))

/-- An escape outside of brackets. -/
def escapeNode : Reader Node := do
  let f := (← get).flags
  match ← escape with
  | .char c isByte =>
    if isByte && !f.unicode && 0x80 ≤ c.toNat then failure else return literal f c
  | .set s => return .set s
  | .look l => return .look l

/-- Any character but the end of a line. -/
def dot (f : Flags) : Reader Node :=
  if !f.unicode then failure
  else if f.dotAll then pure (.set .all)
  else
    let ends := if f.crlf then [(10, 10), (13, 13)] else [(10, 10)]
    pure (.set (.complement CharSet.last (.ofRanges ends)))

/-- A part that is no group, set or repetition. -/
def primitive : Reader Node := do
  let f := (← get).flags
  match ← peek? with
  | some '\\' => escapeNode
  | some '.' => do
    let _ ← next
    dot f
  | some '^' => do
    let _ ← next
    return .look (if f.multiLine then .lineStart f.crlf else .textStart)
  | some '$' => do
    let _ ← next
    return .look (if f.multiLine then .lineEnd f.crlf else .textEnd)
  | _ => return literal f (← next)

/-- A number with blanks around it. -/
def count : Reader (Option Nat) := do
  let u ← get
  let r := u.rest.dropWhile isBlank
  let ds := r.takeWhile Char.isDigit
  set { u with rest := (r.drop ds.length).dropWhile isBlank }
  if ds.isEmpty then return none
  let n := ds.foldl (fun n c => n * 10 + (c.toNat - 48)) 0
  if Nat.pow 2 32 ≤ n then failure else return some n

/-- Whether a repetition is greedy, by the mark that may come next. -/
def greed : Reader Bool := do
  let f := (← get).flags
  if (← peek?) = some '?' then do
    let _ ← next
    return f.swapGreed
  else return !f.swapGreed

/-- The bounds of a counted repetition, the opening brace of which is next. -/
def bounds : Reader (Nat × Option Nat) := do
  let _ ← nextSkip
  let least ← count
  let c ← nextSkip
  if c = ',' then
    if (← peek?) = some '\x7d' then do
      let _ ← nextSkip
      return (← least, none)
    else
      let least ← least
      let most ← (← count)
      let c ← nextSkip
      if c ≠ '\x7d' || most < least then failure
      return (least, some most)
  else if c = '\x7d' then do
    let n ← least
    return (n, some n)
  else failure

/-- The sequence read so far with its last part repeated. -/
def repeated (done : List Node) (least : Nat) (most : Option Nat) (isGreedy : Bool) :
    Reader (List Node) :=
  match done with
  | [] => failure
  | .empty :: _ => failure
  | n :: ns => pure (.loop least most isGreedy n :: ns)

/-- The flags of a group, up to the mark that ends them; `on` says whether they are switched on,
`isDangling` that a minus sign was read last. -/
def flagItems : Nat → Bool → Bool → List Char → Flags → Reader (Bool × Flags)
  | 0, _, _, _, _ => failure
  | fuel + 1, on, isDangling, seen, f => do
    let c ← next
    if c = ':' || c = ')' then
      if isDangling || (c = ')' && seen.isEmpty) then failure
      else return (c = ')', f)
    else if seen.contains c then failure
    else if c = '-' then flagItems fuel false true (c :: seen) f
    else do flagItems fuel on false (c :: seen) (← f.set? on c)

/-- The name of a group. -/
def groupName : Reader String := do
  let name ← upTo '>'
  let isGood : Bool :=
    match name.toList with
    | [] => false
    | c :: r =>
      (c = '_' || Property.alphabetic.contains c) &&
        r.all fun c => ['_', '.', '[', ']'].contains c || Property.alphanumeric.contains c
  if isGood && !((← get).names.map (·.1)).contains name then return name else failure

/-- What opens a group. -/
inductive Opening where
  /-- Flags for the rest of the group around. -/
  | flags (f : Flags)
  | plain (f : Flags)
  | numbered (name : Option String)

/-- The opening of a group, whose bracket has been taken. -/
def opening : Reader Opening := do
  skip
  let r := (← get).rest
  if ["?=", "?!", "?<=", "?<!"].any fun s => s.toList.isPrefixOf r then failure
  if (← tryText "?P<") || (← tryText "?<") then return .numbered (some (← groupName))
  else if ← tryText "?" then do
    let u ← get
    let (isOver, f) ← flagItems (u.rest.length + 1) true false [] u.flags
    return if isOver then .flags f else .plain f
  else return .numbered none

/-- Gives the next number to a group. -/
def newGroup (name : Option String) : Reader Nat := do
  let u ← get
  let k := u.groups + 1
  set { u with groups := k, names := u.names ++ (name.map fun s => (s, k)).toList }
  return k

mutual

/-- A choice of sequences. -/
def choices : Nat → Reader Node
  | 0 => failure
  | fuel + 1 => do
    let n ← sequence fuel []
    let ns ← moreChoices fuel
    return .ofChoice (n :: ns)

/-- The sequences behind the bars. -/
def moreChoices : Nat → Reader (List Node)
  | 0 => failure
  | fuel + 1 => do
    if (← peek?) = some '|' then do
      let _ ← next
      let n ← sequence fuel []
      let ns ← moreChoices fuel
      return n :: ns
    else return []

/-- The parts of a sequence, those before in reverse order. Flags leave nothing behind but an empty
part, which cannot be repeated. -/
def sequence : Nat → List Node → Reader Node
  | 0, _ => failure
  | fuel + 1, done => do
    skip
    match ← peek? with
    | none | some '|' | some ')' => return .ofSeq done.reverse
    | some '(' => do
      let _ ← next
      sequence fuel ((← groupRest fuel) :: done)
    | some '[' => do
      let s ← bracket (maxDepth + 2 * (← get).rest.length)
      sequence fuel (.set s :: done)
    | some '?' => do
      let _ ← next
      sequence fuel (← repeated done 0 (some 1) (← greed))
    | some '*' => do
      let _ ← next
      sequence fuel (← repeated done 0 none (← greed))
    | some '+' => do
      let _ ← next
      sequence fuel (← repeated done 1 none (← greed))
    | some '\x7b' => do
      let (least, most) ← bounds
      sequence fuel (← repeated done least most (← greed))
    | some _ => do sequence fuel ((← primitive) :: done)

/-- A group, whose opening bracket has been taken. -/
def groupRest : Nat → Reader Node
  | 0 => failure
  | fuel + 1 => do
    let outer := (← get).flags
    match ← opening with
    | .flags f => do
      modify fun u => { u with flags := f }
      return .empty
    | .plain f => do
      modify fun u => { u with flags := f }
      let n ← choices fuel
      expect ')'
      modify fun u => { u with flags := outer }
      return .group none n
    | .numbered name => do
      let k ← newGroup name
      let n ← choices fuel
      expect ')'
      modify fun u => { u with flags := outer }
      return .group (some k) n

end

/-- The tree of a pattern with what was learned about its groups. -/
def Node.ofString? (s : String) : Option (Node × Unread) := do
  let (n, u) ← (bounded choices).run ⟨s.toList, .initial, 0, []⟩
  if u.rest.isEmpty && n.depth ≤ maxDepth then some (n, u) else none

end SqlGate.Pattern
