import SqlGate.Pattern.Node

/-!
# Patterns as programs

A pattern is searched for by a program of numbered steps, built from its end to its start: each part
is given the number of the step that comes after it and gives the number of its own first step.
Programs have a limit of size, which counts about what the steps would take as tests on bytes.
-/

namespace SqlGate.Pattern

open SqlGate.Text

/-- A step of a program. -/
inductive Step where
  /-- Reads one character of a set. -/
  | read (s : CharSet) (next : Nat)
  | look (l : Look) (next : Nat)
  /-- Records the place in the text. -/
  | save (slot : Nat) (next : Nat)
  /-- Goes on with each of some steps, the first of them preferred. -/
  | fork (nexts : List Nat)
  | accept

/-- A program, with its size. -/
structure Program where
  steps : Array Step
  size : Nat

namespace Program

/-- The largest size of a program. -/
def maxSize : Nat := 10485760

/-- The size of a step. -/
def sizeOf : Step → Nat
  | .read s _ => if s.isBelow 0x80 then 32 else 320 + 80 * s.ranges.size
  | .fork ns => 32 + 4 * ns.length
  | _ => 32

/-- Adds to a program, as far as it may grow. -/
abbrev Builder (α : Type) := StateT Program Option α

/-- Adds a step and gives its number. -/
def add (s : Step) : Builder Nat := do
  let p ← get
  let size := p.size + sizeOf s
  if maxSize < size then failure
  set (⟨p.steps.push s, size⟩ : Program)
  return p.steps.size

/-- Puts a step in the place of another one. -/
def replace (n : Nat) (s : Step) : Builder Unit :=
  modify fun p => ⟨p.steps.setIfInBounds n s, p.size⟩

/-- A fork between going on with a part and leaving it. -/
def branch (isGreedy : Bool) (inside outside : Nat) : Step :=
  .fork (if isGreedy then [inside, outside] else [outside, inside])

/-- A part any number of times, but at least once; gives the numbers of the part's first step and of
the fork behind it. -/
def again (isGreedy : Bool) (part : Nat → Builder Nat) (next : Nat) : Builder (Nat × Nat) := do
  let loop ← add (.fork [])
  let start ← part loop
  replace loop (branch isGreedy start next)
  return (start, loop)

/-- A part so many times. -/
def times (part : Nat → Builder Nat) : Nat → Nat → Builder Nat
  | 0, next => pure next
  | k + 1, next => do part (← times part k next)

/-- A part up to so many times; leaving it goes to `out`. -/
def upTo (isGreedy : Bool) (part : Nat → Builder Nat) (out : Nat) : Nat → Builder Nat
  | 0 => pure out
  | k + 1 => do
    let rest ← upTo isGreedy part out k
    let start ← part rest
    add (branch isGreedy start out)

/-- A part between two numbers of times. -/
def looped (least : Nat) (most : Option Nat) (isGreedy isNullable : Bool)
    (part : Nat → Builder Nat) (next : Nat) : Builder Nat := do
  match most with
  | some most => times part least (← upTo isGreedy part next (most - least))
  | none =>
    match least with
    | 0 =>
      let (start, loop) ← again isGreedy part next
      if isNullable then add (branch isGreedy start next) else return loop
    | k + 1 =>
      let (start, _) ← again isGreedy part next
      times part k start

mutual

/-- The steps of a tree. -/
def build : Node → Nat → Builder Nat
  | .empty, next => pure next
  | .set s, next => add (.read s next)
  | .look l, next => add (.look l next)
  | .group none n, next => build n next
  | .group (some k) n, next => do
    let stop ← add (.save (2 * k + 1) next)
    let start ← build n stop
    add (.save (2 * k) start)
  | .loop least most isGreedy n, next =>
    looped least most isGreedy n.isNullable (build n) next
  | .seq ns, next => buildSeq ns next
  | .choice ns, next => do add (.fork (← buildChoice ns next))

/-- The steps of a sequence. -/
def buildSeq : List Node → Nat → Builder Nat
  | [], next => pure next
  | n :: ns, next => do build n (← buildSeq ns next)

/-- The first steps of the members of a choice. -/
def buildChoice : List Node → Nat → Builder (List Nat)
  | [], _ => pure []
  | n :: ns, next => do
    let start ← build n next
    let starts ← buildChoice ns next
    return start :: starts

end

/-- The program of a tree with the number of its first step. -/
def ofNode? (n : Node) : Option (Program × Nat) := do
  let (start, p) ← (do build n (← add .accept) : Builder Nat).run ⟨#[], 0⟩
  return (p, start)

end Program

end SqlGate.Pattern
