import SqlGate.Pattern.Program

/-!
# Searching

A program runs along a text in threads, which are kept in order of preference: a thread that started
earlier, or took the preferred way of a fork, comes first. Two threads never stand at one step, so
that a run takes one round of work for each character. When a thread accepts, those after it are
given up; those before it may still accept later and are then the better match.
-/

namespace SqlGate.Pattern

open SqlGate.Text

/-- The places that a thread has recorded. -/
abbrev Slots := Array (Option Nat)

/-- A thread: the step that it stands at and the places it has recorded. -/
structure Thread where
  step : Nat
  slots : Slots

/-- A place in a text: the characters on both sides and how many come before. -/
structure Spot where
  before : Option Char
  after : Option Char
  index : Nat

/-- The threads that wait at a place, in reverse, with the last place at which each step was
reached, one more than its index. -/
structure Crowd where
  threads : List Thread
  marks : Array Nat

/-- Follows threads up to the steps that read or accept. -/
def follow (steps : Array Step) (spot : Spot) : Nat → List Thread → Crowd → Crowd
  | 0, _, c => c
  | _, [], c => c
  | fuel + 1, t :: ts, c =>
    if c.marks[t.step]? = some (spot.index + 1) then follow steps spot fuel ts c
    else
      let marks := c.marks.setIfInBounds t.step (spot.index + 1)
      match steps[t.step]? with
      | none => follow steps spot fuel ts ⟨c.threads, marks⟩
      | some (.look l next) =>
        let ts := if l.holds spot.before spot.after then ⟨next, t.slots⟩ :: ts else ts
        follow steps spot fuel ts ⟨c.threads, marks⟩
      | some (.save k next) =>
        let t := ⟨next, t.slots.setIfInBounds k (some spot.index)⟩
        follow steps spot fuel (t :: ts) ⟨c.threads, marks⟩
      | some (.fork nexts) =>
        follow steps spot fuel (nexts.map (⟨·, t.slots⟩) ++ ts) ⟨c.threads, marks⟩
      | some (.read ..) => follow steps spot fuel ts ⟨t :: c.threads, marks⟩
      | some .accept => follow steps spot fuel ts ⟨t :: c.threads, marks⟩

/-- What a round makes of the threads in order: the threads after the character, and the places of a
thread that accepts. -/
def advance (steps : Array Step) (c : Option Char) : List Thread → List Thread × Option Slots
  | [] => ([], none)
  | t :: ts =>
    match steps[t.step]? with
    | some .accept => ([], some t.slots)
    | some (.read s next) =>
      let (ts, found) := advance steps c ts
      if c.any s.contains then (⟨next, t.slots⟩ :: ts, found) else (ts, found)
    | _ => advance steps c ts

/-- A program made ready: its first step, how many places a match records, and a bound on the work
of a round. -/
structure Machine where
  steps : Array Step
  start : Nat
  slotCount : Nat
  work : Nat

/-- The machine of a tree with so many groups. -/
def Machine.ofNode? (n : Node) (groups : Nat) : Option Machine := do
  let (p, start) ← Program.ofNode? n
  let edges := p.steps.foldl (fun k s => match s with
    | .fork ns => k + ns.length
    | _ => k + 1) 1
  return ⟨p.steps, start, 2 * (groups + 1), 2 * edges + 2⟩

namespace Machine

/-- Runs along the unread characters of a text from a place on. `best` is the best match so far;
while there is none, a match may start at each place. -/
def run (m : Machine) : List Char → Option Char → Nat → List Thread → Array Nat →
    Option Slots → Option Slots
  | rest, before, index, threads, marks, best =>
    let spot : Spot := ⟨before, rest.head?, index⟩
    let fresh : List Thread :=
      if best.isSome then []
      else [⟨m.start, (Array.replicate m.slotCount none).setIfInBounds 0 (some index)⟩]
    if threads.isEmpty && fresh.isEmpty then best
    else
      let crowd := follow m.steps spot (m.work + threads.length) (threads ++ fresh) ⟨[], marks⟩
      let (threads, found) := advance m.steps rest.head? crowd.threads.reverse
      let best := match found with
        | some slots => some (slots.setIfInBounds 1 (some index))
        | none => best
      match rest with
      | [] => best
      | c :: r => run m r (some c) (index + 1) threads crowd.marks best

/-- The leftmost match in the unread characters of a text: the places it recorded. -/
def find? (m : Machine) (rest : List Char) (before : Option Char) (index : Nat) : Option Slots :=
  m.run rest before index [] (Array.replicate m.steps.size 0) none

end Machine

end SqlGate.Pattern
