/-!
# Admission

A pool has a fixed number of slots. Whoever comes takes a free slot or waits at the end of a queue;
a slot that is given back goes to the first in the queue at once, whether or not he has noticed yet.
So nobody waits while a slot is free, and nobody overtakes.
-/

namespace SqlGate.Admission

/-- Why a slot, or a pool, cannot be had. -/
inductive Fault where
  /-- The caller could not wait any longer. -/
  | exhausted (capacity : Nat)
  | zeroCapacity
  /-- More slots than can be counted. -/
  | tooLarge
  deriving Repr, DecidableEq

/-- The wording of a fault. -/
def Fault.message : Fault → String
  | exhausted n => s!"connection slots exhausted: all {n} slots are in use"
  | zeroCapacity => "admission pool capacity must be greater than zero"
  | tooLarge => "admission pool capacity is too large"

/-- A pool of slots. Those who hold one or wait for one are known by numbers. -/
structure Pool where
  capacity : Nat
  free : Nat
  holders : List Nat
  /-- Those who wait, in the order in which they came. -/
  queue : List Nat
  deriving Repr, DecidableEq

namespace Pool

/-- The largest number of slots that can be counted. -/
def maxCapacity : Nat := Nat.pow 2 61 - 1

/-- A pool of which all slots are free. -/
def ofCapacity (n : Nat) : Except Fault Pool :=
  if n = 0 then .error .zeroCapacity
  else if maxCapacity < n then .error .tooLarge
  else .ok ⟨n, n, [], []⟩

/-- Someone comes for a slot. -/
def acquire (p : Pool) (i : Nat) : Pool :=
  if 0 < p.free then { p with free := p.free - 1, holders := p.holders ++ [i] }
  else { p with queue := p.queue ++ [i] }

/-- A slot comes back. -/
def giveBack (p : Pool) : Pool :=
  match p.queue with
  | [] => { p with free := p.free + 1 }
  | next :: rest => { p with holders := p.holders ++ [next], queue := rest }

/-- Someone goes: he gives back his slot, or his place in the queue. -/
def leave (p : Pool) (i : Nat) : Pool :=
  if p.holders.contains i then giveBack { p with holders := p.holders.erase i }
  else { p with queue := p.queue.erase i }

/-- Whether someone holds a slot. -/
def isHeldBy (p : Pool) (i : Nat) : Bool := p.holders.contains i

end Pool

end SqlGate.Admission
