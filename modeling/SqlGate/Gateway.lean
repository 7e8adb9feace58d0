import SqlGate.Admission.Pool
import SqlGate.Work

/-!
# Calls under way

A gateway runs calls at the same time, as many as its pool has slots. A call holds one slot from
before its first work until it has ended or is dropped; a call that gets none before its context
ends answers that there was none. Callers know a call by its number, which is its place among all
calls, and the context of a call by its own number, so that calls may share one.

All that can happen at an instant has happened before anything new comes from outside: a call that
starts, a context that is cancelled, a call that is dropped, time that passes.
-/

namespace SqlGate

open Admission

/-- A call: its work, and what it answers if its context ends before it gets a slot. -/
structure Call (α : Type) where
  work : Work α
  exhausted : α

/-- A call that only holds a slot, until it is dropped. -/
def Call.holding (exhausted : α) : Call α := ⟨.rest, exhausted⟩

/-- How far a call has come. -/
inductive Stage (α : Type) where
  | queued
  | working (pending : Work.Pending α)
  /-- It ended; without a value if it broke off. -/
  | ended (time : Instant) (value : Option α)
  | dropped

/-- A call, its context and the database that it works on. -/
structure Task (α : Type) where
  call : Call α
  context : Nat
  backend : Backend
  stage : Stage α

/-- Calls under way. -/
structure Gateway (α : Type) where
  now : Instant
  pool : Pool
  contexts : List Context
  tasks : List (Task α)
  /-- What the database and the guardrails have seen. -/
  log : List Work.Entry

namespace Gateway

/-- A gateway without calls. -/
def ofPool (pool : Pool) : Gateway α := ⟨0, pool, [], [], []⟩

/-- How many slots are free. -/
def available (g : Gateway α) : Nat := g.pool.free

/-- The context of a number. -/
def contextOf (g : Gateway α) (i : Nat) : Context := g.contexts[i]?.getD .unbounded

/-- The stage of a call. -/
def stage? (g : Gateway α) (i : Nat) : Option (Stage α) := g.tasks[i]?.map (·.stage)

/-- Sets the stage of a call. -/
def setStage (g : Gateway α) (i : Nat) (stage : Stage α) : Gateway α :=
  { g with tasks := g.tasks.modify i fun t => { t with stage } }

/-! ## Letting happen what can -/

/-- When a call left its slot. -/
structure Departure where
  time : Instant
  task : Nat

/-- Calls under way while they are moved on: what happened, and who left and has not been counted
yet, the earliest first. -/
structure Motion (α : Type) where
  gateway : Gateway α
  entries : List Work.Entry
  departures : List Departure

/-- Nothing has moved yet. -/
def Motion.still (g : Gateway α) : Motion α := ⟨g, [], []⟩

/-- Puts a departure in its place: after all that are not later. -/
def schedule (d : Departure) : List Departure → List Departure
  | [] => [d]
  | d' :: ds => if d.time < d'.time then d :: d' :: ds else d' :: schedule d ds

/-- Takes in how far the work of a call has come. -/
def Motion.record (m : Motion α) (i : Nat) (r : List Work.Entry × Work.Progress α) : Motion α :=
  let entries := m.entries ++ r.1
  match r.2 with
  | .ended t value =>
    ⟨m.gateway.setStage i (.ended t value), entries, schedule ⟨t, i⟩ m.departures⟩
  | .waiting p => ⟨m.gateway.setStage i (.working p), entries, m.departures⟩

/-- Goes on with a call that is at work. -/
def Motion.resume (horizon : Option Instant) (m : Motion α) (i : Nat) (t : Task α) : Motion α :=
  match t.stage with
  | .working p =>
    m.record i (p.resume (m.gateway.contextOf t.context) t.backend horizon m.gateway.now)
  | _ => m

/-- Begins the work of a call that has a slot. -/
def Motion.begin (horizon : Option Instant) (m : Motion α) (i : Nat) (time : Instant) : Motion α :=
  match m.gateway.tasks[i]? with
  | some t =>
    m.record i (t.call.work.run (m.gateway.contextOf t.context) t.backend horizon time)
  | none => m

/-- A call that waits for a slot gives up. -/
def Motion.giveUp (m : Motion α) (i : Nat) (time : Instant) : Motion α :=
  match m.gateway.tasks[i]? with
  | some t =>
    let g := m.gateway.setStage i (.ended time (some t.call.exhausted))
    { m with gateway := { g with pool := g.pool.leave i } }
  | none => m

/-- Counts a departure. -/
def Motion.leave (m : Motion α) (d : Departure) : Motion α :=
  { m with gateway := { m.gateway with pool := m.gateway.pool.leave d.task } }

/-- The end of the context of a call. -/
def Motion.endOf (m : Motion α) (i : Nat) : Option Instant :=
  (m.gateway.tasks[i]?).bind fun t => (m.gateway.contextOf t.context).endsAt

/-- Serves those who wait, in their order: each gets the slot that becomes free first, unless its
context ends before that. -/
def Motion.serve (horizon : Option Instant) (m : Motion α) : List Nat → Motion α
  | [] => m.departures.foldl Motion.leave { m with departures := [] }
  | i :: rest =>
    match m.departures with
    | d :: ds =>
      if (m.endOf i).any (· < d.time) then
        serve horizon (m.giveUp i (max m.gateway.now ((m.endOf i).getD 0))) rest
      else
        serve horizon ((Motion.leave { m with departures := ds } d).begin horizon i d.time) rest
    | [] =>
      match (m.endOf i).filter (Clock.isWithin horizon) with
      | some t => serve horizon (m.giveUp i (max m.gateway.now t)) rest
      | none => serve horizon m rest

/-- Lets happen all that happens until a horizon, if there is one. -/
def advance (g : Gateway α) (horizon : Option Instant) : Gateway α :=
  let m := g.tasks.zipIdx.foldl (fun m (t, i) => m.resume horizon i t) (Motion.still g)
  let m := m.serve horizon g.pool.queue
  { m.gateway with log := m.gateway.log ++ m.entries.mergeSort fun a b => a.time ≤ b.time }

/-! ## What comes from outside -/

/-- A new context, whose number is the number of contexts before it. -/
def addContext (g : Gateway α) (c : Context) : Gateway α := { g with contexts := g.contexts ++ [c] }

/-- Lets happen all that can happen at this instant. -/
def settle (g : Gateway α) : Gateway α := g.advance (some g.now)

/-- A call starts in a context. -/
def start (g : Gateway α) (context : Nat) (call : Call α) (backend : Backend) : Gateway α :=
  let i := g.tasks.length
  let g := { g with
    tasks := g.tasks ++ [⟨call, context, backend, .queued⟩]
    pool := g.pool.acquire i }
  if g.pool.isHeldBy i then
    let m := (Motion.still g).begin (some g.now) i g.now
    let m := m.departures.foldl Motion.leave m
    { m.gateway with log := m.gateway.log ++ m.entries }
  else g.settle

/-- A context is cancelled, and nobody has noticed yet. -/
def revoke (g : Gateway α) (context : Nat) : Gateway α :=
  { g with contexts := g.contexts.modify context (·.cancel g.now) }

/-- A context is cancelled. -/
def cancel (g : Gateway α) (context : Nat) : Gateway α := (g.revoke context).settle

/-- A call is dropped, wherever it is. -/
def drop (g : Gateway α) (i : Nat) : Gateway α :=
  match g.stage? i with
  | some .queued =>
    let g := g.setStage i .dropped
    { g with pool := g.pool.leave i }
  | some (.working _) =>
    let g := g.setStage i .dropped
    let m := Motion.serve (some g.now) ⟨g, [], [⟨g.now, i⟩]⟩ g.pool.queue
    { m.gateway with log := m.gateway.log ++ m.entries }
  | _ => g

/-- Time passes. -/
def pass (g : Gateway α) (millis : Nat) : Gateway α :=
  let now := g.now + millis
  { g.advance (some now) with now }

/-- The instant at which a call ended. -/
def Task.endedAt (t : Task α) : Option Instant :=
  match t.stage with
  | .ended t _ => some t
  | _ => none

/-- Time passes until nothing more can happen. -/
def finish (g : Gateway α) : Gateway α :=
  let g := g.advance none
  { g with now := (g.tasks.filterMap Task.endedAt).foldl max g.now }

end Gateway

end SqlGate
