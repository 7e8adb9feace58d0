import SqlGate.Context.Forest

/-!
# Watching contexts

Contexts are made, derived and cancelled while time passes. Some are waited for: who waits learns
why the context ended. Who starts to wait for a context that was already both cancelled and late
learns one of the two, and it is not said which.
-/

namespace SqlGate.Context

/-- What someone who waits for a context has learned. -/
inductive Notice where
  | waiting
  | ended (why : Ending)
  | either
  deriving Repr, DecidableEq

/-- Contexts on a clock, and those who wait for them. -/
structure Watch where
  now : Instant
  forest : Forest
  waiters : List (Nat × Notice)
  deriving Repr

/-- What may happen next. -/
inductive Watch.Step where
  /-- A new context, which nothing bounds. -/
  | plant
  /-- A context derived from another one, with a span of its own. -/
  | derive (parent : Nat) (span : Duration)
  /-- A context derived from another one, with a deadline of its own. -/
  | deriveUntil (parent : Nat) (deadline : Instant)
  | cancel (context : Nat)
  | pass (millis : Nat)
  /-- Someone starts to wait for a context. -/
  | await (context : Nat)
  /-- Something that takes a while, or no time, is done in a context. -/
  | work (context : Nat) (millis : Option Nat)
  deriving Repr

/-- How something done in a context came out. -/
inductive Watch.Outcome where
  | completed
  | stopped (why : Ending)
  deriving Repr, DecidableEq

namespace Watch

/-- The start: no time has passed and there are no contexts. -/
def initial : Watch := ⟨0, .empty, []⟩

/-- What someone learns who waits for a context from now on. -/
def firstNotice (c : Context) (now : Instant) : Notice :=
  if Clock.hasCome c.cancelledAt now && Clock.hasCome c.deadline now then .either
  else ((c.status now).map Notice.ended).getD .waiting

/-- What has been learned by now. -/
def inform (f : Forest) (now : Instant) : Nat × Notice → Nat × Notice
  | (i, .waiting) => (i, ((f.status i now).map Notice.ended).getD .waiting)
  | known => known

/-- Tells those who wait what they can know now. -/
def settle (w : Watch) : Watch := { w with waiters := w.waiters.map (inform w.forest w.now) }

/-- Work in a context: when it stops, and how. -/
def outcome (c : Context) (now : Instant) (millis : Option Nat) : Instant × Outcome :=
  match c.await none now (some (now + millis.getD 0)) with
  | some (t, some e) => (t, .stopped e)
  | some (t, none) => (t, .completed)
  | none => (now, .completed)

/-- One step, and how the work of it came out if it was work. A span that the clock does not count
gives nothing. -/
def step (w : Watch) : Step → Option (Watch × Option Outcome)
  | .plant => some ({ w with forest := w.forest.plant .unbounded }, none)
  | .derive parent span => do
    let limit ← Clock.after? w.now span
    return ({ w with forest := w.forest.derive parent limit }, none)
  | .deriveUntil parent deadline =>
    some ({ w with forest := w.forest.derive parent deadline }, none)
  | .cancel i => some (settle { w with forest := w.forest.cancel i w.now }, none)
  | .pass ms => some (settle { w with now := w.now + ms }, none)
  | .await i =>
    let notice := ((w.forest.get? i).map (firstNotice · w.now)).getD .waiting
    some ({ w with waiters := w.waiters ++ [(i, notice)] }, none)
  | .work i ms =>
    let (t, o) := ((w.forest.get? i).map (outcome · w.now ms)).getD (w.now, .completed)
    some (settle { w with now := t }, some o)

end Watch

end SqlGate.Context
