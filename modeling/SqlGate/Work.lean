import SqlGate.Backend
import SqlGate.Guardrail

/-!
# Work

What a call does is a tree: it asks the database or a guardrail for something and goes on with what
comes back, until it is done. `Work.run` runs it in a context on a clock and says what was done
when.

The database is asked only in a context that is not over, and is not waited for beyond the end of
it. A transaction that can no longer be ended is dropped.
-/

namespace SqlGate

/-- What comes back from the database: an answer, or the end of the context. -/
inductive Reply (α : Type) where
  | answered (result : Except Backend.Fault α)
  | late (why : Context.Ending)

/-- What a call does. -/
inductive Work (α : Type) : Type where
  | done (value : α)
  /-- Looks at the clock for the instant that is a span from now, perhaps inside a transaction. -/
  | deadline (span : Duration) (inTransaction : Bool) (next : Instant → Work α)
  /-- Asks the database for something, until an instant at most. -/
  | perform (op : Backend.Operation) (limit : Option Instant) (next : Reply op.Answer → Work α)
  /-- Shows a text to a guardrail, which has until an instant to decide. -/
  | consult (guardrail : Guardrail) (payload : String) (limit : Instant)
      (next : Except Guardrail.Fault Guardrail.Response → Work α)
  /-- Goes on for ever, until it is dropped. -/
  | rest

namespace Work

/-- Some work, and then more with its result. -/
def bind (w : Work α) (f : α → Work β) : Work β :=
  match w with
  | done a => f a
  | deadline span inside next => deadline span inside fun t => (next t).bind f
  | perform op limit next => perform op limit fun r => (next r).bind f
  | consult g payload limit next => consult g payload limit fun r => (next r).bind f
  | rest => rest

instance : Monad Work where
  pure := done
  bind := bind

/-! ## What is seen of it -/

/-- What the database and the guardrails see. -/
inductive Event where
  | asked (op : Backend.Operation)
  /-- A transaction was dropped without an end. -/
  | dropped
  | consulted (guardrail : String) (payload : String)
  deriving Repr, DecidableEq

/-- An event as a line of a log. -/
def Event.text : Event → String
  | asked op => op.text
  | dropped => "dropped"
  | consulted name payload => "guardrail " ++ name ++ " " ++ payload

/-- An event and when it was. -/
structure Entry where
  time : Instant
  event : Event
  deriving Repr, DecidableEq

/-- A transaction is dropped, if there is one. -/
def dropIf (inTransaction : Bool) (now : Instant) : List Entry :=
  if inTransaction then [⟨now, .dropped⟩] else []

/-- What is left of a transaction when an operation on it is not even begun. -/
def refusal (op : Backend.Operation) (now : Instant) : List Entry := dropIf op.endsTransaction now

/-! ## Running it -/

/-- Work that waits: until something is done, which may be never, or until its context ends. -/
inductive Pending (α : Type) where
  | busy (limit : Option Instant) (due : Option Instant) (finished : Work α)
      (givenUp : Context.Ending → Work α)
  | resting

/-- How far work has come: to its end, or to where it waits. It breaks off where it needs an instant
that the clock does not count, and drops the transaction that it is in. -/
inductive Progress (α : Type) where
  | ended (time : Instant) (value : Option α)
  | waiting (pending : Pending α)

/-- Runs work from an instant on, no further than to a horizon. -/
def run (c : Context) (b : Backend) (horizon : Option Instant) :
    Work α → Instant → List Entry × Progress α
  | .done a, now => ([], .ended now (some a))
  | .deadline span inside next, now =>
    match Clock.after? now span with
    | some t => run c b horizon (next t) now
    | none => (dropIf inside now, .ended now none)
  | .perform op limit next, now =>
    match (c.within limit).status now with
    | some e =>
      let (entries, p) := run c b horizon (next (.late e)) now
      (refusal op now ++ entries, p)
    | none =>
      let behaviour := b.behaviour op
      let due := behaviour.delay.map (now + ·)
      let (entries, p) := match (c.within limit).await horizon now due with
        | some (t, none) => run c b horizon (next (.answered behaviour.result)) t
        | some (t, some e) => run c b horizon (next (.late e)) t
        | none => ([], .waiting (.busy limit due (next (.answered behaviour.result))
            fun e => next (.late e)))
      (⟨now, .asked op⟩ :: entries, p)
  | .consult g payload limit next, now =>
    let (entries, p) := match g.fate payload with
      | .failsAtOnce cause => run c b horizon (next (.error ⟨g.name, cause⟩)) now
      | .decides delay decision =>
        let due := delay.map (now + ·)
        let decided := decision.mapError (Guardrail.Fault.mk g.name)
        match (c.within (some limit)).await horizon now due with
        | some (t, none) => run c b horizon (next decided) t
        | some (t, some e) => run c b horizon (next (.error ⟨g.name, .ofEnding e⟩)) t
        | none => ([], .waiting (.busy (some limit) due (next decided)
            fun e => next (.error ⟨g.name, .ofEnding e⟩)))
    (⟨now, .consulted g.name payload⟩ :: entries, p)
  | .rest, _ => ([], .waiting .resting)

/-- Goes on with work that waits. -/
def Pending.resume (p : Pending α) (c : Context) (b : Backend) (horizon : Option Instant)
    (now : Instant) : List Entry × Progress α :=
  match p with
  | .resting => ([], .waiting .resting)
  | .busy limit due finished givenUp =>
    match (c.within limit).await horizon now due with
    | some (t, none) => run c b horizon finished t
    | some (t, some e) => run c b horizon (givenUp e) t
    | none => ([], .waiting p)

end Work

end SqlGate
