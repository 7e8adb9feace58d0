import SqlGate.Duration

/-!
# Time

## Instants

An instant is the number of whole milliseconds since the clock was started. Timers go off at whole
milliseconds, so the instant that is a span later is rounded up: it is never reached too early.
`none` stands for an instant that never comes.
-/

namespace SqlGate

/-- Milliseconds since the start of the clock. -/
abbrev Instant := Nat

namespace Clock

/-- The number of seconds that the clock can count. -/
def seconds : Nat := Nat.pow 2 63

/-- The milliseconds of a span, a begun one counted as a whole. -/
def ceilMillis (d : Duration) : Nat := (d.nanos + 999999) / 1000000

/-- The instant that is a span later, unless the clock does not count so far. -/
def after? (now : Instant) (d : Duration) : Option Instant :=
  if now / 1000 + d.secs < seconds then some (now + ceilMillis d) else none

/-- The earlier of two instants that may never come. -/
def earlier : Option Instant → Option Instant → Option Instant
  | none, b => b
  | some a, none => some a
  | some a, some b => some (min a b)

/-- Whether an instant has come. -/
def hasCome (t : Option Instant) (now : Instant) : Bool := t.any (· ≤ now)

/-- Whether an instant comes before a horizon, or with it; there may be no horizon. -/
def isWithin (horizon : Option Instant) (t : Instant) : Bool := horizon.all (t ≤ ·)

/-- Enough time passes for a span to be over. -/
theorem nanos_le_ceilMillis (d : Duration) : d.nanos ≤ ceilMillis d * 1000000 := by
  unfold ceilMillis; omega

end Clock

end SqlGate

/-!
## Contexts of calls

A context says how long something may go on: until a deadline, until it is cancelled, or for ever.
A context that is over stays over. Work that would be done at the very instant at which its context
ends is not done, and nothing is begun in a context that is over.
-/

namespace SqlGate

/-- Why a context is over. -/
inductive Context.Ending where
  | cancelled
  | expired
  deriving Repr, DecidableEq

/-- How long something may go on. -/
structure Context where
  deadline : Option Instant
  cancelledAt : Option Instant
  deriving Repr, DecidableEq

namespace Context

/-- The context that nothing bounds. -/
def unbounded : Context := ⟨none, none⟩

/-- The same context with a deadline of its own, or the one it has if that is earlier. -/
def within (c : Context) (limit : Option Instant) : Context :=
  { c with deadline := Clock.earlier c.deadline limit }

/-- The context cancelled at an instant, unless it already was. -/
def cancel (c : Context) (time : Instant) : Context :=
  { c with cancelledAt := Clock.earlier c.cancelledAt (some time) }

/-- Why a context is over at an instant, if it is. Being cancelled goes before being late. -/
def status (c : Context) (now : Instant) : Option Ending :=
  if Clock.hasCome c.cancelledAt now then some .cancelled
  else if Clock.hasCome c.deadline now then some .expired
  else none

/-- The instant at which a context ends. -/
def endsAt (c : Context) : Option Instant := Clock.earlier c.cancelledAt c.deadline

/-- The time that is left before the deadline. -/
def remaining (c : Context) (now : Instant) : Option Nat := c.deadline.map (· - now)

/-- What comes first, the end of the context or the end of the work, and when. -/
def race (c : Context) (due : Option Instant) : Option (Instant × Option Ending) :=
  match c.endsAt, due with
  | none, none => none
  | none, some d => some (d, none)
  | some e, none => some (e, c.status e)
  | some e, some d => if e ≤ d then some (e, c.status e) else some (d, none)

/-- How waiting for work in a context comes out, if that is before a horizon: when, and whether the
context ended it. In a context that is over, it comes out now. -/
def await (c : Context) (horizon : Option Instant) (now : Instant) (due : Option Instant) :
    Option (Instant × Option Ending) :=
  let outcome := match c.status now with
    | some e => some (now, some e)
    | none => c.race due
  outcome.filter fun x => Clock.isWithin horizon x.1

end Context

end SqlGate
