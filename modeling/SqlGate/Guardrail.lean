import SqlGate.Context
import SqlGate.Guardrail.Fault
import SqlGate.Guardrail.Response

/-!
# Guardrails

A guardrail is shown a text and decides on it. Here it is a name and a function from texts to how
the decision turns out: it fails at once, or it takes a while, or for ever, and then there is a
decision or a reason why there is none. A guardrail that takes a while gives up when the context
that it was given ends, and so it does not even start to think in a context that is over.
-/

namespace SqlGate

/-- How a decision turns out. -/
inductive Guardrail.Fate where
  | failsAtOnce (cause : Guardrail.Cause)
  | decides (delay : Option Nat) (decision : Except Guardrail.Cause Guardrail.Response)

/-- A guardrail. -/
structure Guardrail where
  name : String
  fate : String → Guardrail.Fate

/-- The cause of a decision that was given up because a context ended. -/
def Guardrail.Cause.ofEnding : Context.Ending → Guardrail.Cause
  | .cancelled => .cancelled
  | .expired => .late

end SqlGate
