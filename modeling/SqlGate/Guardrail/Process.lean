import SqlGate.Config
import SqlGate.Guardrail.Chain
import SqlGate.Text.Utf8

/-!
# Guardrails that are programs

A guardrail may be a program: it is given the text as its input, and its output is the decision. Its
exit must be a success and all of its output must be one decision; whatever else it does is a
failure.

How programs behave is not said here. It is a parameter: a function from what is started, and with
what input, to when and how it exits.
-/

namespace SqlGate.Guardrail

/-- How a program exited, and what it wrote. -/
structure Exit where
  status : ExitStatus
  output : List UInt8
  errors : List UInt8
  deriving Repr, DecidableEq

/-- What becomes of starting a program. -/
inductive Launch where
  | notStarted (why : String)
  | runs (delay : Option Nat) (exit : Exit)
  deriving Repr, DecidableEq

/-- How programs behave: by the command, its arguments and its input. -/
abbrev Programs := String → List String → String → Launch

/-- What a failed program wrote to its errors, as far as it is text. -/
def Exit.complaint (e : Exit) : String :=
  let s := Text.trim (Text.Utf8.lossy e.errors).toList
  if s.isEmpty then "no output" else String.ofList s

/-- The decision that an exit stands for. -/
def Exit.decision (e : Exit) : Except Cause Response :=
  if e.status.isSuccess then (Response.ofBytes e.output).mapError .invalidResponse
  else .error (.failed e.status e.complaint)

/-- What becomes of a decision that a program takes. -/
def Launch.fate : Launch → Fate
  | .notStarted why => .failsAtOnce (.notStarted why)
  | .runs delay exit => .decides delay exit.decision

/-- The guardrail that is a program. -/
def ofProgram (programs : Programs) (name command : String) (args : List String) : Guardrail :=
  ⟨name, fun payload => (programs command args payload).fate⟩

/-- The entry of a configuration. -/
def Entry.ofConfig (programs : Programs) (defaultTimeout : Option Duration) (list : String)
    (index : Nat) (e : Config.GuardrailEntry) : Except Config.Fault Entry := do
  let pattern ← Config.compile (Config.itemField list index "pattern") e.pattern
  match e.timeout <|> defaultTimeout with
  | some timeout => return ⟨pattern, ofProgram programs e.displayName e.command e.args, timeout⟩
  | none => throw (Config.noTimeout list index)

/-- The guardrails of a configuration. -/
def Chain.ofConfig (programs : Programs) (c : Config.Guardrails) : Except Config.Fault Chain := do
  let entries (list : String) := Config.forItems (Entry.ofConfig programs c.defaultTimeout list)
  return ⟨← entries "guardrails.before" c.before, ← entries "guardrails.after" c.after⟩

end SqlGate.Guardrail
