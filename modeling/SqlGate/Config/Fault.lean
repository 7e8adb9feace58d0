import SqlGate.Pattern

/-!
# Why a configuration is refused

What a configuration says is checked once, at the start, so that no call fails because of it. Faults
name the field that is wrong.
-/

namespace SqlGate.Config

/-- Why a configuration is refused. -/
inductive Fault where
  /-- There is no time limit for statements. -/
  | noDefaultTimeout
  | zero (field : String)
  | badPattern (field : String)
  | invalid (field reason : String)
  deriving Repr, DecidableEq

/-- The wording of a fault. -/
def Fault.message : Fault → String
  | noDefaultTimeout => "timeouts.default is required"
  | zero field => field ++ " must be greater than zero"
  | badPattern field => "invalid pattern in " ++ field
  | invalid field reason => "invalid configuration at " ++ field ++ ": " ++ reason

/-- The pattern of a field. -/
def compile (field pattern : String) : Except Fault Pattern :=
  match Pattern.ofString? pattern with
  | some p => .ok p
  | none => .error (.badPattern field)

/-- The name of a field of an item of a list. -/
def itemField (list : String) (index : Nat) (field : String) : String :=
  list ++ "[" ++ s!"{index}" ++ "]." ++ field

/-- An item of the guardrails has no time limit. -/
def noTimeout (list : String) (index : Nat) : Fault :=
  .invalid (itemField list index "timeout")
    "no timeout set and guardrails.default_timeout is missing"

/-- Does something with each item of a list and its index, the first fault ending it. -/
def forItems (f : Nat → α → Except Fault β) (xs : List α) : Except Fault (List β) :=
  xs.zipIdx.mapM fun (x, i) => f i x

end SqlGate.Config
