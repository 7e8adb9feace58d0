import SqlGate.Config

/-!
# Choosing a time limit

The first rule whose pattern matches a statement says how long it may take; if none does, there is a
limit for all.
-/

namespace SqlGate

/-- The rules that choose a time limit. -/
structure TimeoutSelector where
  rules : List (Pattern × Duration)
  default : Duration

namespace TimeoutSelector

/-- The rules of a configuration. -/
def ofConfig (t : Config.Timeouts) : Except Config.Fault TimeoutSelector := do
  match t.default with
  | none => throw .noDefaultTimeout
  | some default =>
    let rules ← Config.forItems (fun i (r : Config.TimeoutRule) => do
      return (← Config.compile (Config.itemField "timeouts.rules" i "pattern") r.pattern,
        r.timeout)) t.rules
    return ⟨rules, default⟩

/-- The time limit of a statement. -/
def select (t : TimeoutSelector) (sql : String) : Duration :=
  ((t.rules.find? fun r => r.1.isMatch sql).map (·.2)).getD t.default

end TimeoutSelector

end SqlGate
