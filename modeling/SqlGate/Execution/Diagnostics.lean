import SqlGate.Config

/-!
# Hints on errors

Every rule whose pattern matches an error adds its message; the messages follow the error after an
empty line, one to a line, in the order of the rules.
-/

namespace SqlGate

/-- The hints on errors. -/
structure Diagnostics where
  rules : List (Pattern × String)

namespace Diagnostics

/-- The rules of a configuration. -/
def ofConfig (rules : List Config.DiagnosticRule) : Except Config.Fault Diagnostics := do
  return ⟨← Config.forItems (fun i (r : Config.DiagnosticRule) => do
    return (← Config.compile (Config.itemField "diagnostics" i "pattern") r.pattern,
      r.message)) rules⟩

/-- The messages of the rules that match an error. -/
def hints (d : Diagnostics) (error : String) : String :=
  "\n".intercalate ((d.rules.filter fun r => r.1.isMatch error).map (·.2))

/-- An error with the hints on it. -/
def augment (d : Diagnostics) (error : String) : String :=
  let hints := d.hints error
  if hints.isEmpty then error else error ++ "\n\n" ++ hints

end Diagnostics

end SqlGate
