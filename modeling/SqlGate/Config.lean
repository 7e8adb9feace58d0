import SqlGate.Config.Database
import SqlGate.Config.Fault
import SqlGate.Config.Guardrails
import SqlGate.Config.Rules
import SqlGate.Policy.Rules

/-!
# Configurations

A configuration says where the database is, what may be done there, for how long, who is asked
before and after, and what is hidden or explained. `validate` refuses whatever would make a call
fail later; the first fault in the order of the sections is reported.
-/

namespace SqlGate

/-- A whole configuration. -/
structure Config where
  database : Config.Database
  policy : Policy.Rules
  timeouts : Config.Timeouts
  guardrails : Config.Guardrails
  sanitize : List Config.SanitizeRule
  diagnostics : List Config.DiagnosticRule
  limits : Config.Limits
  service : Config.Service

namespace Config

/-- The configuration of which every section is missing. -/
def initial : Config where
  database := .initial
  policy := .strict
  timeouts := .initial
  guardrails := .initial
  sanitize := []
  diagnostics := []
  limits := .initial
  service := .initial

/-- The sections of a configuration. -/
def fields : List (Document.Field Config) :=
  [.of "database" false Database.ofDocument fun v c => { c with database := v },
   .of "policy" false Policy.Rules.ofDocument fun v c => { c with policy := v },
   .of "timeouts" false Timeouts.ofDocument fun v c => { c with timeouts := v },
   .of "guardrails" false Guardrails.ofDocument fun v c => { c with guardrails := v },
   .of "sanitize" false (Document.items SanitizeRule.ofDocument) fun v c =>
     { c with sanitize := v },
   .of "diagnostics" false (Document.items DiagnosticRule.ofDocument) fun v c =>
     { c with diagnostics := v },
   .of "limits" false Limits.ofDocument fun v c => { c with limits := v },
   .of "mcp" false Service.ofDocument fun v c => { c with service := v }]

/-- The configuration of a document. -/
def ofDocument : Document.Read Config := Document.struct "SqlwardConfig" fields initial

/-- The configuration as a document. -/
def toJson (c : Config) : Json :=
  .object [("database", c.database.toJson), ("policy", c.policy.toJson),
    ("timeouts", c.timeouts.toJson), ("guardrails", c.guardrails.toJson),
    ("sanitize", .arr (c.sanitize.map SanitizeRule.toJson)),
    ("diagnostics", .arr (c.diagnostics.map DiagnosticRule.toJson)),
    ("limits", c.limits.toJson), ("mcp", c.service.toJson)]

/-- How many calls may run at once: as many as there are connections, if nothing else is said. -/
def admissionCapacity (c : Config) : Nat :=
  c.limits.maxConcurrency.getD c.database.maxConnections

/-! ## Validation -/

/-- Refuses a field that is zero. -/
def nonzero (isZero : Bool) (field : String) : Except Fault Unit :=
  if isZero then .error (.zero field) else .ok ()

/-- Refuses a field that is no pattern. -/
def wellFormed (field pattern : String) : Except Fault Unit := do
  let _ ← compile field pattern

/-- Checks an entry of the guardrails, which is the item of a list. -/
def GuardrailEntry.validate (e : GuardrailEntry) (defaultTimeout : Option Duration)
    (list : String) (index : Nat) : Except Fault Unit := do
  wellFormed (itemField list index "pattern") e.pattern
  if e.command.toList.all Text.isBlank then
    throw (.invalid (itemField list index "command") "command must not be empty")
  match e.timeout <|> defaultTimeout with
  | none => throw (noTimeout list index)
  | some d => nonzero d.isZero (itemField list index "timeout")

/-- Checks everything that would fail at a call. -/
def validate (c : Config) : Except Fault Unit := do
  nonzero (c.database.maxConnections = 0) "database.max_connections"
  nonzero (c.admissionCapacity = 0) "limits.max_concurrency"
  nonzero (c.limits.maxResultBytes = 0) "limits.max_result_bytes"
  nonzero c.database.connectTimeout.isZero "database.connect_timeout"
  match c.timeouts.default with
  | none => throw .noDefaultTimeout
  | some d => nonzero d.isZero "timeouts.default"
  let _ ← forItems (fun i (r : TimeoutRule) => do
    wellFormed (itemField "timeouts.rules" i "pattern") r.pattern
    nonzero r.timeout.isZero (itemField "timeouts.rules" i "timeout")) c.timeouts.rules
  nonzero (c.guardrails.defaultTimeout.any Duration.isZero) "guardrails.default_timeout"
  let entries (list : String) (es : List GuardrailEntry) :=
    forItems (fun i (e : GuardrailEntry) => e.validate c.guardrails.defaultTimeout list i) es
  let _ ← entries "guardrails.before" c.guardrails.before
  let _ ← entries "guardrails.after" c.guardrails.after
  let _ ← forItems (fun i (r : SanitizeRule) =>
    wellFormed (itemField "sanitize" i "pattern") r.pattern) c.sanitize
  let _ ← forItems (fun i (r : DiagnosticRule) =>
    wellFormed (itemField "diagnostics" i "pattern") r.pattern) c.diagnostics

end Config

end SqlGate
