import SqlGate.Duration

/-!
# The guardrails of a configuration

A guardrail is a program that is run before or after a statement when its pattern matches; it has
as much time as its entry, or else the section, gives it.
-/

namespace SqlGate.Config

/-- A guardrail program. -/
structure GuardrailEntry where
  name : Option String
  pattern : String
  command : String
  args : List String
  timeout : Option Duration

namespace GuardrailEntry

/-- The entry before its fields are read: it matches everything. -/
def initial : GuardrailEntry := ⟨none, ".*", "", [], none⟩

/-- The fields of an entry. -/
def fields : List (Document.Field GuardrailEntry) :=
  [.of "name" false (Document.optional Document.string) fun v e => { e with name := v },
   .of "pattern" false Document.string fun v e => { e with pattern := v },
   .of "command" true Document.string fun v e => { e with command := v },
   .of "args" false (Document.items Document.string) fun v e => { e with args := v },
   .of "timeout" false (Document.optional Duration.ofDocument) fun v e => { e with timeout := v }]

/-- The entry of a document. -/
def ofDocument : Document.Read GuardrailEntry :=
  Document.struct "GuardrailEntryConfig" fields initial

/-- The name that messages show. -/
def displayName (e : GuardrailEntry) : String := e.name.getD e.command

/-- The entry as a document. -/
def toJson (e : GuardrailEntry) : Json :=
  .object [("name", .ofText? e.name), ("pattern", .str e.pattern), ("command", .str e.command),
    ("args", .arr (e.args.map .str)), ("timeout", (e.timeout.map Duration.toJson).getD .null)]

end GuardrailEntry

/-- The guardrails before and after statements. -/
structure Guardrails where
  defaultTimeout : Option Duration
  before : List GuardrailEntry
  after : List GuardrailEntry

namespace Guardrails

/-- No guardrails. -/
def initial : Guardrails := ⟨none, [], []⟩

/-- The fields of the section. -/
def fields : List (Document.Field Guardrails) :=
  let entries := Document.items GuardrailEntry.ofDocument
  [.of "default_timeout" false (Document.optional Duration.ofDocument) fun v g =>
     { g with defaultTimeout := v },
   .of "before" false entries fun v g => { g with before := v },
   .of "after" false entries fun v g => { g with after := v }]

/-- The section of a document. -/
def ofDocument : Document.Read Guardrails := Document.struct "GuardrailsConfig" fields initial

/-- Whether there are no guardrails. -/
def isEmpty (g : Guardrails) : Bool := g.before.isEmpty && g.after.isEmpty

/-- The section as a document. -/
def toJson (g : Guardrails) : Json :=
  .object [("default_timeout", (g.defaultTimeout.map Duration.toJson).getD .null),
    ("before", .arr (g.before.map GuardrailEntry.toJson)),
    ("after", .arr (g.after.map GuardrailEntry.toJson))]

end Guardrails

end SqlGate.Config
