import SqlGate.Duration

/-!
# The smaller sections of a configuration

Time limits, replacements in results, hints on errors, limits, and how the tools are served.
-/

namespace SqlGate.Config

/-- A time limit for the statements that a pattern matches. -/
structure TimeoutRule where
  pattern : String
  timeout : Duration

namespace TimeoutRule

/-- The fields of a rule. -/
def fields : List (Document.Field TimeoutRule) :=
  [.of "pattern" true Document.string fun v r => { r with pattern := v },
   .of "timeout" true Duration.ofDocument fun v r => { r with timeout := v }]

/-- The rule of a document. -/
def ofDocument : Document.Read TimeoutRule := Document.struct "TimeoutRule" fields ⟨"", ⟨0⟩⟩

/-- The rule as a document. -/
def toJson (r : TimeoutRule) : Json :=
  .object [("pattern", .str r.pattern), ("timeout", r.timeout.toJson)]

end TimeoutRule

/-- The time limits of statements. -/
structure Timeouts where
  default : Option Duration
  rules : List TimeoutRule

namespace Timeouts

/-- No time limits. -/
def initial : Timeouts := ⟨none, []⟩

/-- The fields of the section. -/
def fields : List (Document.Field Timeouts) :=
  [.of "default" false (Document.optional Duration.ofDocument) fun v t => { t with default := v },
   .of "rules" false (Document.items TimeoutRule.ofDocument) fun v t => { t with rules := v }]

/-- The section of a document. -/
def ofDocument : Document.Read Timeouts := Document.struct "TimeoutsConfig" fields initial

/-- The section as a document. -/
def toJson (t : Timeouts) : Json :=
  .object [("default", (t.default.map Duration.toJson).getD .null),
    ("rules", .arr (t.rules.map TimeoutRule.toJson))]

end Timeouts

/-- A replacement in the texts of results. -/
structure SanitizeRule where
  pattern : String
  replacement : String

namespace SanitizeRule

/-- The fields of a rule. -/
def fields : List (Document.Field SanitizeRule) :=
  [.of "pattern" true Document.string fun v r => { r with pattern := v },
   .of "replacement" true Document.string fun v r => { r with replacement := v }]

/-- The rule of a document. -/
def ofDocument : Document.Read SanitizeRule := Document.struct "SanitizeRule" fields ⟨"", ""⟩

/-- The rule as a document. -/
def toJson (r : SanitizeRule) : Json :=
  .object [("pattern", .str r.pattern), ("replacement", .str r.replacement)]

end SanitizeRule

/-- A hint for the errors that a pattern matches. -/
structure DiagnosticRule where
  pattern : String
  message : String

namespace DiagnosticRule

/-- The fields of a rule. -/
def fields : List (Document.Field DiagnosticRule) :=
  [.of "pattern" true Document.string fun v r => { r with pattern := v },
   .of "message" true Document.string fun v r => { r with message := v }]

/-- The rule of a document. -/
def ofDocument : Document.Read DiagnosticRule := Document.struct "DiagnosticRule" fields ⟨"", ""⟩

/-- The rule as a document. -/
def toJson (r : DiagnosticRule) : Json :=
  .object [("pattern", .str r.pattern), ("message", .str r.message)]

end DiagnosticRule

/-- How large results may be and how many calls may run at once. -/
structure Limits where
  maxResultBytes : Nat
  maxConcurrency : Option Nat

namespace Limits

/-- What holds if nothing is said: a mebibyte, and as many calls as connections. -/
def initial : Limits := ⟨1048576, none⟩

/-- The fields of the section. -/
def fields : List (Document.Field Limits) :=
  let size := Document.unsigned 64 "usize"
  [.of "max_result_bytes" false size fun v l => { l with maxResultBytes := v },
   .of "max_concurrency" false (Document.optional size) fun v l => { l with maxConcurrency := v }]

/-- The section of a document. -/
def ofDocument : Document.Read Limits := Document.struct "LimitsConfig" fields initial

/-- The section as a document. -/
def toJson (l : Limits) : Json :=
  .object (("max_result_bytes", .nat l.maxResultBytes) ::
    l.maxConcurrency.toList.map fun n => ("max_concurrency", .nat n))

end Limits

/-- How the tools are served. There is one way: over standard input and output. -/
structure Service where
  serverName : String

namespace Service

/-- The server's name if nothing is said. -/
def initial : Service := ⟨"sqlward"⟩

/-- The fields of the section. -/
def fields : List (Document.Field Service) :=
  [.of "transport" false (Document.choice [("stdio", ())]) fun _ s => s,
   .of "server_name" false Document.string fun v _ => ⟨v⟩]

/-- The section of a document. -/
def ofDocument : Document.Read Service := Document.struct "McpConfig" fields initial

/-- The section as a document. -/
def toJson (s : Service) : Json :=
  .object [("transport", .str "stdio"), ("server_name", .str s.serverName)]

end Service

end SqlGate.Config
