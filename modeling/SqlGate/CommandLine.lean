import SqlGate.CommandLine.Arguments
import SqlGate.Config.Load
import SqlGate.Postgres
import SqlGate.Service

/-!
# The command line

`check` says whether a statement is allowed, `validate` says what a configuration amounts to, and
`serve` connects to the database and serves a client. A command that fails reports why: what it was
about, and then the causes, the outermost first.
-/

namespace SqlGate.CommandLine

/-- How a command ends: its exit code and what it writes. -/
structure Outcome where
  exit : Nat
  output : String
  errors : String
  deriving Repr, DecidableEq

/-! ## Reports -/

/-- The lines of a cause, the first of them marked. -/
def markedCause (mark indent cause : String) : String :=
  mark ++ ("\n" ++ indent).intercalate (cause.splitOn "\n") ++ "\n"

/-- A cause among several. -/
def numberedCause (index : Nat) (cause : String) : String :=
  let number := s!"{index}"
  markedCause (String.ofList (List.replicate (5 - number.length) ' ') ++ number ++ ": ")
    "       " cause

/-- What failed, and why. -/
def report (what : String) (causes : List String) : String :=
  "Error: " ++ what ++ "\n" ++
    match causes with
    | [] => ""
    | [cause] => "\nCaused by:\n" ++ markedCause "    " "    " cause
    | causes =>
      "\nCaused by:\n" ++ String.join (causes.zipIdx.map fun (c, i) => numberedCause i c)

/-- The end of a command that failed. -/
def failure (what : String) (causes : List String) : Outcome := ⟨1, "", report what causes⟩

/-- The causes of a configuration that cannot be loaded from a file. -/
def loadCauses (path : String) : Config.LoadFault → List String
  | .missingFile => unreadable "No such file or directory (os error 2)"
  | .notText => unreadable "stream did not contain valid UTF-8"
  | .notConfig => ["failed to parse config file " ++ path]
  | .refused why => [why.message]
where
  /-- The file could not be read. -/
  unreadable (why : String) : List String :=
    ["failed to read config file " ++ path ++ ": " ++ why, why]

/-! ## Commands -/

/-- Whether a statement is allowed. -/
def verdict (c : Config) (sql : String) : Outcome :=
  match c.policy.check sql with
  | .ok () => ⟨0, "allowed\n", ""⟩
  | .error why => ⟨1, "rejected: " ++ why.message ++ "\n", ""⟩

/-- A line of a summary: the name of something, and what is said of it in one column. -/
def summaryLine (name value : String) : String :=
  "  " ++ name ++ ":" ++ String.ofList (List.replicate (17 - name.length) ' ') ++ value ++ "\n"

/-- What a configuration amounts to. -/
def summary (env : Environment) (c : Config) : String :=
  let toggles := c.policy.enabledToggles
  let limit := (c.timeouts.default.getD ⟨0⟩).debug
  String.join [
    summaryLine "database" (c.database.redactedTarget env),
    summaryLine "read_only" s!"{c.policy.readOnly}",
    summaryLine "enabled toggles" (if toggles.isEmpty then "none" else ", ".intercalate toggles),
    summaryLine "default timeout" (limit ++ s!" ({c.timeouts.rules.length} rules)"),
    summaryLine "guardrails"
      s!"{c.guardrails.before.length} before, {c.guardrails.after.length} after",
    summaryLine "rules" s!"{c.sanitize.length} sanitize, {c.diagnostics.length} diagnostics",
    summaryLine "admission slots" s!"{c.admissionCapacity}",
    summaryLine "max result bytes" s!"{c.limits.maxResultBytes}"]

/-- Says that a configuration is valid, and what it amounts to. -/
def validity (env : Environment) (path : String) (c : Config) : Outcome :=
  ⟨0, path ++ " is valid\n" ++ summary env c, ""⟩

/-- The service of a configuration. -/
def openService (network : Postgres.Network) (programs : Guardrail.Programs) (env : Environment)
    (c : Config) : Except Outcome Service := do
  match Postgres.connect network env c.database with
  | .error why =>
    throw (failure ("failed to connect to " ++ c.database.redactedTarget env) why.reasons)
  | .ok server =>
    match Pipeline.ofConfig programs c with
    | .error (.config why) => throw (failure why.message [])
    | .error .tooManySlots => throw ⟨101, "", ""⟩
    | .ok p => return .start c.service.serverName p server.backend

/-- What a command comes to: an end, or a service. -/
inductive Action where
  | finish (outcome : Outcome)
  | serve (service : Service)

/-- How to call the program. -/
def usage : String :=
  "Usage: sqlward [--log-level <LOG_LEVEL>] <serve|check|validate> [--config <CONFIG>]\n"

/-- What becomes of a command line that asks for nothing. -/
def misuse (why : Misuse) : Outcome := ⟨2, "", "error: " ++ why.message ++ "\n\n" ++ usage⟩

/-- Carries out a command on the file that it reads. -/
def Command.run (network : Postgres.Network) (programs : Guardrail.Programs) (env : Environment)
    (file : Option (List UInt8)) (command : Command) : Action :=
  let loaded (path : String) (f : Config → Action) : Action :=
    match Config.load file with
    | .error why => .finish (failure ("invalid configuration " ++ path) (loadCauses path why))
    | .ok c => f c
  match command with
  | .version => .finish ⟨0, "sqlward " ++ Rpc.serverVersion ++ "\n", ""⟩
  | .help => .finish ⟨0, usage, ""⟩
  | .check path sql => loaded path fun c => .finish (verdict c sql)
  | .validate path => loaded path fun c => .finish (validity env path c)
  | .serve path => loaded path fun c =>
    match openService network programs env c with
    | .error outcome => .finish outcome
    | .ok service => .serve service

end SqlGate.CommandLine
