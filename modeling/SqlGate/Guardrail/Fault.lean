import SqlGate.Json.Fault

/-!
# Why a guardrail stops a call

A guardrail may reject what it is shown, or it may fail to decide. Each of these stops the call.
-/

namespace SqlGate.Guardrail

/-- How a program ended. -/
inductive ExitStatus where
  | code (n : Nat)
  | signal (n : Nat)
  deriving Repr, DecidableEq

namespace ExitStatus

/-- The names of the signals, from the first one on. -/
def signalNames : List String :=
  ["SIGHUP", "SIGINT", "SIGQUIT", "SIGILL", "SIGTRAP", "SIGABRT", "SIGBUS", "SIGFPE", "SIGKILL",
    "SIGUSR1", "SIGSEGV", "SIGUSR2", "SIGPIPE", "SIGALRM", "SIGTERM", "SIGSTKFLT", "SIGCHLD",
    "SIGCONT", "SIGSTOP", "SIGTSTP", "SIGTTIN", "SIGTTOU", "SIGURG", "SIGXCPU", "SIGXFSZ",
    "SIGVTALRM", "SIGPROF", "SIGWINCH", "SIGIO", "SIGPWR", "SIGSYS"]

/-- Whether a program ended well. -/
def isSuccess : ExitStatus → Bool
  | code n => n = 0
  | signal _ => false

/-- The wording of an end. -/
def text : ExitStatus → String
  | code n => s!"exit status: {n}"
  | signal n =>
    match signalNames[n - 1]? with
    | some name => s!"signal: {n} (" ++ name ++ ")"
    | none => s!"signal: {n}"

end ExitStatus

/-- Why a guardrail stops a call. -/
inductive Cause where
  | rejected (message : String)
  /-- Its program could not be started. -/
  | notStarted (why : String)
  /-- Its answer could not be read from it. -/
  | notRead (why : String)
  | failed (status : ExitStatus) (output : String)
  | late
  | cancelled
  | invalidResponse (why : Json.Fault)
  deriving Repr, DecidableEq

/-- A guardrail that stops a call, and why. -/
structure Fault where
  guardrail : String
  cause : Cause
  deriving Repr, DecidableEq

/-- The wording of a fault. A rejection is worded by the guardrail itself. -/
def Fault.message (f : Fault) : String :=
  match f.cause with
  | .rejected message => message
  | .notStarted why => "failed to start guardrail " ++ f.guardrail ++ ": " ++ why
  | .notRead why => "guardrail " ++ f.guardrail ++ " I/O failure: " ++ why
  | .failed status output =>
    "guardrail " ++ f.guardrail ++ " failed with " ++ status.text ++ ": " ++ output
  | .late => "guardrail " ++ f.guardrail ++ " timed out"
  | .cancelled => "guardrail " ++ f.guardrail ++ " cancelled"
  | .invalidResponse why =>
    "guardrail " ++ f.guardrail ++ " returned an invalid response: " ++ why.message

end SqlGate.Guardrail
