import SqlGate.Pattern
import SqlGate.Work

/-!
# Guardrails in a row

Before a statement and after it, the guardrails of the phase are asked one after the other: each
whose pattern matches the text as it stands by then. What one puts in the place of the text is what
the next one sees; the first that fails or rejects ends it.
-/

namespace SqlGate.Guardrail

/-- A guardrail, when it is asked, and how long it may take. -/
structure Entry where
  pattern : Pattern
  guardrail : Guardrail
  timeout : Duration

/-- The guardrails of both phases. -/
structure Chain where
  before : List Entry
  after : List Entry

/-- The guardrails of a phase. -/
def Chain.entries (c : Chain) : Phase → List Entry
  | .before => c.before
  | .after => c.after

/-- Why a guardrail that rejects does so, when it does not say. -/
def unexplained (name : String) : String := "rejected by guardrail " ++ name

/-- What a decision makes of a text. -/
def Response.apply (r : Response) (phase : Phase) (name text : String) : Except Fault String :=
  if r.accept then .ok ((r.replacement phase).getD text)
  else
    .error ⟨name, .rejected ((r.errorMessage.filter fun s => !s.isEmpty).getD (unexplained name))⟩

/-- Asks one guardrail. -/
def Entry.consult (e : Entry) (phase : Phase) (text : String) : ExceptT Fault Work String :=
  .mk (.deadline e.timeout phase.inTransaction fun limit =>
    .consult e.guardrail text limit fun decision =>
      .done (decision.bind fun r => r.apply phase e.guardrail.name text))

/-- Asks the guardrails of a list whose patterns match. -/
def consultAll (phase : Phase) : List Entry → String → ExceptT Fault Work String
  | [], text => return text
  | e :: es, text => do
    if e.pattern.isMatch text then consultAll phase es (← e.consult phase text)
    else consultAll phase es text

/-- Asks the guardrails of a phase about a text. -/
def Chain.consult (c : Chain) (phase : Phase) (text : String) : ExceptT Fault Work String :=
  consultAll phase (c.entries phase) text

end SqlGate.Guardrail
