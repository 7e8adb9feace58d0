import SqlGate.Execution.Diagnostics
import SqlGate.Execution.Sanitizer
import SqlGate.Execution.Timeouts
import SqlGate.Gateway
import SqlGate.Guardrail.Process
import SqlGate.Pipeline.Outcome
import SqlGate.Policy.Check
import SqlGate.Tool.Call

/-!
# What a call does

A statement goes through the guardrails before it, then the policy; the text that comes out is
executed in a transaction of its own, within the time that is chosen for it. The guardrails after it
see the result before the transaction is committed, so a result that one of them refuses leaves
nothing behind. A result is sanitized and cut last. All errors of a statement, whatever their
origin, become part of its result, with the hints on them.

The lists of tables and what tables consist of come straight from the database.
-/

namespace SqlGate

/-- All that is needed to serve calls. -/
structure Pipeline where
  policy : Policy.Rules
  guardrails : Guardrail.Chain
  timeouts : TimeoutSelector
  sanitizer : Sanitizer
  diagnostics : Diagnostics
  pool : Admission.Pool
  maxResultBytes : Nat

/-- What a call answers. -/
inductive Answer where
  | result (r : QueryResult)
  | tables (r : Except Pipeline.Fault (List Backend.Table))
  | schema (r : Except Pipeline.Fault Backend.TableSchema)

/-- An answer as a text, or why there is none. Failures of statements are part of their results. -/
def Answer.text : Answer → Except Pipeline.Fault String
  | result r => .ok r.text
  | tables r => r.map fun ts => (Json.arr (ts.map (·.toJson))).text
  | schema r => r.map fun t => t.toJson.text

/-- Whether an answer tells of a failure. -/
def Answer.isError : Answer → Bool
  | result r => r.isError
  | a => !a.text.isOk

/-- An answer as the content of the result of a tool. -/
def Answer.content (a : Answer) : Json :=
  let text := match a.text with
    | .ok s => s
    | .error why => why.message
  .object [("content", .arr [.object [("type", .str "text"), ("text", .str text)]]),
    ("isError", .bool a.isError)]

namespace Pipeline

/-- Work that may fail. -/
abbrev Attempt := ExceptT Fault Work

/-- What a reply of the database means for a call. A call that is late is told the limit that was
chosen for it. -/
def ofReply (limit : Duration) : Reply α → Except Fault α
  | .answered (.ok a) => .ok a
  | .answered (.error why) => .error (.database why)
  | .late .expired => .error (.timeout limit)
  | .late .cancelled => .error .cancelled

/-- Asks the database for something until an instant at most. -/
def perform (limit : Duration) (until' : Option Instant) (op : Backend.Operation) :
    Attempt op.Answer :=
  .mk (.perform op until' fun reply => .done (ofReply limit reply))

/-- Asks the guardrails of a phase. -/
def consult (p : Pipeline) (phase : Guardrail.Phase) (text : String) : Attempt String :=
  .mk (do return (← (p.guardrails.consult phase text).run).mapError .guardrail)

/-- The instant that is a span from now. It is asked for outside transactions. -/
def deadline (span : Duration) : Attempt Instant :=
  .mk (.deadline span false fun t => .done (.ok t))

/-- Rolls a transaction back; how that comes out is not told. -/
def rollback : Work Unit := .perform .rollback none fun _ => .done ()

/-- What happens in a transaction: the statement, and the guardrails after it if there are any. -/
def inTransaction (p : Pipeline) (limit : Duration) (until' : Instant) (sql : String) :
    Attempt QueryResult := do
  let r := QueryResult.ofExecution (← perform limit (some until') (.execute sql))
  if p.guardrails.after.isEmpty then return r
  else
    match QueryResult.ofText (← p.consult .after r.text) with
    | .ok r => return r
    | .error why => throw (.unreadableResult why)

/-- Ends a transaction: it is rolled back after a failure, and else committed. Only what is committed
is sanitized and cut. -/
def close (p : Pipeline) (limit : Duration) : Except Fault QueryResult → Attempt QueryResult
  | .error why => do
    ExceptT.lift rollback
    throw why
  | .ok r => do
    perform limit none .commit
    return { r with rows := p.sanitizer.rows r.rows }.cap p.maxResultBytes

/-- How the transaction for a text is opened. -/
def options (p : Pipeline) (sql : String) : Backend.Options :=
  ⟨p.policy.readOnly, p.timeouts.select sql⟩

/-- Opens the transaction for a text. -/
def enter (p : Pipeline) (until' : Instant) (sql : String) : Attempt Unit :=
  perform (p.timeouts.select sql) (some until') (.begin (p.options sql))

/-- Executes a text in a transaction of its own. -/
def transact (p : Pipeline) (sql : String) : Attempt QueryResult := do
  let limit := p.timeouts.select sql
  let until' ← deadline limit
  p.enter until' sql
  p.close limit (← ExceptT.lift (p.inTransaction limit until' sql).run)

/-- What is done with a statement. -/
def statement (p : Pipeline) (sql : String) : Attempt QueryResult := do
  let sql ← p.consult .before sql
  match p.policy.check sql with
  | .error why => throw (.policy why)
  | .ok () => p.transact sql

/-- A result with the hints on its error. -/
def explain (p : Pipeline) (r : QueryResult) : QueryResult :=
  { r with error := r.error.map p.diagnostics.augment }

/-- The result of a statement, or of its failure. -/
def conclude (p : Pipeline) : Except Fault QueryResult → QueryResult
  | .ok r => p.explain r
  | .error why => p.explain (.failed why.message)

/-- Why a call that gets no slot fails. -/
def exhausted (p : Pipeline) : Fault := .admission (.exhausted p.pool.capacity)

/-- The call that executes a statement. -/
def execute (p : Pipeline) (sql : String) : Call Answer where
  work := do return .result (p.conclude (← (p.statement sql).run))
  exhausted := .result (p.conclude (.error p.exhausted))

/-- What the database is asked for within the limit that there is for all. -/
def catalog (p : Pipeline) (op : Backend.Operation) : Attempt op.Answer := do
  let until' ← deadline p.timeouts.default
  perform p.timeouts.default (some until') op

/-- The call that lists tables. -/
def listTables (p : Pipeline) (schema : Option String) : Call Answer where
  work := do return .tables (← (p.catalog (.listTables schema)).run)
  exhausted := .tables (.error p.exhausted)

/-- The call that says what a table consists of. -/
def describeTable (p : Pipeline) (schema : Option String) (table : String) : Call Answer where
  work := do return .schema (← (p.catalog (.describeTable schema table)).run)
  exhausted := .schema (.error p.exhausted)

/-- The call that a tool makes. -/
def call (p : Pipeline) : Tool.Call → Call Answer
  | .executeSql sql => p.execute sql
  | .listTables schema => p.listTables schema
  | .describeTable table schema => p.describeTable schema table

/-! ## From a configuration -/

/-- Why there is no pipeline for a configuration. -/
inductive Refusal where
  | config (why : Config.Fault)
  /-- More calls at once than can be counted. -/
  | tooManySlots

/-- The pipeline of a configuration, whose guardrails are programs. -/
def ofConfig (programs : Guardrail.Programs) (c : Config) : Except Refusal Pipeline := do
  c.validate.mapError .config
  let pool ← (Admission.Pool.ofCapacity c.admissionCapacity).mapError fun
    | .tooLarge => .tooManySlots
    | _ => .config (.zero "limits.max_concurrency")
  let guardrails ← (Guardrail.Chain.ofConfig programs c.guardrails).mapError .config
  let timeouts ← (TimeoutSelector.ofConfig c.timeouts).mapError .config
  let sanitizer ← (Sanitizer.ofConfig c.sanitize).mapError .config
  let diagnostics ← (Diagnostics.ofConfig c.diagnostics).mapError .config
  return ⟨c.policy, guardrails, timeouts, sanitizer, diagnostics, pool, c.limits.maxResultBytes⟩

end Pipeline

end SqlGate
