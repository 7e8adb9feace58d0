import SqlGate.Admission.Pool
import SqlGate.Backend
import SqlGate.Guardrail.Chain
import SqlGate.Native.Render
import SqlGate.Policy.Rules
import SqlGate.QueryResult

/-!
# What a call comes to

## Why a call fails

Each stage of a call has its own reasons. A database may refuse a statement, take too long, or the
caller may give up; what a guardrail leaves of a result may not be a result.
-/

namespace SqlGate.Pipeline

/-- Why a call fails. -/
inductive Fault where
  | admission (why : Admission.Fault)
  | guardrail (why : Guardrail.Fault)
  | policy (why : Policy.Refusal)
  | database (why : Backend.Fault)
  | timeout (limit : Duration)
  | cancelled
  | unreadableResult (why : Json.Fault)
  deriving Repr, DecidableEq

/-- The wording of a fault. -/
def Fault.message : Fault → String
  | admission why => why.message
  | guardrail why => why.message
  | policy why => why.message
  | database why => why.message
  | timeout limit => "statement timed out after " ++ limit.debug
  | cancelled => "call cancelled"
  | unreadableResult why => "internal error: " ++ why.message

end SqlGate.Pipeline

/-!
## From what a statement gave to what its caller gets

A row becomes an object: the values stand under the names of their columns, and of two columns of
one name the later one counts. A result whose rows are too long in their written form is cut: the
rows go, and the beginning of the written form becomes the error.
-/

namespace SqlGate.QueryResult

/-- A row as an object. -/
def rowOf (columns : List String) (values : List Native) : Row :=
  (columns.zip (values.map Native.render)).foldl (fun row cell => Json.insert cell.1 cell.2 row) []

/-- The result of a statement. Rows that it gave count as affected. -/
def ofExecution (e : Backend.Execution) : QueryResult :=
  let rows := e.rows.map (rowOf e.columns)
  ⟨e.columns, rows, max e.rowsAffected rows.length, none⟩

/-- What follows the beginning of a written form that was cut. -/
def cutMark : String := "... [truncated: result exceeds limits.max_result_bytes]"

/-- The result with its rows cut if their written form is longer than a number of bytes. -/
def cap (r : QueryResult) (maxBytes : Nat) : QueryResult :=
  let written := (rowsJson r.rows).text
  if written.utf8ByteSize ≤ maxBytes then r
  else
    { r with
      rows := []
      error := some ((Text.Utf8.beginning? written maxBytes).getD "" ++ cutMark) }

end SqlGate.QueryResult
