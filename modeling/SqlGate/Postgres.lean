import SqlGate.Backend
import SqlGate.Config.Database
import SqlGate.Postgres.ColumnType

/-!
# PostgreSQL servers as databases

A server prepares and runs statements and answers questions about its catalog. A transaction is
opened with the statements that make it read-only and limit the time of each statement in it. A
statement is prepared first: whether it has columns decides whether rows are read or counted.

A network finds servers by their URLs, or says why it does not.
-/

namespace SqlGate.Postgres

/-- A column of a prepared statement. -/
structure Column where
  name : String
  type : ColumnType

/-- What running a statement gives. -/
structure Completion where
  rows : List (List (Option (List UInt8)))
  rowsAffected : Nat

/-- A column as the catalog knows it. -/
structure CatalogColumn where
  name : String
  dataType : String
  isNullable : String
  default : Option String

/-- A server; what it refuses, it refuses with a message. -/
structure Server where
  prepare : String → Except String (List Column)
  run : String → Except String Completion
  tables : Option String → Except String (List Backend.Table)
  currentSchema : Except String String
  /-- The columns of a table in a schema, in their order. -/
  columns : String → String → Except String (List CatalogColumn)
  /-- The names of the columns in the primary key of a table in a schema. -/
  primaryKey : String → String → Except String (List String)

/-- The fault of something that a server refuses. -/
def refusal (message : String) : Backend.Fault :=
  ⟨["error returned from database: " ++ message, message]⟩

/-- What a server says, with its refusals as faults. -/
def told (r : Except String α) : Except Backend.Fault α := r.mapError refusal

/-- The milliseconds that limit a statement: whole ones, and at least one. -/
def limitMillis (d : Duration) : Nat := max 1 (d.nanos / 1000000)

/-- The statements that open a transaction. -/
def opening (o : Backend.Options) : List String :=
  "BEGIN" :: (if o.readOnly then ["set transaction read only"] else []) ++
    ["set local statement_timeout = " ++ Text.decimal (limitMillis o.statementTimeout)]

namespace Server

/-- Runs a statement for what it does. -/
def perform (s : Server) (sql : String) : Except Backend.Fault Unit := do
  let _ ← told (s.run sql)

/-- Executes a statement. -/
def execute (s : Server) (sql : String) : Except Backend.Fault Backend.Execution := do
  let columns ← told (s.prepare sql)
  let done ← told (s.run sql)
  if columns.isEmpty then return ⟨[], [], done.rowsAffected⟩
  else
    let row (cells : List (Option (List UInt8))) : List Native :=
      columns.zipWith (fun c cell => c.type.decodeCell cell) cells
    return ⟨columns.map (·.name), done.rows.map row, done.rows.length⟩

/-- Says what a table consists of. -/
def describeTable (s : Server) (schema : Option String) (table : String) :
    Except Backend.Fault Backend.TableSchema := do
  let schema ← match schema with
    | some name => pure name
    | none => told s.currentSchema
  let columns ← told (s.columns schema table)
  if columns.isEmpty then throw ⟨["table " ++ schema ++ "." ++ table ++ " does not exist"]⟩
  else
    let key ← told (s.primaryKey schema table)
    return ⟨schema, table, columns.map fun c =>
      ⟨c.name, c.dataType, c.isNullable = "YES", c.default, key.contains c.name⟩⟩

/-- What a server answers to an operation. -/
def answer (s : Server) : (op : Backend.Operation) → Except Backend.Fault op.Answer
  | .begin o => (opening o).forM s.perform
  | .execute sql => s.execute sql
  | .commit => s.perform "COMMIT"
  | .rollback => s.perform "ROLLBACK"
  | .listTables schema => told (s.tables schema)
  | .describeTable schema table => s.describeTable schema table

/-- A server as a database, which answers at once. -/
def backend (s : Server) : Backend := ⟨fun op => ⟨some 0, s.answer op⟩⟩

end Server

/-! ## Finding servers -/

/-- Finds the server of a URL, or says why there is none. -/
abbrev Network := String → Except String Server

/-- The network in which nothing can be found. -/
def Network.unreachable : Network := fun _ => .error "Network is unreachable (os error 101)"

/-- The fault of a server that is not found. -/
def unreached (why : String) : Backend.Fault :=
  ⟨["error communicating with database: " ++ why, why]⟩

/-- Connects to the server of a configuration. -/
def connect (network : Network) (env : Environment) (d : Config.Database) :
    Except Backend.Fault Server :=
  (network (d.connectionString env)).mapError unreached

end SqlGate.Postgres
