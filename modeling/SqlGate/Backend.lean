import SqlGate.Duration
import SqlGate.Json.Printer
import SqlGate.Native.Value

/-!
# Databases

A database opens transactions, executes statements in them and tells about its tables. Here it is a
function from operations to how they turn out: after a while, or never, there is an answer or a
chain of reasons why there is none.
-/

namespace SqlGate

/-- How a transaction is opened. -/
structure Backend.Options where
  readOnly : Bool
  statementTimeout : Duration
  deriving Repr, DecidableEq

/-- What a statement gave: values in rows, and how many rows it changed. -/
structure Backend.Execution where
  columns : List String
  rows : List (List Native)
  rowsAffected : Nat

/-- A table in a list of tables. -/
structure Backend.Table where
  schema : String
  name : String
  kind : String
  deriving Repr, DecidableEq

/-- A column of a table. -/
structure Backend.Column where
  name : String
  dataType : String
  nullable : Bool
  default : Option String
  primaryKey : Bool
  deriving Repr, DecidableEq

/-- What a table consists of. -/
structure Backend.TableSchema where
  schema : String
  name : String
  columns : List Backend.Column
  deriving Repr, DecidableEq

/-- What a database is asked to do. -/
inductive Backend.Operation where
  | begin (options : Backend.Options)
  | execute (sql : String)
  | commit
  | rollback
  | listTables (schema : Option String)
  | describeTable (schema : Option String) (table : String)
  deriving Repr, DecidableEq

/-- Why a database did not do something: reasons, the outermost first. -/
structure Backend.Fault where
  reasons : List String
  deriving Repr, DecidableEq

/-- The wording of a fault. -/
def Backend.Fault.message (f : Backend.Fault) : String := ": ".intercalate f.reasons

/-- How something turns out: the milliseconds until it is done, if ever, and the result. -/
structure Backend.Behaviour (α : Type) where
  delay : Option Nat
  result : α

/-- What an operation gives. -/
def Backend.Operation.Answer : Backend.Operation → Type
  | begin _ => Unit
  | execute _ => Backend.Execution
  | commit => Unit
  | rollback => Unit
  | listTables _ => List Backend.Table
  | describeTable _ _ => Backend.TableSchema

/-- Whether an operation is the end of a transaction. -/
def Backend.Operation.endsTransaction : Backend.Operation → Bool
  | commit => true
  | rollback => true
  | _ => false

/-- A database. -/
structure Backend where
  behaviour : (op : Backend.Operation) → Backend.Behaviour (Except Backend.Fault op.Answer)

namespace Backend

/-- The database that never answers. -/
def silent : Backend := ⟨fun _ => ⟨none, .error ⟨[]⟩⟩⟩

/-! ## Written forms -/

/-- A table as a value. -/
def Table.toJson (t : Table) : Json :=
  .obj [("schema", .str t.schema), ("name", .str t.name), ("kind", .str t.kind)]

/-- A column as a value; a default that is not there is left out. -/
def Column.toJson (c : Column) : Json :=
  .obj ([("name", .str c.name), ("data_type", .str c.dataType), ("nullable", .bool c.nullable)] ++
    c.default.toList.map (fun s => ("default", .str s)) ++ [("primary_key", .bool c.primaryKey)])

/-- What a table consists of, as a value. -/
def TableSchema.toJson (t : TableSchema) : Json :=
  .obj [("schema", .str t.schema), ("name", .str t.name),
    ("columns", .arr (t.columns.map Column.toJson))]

/-- An operation as a line of a log. -/
def Operation.text : Operation → String
  | begin o =>
    s!"begin read_only={o.readOnly} timeout_ns=" ++ Text.decimal o.statementTimeout.nanos
  | execute sql => "execute " ++ sql
  | commit => "commit"
  | rollback => "rollback"
  | listTables schema => "list_tables " ++ (Json.ofText? schema).text
  | describeTable schema table =>
    "describe_table " ++ (Json.ofText? schema).text ++ " " ++ (Json.str table).text

end Backend

end SqlGate
