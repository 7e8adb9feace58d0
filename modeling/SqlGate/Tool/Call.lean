import SqlGate.Document

/-!
# Tool calls

Three tools can be called: one executes a statement, one lists tables, one describes a table. A call
names its tool and gives arguments, which must be just those that the tool has.
-/

namespace SqlGate.Tool

/-- A tool. -/
inductive Name where
  | executeSql
  | listTables
  | describeTable
  deriving Repr, DecidableEq

namespace Name

/-- All tools, in the order in which they are listed. -/
def all : List Name := [executeSql, listTables, describeTable]

/-- The name of a tool as it is written. -/
def text : Name → String
  | executeSql => "execute_sql"
  | listTables => "list_tables"
  | describeTable => "describe_table"

/-- The tool of a written name. -/
def ofString? (s : String) : Option Name := all.find? (·.text = s)

end Name

/-- A call with the arguments of its tool. -/
inductive Call where
  | executeSql (sql : String)
  | listTables (schema : Option String)
  | describeTable (table : String) (schema : Option String)
  deriving Repr, DecidableEq

/-- The tool that a call is for. -/
def Call.name : Call → Name
  | executeSql _ => .executeSql
  | listTables _ => .listTables
  | describeTable .. => .describeTable

/-- What a caller asks for: the name of a tool and arguments of any shape. -/
structure Params where
  name : String
  arguments : Json

/-- What a caller asks for, in a document. -/
def Params.ofDocument : Document.Read Params :=
  Document.struct "CallToolParams"
    [.of "name" true Document.string fun v p => { p with name := v },
     .of "arguments" false Document.json fun v p => { p with arguments := v }]
    ⟨"", .null⟩

/-- Why something asked for is no call. -/
inductive Fault where
  | unknownTool (name : String)
  | invalidArguments (tool : Name) (why : Json.Mismatch)
  deriving Repr, DecidableEq

/-- The wording of a fault. -/
def Fault.message : Fault → String
  | unknownTool name => "unknown tool: " ++ name
  | invalidArguments tool why => "invalid arguments for tool " ++ tool.text ++ ": " ++ why.message

/-- The arguments of the tool that executes a statement. -/
def executeSqlArguments : Document.Read Call := fun d => do
  return .executeSql (← Document.closedStruct "ExecuteSqlArgs"
    [.of "sql" true Document.string fun v _ => v] "" d)

/-- The arguments of the tool that lists tables. -/
def listTablesArguments : Document.Read Call := fun d => do
  return .listTables (← Document.closedStruct "ListTablesArgs"
    [.of "schema" false (Document.optional Document.string) fun v _ => v] none d)

/-- The arguments of the tool that describes a table. -/
def describeTableArguments : Document.Read Call := fun d => do
  let (table, schema) ← Document.closedStruct "DescribeTableArgs"
    [.of "table" true Document.string fun v (_, s) => (v, s),
     .of "schema" false (Document.optional Document.string) fun v (t, _) => (t, v)] ("", none) d
  return .describeTable table schema

/-- The arguments of a tool. -/
def arguments : Name → Document.Read Call
  | .executeSql => executeSqlArguments
  | .listTables => listTablesArguments
  | .describeTable => describeTableArguments

/-- Arguments that are left out are those of an empty object. -/
def givenArguments : Json → Json
  | .null => .obj []
  | v => v

/-- The call that is asked for. -/
def Call.ofParams (p : Params) : Except Fault Call :=
  match Name.ofString? p.name with
  | none => .error (.unknownTool p.name)
  | some tool =>
    match arguments tool (.ofJson (givenArguments p.arguments)) with
    | .ok c => .ok c
    | .error m => .error (.invalidArguments tool m)

end SqlGate.Tool
