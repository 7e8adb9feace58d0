import SqlGate.Tool.Call

/-!
# What the tools are said to take

Every tool is published with a description and a schema of its arguments: an object with certain
members, all of them texts, some of which must be there, and with no others.
-/

namespace SqlGate.Tool

/-- An argument of a tool: its name, whether it must be given, and what it is said to be. -/
structure Argument where
  name : String
  isRequired : Bool
  description : Option String
  deriving Repr, DecidableEq

/-- The arguments of a tool, all of them texts. -/
def Name.arguments : Name → List Argument
  | executeSql => [⟨"sql", true, some "A single SQL statement"⟩]
  | listTables => [⟨"schema", false, none⟩]
  | describeTable => [⟨"table", true, none⟩, ⟨"schema", false, none⟩]

/-- What a tool is said to do. -/
def Name.description : Name → String
  | executeSql =>
    "Execute exactly one SQL statement in its own transaction. " ++
      "The statement is checked against the configured policy and " ++
      "guardrails first. Returns columns, rows, rows_affected and error."
  | listTables => "List tables and views, optionally restricted to one schema."
  | describeTable => "Describe the columns and primary key of one table."

/-- The schema of one argument. -/
def Argument.schema (a : Argument) : Json :=
  .object (("type", .str "string") :: a.description.toList.map fun s => ("description", .str s))

/-- The schema of the arguments of a tool. -/
def Name.inputSchema (t : Name) : Json :=
  let required := (t.arguments.filter (·.isRequired)).map fun a => Json.str a.name
  .object ([("type", .str "object"),
    ("properties", .object (t.arguments.map fun a => (a.name, a.schema))),
    ("additionalProperties", .bool false)] ++
    if required.isEmpty then [] else [("required", .arr required)])

/-- A tool as it is published. -/
def Name.definition (t : Name) : Json :=
  .object [("name", .str t.text), ("description", .str t.description),
    ("inputSchema", t.inputSchema)]

/-- All tools as they are published. -/
def definitions : Json := .arr (Name.all.map Name.definition)

end SqlGate.Tool
