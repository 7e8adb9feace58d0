import SqlGate.Rpc.Message
import SqlGate.Tool.Definition

/-!
# Methods

A server says what it is, says that it is there, lists its tools, and calls them. All but the last
is answered at once.
-/

namespace SqlGate.Rpc

/-- The revision of the protocol that the server speaks. -/
def protocolRevision : String := "2024-11-05"

/-- The version that the server says it has. -/
def serverVersion : String := "0.4.0"

/-- What a server says about itself. -/
def introduction (serverName : String) : Json :=
  .object [("protocolVersion", .str protocolRevision),
    ("serverInfo", .object [("name", .str serverName), ("version", .str serverVersion)]),
    ("capabilities", .object [("tools", .object [("listChanged", .bool false)])])]

/-- What is to be done about a request. -/
inductive Task where
  | respond (outcome : Except Fault Json)
  | call (call : Tool.Call)

/-- The call of a tool that is asked for. -/
def toolCall (params : Option Json) : Except Fault Tool.Call := do
  match params with
  | none => throw .noParams
  | some v =>
    let p ← (Tool.Params.ofDocument (.ofJson v)).mapError .badParams
    (Tool.Call.ofParams p).mapError .tool

/-- What is to be done about a request to a server. -/
def Request.task (serverName : String) (r : Request) : Task :=
  match r.method with
  | "initialize" => .respond (.ok (introduction serverName))
  | "ping" => .respond (.ok (.obj []))
  | "tools/list" => .respond (.ok (.object [("tools", Tool.definitions)]))
  | "tools/call" =>
    match toolCall r.params with
    | .ok c => .call c
    | .error why => .respond (.error why)
  | m => .respond (.error (.unknownMethod m))

end SqlGate.Rpc
