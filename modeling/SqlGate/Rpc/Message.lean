import SqlGate.Json.Fault
import SqlGate.Json.Reader
import SqlGate.Tool.Call

/-!
# Messages

## Why a request is not answered with a result

Each reason has a code and a wording. The codes tell apart what is no text of a value, what is no
request, what asks for an unknown method, and what gives a method something it does not take.
-/

namespace SqlGate.Rpc

/-- Why a request is not answered with a result. -/
inductive Fault where
  | unreadable (why : Json.Fault)
  | noRequest (why : Json.Mismatch)
  | unknownVersion (version : String)
  | unknownMethod (method : String)
  | noParams
  | badParams (why : Json.Mismatch)
  | tool (why : Tool.Fault)
  deriving Repr, DecidableEq

namespace Fault

/-- The code of a fault. -/
def code : Fault → Int
  | unreadable _ => -32700
  | noRequest _ => -32600
  | unknownVersion _ => -32600
  | unknownMethod _ => -32601
  | noParams => -32602
  | badParams _ => -32602
  | tool _ => -32602

/-- The wording of a fault. -/
def message : Fault → String
  | unreadable why => "parse error: " ++ why.message
  | noRequest why => "invalid request: " ++ why.message
  | unknownVersion v => "invalid request: unsupported jsonrpc version " ++ v
  | unknownMethod m => "method not found: " ++ m
  | noParams => "invalid params: missing params"
  | badParams why => "invalid params: " ++ why.message
  | tool why => why.message

end Fault

/-- The code of failures to read the input. -/
def internalCode : Int := -32603

end SqlGate.Rpc

/-!
## Requests and responses

A message is one line of text that holds one object. A request names a method and may have an
identifier, which its response repeats; without one it is a notification, and nobody responds. What
is no request is responded to as well, with the identifier that is found in it, if any.
-/

namespace SqlGate.Rpc

/-- The version of the protocol that messages must name. -/
def version : String := "2.0"

/-- A request. -/
structure Request where
  version : String
  id : Option Json
  method : String
  params : Option Json

namespace Request

/-- The request before its fields are read. -/
def initial : Request := ⟨"", none, "", none⟩

/-- The fields of a request. -/
def fields : List (Document.Field Request) :=
  [.of "jsonrpc" true Document.string fun v r => { r with version := v },
   .of "id" false (Document.optional Document.json) fun v r => { r with id := v },
   .of "method" true Document.string fun v r => { r with method := v },
   .of "params" false (Document.optional Document.json) fun v r => { r with params := v }]

/-- The request that a value is. -/
def ofJson (v : Json) : Except Fault Request := do
  let r ← (Document.struct "JsonRpcRequest" fields initial (.ofJson v)).mapError .noRequest
  if r.version = Rpc.version then return r else throw (.unknownVersion r.version)

/-- The request of a line, or the identifier to respond to and why it is none. -/
def ofText (line : String) : Except (Json × Fault) Request :=
  match Json.ofString line with
  | .error why => .error (.null, .unreadable why)
  | .ok v => (ofJson v).mapError fun why => ((v.get? "id").getD .null, why)

end Request

/-- A response: to whom, and the result or why there is none. -/
structure Response where
  id : Json
  outcome : Except Fault Json

/-- A fault as a value. -/
def Fault.toJson (f : Fault) : Json := .obj [("code", .int f.code), ("message", .str f.message)]

/-- A response as a value. -/
def Response.toJson (r : Response) : Json :=
  .obj [("jsonrpc", .str version), ("id", r.id),
    match r.outcome with
    | .ok v => ("result", v)
    | .error f => ("error", f.toJson)]

/-- A response as a line. -/
def Response.line (r : Response) : String := r.toJson.text

/-- What withdraws a request: its identifier. -/
def withdrawal : Document.Read Json :=
  Document.struct "CancelledParams"
    [.of "requestId" true Document.json fun v _ => v,
     .of "reason" false (Document.optional Document.string) fun _ id => id] .null

end SqlGate.Rpc
