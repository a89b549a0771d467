import SectionIndex.Json.Loose
import SectionIndex.Service.Tool

/-!
# Remote calls

The JSON-RPC 2.0 messages through which agents call the tools. A request is answered by one
response with its id; a message without an id is a notification and is not answered. Several
requests can come in one batch.

## Main definitions

* `Rpc.Response`, `Rpc.Reply`.
* `Rpc.Depths` — how deep brackets may stand where messages are read and replies are written.
* `Rpc.answerRequest` — the response to one message.
* `Rpc.answer` — the reply to a message or a batch.
-/

namespace SectionIndex

namespace Rpc

/-- The version of this library, as it is told to others. -/
def version : Text := "2.0.0"

/-- **What is wrong with a request.** -/
inductive Problem
  | parseError
  | invalidRequest
  | emptyBatch
  | methodNotFound (method : Points)
  | unknownTool (name : Json)
  | argumentsNotObject
  | toolFailed (tool : Tool) (fault : Fault)
  deriving Repr

/-- The code of a problem. -/
def Problem.code : Problem → Int
  | .parseError => -32700
  | .invalidRequest | .emptyBatch => -32600
  | .methodNotFound _ => -32601
  | .unknownTool _ | .argumentsNotObject => -32602
  | .toolFailed _ _ => -32000

/-- The message of a problem. -/
def Problem.message : Problem → Points
  | .parseError => "Parse error"
  | .invalidRequest => "Invalid request"
  | .emptyBatch => "Invalid request: empty batch"
  | .methodNotFound method => "Method not found: " ++ method
  | .unknownTool name => "Unknown tool: " ++ name.display
  | .argumentsNotObject => "Invalid params: 'arguments' must be an object"
  | .toolFailed tool fault => "Tool " ++ tool.label ++ " failed: " ++ fault.message

/-- **A response:** the id of the request, and its result or what is wrong with it. -/
structure Response where
  id : Json
  outcome : Except Problem Json

/-- **What is sent back:** nothing, one response, or the responses to a batch. -/
inductive Reply
  | nothing
  | single (response : Response)
  | batch (responses : List Response)

/-- A response as an object. -/
def Response.toJson (response : Response) : Json :=
  let outcome : String × Json :=
    match response.outcome with
    | .ok result => ("result", result)
    | .error problem =>
      ("error", .obj (Json.record
        [("code", .int problem.code), ("message", .str problem.message)]))
  .obj (Json.record [("jsonrpc", .str "2.0"), ("id", response.id), outcome])

/-- What is sent back, as a value; none if nothing is sent. -/
def Reply.toJson? : Reply → Option Json
  | .nothing => none
  | .single response => some response.toJson
  | .batch responses => some (.arr (responses.map Response.toJson))

/-- How deep brackets stand in what the server says of itself: in the list of its tools, in the
reply to a batch. -/
def ownDepth : Nat := 8

/-- **How deep brackets may stand** in messages that are read and in replies that are written. Both
are what the stack of the process has room for, which depends on where in the process it is done, so
whoever runs the service tells them. There is room for what the server says of itself. -/
structure Depths where
  reading : Nat
  writing : Nat
  own_le_writing : ownDepth ≤ writing
  deriving Repr

/-- The response that something is wrong. -/
def Response.problem (id : Json) (problem : Problem) : Response :=
  ⟨id, .error problem⟩

/-- The response with a result. -/
def Response.result (id result : Json) : Response :=
  ⟨id, .ok result⟩

/-- The id of a request as it is sent back: a text or a whole number, where a truth value counts
as 0 or 1 and a number without a fraction as whole, unless it takes more than 64 bits. Nothing else
is an id. -/
def idOf? : Json → Option Json
  | .str points => some (.str points)
  | value => value.wholeNumber?.map .int

/-- A member, or null if the object does not have it. -/
def member (members : Json.Members) (key : Text) : Json :=
  (members.get? key).getD .null

/-- The parameters of a request: an object, or none if nothing is given. -/
def parametersOf? (value : Json) : Option Json.Members :=
  if value.isTruthy then
    match value with
    | .obj members => some members
    | _ => none
  else some []

/-- **A proper request:** its id, its method and its parameters. -/
structure Request where
  id : Json
  method : Points
  parameters : Json.Members

/-- The request of an object. The protocol version can be missing, but if it is there it is a
text. -/
def requestOf? (members : Json.Members) : Option Request := do
  let id ← idOf? (member members "id")
  let .str method := member members "method" | none
  match members.get? "jsonrpc" with
  | none | some (.str _) => some ()
  | _ => none
  let parameters ← parametersOf? (member members "params")
  return ⟨id, method, parameters⟩

/-- A payload as the result of a call: its text, and whether it says that something went wrong. -/
def toolContent (result : ToolResult) : Json :=
  let content := Json.record
    [("content", .arr [.obj (Json.record
      [("type", .str "text"), ("text", .str (Json.obj result.payload).renderIndented)])])]
  .obj (if result.isError then content ++ Json.record [("isError", .bool true)] else content)

/-- The tool that is called by a name, which may be any value. -/
def toolOf? (name : Json) : Option Tool :=
  name.exactText?.bind Tool.ofLabel?

/-- **The outcome of a tool call.** Arguments that are not given are an empty object. -/
def callTool (context : Context) (parameters : Json.Members) : Except Problem Json :=
  let name := member parameters "name"
  let given := member parameters "arguments"
  let arguments := if given.isTruthy then given else .obj []
  match toolOf? name with
  | none => .error (.unknownTool name)
  | some tool =>
    match arguments with
    | .obj _ =>
      match tool.call context arguments with
      | .ok result => .ok (toolContent result)
      | .error fault => .error (.toolFailed tool fault)
    | _ => .error .argumentsNotObject

/-- What the server says of itself. -/
def handshake (settings : Settings) : Json :=
  .obj (Json.record
    [("protocolVersion", .str settings.protocolVersion),
     ("serverInfo", .obj (Json.record
       [("name", .str settings.serverName), ("version", .str version)])),
     ("capabilities", .obj (Json.record [("tools", .obj [])]))])

/-- The outcome of a request. -/
def perform (context : Context) (request : Request) : Except Problem Json :=
  if request.method = "initialize" then .ok (handshake context.settings)
  else if request.method = "tools/list" then
    .ok (.obj (Json.record [("tools", .arr (Tool.all.map Tool.definition))]))
  else if request.method = "tools/call" then callTool context request.parameters
  else if request.method = "ping" then .ok (.obj [])
  else .error (.methodNotFound request.method)

/-- **The response to one message**; none to a notification. -/
def answerRequest (context : Context) : Json → Option Response
  | .obj members =>
    let id := member members "id"
    if id.isNull then none
    else
      match requestOf? members with
      | none => some (.problem id .invalidRequest)
      | some request => some ⟨request.id, perform context request⟩
  | _ => some (.problem .null .invalidRequest)

/-- **The reply to a message or a batch.** -/
def answer (context : Context) : Json → Reply
  | .arr [] => .single (.problem .null .emptyBatch)
  | .arr messages =>
    match messages.filterMap (answerRequest context) with
    | [] => .nothing
    | responses => .batch responses
  | message => (answerRequest context message).elim .nothing .single

end Rpc

end SectionIndex
