import SectionIndex.Service.Stdio
import SectionIndex.Text.Wide

/-!
# The web service

The tools over HTTP: one route for remote calls, and one route for each question. Every response
has the id of its request and two headers that restrict browsers, but for the response to a fault
that nobody expected.

A response leaves the service in UTF-8. Names of files need not be UTF-8: a byte of a name that
belongs to no character is held as a character of its own, a stray, and no bytes can be written for
it. A response with strays is therefore not sent, and the one to an unexpected fault is sent in its
place. Replies to remote calls are in ASCII, where a stray is escaped as any other character.

## Main definitions

* `Web.Request`, `Web.Response`, `Web.Route`.
* `Web.respond` — the response to a request.
* `Web.Strays`, `Web.send` — what is sent for a response.
-/

namespace SectionIndex

/-- **A request.** The query is its pairs in order, the headers have names in small letters. -/
structure Web.Request where
  method : Text
  path : Text
  query : List (Text × Text) := []
  headers : List (Text × Text) := []
  body : Bytes := []
  deriving Repr

/-- What a response holds. -/
inductive Web.Body
  | json (value : Json)
  | text (content : Text)
  deriving Repr

/-- **A response.** -/
structure Web.Response where
  status : Nat
  headers : List (Text × Text) := []
  body : Web.Body
  deriving Repr

/-- **The routes.** -/
inductive Web.Route
  | health
  | root
  | calls
  | fileIndex
  | sectionText
  | check
  deriving DecidableEq, Repr

namespace Web

namespace Route

/-- All routes. -/
def all : List Route :=
  [.health, .root, .calls, .fileIndex, .sectionText, .check]

/-- The path of a route. -/
def path : Route → Text
  | .health => "/health"
  | .root => "/"
  | .calls => "/mcp"
  | .fileIndex => "/v1/index"
  | .sectionText => "/v1/section"
  | .check => "/v1/verify"

/-- The method of a route. -/
def method : Route → Text
  | .calls => "POST"
  | _ => "GET"

/-- The path leads to the route. A line feed at its end is passed over. -/
def isAt (path : Text) (route : Route) : Bool :=
  path == route.path || path == route.path ++ ['\n']

/-- The route that a path leads to. -/
def ofPath? (path : Text) : Option Route :=
  all.find? (isAt path)

end Route

/-- The header of a body in JSON. -/
def jsonHeader : Text × Text :=
  ("content-type", "application/json")

/-- A response in JSON. -/
def Response.ofJson (status : Nat) (value : Json) : Response :=
  ⟨status, [jsonHeader], .json value⟩

/-- A response that explains why there is no other. -/
def Response.detail (status : Nat) (message : Text) : Response :=
  .ofJson status (.obj (Json.record [("detail", .str message)]))

/-- The members of a response that says what went wrong. -/
def refusal (message : Text) : Json.Members :=
  Json.record [("success", .bool false), ("error", .str message)]

/-- The response to a question that cannot be answered for a fault of the file. -/
def Response.refused (status : Nat) (message : Text) : Response :=
  .ofJson status (.obj (refusal message))

/-- The response to a request whose parameters are missing. -/
def Response.missing (parameters : List Text) : Response :=
  .ofJson 422 (.obj (Json.record [("detail", .arr (parameters.map fun (parameter : Text) =>
    .obj (Json.record
      [("type", .str "missing"), ("loc", .arr [.str "query", .str parameter]),
       ("msg", .str "Field required"), ("input", .null)])))]))

/-- The response to a fault that nobody expected. -/
def Response.internalError : Response :=
  .refused 500 "An internal server error occurred."

/-- The status of a fault of the file that is asked about; none if it is another fault. -/
def statusOf? : Fault → Option Nat
  | .unreadable _ .notFound | .unreadable _ .notAFile => some 404
  | .unreadable _ (.notReadable _) => some 422
  | .outsideWorkspace _ _ => some 403
  | _ => none

/-- The response to a question, or none to a fault that nobody expected. -/
def Response.ofPayload? : Except Fault Json.Members → Option Response
  | .ok payload => some (.ofJson 200 (.obj payload))
  | .error fault => (statusOf? fault).map fun status => .refused status fault.message

/-- The value of a parameter: the last one given. -/
def Request.parameter? (request : Request) (name : Text) : Option Text :=
  request.query.reverse.lookup name

/-- The first value of a header. -/
def Request.header? (request : Request) (name : Text) : Option Text :=
  request.headers.lookup name

/-- The response to the question for a section; a name that is not there is a refusal too. -/
def sectionResponse? (context : Context) (file name : Text) : Option Response :=
  let result : Except Fault ReadResult := do
    let path ← context.resolvePath file
    context.readSection path.toText name
  match result with
  | .ok (.unknown name available) =>
    some (.ofJson 404 (.obj (Json.record [("success", .bool false)] ++
      (ReadResult.unknown name available).payload)))
  | .ok result => Response.ofPayload? (.ok result.payload)
  | .error fault => Response.ofPayload? (.error fault)

/-- All code points are characters, which have bytes. -/
def hasBytes (points : Points) : Bool :=
  points.toText?.isSome

mutual

/-- The value can be sent as JSON that others read: its numbers are numbers and its texts have
bytes. -/
def isSendable : Json → Bool
  | .binary x => x.isFinite
  | .str points => hasBytes points
  | .arr items => areSendable items
  | .obj members => membersAreSendable members
  | _ => true

/-- The same for items. -/
def areSendable : List Json → Bool
  | [] => true
  | item :: items => isSendable item && areSendable items

/-- The same for members. -/
def membersAreSendable : List (Points × Json) → Bool
  | [] => true
  | (key, value) :: members =>
    hasBytes key && isSendable value && membersAreSendable members

end

/-- The response to remote calls, or none to a fault that nobody expected. -/
def callsResponse? (context : Context) (depths : Rpc.Depths) (body : Bytes) : Option Response :=
  let reply : Except Fault Rpc.Reply :=
    match decodeMessage body with
    | some message => Stdio.answerMessage context depths.reading message
    | none => .ok (.single (.problem .null .parseError))
  match reply with
  | .error _ => none
  | .ok reply =>
    match reply.toJson? with
    | none => some ⟨202, [], .text []⟩
    | some value =>
      if isSendable value ∧ value.nesting ≤ depths.writing then some (.ofJson 200 value) else none

/-- The response to the question how the service is, or none if the clock cannot tell. -/
def healthResponse? (context : Context) : Option Response :=
  context.now.answerStamp.map fun stamp =>
    .ofJson 200 (.obj (Json.record
      [("status", .str "healthy"), ("version", .str Rpc.version), ("timestamp", .str stamp)]))

/-- What the service says of itself. -/
def rootResponse : Response :=
  .ofJson 200 (.obj (Json.record
    [("name", .str "AI-Index"), ("version", .str Rpc.version), ("docs", .str "/docs"),
     ("health", .str Route.health.path), ("mcp", .str Route.calls.path)]))

/-- The parameter that names the file. -/
def fileParameter : Text := "path"

/-- The parameter that names the section. -/
def nameParameter : Text := "name"

/-- **The response of a route**, or none to a fault that nobody expected. -/
def Route.respond? (context : Context) (depths : Rpc.Depths) (request : Request) :
    Route → Option Response
  | .health => healthResponse? context
  | .root => some rootResponse
  | .calls => callsResponse? context depths request.body
  | .fileIndex =>
    match request.parameter? fileParameter with
    | some file => Response.ofPayload? (Tool.fileIndexPayload context file)
    | none => some (.missing [fileParameter])
  | .sectionText =>
    match request.parameter? fileParameter, request.parameter? nameParameter with
    | some file, some name => sectionResponse? context file name
    | file, name =>
      some (.missing ((if file.isNone then [fileParameter] else []) ++
        (if name.isNone then [nameParameter] else [])))
  | .check =>
    match request.parameter? fileParameter with
    | some file => Response.ofPayload? (Tool.verifyPayload context file)
    | none => some (.missing [fileParameter])

/-- **The service:** the address it is known by, the id it gives to requests without one, and how
deep brackets may stand in remote calls. -/
structure Service where
  address : Text
  freshId : Text
  depths : Rpc.Depths
  deriving Repr

/-- A character that stands in an address as it is. -/
def isAddressChar (c : Char) : Bool :=
  c.isAlphanum || ("_.-~:/%#?=@[]!$&'()*+," : Text).contains c

/-- An address with all other characters as the hexadecimal digits of their bytes. -/
def quoteAddress (t : Text) : Text :=
  t.flatMap fun c =>
    if isAddressChar c then [c]
    else (encodeChar c).flatMap fun byte =>
      '%' :: (Text.hexPadded 2 byte.toNat).map Char.toUpper

/-- A name or value of a query as it is written. -/
def quoteQuery (t : Text) : Text :=
  t.flatMap fun c =>
    if c.isAlphanum || ("_.-~" : Text).contains c then [c]
    else if c = ' ' then ['+']
    else (encodeChar c).flatMap fun byte =>
      '%' :: (Text.hexPadded 2 byte.toNat).map Char.toUpper

/-- The path without its final slashes, or with one if it has none. -/
def otherSlash (path : Text) : Text :=
  if path.getLast? = some '/' then Text.trimEnd (· == '/') path else path ++ ['/']

/-- The response that sends a request on to another path. -/
def redirect (service : Service) (request : Request) (path : Text) : Response :=
  let query : Text :=
    if request.query = [] then []
    else '?' :: Text.join "&" (request.query.map fun (key, value) =>
      quoteQuery key ++ '=' :: quoteQuery value)
  ⟨307, [("location", quoteAddress ("http://" ++ service.address ++ path ++ query))], .text []⟩

/-- The response to a request before the headers that all responses have, or none to a fault that
nobody expected. -/
def dispatch? (context : Context) (service : Service) (request : Request) : Option Response :=
  match Route.ofPath? request.path with
  | some route =>
    if route.method = request.method then route.respond? context service.depths request
    else
      let response := Response.detail 405 "Method Not Allowed"
      some { response with headers := ("allow", route.method) :: response.headers }
  | none =>
    -- no route has the path: one with the other slash at its end may be meant
    let path := otherSlash request.path
    match Route.ofPath? path with
    | some _ => some (redirect service request path)
    | none => some (.detail 404 "Not Found")

/-- The name of the header with the id of a request. -/
def idHeader : Text := "x-request-id"

/-- The id of a request: the one it brings, if that is not empty, or a fresh one. -/
def Request.id (request : Request) (service : Service) : Text :=
  match request.header? idHeader with
  | some (c :: id) => c :: id
  | _ => service.freshId

/-- The two moments in the life of a service that its host announces. -/
inductive LifeEvent
  | startup
  | shutdown
  deriving DecidableEq, Repr

/-- The answer to an announcement: there is nothing that has to be made ready or cleared away, so
both are complete at once. -/
def LifeEvent.acknowledgement : LifeEvent → Text
  | .startup => "lifespan.startup.complete"
  | .shutdown => "lifespan.shutdown.complete"

/-- **The response to a request.** -/
def respond (context : Context) (service : Service) (request : Request) : Response :=
  match dispatch? context service request with
  | none => .internalError
  | some response =>
    { response with
      headers := response.headers ++
        [(idHeader, request.id service), ("x-content-type-options", "nosniff"),
         ("x-frame-options", "DENY")] }

/-- **The characters that stand for bytes** of names that are not UTF-8. The host takes characters
for them that no text has; none of them is in ASCII. -/
structure Strays where
  isStray : Char → Bool
  not_ascii : ∀ c, isStray c = true → 128 ≤ c.toNat

/-- The value has no strays, so it can be written in UTF-8. -/
def Strays.areAbsent (strays : Strays) (value : Json) : Bool :=
  value.texts.all fun points => points.all fun p => !p.toChar?.any strays.isStray

/-- The response has a body that can be written in UTF-8. -/
def Response.isWritable (response : Response) (strays : Strays) : Bool :=
  match response.body with
  | .json value => strays.areAbsent value
  | .text _ => true

/-- **What is sent for a response:** the response itself if its body can be written, or else the
response to an unexpected fault. -/
def send (strays : Strays) (response : Response) : Response :=
  if response.isWritable strays then response else .internalError

end Web

end SectionIndex
