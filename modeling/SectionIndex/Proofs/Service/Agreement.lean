import SectionIndex.Proofs.Service.Answer
import SectionIndex.Proofs.Service.Numbers
import SectionIndex.Proofs.Service.Responses
import SectionIndex.Proofs.Upkeep.Faults

/-!
# Tools and routes agree

A question can be asked by a remote call of a tool and by a request to a route. Both find the same,
and wrap it in their own way: a tool puts its payload into a text and marks it if something is wrong
with the file, a route has a status. The faults that are met on the way are taken for the same by
both, although each has its own list of the faults that are about the file.

## Main definitions

* `Question.message`, `Question.request` — the call and the request that ask a question.
* `FailsAlike` — a step whose faults are about the file for both, or for neither.
* `Rpc.HasContent`, `Rpc.IsServerError` — what a call is answered with.
* `Question.Agree` — response and reply say the same.

## Main statements

* `Question.failsAlike_find` — the faults of a question are about the file for both or neither.
* `Question.exists_reply_agree` — tools and routes agree.
* `Question.exists_reply_agree_send_iff` — and so does what is sent, if it can be written.
-/

namespace SectionIndex

/-! ### Faults of a question -/

namespace Fault

/-- **Tools and routes take the fault alike:** it is about the file for both of them, or for
neither. -/
def IsTakenAlike (fault : Fault) : Prop :=
  fault.isAboutFile = (Web.statusOf? fault).isSome

theorem isTakenAlike_of_isOfNumber {fault : Fault} (h : fault.IsOfNumber) : fault.IsTakenAlike := by
  cases fault <;> first | rfl | exact h.elim

theorem isTakenAlike_unreadable (file : Text) (reason : ReadReason) :
    (unreadable file reason).IsTakenAlike := by
  cases reason <;> rfl

end Fault

/-- **All faults of a step** are taken alike. -/
def FailsAlike {α : Type} (step : Except Fault α) : Prop :=
  ∀ fault, step = .error fault → fault.IsTakenAlike

theorem failsAlike_ok {α : Type} (a : α) : FailsAlike (.ok a) :=
  fun _ h => nomatch h

theorem failsAlike_error {α : Type} {fault : Fault} (h : fault.IsTakenAlike) :
    FailsAlike (.error fault : Except Fault α) := by
  rintro _ ⟨⟩
  exact h

theorem FailsAlike.bind {α β : Type} {step : Except Fault α} {next : α → Except Fault β}
    (hstep : FailsAlike step) (hnext : ∀ a, step = .ok a → FailsAlike (next a)) :
    FailsAlike (step >>= next) :=
  fun fault h => Fault.of_bind h hstep fun a ha => hnext a ha fault

theorem FailsAlike.map {α β : Type} {step : Except Fault α} (h : FailsAlike step) (f : α → β) :
    FailsAlike (step.map f) := by
  cases step with
  | error fault => exact failsAlike_error (h fault rfl)
  | ok a => exact failsAlike_ok (f a)

namespace Host

theorem failsAlike_homeOf (host : Host) (name : Text) : FailsAlike (host.homeOf name) := by
  unfold homeOf
  simp only
  split
  · exact failsAlike_ok _
  · split
    · exact failsAlike_error rfl
    · cases host.accounts.lookup (name.drop 1) with
      | none => exact failsAlike_error rfl
      | some home => exact failsAlike_ok home

theorem failsAlike_expandHome (host : Host) (path : Path) : FailsAlike (host.expandHome path) := by
  unfold expandHome
  split
  · split
    · exact (host.failsAlike_homeOf _).map _
    · exact failsAlike_ok _
  · exact failsAlike_ok _

theorem failsAlike_resolve (host : Host) (path : Path) : FailsAlike (host.resolve path) := by
  unfold resolve
  split
  · exact failsAlike_error rfl
  · split
    · exact failsAlike_ok _
    · simp only
      split
      · exact failsAlike_error rfl
      · exact failsAlike_ok _

theorem failsAlike_loadFile (host : Host) (file : Text) : FailsAlike (host.loadFile file) := by
  rcases host.loadFile_cases file with ⟨content, h⟩ | ⟨reason, h⟩ | h
  · rw [h]
    exact failsAlike_ok content
  · rw [h]
    exact failsAlike_error (Fault.isTakenAlike_unreadable file reason)
  · rw [h]
    exact failsAlike_error rfl

theorem failsAlike_companionOf (host : Host) (file : Text) :
    FailsAlike (host.companionOf file) := by
  intro fault h
  rcases cases_of_companionOf h with ⟨⟨path, rfl⟩, -⟩ | ⟨hnumber, -⟩
  · rfl
  · exact Fault.isTakenAlike_of_isOfNumber hnumber

end Host

namespace Context

theorem failsAlike_resolvePath (context : Context) (file : Text) :
    FailsAlike (context.resolvePath file) := by
  have hworkspace : FailsAlike context.workspace :=
    (context.host.failsAlike_expandHome _).bind fun _ _ => context.host.failsAlike_resolve _
  refine hworkspace.bind fun root _ => ?_
  refine (context.host.failsAlike_expandHome _).bind fun path _ => ?_
  refine (context.host.failsAlike_resolve _).bind fun path _ => ?_
  split
  · exact failsAlike_ok _
  · exact failsAlike_error rfl

theorem failsAlike_indexOf (context : Context) (file content : Text) :
    FailsAlike (context.indexOf file content) := by
  have hnow : FailsAlike context.utcNow := by
    unfold utcNow
    cases context.now.utc? with
    | none => exact failsAlike_error rfl
    | some moment => exact failsAlike_ok moment
  have hdetect : FailsAlike (context.detect file (Text.splitLines content)) :=
    (context.host.failsAlike_companionOf file).bind fun _ _ => failsAlike_ok _
  exact hdetect.bind fun _ _ => hnow.bind fun _ _ => failsAlike_ok _

theorem failsAlike_verify (context : Context) (file : Text) (tolerance : Option Int) :
    FailsAlike (context.verify file tolerance) := by
  unfold verify
  split
  · exact failsAlike_ok _
  · next fault _ hload => exact failsAlike_error (context.host.failsAlike_loadFile file fault hload)
  · next content _ =>
    have hparse : FailsAlike (Block.parse content) := fun fault h =>
      Fault.isTakenAlike_of_isOfNumber (Block.isOfNumber_of_parse h)
    refine hparse.bind fun stored _ => ?_
    cases stored with
    | none => exact failsAlike_ok _
    | some stored => exact failsAlike_ok _

end Context

/-- **The faults of a question** are about the file for tools and routes, or for neither. -/
theorem Question.failsAlike_find (question : Question) (context : Context) :
    FailsAlike (question.find context) := by
  refine (context.failsAlike_resolvePath question.file).bind fun path _ => ?_
  -- each question is a chain of steps, and each step fails alike
  cases question with
  | index file =>
    refine FailsAlike.map ?_ Finding.index
    exact (context.host.failsAlike_loadFile _).bind fun content _ => context.failsAlike_indexOf _ _
  | readSection file name =>
    refine FailsAlike.map ?_ Finding.reading
    refine (context.host.failsAlike_loadFile _).bind fun content _ => ?_
    refine (context.failsAlike_indexOf _ _).bind fun index _ => ?_
    cases index.find? name with
    | some s => exact failsAlike_ok _
    | none => exact failsAlike_ok _
  | verify file => exact (context.failsAlike_verify _ _).map Finding.check

/-! ### Replies to calls -/

namespace Rpc

/-- The text in the result of a call. -/
def contentText? (result : Json) : Option Points :=
  match result.member? "content" with
  | some (.arr [item]) =>
    match item.member? "text" with
    | some (.str text) => some text
    | _ => none
  | _ => none

/-- **The reply is a result** with this text. It says that something is wrong, or it does not. -/
def HasContent (reply : Json) (isError : Bool) (text : Points) : Prop :=
  ∃ result, reply.member? "result" = some result ∧
    result.member? "isError" = (if isError then some (.bool true) else none) ∧
    contentText? result = some text

/-- **The reply is an error of the server.** -/
def IsServerError (reply : Json) : Prop :=
  ∃ error, reply.member? "error" = some error ∧ error.member? "code" = some (.int (-32000))

variable {id : Json} {result : ToolResult} {isError : Bool} {text : Points}

theorem member?_isError_toolContent (result : ToolResult) :
    (toolContent result).member? "isError" =
      if result.isError then some (.bool true) else none := by
  unfold toolContent
  cases result.isError <;> rfl

theorem contentText?_toolContent (result : ToolResult) :
    contentText? (toolContent result) = some (Json.obj result.payload).renderIndented := by
  unfold toolContent
  cases result.isError <;> rfl

/-- The answer of a tool is sent as it is. -/
theorem hasContent_result_iff :
    HasContent (Response.result id (toolContent result)).toJson isError text ↔
      result.isError = isError ∧ (Json.obj result.payload).renderIndented = text := by
  constructor
  · rintro ⟨_, hresult, hisError, htext⟩
    cases hresult
    rw [member?_isError_toolContent] at hisError
    rw [contentText?_toolContent] at htext
    refine ⟨?_, Option.some.inj htext⟩
    cases hresult : result.isError <;> cases isError <;> simp_all
  · rintro ⟨rfl, rfl⟩
    exact ⟨_, rfl, member?_isError_toolContent result, contentText?_toolContent result⟩

theorem not_isServerError_result (id result : Json) :
    ¬ IsServerError (Response.result id result).toJson :=
  fun ⟨_, h, _⟩ => nomatch h

theorem not_hasContent_problem (id : Json) (problem : Problem) (isError : Bool) (text : Points) :
    ¬ HasContent (Response.problem id problem).toJson isError text :=
  fun ⟨_, h, _⟩ => nomatch h

theorem isServerError_toolFailed (id : Json) (tool : Tool) (fault : Fault) :
    IsServerError (Response.problem id (.toolFailed tool fault)).toJson :=
  ⟨_, rfl, rfl⟩

end Rpc

/-! ### Response and reply -/

/-- The statuses of a response that says what is wrong with the file. -/
def Web.refusals : List Nat :=
  [403, 404, 422]

/-- A fault of the file has one of these statuses. -/
theorem Web.mem_refusals_of_statusOf? {fault : Fault} {status : Nat}
    (h : statusOf? fault = some status) : status ∈ refusals := by
  unfold statusOf? at h
  split at h
  · cases h; decide
  · cases h; decide
  · cases h; decide
  · cases h; decide
  · nomatch h

/-- What is found has no status of an unexpected fault, and neither has a fault of the file. -/
theorem Web.eq_internalError_of_status {context : Context} {service : Service} {request : Request}
    {question : Question} (h : question? request = some question)
    (hstatus : (respond context service request).status = 500) :
    respond context service request = .internalError := by
  -- what is found has another status, and so has every refusal
  rw [respond_of_question? h] at hstatus ⊢
  cases hfind : question.find context with
  | ok finding =>
    rw [hfind] at hstatus
    exact absurd hstatus (status_finished_ok service request finding)
  | error fault =>
    rw [hfind] at hstatus
    unfold responseOf? Response.ofPayload? at hstatus ⊢
    simp only [Except.map] at hstatus ⊢
    cases hfault : statusOf? fault with
    | none => rfl
    | some status =>
      rw [hfault] at hstatus
      obtain rfl : status = 500 := hstatus
      exact absurd (mem_refusals_of_statusOf? hfault) (by decide)

/-- The response to an unexpected fault is in ASCII, so it can always be sent. -/
theorem Web.isWritable_internalError (strays : Strays) :
    Response.internalError.isWritable strays = true := by
  have hascii : ∀ points ∈ (Json.obj (refusal "An internal server error occurred.")).texts,
      ∀ p ∈ points, p.toChar?.all (fun c => decide (c.toNat < 128)) = true := by decide +kernel
  show strays.areAbsent _ = true
  unfold Strays.areAbsent
  simp only [List.all_eq_true, Bool.not_eq_true']
  intro points hpoints p hp
  have hlow := hascii points hpoints p hp
  cases hchar : p.toChar? with
  | none => rfl
  | some c =>
    rw [hchar] at hlow
    rw [Option.any_some, Bool.eq_false_iff]
    intro hstray
    exact absurd (strays.not_ascii c hstray) (Nat.not_le.mpr (of_decide_eq_true hlow))

/-- The answer that something went wrong is read back. -/
theorem ToolResult.isPlain_payload_failure {depth : Nat} (message : Text) :
    Json.IsPlain (depth + 1) (.obj (failure message).payload) := by
  have hplain : Json.IsPlain (depth + 1) (.obj (Json.record [("error", .str message)])) :=
    Json.isPlain_record (by simp) (List.forall_mem_singleton.mpr (Json.isPlain_text depth message))
  exact hplain

namespace Question

/-- **Response and reply say the same.** Both tell what is found, or both tell what is wrong with
the file, or neither does. The text with what is found is the body as it is written, and it is read
back as the body, unless the numbers of its lines have so many digits that no reader takes them.
What is wrong is told in the same words and with the same names. -/
structure Agree (context : Context) (question : Question) (response : Web.Response)
    (reply : Json) : Prop where
  found : response.status = 200 ↔ ∃ text, Rpc.HasContent reply false text
  refused : response.status ∈ Web.refusals ↔ ∃ text, Rpc.HasContent reply true text
  failed : response.status = 500 ↔ Rpc.IsServerError reply
  same_finding : ∀ text, Rpc.HasContent reply false text →
    ∃ body, response.body = .json body ∧ text = body.renderIndented ∧
      (question.IsOfShortFile context → ∀ depth, Json.parse (depth + 3) text = .ok body)
  same_refusal : ∀ text, Rpc.HasContent reply true text →
    ∃ body payload, response.body = .json body ∧
      (∀ depth, Json.parse (depth + 3) text = .ok payload) ∧
      (∃ message, body.member? "error" = some message ∧ payload.member? "error" = some message) ∧
      body.member? "available_sections" = payload.member? "available_sections"

variable {context : Context} {question : Question} {response : Web.Response}

/-- What is found is told by both. -/
theorem agree_of_found {id : Json} {result : ToolResult} (hstatus : response.status = 200)
    (hbody : response.body = .json (.obj result.payload)) (hok : result.isError = false)
    (hplain : question.IsOfShortFile context →
      ∀ depth, Json.IsPlain (depth + 3) (.obj result.payload)) :
    Agree context question response (Rpc.Response.result id (Rpc.toolContent result)).toJson where
  found := by simp [hstatus, Rpc.hasContent_result_iff, hok]
  refused := by simp [hstatus, Rpc.hasContent_result_iff, hok, Web.refusals]
  failed := by simp [hstatus, Rpc.not_isServerError_result]
  same_finding text h := by
    obtain ⟨-, rfl⟩ := Rpc.hasContent_result_iff.mp h
    exact ⟨_, hbody, rfl, fun hshort depth => Json.parse_renderIndented (hplain hshort depth)⟩
  same_refusal text h := by
    rw [Rpc.hasContent_result_iff, hok] at h
    nomatch h.1

/-- What is wrong is told by both. -/
theorem agree_of_refused {id body message : Json} (result : ToolResult)
    (hstatus : response.status ∈ Web.refusals) (hbody : response.body = .json body)
    (hplain : ∀ depth, Json.IsPlain (depth + 3) (.obj result.payload))
    (hmessage : body.member? "error" = some message)
    (herror : result.payload.get? "error" = some message)
    (havailable : body.member? "available_sections" = result.payload.get? "available_sections") :
    Agree context question response (Rpc.Response.result id (Rpc.toolContent result)).toJson := by
  -- a refusal has a member for what is wrong, so its result counts as an error
  have hisError : result.isError = true := by
    unfold ToolResult.isError Json.Members.has
    rw [show result.payload.get? ToolResult.errorMember = _ from herror]
    rfl
  have hne : response.status ≠ 200 ∧ response.status ≠ 500 := by
    constructor
    · rintro h
      rw [h] at hstatus
      exact absurd hstatus (by decide)
    · rintro h
      rw [h] at hstatus
      exact absurd hstatus (by decide)
  exact
    { found := by simp [hne.1, Rpc.hasContent_result_iff, hisError]
      refused := by simp [hstatus, Rpc.hasContent_result_iff, hisError]
      failed := by simp [hne.2, Rpc.not_isServerError_result]
      same_finding := fun text h => by
        rw [Rpc.hasContent_result_iff, hisError] at h
        nomatch h.1
      same_refusal := fun text h => by
        obtain ⟨-, rfl⟩ := Rpc.hasContent_result_iff.mp h
        exact ⟨body, _, hbody, fun depth => Json.parse_renderIndented (hplain depth),
          ⟨message, hmessage, herror⟩, havailable⟩ }

/-- A fault that nobody expected is told by neither. -/
theorem agree_of_failed {id : Json} {tool : Tool} {fault : Fault}
    (hstatus : response.status = 500) :
    Agree context question response (Rpc.Response.problem id (.toolFailed tool fault)).toJson where
  found := by simp [hstatus, Rpc.not_hasContent_problem]
  refused := by simp [hstatus, Rpc.not_hasContent_problem, Web.refusals]
  failed := by simp [hstatus, Rpc.isServerError_toolFailed]
  same_finding text h := absurd h (Rpc.not_hasContent_problem _ _ _ _)
  same_refusal text h := absurd h (Rpc.not_hasContent_problem _ _ _ _)

/-- **Tools and routes tell of the same finding** in the same way. -/
theorem agree_of_find (context : Context) (question : Question) (service : Web.Service)
    (request : Web.Request) (id : Json) (tool : Tool) (asked : Text) :
    Agree context question
      (Web.finished service request (Web.responseOf? (question.find context)))
      (Rpc.Response.toJson ⟨id, Rpc.outcomeOf tool asked (question.find context)⟩) := by
  cases hfind : question.find context with
  | ok finding =>
    -- the payload of a short file has no number that is too long
    have hplain (hshort : question.IsOfShortFile context) (depth : Nat) :
        Json.IsPlain (depth + 3) (.obj finding.payload) :=
      isPlain_of_find hshort hfind
    cases finding with
    | index index => exact agree_of_found rfl rfl rfl hplain
    | check result => exact agree_of_found rfl rfl rfl hplain
    | reading result =>
      cases result with
      | text s content => exact agree_of_found rfl rfl rfl hplain
      -- a name that is not there is no fault, but it is told like one
      | unknown name available =>
        refine agree_of_refused (.reply asked (ReadResult.unknown name available).payload)
          (by decide : 404 ∈ Web.refusals) rfl (fun depth => ?_) rfl rfl rfl
        exact ReadResult.isPlain_payload_unknown name available
  | error fault =>
    -- a fault about a file is refused with its message on both sides, and any other one fails
    have halike := question.failsAlike_find context fault hfind
    unfold Fault.IsTakenAlike at halike
    unfold Rpc.outcomeOf Web.responseOf?
    simp only [Except.map, ToolResult.orFailure, Web.Response.ofPayload?, halike]
    cases hstatus : Web.statusOf? fault with
    | none => exact agree_of_failed rfl
    | some status =>
      refine agree_of_refused (.failure fault.message)
        (Web.mem_refusals_of_statusOf? hstatus) rfl (fun depth => ?_) rfl rfl rfl
      exact ToolResult.isPlain_payload_failure fault.message

/-! ### Calls and requests -/

/-- The tool that is asked. -/
def tool : Question → Tool
  | .index _ => .getFileIndex
  | .readSection _ _ => .readSection
  | .verify _ => .verifyIndex

/-- The arguments that the tool gets. -/
def arguments : Question → Json
  | .readSection file name =>
    .obj (Json.record [("file_path", .str file), ("section_name", .str name)])
  | question => .obj (Json.record [("file_path", .str question.file)])

/-- **The call that asks the question.** -/
def message (question : Question) (id : Json) : Json :=
  .obj (Json.record
    [("jsonrpc", .str "2.0"), ("id", id), ("method", .str "tools/call"),
     ("params", .obj (Json.record
       [("name", .str question.tool.label), ("arguments", question.arguments)]))])

/-- The route that is asked. -/
def route : Question → Web.Route
  | .index _ => .fileIndex
  | .readSection _ _ => .sectionText
  | .verify _ => .check

/-- The parameters that the route gets. -/
def query : Question → List (Text × Text)
  | .readSection file name => [("path", file), ("name", name)]
  | question => [("path", question.file)]

/-- **The request that asks the question.** -/
def request (question : Question) : Web.Request where
  method := "GET"
  path := question.route.path
  query := question.query

/-- **Nothing that the question names is empty.** -/
def IsProper : Question → Prop
  | .readSection file name => file ≠ [] ∧ name ≠ []
  | question => question.file ≠ []

theorem question?_arguments (h : question.IsProper) :
    question.tool.question? question.arguments = some question := by
  -- an argument that is a text and not empty is taken as it is
  have hvalue {value : Text} (hne : value ≠ []) :
      (Json.exactText? (.str (value : Points))).filter (fun value => value ≠ []) = some value := by
    rw [Json.exactText?_str]
    simp [hne]
  cases question with
  | index file =>
    have hfile : Tool.argument? (arguments (.index file)) Tool.fileParameter = some file := hvalue h
    unfold Tool.question?
    rw [hfile]
    rfl
  | readSection file name =>
    have hfile : Tool.argument? (arguments (.readSection file name)) Tool.fileParameter =
        some file := hvalue h.1
    have hname : Tool.argument? (arguments (.readSection file name)) Tool.sectionParameter =
        some name := hvalue h.2
    unfold Tool.question?
    rw [hfile, hname]
    rfl
  | verify file =>
    have hfile : Tool.argument? (arguments (.verify file)) Tool.fileParameter = some file :=
      hvalue h
    unfold Tool.question?
    rw [hfile]
    rfl

/-- A call with a proper id asks the question. -/
theorem question?_message {id : Json} (h : question.IsProper) (hid : Rpc.idOf? id ≠ none) :
    Rpc.question? (question.message id) = some question := by
  obtain ⟨sent, hsent⟩ := Option.ne_none_iff_exists'.mp hid
  have hnull : ¬ id.isNull = true := by
    intro hnull
    cases id with
    | null => exact hid rfl
    | _ => nomatch hnull
  let parameters := Json.record
    [("name", .str question.tool.label), ("arguments", question.arguments)]
  let members := Json.record
    [("jsonrpc", .str "2.0"), ("id", id), ("method", .str "tools/call"),
     ("params", .obj parameters)]
  -- the message is a request with the id and the parameters that it was made of
  have hrequest : Rpc.requestOf? members = some ⟨sent, "tools/call", parameters⟩ := by
    have hmember : Rpc.member members "id" = id := rfl
    unfold Rpc.requestOf?
    rw [hmember, hsent]
    rfl
  have htool : Rpc.toolOf? (.str (question.tool.label : Points)) = some question.tool := by
    rw [Rpc.toolOf?, Json.exactText?_str]
    exact Tool.ofLabel?_label question.tool
  have hcall : Rpc.callQuestion? parameters = some question := by
    have harguments : question.arguments.isTruthy = true := by cases question <;> rfl
    have hgiven : Rpc.member parameters "arguments" = question.arguments := rfl
    have hname : Rpc.member parameters "name" = .str (question.tool.label : Points) := rfl
    unfold Rpc.callQuestion?
    simp only [hgiven, hname, harguments, htool, if_true, Option.bind_some]
    exact question?_arguments h
  show (if id.isNull then none else (Rpc.requestOf? members).bind _) = _
  rw [if_neg hnull, hrequest]
  exact hcall

/-- The request asks the question. -/
theorem question?_request (question : Question) :
    Web.question? question.request = some question := by
  cases question <;> rfl

/-- Whatever call and whatever request ask a question, they are answered alike. -/
theorem exists_agree_of_question? {message : Json} {request : Web.Request}
    (hmessage : Rpc.question? message = some question)
    (hrequest : Web.question? request = some question) (context : Context)
    (service : Web.Service) :
    ∃ reply, Rpc.responseTo? context message = some reply ∧
      Agree context question (Web.respond context service request) reply := by
  rcases Rpc.answerRequest_cases message with ⟨hnone, -⟩ |
    ⟨question', id, tool, asked, hsome, hanswer⟩
  · nomatch hnone.symm.trans hmessage
  · obtain rfl : question' = question := Option.some.inj (hsome.symm.trans hmessage)
    refine ⟨_, by rw [Rpc.responseTo?, hanswer, Option.map_some], ?_⟩
    rw [Web.respond_of_question? hrequest]
    exact agree_of_find context question' service request id tool asked

/-- **Tools and routes agree** on all questions in which nothing is empty, for all files and
settings. -/
theorem exists_reply_agree (context : Context) (service : Web.Service) {id : Json}
    (h : question.IsProper) (hid : Rpc.idOf? id ≠ none) :
    ∃ reply, Rpc.responseTo? context (question.message id) = some reply ∧
      Agree context question (Web.respond context service question.request) reply :=
  exists_agree_of_question? (question?_message h hid) (question?_request question) context service

/-- **What is sent agrees with the reply of the tool exactly if the response can be written.** The
reply is in ASCII and can always be written. A response with a stray in it, say in the path of the
file, cannot: then the fault that is sent in its place is none that the tool tells of. -/
theorem exists_reply_agree_send_iff (context : Context) (service : Web.Service)
    (strays : Web.Strays) {id : Json} (h : question.IsProper) (hid : Rpc.idOf? id ≠ none) :
    let response := Web.respond context service question.request
    ∃ reply, Rpc.responseTo? context (question.message id) = some reply ∧
      (Agree context question (Web.send strays response) reply ↔
        response.isWritable strays = true) := by
  intro response
  obtain ⟨reply, hreply, hagree⟩ := exists_reply_agree context service h hid
  refine ⟨reply, hreply, ?_⟩
  -- a response that can be written is the one that the tool agrees with
  by_cases hwritable : response.isWritable strays = true
  · rw [Web.send, if_pos hwritable]
    exact iff_of_true hagree hwritable
  · rw [Web.send, if_neg hwritable]
    refine iff_of_false (fun hinternal => hwritable ?_) hwritable
    -- the tool would have failed too, and the response to that can be written
    have hstatus : response.status = 500 := hagree.failed.mpr (hinternal.failed.mp rfl)
    have hresponse : response = .internalError :=
      Web.eq_internalError_of_status (question?_request question) hstatus
    rw [hresponse]
    exact Web.isWritable_internalError strays

/-- A link to a file whose name is not UTF-8: the tool tells what it finds, and the route that an
unexpected fault occurred. -/
theorem not_agree_of_stray :
    let context : Context := ⟨⟨⟨[(["ws"], .directory), (["ws", "a.py"], .link "caf\uf7e9.py"),
      (["ws", "caf\uf7e9.py"], .file (encodeUtf8 "x = 1\n"))]⟩, [], "/", []⟩,
      { workspaceRoot := ⟨.root, ["ws"]⟩ }, ⟨2024, 2, 29, 1, 2, 3, 4, 0⟩⟩
    let service : Web.Service := ⟨"localhost", "id", ⟨8, 8, by decide⟩⟩
    let strays : Web.Strays := ⟨(· == '\uf7e9'), fun c h => by rw [eq_of_beq h]; decide⟩
    let question : Question := .index "a.py"
    let sent := Web.send strays (Web.respond context service question.request)
    (question.IsProper ∧ Rpc.idOf? (.int 1) ≠ none) ∧ sent.status = 500 ∧
      ∃ reply text, Rpc.responseTo? context (question.message (.int 1)) = some reply ∧
        Rpc.HasContent reply false text ∧ ¬ Agree context question sent reply := by
  intro context service strays question sent
  have hproper : question.IsProper := (by decide : ("a.py" : Text) ≠ [])
  have hid : Rpc.idOf? (.int 1) ≠ none := nofun
  have hstatus : (Web.respond context service question.request).status = 200 := by decide +kernel
  -- the answer names the file behind the link, and a stray stands in that name
  have hunwritable : (Web.respond context service question.request).isWritable strays = false := by
    decide +kernel
  have hsent : sent = .internalError := by
    show Web.send strays _ = _
    rw [Web.send, hunwritable]
    rfl
  obtain ⟨reply, hreply, hiff⟩ :=
    exists_reply_agree_send_iff context service strays hproper hid
  obtain ⟨told, htold, hagree⟩ := exists_reply_agree context service hproper hid
  obtain rfl : told = reply := Option.some.inj (htold.symm.trans hreply)
  obtain ⟨text, htext⟩ := hagree.found.mp hstatus
  refine ⟨⟨hproper, hid⟩, by rw [hsent]; rfl, told, text, hreply, htext, fun hboth => ?_⟩
  rw [hiff, hunwritable] at hboth
  nomatch hboth

end Question

end SectionIndex
