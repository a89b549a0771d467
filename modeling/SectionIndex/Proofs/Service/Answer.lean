import SectionIndex.Proofs.Service.Apart
import SectionIndex.Service.Web

/-!
# Answers to questions

A call of a tool and a request to a route ask a question, or none at all. What is answered is a
function of what is found, whichever the host is, and it is another answer for findings that are
told apart.

## Main definitions

* `Tool.question?`, `Rpc.question?`, `Web.question?` — the question that is asked.
* `TellsApart` — the answers to findings that are told apart are different.
* `Answers` — what is answered depends on the host by what is found alone.

## Main statements

* `Rpc.answers_question?`, `Web.answers_question?` — messages and requests are answered so.
-/

namespace SectionIndex

/-- **The answers tell findings apart.** -/
def TellsApart {α : Type} (respond : Except Fault Finding → α) : Prop :=
  ∀ found found', Apart found found' → respond found ≠ respond found'

/-- **What is answered depends on the host** by what is found alone, if a question is asked, and not
at all otherwise. -/
def Answers {α : Type} (answer : Context → α) : Option Question → Prop
  | some question => ∃ respond, TellsApart respond ∧
      ∀ context, answer context = respond (question.find context)
  | none => ∀ context other, answer (context.withHost other) = answer context

/-- Answers are told apart in any form that keeps them apart. -/
theorem Answers.comp {α β : Type} {answer : Context → α} {question? : Option Question}
    (h : Answers answer question?) {form : α → β} (hform : ∀ a b, form a = form b → a = b) :
    Answers (fun context => form (answer context)) question? := by
  cases question? with
  | none => exact fun context other => congrArg form (h context other)
  | some question =>
    obtain ⟨respond, htells, hrespond⟩ := h
    refine ⟨form ∘ respond, fun found found' hapart heq => ?_, fun context => ?_⟩
    · exact htells found found' hapart (hform _ _ heq)
    · exact congrArg form (hrespond context)

/-! ### Messages of faults -/

/-- The message for a file that is no text tells where the first bad byte stands. -/
theorem exists_message_eq (file : Text) : ∃ start rest : Text, ∀ offset,
    (Fault.unreadable file (.notReadable (badByteAt offset))).message =
      start ++ (Text.ofNat offset ++ rest) := by
  refine ⟨"Cannot read " ++ file ++ ": " ++ "not-readable" ++ " (" ++
    "'utf-8' codec can't decode " ++ "byte 0x" ++
    Text.hexPadded 2 (UInt8.toNat 0xFF) ++ " in position ",
    ": " ++ Utf8Fault.Kind.start.message ++ ")", fun offset => ?_⟩
  unfold Fault.message Fault.ReadReason.label Fault.ReadReason.detail Utf8Fault.message badByteAt
  simp only [if_true, List.append_assoc]

/-- **The messages for bad bytes** at the first two places are written differently. -/
theorem renderPoints_message_ne (file : Text) :
    Json.renderPoints (Fault.unreadable file (.notReadable (badByteAt 0))).message ≠
      Json.renderPoints (Fault.unreadable file (.notReadable (badByteAt 1))).message := by
  obtain ⟨start, rest, hmessage⟩ := exists_message_eq file
  have hzero : Text.ofNat 0 = ['0'] := rfl
  have hone : Text.ofNat 1 = ['1'] := rfl
  intro h
  rw [hmessage, hmessage, hzero, hone] at h
  simp only [Json.renderPoints, List.map_append, List.flatMap_append, List.cons_append,
    List.cons.injEq, true_and, List.append_assoc, List.append_cancel_left_eq] at h
  -- the digits are the first characters that differ
  have hdigit : some '0' = some '1' := congrArg List.head? h
  exact absurd hdigit (by decide)

/-! ### Tools -/

namespace Tool

/-- **The question that a tool asks**, if its arguments are proper. -/
def question? (tool : Tool) (arguments : Json) : Option Question :=
  match tool, argument? arguments fileParameter, argument? arguments sectionParameter with
  | .getFileIndex, some file, _ => some (.index file)
  | .readSection, some file, some name => some (.readSection file name)
  | .verifyIndex, some file, _ => some (.verify file)
  | _, _, _ => none

theorem map_payload_bind {α : Type} (path? : Except Fault Path) (step : Path → Except Fault α)
    (wrap : α → Finding) :
    (path? >>= fun path => step path >>= fun result => pure (wrap result).payload) =
      (path? >>= fun path => (step path).map wrap).map Finding.payload := by
  cases path? with
  | error fault => rfl
  | ok path =>
    show (step path >>= _) = Except.map _ (Except.map _ (step path))
    cases step path with
    | error fault => rfl
    | ok result => rfl

theorem fileIndexPayload_eq (context : Context) (file : Text) :
    fileIndexPayload context file = ((Question.index file).find context).map Finding.payload :=
  map_payload_bind (context.resolvePath file) (context.index ·.toText) Finding.index

theorem sectionPayload_eq (context : Context) (file name : Text) :
    sectionPayload context file name =
      ((Question.readSection file name).find context).map Finding.payload :=
  map_payload_bind (context.resolvePath file) (context.readSection ·.toText name) Finding.reading

theorem verifyPayload_eq (context : Context) (file : Text) :
    verifyPayload context file = ((Question.verify file).find context).map Finding.payload :=
  map_payload_bind (context.resolvePath file)
    (context.verify ·.toText context.settings.driftTolerance) Finding.check

/-- **What a tool answers** is a function of what is found, or the same for all if it asks no
question. -/
theorem call_cases (tool : Tool) (arguments : Json) :
    (tool.question? arguments = none ∧
        ∀ context, tool.call context arguments = .ok (tool.invalidArguments arguments)) ∨
      ∃ question asked, tool.question? arguments = some question ∧
        ∀ context, tool.call context arguments =
          ToolResult.orFailure asked ((question.find context).map Finding.payload) := by
  -- each tool takes its arguments first, and looks at the host only if all of them are there
  unfold question? call
  cases tool with
  | getFileIndex =>
    cases argument? arguments fileParameter with
    | none => exact Or.inl ⟨rfl, fun _ => rfl⟩
    | some file =>
      refine Or.inr ⟨.index file, file, rfl, fun context => ?_⟩
      rw [← fileIndexPayload_eq]
  | readSection =>
    cases argument? arguments fileParameter with
    | none => exact Or.inl ⟨rfl, fun _ => rfl⟩
    | some file =>
      cases argument? arguments sectionParameter with
      | none => exact Or.inl ⟨rfl, fun _ => rfl⟩
      | some name =>
        refine Or.inr ⟨.readSection file name, file ++ ' ' :: name, rfl, fun context => ?_⟩
        rw [← sectionPayload_eq]
  | verifyIndex =>
    cases argument? arguments fileParameter with
    | none => exact Or.inl ⟨rfl, fun _ => rfl⟩
    | some file =>
      refine Or.inr ⟨.verify file, file, rfl, fun context => ?_⟩
      rw [← verifyPayload_eq]

end Tool

/-! ### Messages -/

namespace Rpc

/-- The question that the parameters of a call ask. -/
def callQuestion? (parameters : Json.Members) : Option Question :=
  let given := member parameters "arguments"
  let arguments := if given.isTruthy then given else .obj []
  (toolOf? (member parameters "name")).bind (Tool.question? · arguments)

/-- **The question that a message asks**, if it is a request that calls a tool. -/
def question? : Json → Option Question
  | .obj members =>
    if (member members "id").isNull then none
    else
      (requestOf? members).bind fun request =>
        if request.method = "tools/call" then callQuestion? request.parameters else none
  | _ => none

/-- The outcome of a call, given what is found. -/
def outcomeOf (tool : Tool) (asked : Text) (found : Except Fault Finding) : Except Problem Json :=
  match ToolResult.orFailure asked (found.map Finding.payload) with
  | .ok result => .ok (toolContent result)
  | .error fault => .error (.toolFailed tool fault)

theorem toJson_problem_ne_result (id result : Json) (problem : Problem) :
    (Response.problem id problem).toJson ≠ (Response.result id result).toJson := by
  intro h
  have hmembers := Json.obj.inj h
  simp only [Json.record, List.map_cons, List.cons.injEq, Prod.mk.injEq, Response.problem,
    Response.result] at hmembers
  obtain ⟨-, -, ⟨hkey, -⟩, -⟩ := hmembers
  exact absurd hkey (by decide)

theorem toJson_result_injective {id result result' : Json}
    (h : (Response.result id result).toJson = (Response.result id result').toJson) :
    result = result' := by
  have hmembers := Json.obj.inj h
  simp only [Json.record, List.map_cons, List.cons.injEq, Prod.mk.injEq, Response.result, true_and,
    and_true, List.map_nil] at hmembers
  exact hmembers

/-- A failure is written as an object with one member. -/
theorem renderIndented_failure (message : Text) :
    (Json.obj (ToolResult.failure message).payload).renderIndented =
      "\x7b\n  \"error\": " ++ (Json.renderPoints message ++ ['\n', '\x7d']) := by
  have hkey : Json.renderPoints ToolResult.errorMember ++ ": " = "\"error\": ".toList := by
    decide
  unfold Json.renderIndented ToolResult.failure
  simp only [Json.renderAt, Json.renderMembersAt, Json.render, hkey]
  simp [Json.bracketed, Json.indent, Text.join_singleton]

theorem renderPoints_eq_of_toolContent {message message' : Text}
    (h : toolContent (.failure message) = toolContent (.failure message')) :
    Json.renderPoints message = Json.renderPoints message' := by
  simp only [toolContent, ToolResult.isError_failure, if_true, Json.obj.injEq, Json.arr.injEq,
    Json.str.injEq, List.append_cancel_right_eq, Json.record, List.map_cons, List.map_nil,
    List.cons.injEq, Prod.mk.injEq, true_and, and_true] at h
  have htext := (List.map_inj_right fun _ _ => CodePoint.char.inj).mp h
  rw [renderIndented_failure, renderIndented_failure, List.append_cancel_left_eq,
    List.append_cancel_right_eq] at htext
  exact htext

/-- **Outcomes tell findings apart.** -/
theorem tellsApart_outcomeOf (id : Json) (tool : Tool) (asked : Text) :
    TellsApart fun found => some (Response.toJson ⟨id, outcomeOf tool asked found⟩) := by
  intro found found' hapart h
  have hjson := Option.some.inj h
  cases hapart with
  | unreadable file =>
    exact renderPoints_message_ne file
      (renderPoints_eq_of_toolContent (toJson_result_injective hjson))
  -- a fault that is not about the file makes the reply an error, and not a result
  | @failed fault finding hfault =>
    have hfailed : outcomeOf tool asked (.error fault) = .error (.toolFailed tool fault) := by
      rw [outcomeOf, Except.map, ToolResult.orFailure, hfault]
      rfl
    rw [hfailed] at hjson
    exact toJson_problem_ne_result id _ _ hjson

theorem callTool_cases (parameters : Json.Members) :
    (callQuestion? parameters = none ∧
        ∃ outcome, ∀ context, callTool context parameters = outcome) ∨
      ∃ question tool asked, callQuestion? parameters = some question ∧
        ∀ context, callTool context parameters = outcomeOf tool asked (question.find context) := by
  unfold callQuestion? callTool
  simp only
  generalize (if (member parameters "arguments").isTruthy = true then member parameters "arguments"
    else Json.obj []) = arguments
  cases toolOf? (member parameters "name") with
  | none => exact Or.inl ⟨rfl, _, fun _ => rfl⟩
  | some tool =>
    simp only [Option.bind_some]
    -- arguments that are no object name no file
    cases arguments with
    | obj members =>
      rcases Tool.call_cases tool (.obj members) with ⟨hnone, hcall⟩ |
        ⟨question, asked, hsome, hcall⟩
      · exact Or.inl ⟨hnone, _, fun context => by rw [hcall]⟩
      · exact Or.inr ⟨question, tool, asked, hsome, fun context => by rw [hcall]; rfl⟩
    | _ => exact Or.inl ⟨by cases tool <;> rfl, _, fun _ => rfl⟩

/-- **A message asks a question** and is answered by what is found, or the host does not count. -/
theorem answerRequest_cases (message : Json) :
    (question? message = none ∧ ∀ (context : Context) (other : Host),
        answerRequest (context.withHost other) message = answerRequest context message) ∨
      ∃ question id tool asked, question? message = some question ∧
        ∀ context, answerRequest context message =
          some ⟨id, outcomeOf tool asked (question.find context)⟩ := by
  cases message with
  | obj members =>
    unfold question? answerRequest
    simp only
    split
    · exact Or.inl ⟨rfl, fun _ _ => rfl⟩
    · cases requestOf? members with
      | none => exact Or.inl ⟨rfl, fun _ _ => rfl⟩
      | some request =>
        simp only [Option.bind_some]
        -- the other methods are answered without a look at the host
        by_cases hmethod : request.method = ("tools/call" : Text)
        · have hperform : ∀ context, perform context request =
              callTool context request.parameters := by
            intro context
            rw [perform, if_neg, if_neg, if_pos hmethod]
            · rw [hmethod]; decide
            · rw [hmethod]; decide
          rw [if_pos hmethod]
          simp only [hperform]
          rcases callTool_cases request.parameters with ⟨hnone, outcome, hcall⟩ |
            ⟨question, tool, asked, hsome, hcall⟩
          · exact Or.inl ⟨hnone, fun context other => by simp only [hcall]⟩
          · refine Or.inr ⟨question, request.id, tool, asked, hsome, fun context => ?_⟩
            simp only [hcall]
        · rw [if_neg hmethod]
          refine Or.inl ⟨rfl, fun context other => ?_⟩
          simp only [perform, if_neg hmethod]
          rfl
  | _ => exact Or.inl ⟨rfl, fun _ _ => rfl⟩

/-- **A message is answered** by what is found alone. -/
theorem answers_question? (message : Json) :
    Answers (fun context => (answerRequest context message).map Response.toJson)
      (question? message) := by
  rcases answerRequest_cases message with ⟨hnone, hsame⟩ |
    ⟨question, id, tool, asked, hsome, hanswer⟩
  · rw [hnone]
    intro context other
    simp only [hsame]
  · rw [hsome]
    refine ⟨_, tellsApart_outcomeOf id tool asked, fun context => ?_⟩
    simp only [hanswer, Option.map_some]

end Rpc

/-! ### Web requests -/

namespace Web

/-- The question of a route. -/
def Route.question? (request : Request) : Route → Option Question
  | .fileIndex => (request.parameter? fileParameter).map .index
  | .sectionText =>
    match request.parameter? fileParameter, request.parameter? nameParameter with
    | some file, some name => some (.readSection file name)
    | _, _ => none
  | .check => (request.parameter? fileParameter).map .verify
  | _ => none

/-- **The question that a request asks**, if it gets what a route gives. -/
def question? (request : Request) : Option Question :=
  (Route.ofPath? request.path).bind fun route =>
    if route.method = request.method then route.question? request else none

/-- The response to what is found, or none to a fault that nobody expected. -/
def responseOf? : Except Fault Finding → Option Response
  | .ok (.reading (.unknown name available)) =>
    some (.ofJson 404 (.obj (Json.record [("success", .bool false)] ++
      (ReadResult.unknown name available).payload)))
  | found => Response.ofPayload? (found.map Finding.payload)

/-- A response as it leaves the service. -/
def finished (service : Service) (request : Request) : Option Response → Response
  | none => .internalError
  | some response =>
    { response with
      headers := response.headers ++
        [(idHeader, request.id service), ("x-content-type-options", "nosniff"),
         ("x-frame-options", "DENY")] }

theorem respond_eq (context : Context) (service : Service) (request : Request) :
    respond context service request =
      finished service request (dispatch? context service request) :=
  rfl

theorem ofPayload?_fileIndexPayload (context : Context) (file : Text) :
    Response.ofPayload? (Tool.fileIndexPayload context file) =
      responseOf? ((Question.index file).find context) := by
  rw [Tool.fileIndexPayload_eq]
  unfold Question.find
  cases context.resolvePath (Question.index file).file with
  | error fault => rfl
  | ok path =>
    show Response.ofPayload? (Except.map _ (Except.map _ (context.index path.toText))) =
      responseOf? (Except.map _ (context.index path.toText))
    cases context.index path.toText with
    | error fault => rfl
    | ok index => rfl

theorem sectionResponse?_eq (context : Context) (file name : Text) :
    sectionResponse? context file name =
      responseOf? ((Question.readSection file name).find context) := by
  unfold sectionResponse? Question.find
  show (match context.resolvePath file >>= fun path => context.readSection path.toText name with
    | _ => _) = responseOf? (context.resolvePath file >>= fun path =>
      Except.map _ (context.readSection path.toText name))
  cases context.resolvePath file with
  | error fault => rfl
  | ok path =>
    simp only [bind, Except.bind]
    cases context.readSection path.toText name with
    | error fault => rfl
    | ok result =>
      cases result with
      | text s content => rfl
      | unknown name available => rfl

theorem ofPayload?_verifyPayload (context : Context) (file : Text) :
    Response.ofPayload? (Tool.verifyPayload context file) =
      responseOf? ((Question.verify file).find context) := by
  rw [Tool.verifyPayload_eq]
  unfold Question.find
  cases context.resolvePath (Question.verify file).file with
  | error fault => rfl
  | ok path =>
    show Response.ofPayload? (Except.map _ (Except.map _
        (context.verify path.toText context.settings.driftTolerance))) =
      responseOf? (Except.map _ (context.verify path.toText context.settings.driftTolerance))
    cases context.verify path.toText context.settings.driftTolerance with
    | error fault => rfl
    | ok result => rfl

/-- A fault that is not about the file is one that nobody expected. -/
theorem statusOf?_of_not_isAboutFile {fault : Fault} (h : fault.isAboutFile = false) :
    statusOf? fault = none := by
  cases fault with
  | unreadable path reason => cases h
  | outsideWorkspace path root => cases h
  | _ => rfl

/-- What is found is answered with a status of its own. -/
theorem status_finished_ok (service : Service) (request : Request) (finding : Finding) :
    (finished service request (responseOf? (.ok finding))).status ≠ 500 := by
  unfold responseOf?
  split
  · exact (by decide : (404 : Nat) ≠ 500)
  · exact (by decide : (200 : Nat) ≠ 500)

/-- **Responses tell findings apart.** -/
theorem tellsApart_finished (service : Service) (request : Request) :
    TellsApart fun found => finished service request (responseOf? found) := by
  intro found found' hapart h
  cases hapart with
  | unreadable file =>
    -- the body tells the message, and messages that differ are rendered differently
    have hbody := congrArg Response.body h
    have hmembers := Json.obj.inj (Body.json.inj hbody)
    simp only [refusal, Json.record, List.map_cons, List.map_nil, List.cons.injEq, Prod.mk.injEq,
      Json.str.injEq, true_and, and_true] at hmembers
    exact renderPoints_message_ne file (congrArg Json.renderPoints hmembers)
  -- a fault that nobody expected has a status that no finding has
  | @failed fault finding hfault =>
    have hnone : responseOf? (.error fault) = none := by
      show (statusOf? fault).map _ = none
      rw [statusOf?_of_not_isAboutFile hfault]
      rfl
    have hstatus := congrArg Response.status h
    simp only [hnone] at hstatus
    exact status_finished_ok service request finding hstatus.symm

/-- The response of a route is a function of what is found, or of the settings and the clock. -/
theorem respond?_cases (depths : Rpc.Depths) (request : Request) {route : Route}
    (h : route ≠ .calls) :
    (route.question? request = none ∧ ∀ (context : Context) (other : Host),
        route.respond? (context.withHost other) depths request =
          route.respond? context depths request) ∨
      ∃ question, route.question? request = some question ∧
        ∀ context, route.respond? context depths request =
          responseOf? (question.find context) := by
  -- a route takes its parameters first, and looks at the host only if all of them are there
  unfold Route.question? Route.respond?
  cases route with
  | health => exact Or.inl ⟨rfl, fun _ _ => rfl⟩
  | root => exact Or.inl ⟨rfl, fun _ _ => rfl⟩
  | calls => exact absurd rfl h
  | fileIndex =>
    cases request.parameter? fileParameter with
    | none => exact Or.inl ⟨rfl, fun _ _ => rfl⟩
    | some file => exact Or.inr ⟨.index file, rfl, (ofPayload?_fileIndexPayload · file)⟩
  | sectionText =>
    cases request.parameter? fileParameter with
    | none => exact Or.inl ⟨rfl, fun _ _ => rfl⟩
    | some file =>
      cases request.parameter? nameParameter with
      | none => exact Or.inl ⟨rfl, fun _ _ => rfl⟩
      | some name => exact Or.inr ⟨.readSection file name, rfl, (sectionResponse?_eq · file name)⟩
  | check =>
    cases request.parameter? fileParameter with
    | none => exact Or.inl ⟨rfl, fun _ _ => rfl⟩
    | some file => exact Or.inr ⟨.verify file, rfl, (ofPayload?_verifyPayload · file)⟩

/-- A route that is asked by its method answers the request. -/
theorem dispatch?_of_route {service : Service} {request : Request} {route : Route}
    (hroute : Route.ofPath? request.path = some route) (hmethod : route.method = request.method)
    (context : Context) :
    dispatch? context service request = route.respond? context service.depths request := by
  simp only [dispatch?, hroute, if_pos hmethod]

/-- **A request that asks a question** is answered by what is found. -/
theorem respond_of_question? {request : Request} {question : Question}
    (h : question? request = some question) (context : Context) (service : Service) :
    respond context service request =
      finished service request (responseOf? (question.find context)) := by
  obtain ⟨route, hroute, hquestion⟩ := Option.bind_eq_some_iff.mp h
  split at hquestion
  · next hmethod =>
    -- remote calls ask no question of their own
    have hcalls : route ≠ .calls := by
      rintro rfl
      nomatch hquestion
    rcases respond?_cases service.depths request hcalls with
      ⟨hnone, -⟩ | ⟨question', hsome, hfound⟩
    · nomatch hnone.symm.trans hquestion
    · obtain rfl : question' = question := Option.some.inj (hsome.symm.trans hquestion)
      rw [respond_eq, dispatch?_of_route hroute hmethod, hfound]
  · nomatch hquestion

/-- The host does not count for a request that asks no question. -/
theorem respond_of_question?_eq_none {request : Request} (hget : request.method = "GET")
    (h : question? request = none) (context : Context) (other : Host) (service : Service) :
    respond (context.withHost other) service request = respond context service request := by
  unfold question? at h
  cases hroute : Route.ofPath? request.path with
  | none => simp only [respond_eq, dispatch?, hroute]
  | some route =>
    rw [hroute, Option.bind_some] at h
    by_cases hmethod : route.method = request.method
    · -- remote calls are not sent with this method
      have hcalls : route ≠ .calls := by
        rintro rfl
        rw [hget] at hmethod
        exact absurd hmethod (by decide)
      rw [if_pos hmethod] at h
      rcases respond?_cases service.depths request hcalls with
        ⟨-, hsame⟩ | ⟨question, hsome, -⟩
      · rw [respond_eq, respond_eq, dispatch?_of_route hroute hmethod,
          dispatch?_of_route hroute hmethod, hsame]
      · nomatch h.symm.trans hsome
    · simp only [respond_eq, dispatch?, hroute, if_neg hmethod]

/-- **A web request is answered** by what is found alone, unless it sends remote calls. -/
theorem answers_question? (service : Service) {request : Request} (h : request.method = "GET") :
    Answers (fun context => respond context service request) (question? request) := by
  cases hquestion : question? request with
  | none =>
    intro context other
    exact respond_of_question?_eq_none h hquestion context other service
  | some question =>
    exact ⟨_, tellsApart_finished service request,
      fun context => respond_of_question? hquestion context service⟩

end Web

end SectionIndex
