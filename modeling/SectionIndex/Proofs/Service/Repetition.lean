import SectionIndex.Proofs.Service.Responses
import SectionIndex.Service.Web

/-!
# What replies repeat

A reply holds parts of its message: the id, and the name of a method or tool that is not there. All
else in it is said by the server. So a reply can be sent, and brackets in it stand not too deep, if
this is so of what is repeated.

## Main definitions

* `Rpc.IsRepeatable` — what a response repeats of its message can be sent.
* `Rpc.IsWritable` — what a reply repeats has no brackets that stand too deep.

## Main statements

* `Rpc.isSendable_of_answerRequest_iff`, `Rpc.isSendable_answer_iff` — the responses and the replies
  that can be sent.
* `Rpc.nesting_answer_le_iff` — the replies that can be written.
-/

namespace SectionIndex

/-! ### Values that can be sent -/

namespace Web

@[simp] theorem hasBytes_coe (t : Text) : hasBytes (t : Points) = true := by
  simp [hasBytes]

theorem hasBytes_cons (p : CodePoint) (points : Points) :
    hasBytes (p :: points) = (p.toChar?.isSome && hasBytes points) := by
  unfold hasBytes Points.toText?
  rw [List.mapM_cons]
  cases p.toChar? with
  | none => rfl
  | some c => cases List.mapM CodePoint.toChar? points <;> rfl

theorem hasBytes_append (points points' : Points) :
    hasBytes (points ++ points') = (hasBytes points && hasBytes points') := by
  induction points with
  | nil => rfl
  | cons p points ih => rw [List.cons_append, hasBytes_cons, hasBytes_cons, ih, Bool.and_assoc]

theorem hasBytes_coe_append (t : Text) (points : Points) :
    hasBytes ((t : Points) ++ points) = hasBytes points := by
  rw [hasBytes_append, hasBytes_coe, Bool.true_and]

theorem isSendable_obj_iff {members : Json.Members} : isSendable (.obj members) = true ↔
    ∀ member ∈ members, hasBytes member.1 = true ∧ isSendable member.2 = true := by
  show membersAreSendable members = true ↔ _
  induction members with
  | nil => exact ⟨fun _ => List.forall_mem_nil _, fun _ => rfl⟩
  | cons member members ih =>
    rw [membersAreSendable, Bool.and_eq_true, Bool.and_eq_true, ih, List.forall_mem_cons]

theorem isSendable_text (t : Text) : isSendable (.str t) = true :=
  hasBytes_coe t

/-- A record can be sent if its values can. -/
theorem isSendable_record (members : List (String × Json)) :
    isSendable (.obj (Json.record members)) = members.all fun member => isSendable member.2 := by
  rw [Bool.eq_iff_iff, isSendable_obj_iff, List.all_eq_true, Json.record, List.forall_mem_map]
  exact ⟨fun h member hmember => (h member hmember).2,
    fun h member hmember => ⟨hasBytes_coe _, h member hmember⟩⟩

theorem isSendable_obj_append {members members' : Json.Members}
    (h : isSendable (.obj members) = true) (h' : isSendable (.obj members') = true) :
    isSendable (.obj (members ++ members')) = true := by
  rw [isSendable_obj_iff] at h h' ⊢
  exact List.forall_mem_append.mpr ⟨h, h'⟩

theorem areSendable_iff {items : List Json} :
    areSendable items = true ↔ ∀ item ∈ items, isSendable item = true := by
  induction items with
  | nil => exact ⟨fun _ => List.forall_mem_nil _, fun _ => rfl⟩
  | cons item items ih => rw [areSendable, Bool.and_eq_true, ih, List.forall_mem_cons]

end Web

namespace Rpc

open Web

/-- **What the response to a request repeats of it can be sent:** its method, and the name of the
tool that it calls. -/
def Request.IsRepeatable (request : Request) : Prop :=
  hasBytes request.method = true ∧
    (request.method = "tools/call" →
      ∀ points, member request.parameters "name" = .str points → hasBytes points = true)

/-- **What the response to a message repeats of it can be sent:** its id, and if it is a proper
request also what is repeated of that. -/
def IsRepeatable : Json → Prop
  | .obj members => isSendable (member members "id") = true ∧
      ∀ request, requestOf? members = some request → request.IsRepeatable
  | _ => True

/-- The outcome can be sent. -/
def isSendableOutcome : Except Problem Json → Bool
  | .ok result => isSendable result
  | .error problem => hasBytes problem.message

variable {context : Context} {message : Json} {response : Response}

theorem isSendable_toJson (response : Response) : isSendable response.toJson =
    (isSendable response.id && isSendableOutcome response.outcome) := by
  obtain ⟨id, outcome⟩ := response
  unfold Response.toJson
  cases outcome with
  | ok result =>
    simp only [isSendable_record, isSendable_text, List.all_cons, List.all_nil, isSendableOutcome,
      Bool.true_and, Bool.and_true]
  | error problem =>
    have hcode : isSendable (.int problem.code) = true := rfl
    have hmessage : isSendable (.str problem.message) = hasBytes problem.message := rfl
    simp only [isSendable_record, isSendable_text, List.all_cons, List.all_nil, hcode, hmessage,
      isSendableOutcome, Bool.true_and, Bool.and_true]

/-! ### What is repeated -/

/-- A value that is shown in a message has bytes unless it is a text without them. -/
theorem hasBytes_display (value : Json) : hasBytes value.display = true ↔
    ∀ points, value = .str points → hasBytes points = true := by
  cases value with
  | str points => exact ⟨fun h _ heq => Json.str.inj heq ▸ h, fun h => h points rfl⟩
  | _ => exact ⟨fun _ _ heq => (nomatch heq), fun _ => hasBytes_coe _⟩

/-- The name of a tool is a text with bytes. -/
theorem hasBytes_of_toolOf? {name : Json} {tool : Tool} (h : toolOf? name = some tool) :
    ∀ points, name = .str points → hasBytes points = true := by
  rintro points rfl
  obtain ⟨t, ht, -⟩ := Option.bind_eq_some_iff.mp h
  rw [hasBytes, show points.toText? = some t from ht]
  rfl

/-- The message of a failed call is text. -/
theorem hasBytes_toolFailed (tool : Tool) (fault : Fault) :
    hasBytes (Problem.toolFailed tool fault).message = true := by
  unfold Problem.message
  simp only [hasBytes_append, hasBytes_coe, Bool.and_self]

/-- What a tool answers is text. -/
theorem isSendable_toolContent (result : ToolResult) :
    isSendable (toolContent result) = true := by
  have hitem : isSendable (.obj (Json.record [("type", .str ("text" : Text)),
      ("text", .str (Json.obj result.payload).renderIndented)])) = true := by
    simp only [isSendable_record, isSendable_text, List.all_cons, List.all_nil, Bool.and_self]
  have hcontent : isSendable (.obj (Json.record [("content", .arr [.obj (Json.record
      [("type", .str ("text" : Text)),
        ("text", .str (Json.obj result.payload).renderIndented)])])])) = true := by
    rw [isSendable_record, List.all_cons, List.all_nil, Bool.and_true]
    exact areSendable_iff.mpr (List.forall_mem_singleton.mpr hitem)
  unfold toolContent
  simp only
  split
  · exact isSendable_obj_append hcontent rfl
  · exact hcontent

theorem isSendable_handshake (settings : Settings) : isSendable (handshake settings) = true := by
  have htools : isSendable (.obj (Json.record [("tools", .obj [])])) = true := rfl
  unfold handshake
  simp only [isSendable_record, isSendable_text, htools, List.all_cons, List.all_nil,
    Bool.and_self]

/-- What is announced of a tool is text. -/
theorem isSendable_definition (tool : Tool) : isSendable tool.definition = true := by
  have hproperties (property : Text → Points × Json) (h : ∀ parameter,
      hasBytes (property parameter).1 = true ∧ isSendable (property parameter).2 = true) :
      isSendable (.obj (tool.parameters.map property)) = true := by
    rw [isSendable_obj_iff, List.forall_mem_map]
    exact fun parameter _ => h parameter
  have hrequired : isSendable (.arr (tool.parameters.map .text)) = true := by
    rw [isSendable, areSendable_iff, List.forall_mem_map]
    exact fun parameter _ => isSendable_text parameter
  unfold Tool.definition
  simp only [isSendable_record, isSendable_text, List.all_cons, List.all_nil, hrequired,
    Bool.and_true, Bool.true_and]
  refine hproperties _ fun parameter => ⟨hasBytes_coe parameter, ?_⟩
  simp only [isSendable_record, isSendable_text, List.all_cons, List.all_nil, Bool.and_true]

theorem isSendable_tools :
    isSendable (.obj (Json.record [("tools", .arr (Tool.all.map Tool.definition))])) = true := by
  rw [isSendable_record, List.all_cons, List.all_nil, Bool.and_true, isSendable, areSendable_iff,
    List.forall_mem_map]
  exact fun tool _ => isSendable_definition tool

/-- **A call repeats the name of its tool** if there is no such tool. -/
theorem isSendableOutcome_callTool (context : Context) (parameters : Json.Members) :
    isSendableOutcome (callTool context parameters) = true ↔
      ∀ points, member parameters "name" = .str points → hasBytes points = true := by
  unfold callTool
  simp only
  generalize (if (member parameters "arguments").isTruthy = true then member parameters "arguments"
    else Json.obj []) = arguments
  -- only the name of a tool that is not there is repeated
  cases htool : toolOf? (member parameters "name") with
  | none =>
    have hmessage := hasBytes_coe_append "Unknown tool: " (member parameters "name").display
    exact (Bool.eq_iff_iff.mp hmessage).trans (hasBytes_display _)
  | some tool =>
    refine iff_of_true ?_ (hasBytes_of_toolOf? htool)
    cases arguments with
    | obj members =>
      simp only
      cases tool.call context (.obj members) with
      | ok result => exact isSendable_toolContent result
      | error fault => exact hasBytes_toolFailed tool fault
    | _ => exact hasBytes_coe _

/-- **A request repeats its method** if there is no such method. -/
theorem isSendableOutcome_perform (context : Context) (request : Request) :
    isSendableOutcome (perform context request) = true ↔ request.IsRepeatable := by
  -- a method that is known is a text, and only that of a call has more that is repeated
  have hknown (method : Text) (h : request.method = method) : hasBytes request.method = true :=
    h ▸ hasBytes_coe method
  have hother (method : Text) (h : request.method = method)
      (hne : (method : Points) ≠ ("tools/call" : Text)) : request.IsRepeatable :=
    ⟨hknown method h, fun hcall => absurd (h.symm.trans hcall) hne⟩
  unfold perform
  split
  · next h => exact iff_of_true (isSendable_handshake _) (hother _ h (by decide))
  split
  · next h => exact iff_of_true isSendable_tools (hother _ h (by decide))
  split
  · next h =>
    rw [isSendableOutcome_callTool]
    exact ⟨fun hname => ⟨hknown _ h, fun _ => hname⟩, fun hname => hname.2 h⟩
  split
  · next h => exact iff_of_true rfl (hother _ h (by decide))
  · next hcall _ =>
    have hmessage : isSendableOutcome (.error (.methodNotFound request.method)) =
        hasBytes request.method := hasBytes_coe_append "Method not found: " request.method
    rw [hmessage]
    exact ⟨fun h => ⟨h, fun hcall' => absurd hcall' hcall⟩, And.left⟩

/-- An id that is sent back can be sent if the one that came can. -/
theorem isSendable_of_idOf? {id id' : Json} (h : idOf? id = some id') :
    isSendable id' = isSendable id := by
  cases id with
  | str points => cases h; rfl
  | int n => cases h; rfl
  | bool b => cases h; rfl
  | binary x =>
    -- a number that counts as whole is finite
    obtain ⟨n, hn, rfl⟩ := Option.map_eq_some_iff.mp h
    obtain ⟨hwhole, -⟩ := Option.filter_eq_some_iff.mp hn
    cases x with
    | finite negative mantissa exponent => rfl
    | infinite negative => nomatch hwhole
    | notANumber => nomatch hwhole
  | _ => nomatch h

/-- An id that is sent back stands in no more brackets than the one that came. -/
theorem nesting_of_idOf? {id id' : Json} (h : idOf? id = some id') : id'.nesting = id.nesting := by
  cases id with
  | str points => cases h; rfl
  | int n => cases h; rfl
  | bool b => cases h; rfl
  | binary x =>
    obtain ⟨n, -, rfl⟩ := Option.map_eq_some_iff.mp h
    rfl
  | _ => nomatch h

/-- **The responses that can be sent** are those that repeat nothing else of their messages. -/
theorem isSendable_of_answerRequest_iff (h : answerRequest context message = some response) :
    isSendable response.toJson = true ↔ IsRepeatable message := by
  rw [isSendable_toJson, Bool.and_eq_true]
  -- of an object the id is repeated, and what its method repeats
  cases message with
  | obj members =>
    unfold IsRepeatable
    obtain ⟨hnone, rfl⟩ | ⟨request, hrequest, rfl⟩ := cases_of_answerRequest h
    · have hinvalid : isSendableOutcome (.error .invalidRequest) = true := by decide
      exact ⟨fun h => ⟨h.1, fun _ hsome => absurd (hnone.symm.trans hsome) (nomatch ·)⟩,
        fun h => ⟨h.1, hinvalid⟩⟩
    · rw [isSendableOutcome_perform, isSendable_of_idOf? (idOf?_of_requestOf? hrequest)]
      exact ⟨fun h => ⟨h.1, fun _ hsome => Option.some.inj (hrequest.symm.trans hsome) ▸ h.2⟩,
        fun h => ⟨h.1, h.2 request hrequest⟩⟩
  | _ =>
    cases h
    exact iff_of_true ⟨rfl, by decide⟩ trivial

/-- A message repeats nothing that cannot be sent if its response, where it has one, can be. -/
theorem isRepeatable_iff (context : Context) (message : Json) : IsRepeatable message ↔
    ∀ response, responseTo? context message = some response → isSendable response = true := by
  cases hanswer : answerRequest context message with
  | some response =>
    rw [responseTo?, hanswer, ← isSendable_of_answerRequest_iff hanswer]
    simp
  | none =>
    rw [responseTo?, hanswer]
    refine iff_of_true ?_ (by simp)
    -- the id of a notification is null, and no request has it
    obtain ⟨members, rfl, hid⟩ := answerRequest_eq_none_iff.mp hanswer
    have hnull : member members "id" = .null := by
      rcases hid with hid | hid
      · rw [member, hid]
        rfl
      · rw [member, hid]
        rfl
    refine ⟨by rw [hnull]; rfl, fun request hrequest => ?_⟩
    have hidOf := idOf?_of_requestOf? hrequest
    rw [hnull] at hidOf
    cases hidOf

/-- The messages of a value: those of a batch, or the value itself. -/
def messagesOf : Json → List Json
  | .arr messages => messages
  | message => [message]

/-- The id of a message can be sent if nothing is repeated that cannot. -/
theorem isSendable_of_forall {message id : Json} (h : ∀ m ∈ messagesOf message, IsRepeatable m)
    (hid : message.member? "id" = some id) : isSendable id = true := by
  cases message with
  | obj members =>
    have hmember := member_eq_of_member? hid
    obtain ⟨hsendable, -⟩ := h _ (List.mem_singleton_self _)
    rwa [hmember] at hsendable
  | _ => cases hid

/-- The reply to a single message is its response. -/
theorem forall_reply_single_iff {P : Json → Prop} (context : Context)
    (h : ∀ messages, message ≠ .arr messages) :
    (∀ reply, (answer context message).toJson? = some reply → P reply) ↔
      ∀ response, responseTo? context message = some response → P response := by
  rw [toJson?_answer_single context h]

/-- **The reply to a batch** has a property exactly if the responses to its messages have one. -/
theorem forall_reply_batch_iff {P Q : Json → Prop} (context : Context)
    (hP : ∀ responses, P (.arr responses) ↔ ∀ response ∈ responses, Q response)
    {messages : List Json} :
    (∀ reply, (answer context (.arr (message :: messages))).toJson? = some reply → P reply) ↔
      ∀ m ∈ message :: messages, ∀ response, responseTo? context m = some response →
        Q response := by
  have hall : (∀ response ∈ (message :: messages).filterMap (responseTo? context), Q response) ↔
      ∀ m ∈ message :: messages, ∀ response, responseTo? context m = some response →
        Q response := by
    constructor
    · exact fun h m hm response hresponse => h response (List.mem_filterMap.mpr ⟨m, hm, hresponse⟩)
    · intro h response hresponse
      obtain ⟨m, hm, hresponse⟩ := List.mem_filterMap.mp hresponse
      exact h m hm response hresponse
  rw [toJson?_answer_arr, ← hall]
  simp only
  split
  -- nothing is sent if there are only notifications, and then nothing is asked of responses
  · next hnil =>
    rw [hnil]
    exact iff_of_true (fun _ h => nomatch h) (List.forall_mem_nil _)
  · rw [← hP]
    exact ⟨fun h => h _ rfl, fun h reply heq => Option.some.inj heq ▸ h⟩

/-- **The replies that can be sent** are those to messages whose responses can be. -/
theorem isSendable_answer_iff (context : Context) (message : Json) :
    (∀ reply, (answer context message).toJson? = some reply → isSendable reply = true) ↔
      ∀ m ∈ messagesOf message, IsRepeatable m := by
  have hsingle (h : ∀ messages, message ≠ .arr messages)
      (hmessages : messagesOf message = [message]) :
      (∀ reply, (answer context message).toJson? = some reply → isSendable reply = true) ↔
        ∀ m ∈ messagesOf message, IsRepeatable m := by
    rw [forall_reply_single_iff context h, hmessages, List.forall_mem_singleton,
      isRepeatable_iff context]
  -- the responses to a batch are sent together, so each of them has to have bytes
  cases message with
  | arr messages =>
    cases messages with
    | nil =>
      refine iff_of_true (fun reply h => ?_) (List.forall_mem_nil _)
      cases h
      decide
    | cons message messages =>
      rw [forall_reply_batch_iff context fun _ => areSendable_iff]
      exact forall₂_congr fun m _ => (isRepeatable_iff context m).symm
  | _ => exact hsingle (fun _ h => nomatch h) rfl

/-! ### How deep replies nest -/

/-- How deep brackets stand in an outcome. -/
def outcomeNesting : Except Problem Json → Nat
  | .ok result => result.nesting
  | .error _ => 1

/-- How deep brackets stand in the id that a message brings. -/
def idNesting (message : Json) : Nat :=
  ((message.member? "id").getD .null).nesting

/-- **What the reply repeats can be written** in brackets that stand `depth` deep: around the id of
a message stand those of its response, and in a batch those of the batch. -/
def IsWritable (depth : Nat) : Json → Prop
  | .arr messages => ∀ message ∈ messages, idNesting message + 2 ≤ depth
  | message => idNesting message + 1 ≤ depth

theorem nesting_toJson_le_iff {n : Nat} : response.toJson.nesting ≤ n + 1 ↔
    response.id.nesting ≤ n ∧ outcomeNesting response.outcome ≤ n := by
  obtain ⟨id, outcome⟩ := response
  have hmembers (outcome : String × Json) :
      (Json.obj (Json.record [("jsonrpc", .str ("2.0" : Text)), ("id", id), outcome])).nesting ≤
        n + 1 ↔ id.nesting ≤ n ∧ outcome.2.nesting ≤ n := by
    rw [Json.nesting_obj_le_iff, Json.record, List.forall_mem_map]
    simp [Json.nesting]
  cases outcome with
  | ok result => exact hmembers ("result", result)
  | error problem => exact hmembers ("error", _)

/-- The answer of a tool is a text in an object in an array in an object. -/
theorem nesting_toolContent (result : ToolResult) : (toolContent result).nesting = 3 := by
  unfold toolContent
  cases result.isError with
  | false => rfl
  | true => rfl

theorem outcomeNesting_callTool_le (context : Context) (parameters : Json.Members) :
    outcomeNesting (callTool context parameters) ≤ 3 := by
  unfold callTool
  simp only
  generalize (if (member parameters "arguments").isTruthy = true then member parameters "arguments"
    else Json.obj []) = arguments
  cases toolOf? (member parameters "name") with
  | none => exact (by decide : 1 ≤ 3)
  | some tool =>
    cases arguments with
    | obj members =>
      simp only
      cases tool.call context (.obj members) with
      | ok result => exact Nat.le_of_eq (nesting_toolContent result)
      | error fault => exact (by decide : 1 ≤ 3)
    | _ => exact (by decide : 1 ≤ 3)

/-- **Outcomes are flat.** The list of the tools is the deepest of them. -/
theorem outcomeNesting_perform_le (context : Context) (request : Request) :
    outcomeNesting (perform context request) + 2 ≤ ownDepth := by
  unfold perform
  split
  · exact (by decide : 3 + 2 ≤ ownDepth)
  split
  · exact (by decide : 6 + 2 ≤ ownDepth)
  split
  · have hcall := outcomeNesting_callTool_le context request.parameters
    exact Nat.le_trans (Nat.add_le_add_right hcall 2) (by decide)
  split
  · exact (by decide : 1 + 2 ≤ ownDepth)
  · exact (by decide : 1 + 2 ≤ ownDepth)

/-- The id of a message nests less deep than the message, which is at least one bracket. -/
theorem idNesting_le_of_nesting_le {n : Nat} (h : message.nesting ≤ n + 1) :
    idNesting message ≤ n := by
  cases message with
  | obj members =>
    rw [Json.nesting_obj_le_iff] at h
    show ((Json.Members.get? members "id").getD .null).nesting ≤ n
    cases hid : Json.Members.get? members "id" with
    | none => exact Nat.zero_le n
    | some id =>
      obtain ⟨before, after, rfl, -⟩ := List.lookup_eq_some_iff.mp hid
      exact h (_, id) (List.mem_append_right before List.mem_cons_self)
  | _ => exact Nat.zero_le n

/-- **What stands no deeper in the message** can be repeated in the reply to it. -/
theorem isWritable_of_nesting_le {depth : Nat} {value : Json} (hdepth : ownDepth ≤ depth)
    (h : value.nesting ≤ depth) : IsWritable depth value := by
  obtain ⟨n, rfl⟩ : ∃ n, depth = n + 2 := ⟨depth - 2, by unfold ownDepth at hdepth; omega⟩
  cases value with
  | arr messages =>
    intro message hmessage
    have hnesting := Json.nesting_arr_le_iff.mp h message hmessage
    exact Nat.add_le_add_right (idNesting_le_of_nesting_le hnesting) 2
  | _ => exact Nat.add_le_add_right (idNesting_le_of_nesting_le h) 1

/-- **A response nests one deeper than the id** of its message, or it is not deep at all. -/
theorem nesting_of_answerRequest_iff {n : Nat} (hn : ownDepth ≤ n + 2)
    (h : answerRequest context message = some response) :
    response.toJson.nesting ≤ n + 1 ↔ idNesting message ≤ n := by
  -- a problem has the brackets of its id, and no deep ones of its own
  have hproblem (id : Json) (problem : Problem) :
      (Response.problem id problem).toJson.nesting ≤ n + 1 ↔ id.nesting ≤ n := by
    have hone : 1 ≤ n := by
      have : 8 ≤ n + 2 := hn
      omega
    rw [nesting_toJson_le_iff]
    exact and_iff_left hone
  cases message with
  | obj members =>
    obtain ⟨-, rfl⟩ | ⟨request, hrequest, rfl⟩ := cases_of_answerRequest h
    · exact hproblem _ _
    · have houtcome : outcomeNesting (perform context request) ≤ n :=
        Nat.le_of_add_le_add_right (Nat.le_trans (outcomeNesting_perform_le context request) hn)
      have hid : request.id.nesting = idNesting (.obj members) :=
        nesting_of_idOf? (idOf?_of_requestOf? hrequest)
      rw [nesting_toJson_le_iff, ← hid]
      exact and_iff_left houtcome
  | _ =>
    cases h
    exact hproblem .null .invalidRequest

/-- The id of a message is no deeper than its response allows, if it has one. -/
theorem idNesting_le_iff {n : Nat} (hn : ownDepth ≤ n + 2) (context : Context) (message : Json) :
    idNesting message ≤ n ↔
      ∀ response, responseTo? context message = some response → response.nesting ≤ n + 1 := by
  cases hanswer : answerRequest context message with
  | some response =>
    rw [responseTo?, hanswer, ← nesting_of_answerRequest_iff hn hanswer]
    simp
  | none =>
    rw [responseTo?, hanswer]
    refine iff_of_true ?_ (by simp)
    obtain ⟨members, rfl, hid⟩ := answerRequest_eq_none_iff.mp hanswer
    -- the id of a notification is null, and null has no brackets
    have hnull : idNesting (.obj members) = 0 := by
      rcases hid with hid | hid
      · rw [idNesting, Json.member?, hid]
        rfl
      · rw [idNesting, Json.member?, hid]
        rfl
    rw [hnull]
    exact Nat.zero_le n

/-- **The replies that can be written** are those that repeat nothing too deep. -/
theorem nesting_answer_le_iff {depth : Nat} (hdepth : ownDepth ≤ depth) (context : Context)
    (message : Json) :
    (∀ reply, (answer context message).toJson? = some reply → reply.nesting ≤ depth) ↔
      IsWritable depth message := by
  -- there is room for the brackets of a batch and of a response
  obtain ⟨n, rfl⟩ : ∃ n, depth = n + 2 := ⟨depth - 2, by unfold ownDepth at hdepth; omega⟩
  have hsingle (h : ∀ messages, message ≠ .arr messages)
      (hwritable : IsWritable (n + 2) message ↔ idNesting message + 1 ≤ n + 2) :
      (∀ reply, (answer context message).toJson? = some reply → reply.nesting ≤ n + 2) ↔
        IsWritable (n + 2) message := by
    rw [hwritable, Nat.add_le_add_iff_right, forall_reply_single_iff context h,
      idNesting_le_iff (Nat.le_trans hdepth (Nat.le_succ _)) context]
  cases message with
  | arr messages =>
    cases messages with
    | nil =>
      refine iff_of_true (fun reply h => ?_) (List.forall_mem_nil _)
      cases h
      exact Nat.le_trans (by decide : 2 ≤ ownDepth) hdepth
    | cons message messages =>
      rw [forall_reply_batch_iff context fun _ => Json.nesting_arr_le_iff]
      refine forall₂_congr fun m _ => ?_
      rw [Nat.add_le_add_iff_right, idNesting_le_iff hdepth context]
  | _ => exact hsingle (fun _ h => nomatch h) Iff.rfl

end Rpc

end SectionIndex
