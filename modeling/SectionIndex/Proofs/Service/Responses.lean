import Mathlib.Data.List.Forall2
import SectionIndex.Service.Rpc

/-!
# The responses to messages

Every message that is no notification has a response, whatever it holds. The responses to a batch
come in the order of its messages, none is left out and none is there twice. What goes wrong while a
tool is called is told in the response to the call, so it ends neither the batch nor the service.

## Main definitions

* `Rpc.IsNotification` — the messages that are not answered.
* `Rpc.IsResponseTo` — what every response has: version, outcome and id.
* `Rpc.IsReplyTo` — what is sent back to a message or a batch.

## Main statements

* `Rpc.isResponseTo_of_answerRequest` — each response is one to its message.
* `Rpc.isReplyTo_answer` — all messages are answered in this way.
-/

namespace SectionIndex

/-- The value of a member of an object. -/
def Json.member? : Json → Text → Option Json
  | .obj members, key => Json.Members.get? members key
  | _, _ => none

namespace Rpc

/-- **A notification** is an object without an id, or with null for it. -/
def IsNotification (message : Json) : Prop :=
  ∃ members : Json.Members, message = .obj members ∧
    (members.get? "id" = none ∨ members.get? "id" = some .null)

/-- A message that is no object is no notification. -/
theorem not_isNotification {message : Json} (h : ∀ members, message ≠ .obj members) :
    ¬ IsNotification message := by
  rintro ⟨members, heq, -⟩
  exact h members heq

theorem isNotification_obj {members : Json.Members} :
    IsNotification (.obj members) ↔ (member members "id").isNull = true := by
  have hid : (member members "id").isNull = true ↔
      (members.get? "id" = none ∨ members.get? "id" = some .null) := by
    unfold member
    cases members.get? "id" with
    | none => exact ⟨fun _ => Or.inl rfl, fun _ => rfl⟩
    | some id => cases id <;> simp [Json.isNull]
  rw [hid]
  constructor
  · rintro ⟨_, heq, h⟩
    cases heq
    exact h
  · exact fun h => ⟨members, rfl, h⟩

instance : DecidablePred IsNotification
  | .obj _ => decidable_of_iff _ isNotification_obj.symm
  | .null => isFalse (not_isNotification fun _ h => nomatch h)
  | .bool _ => isFalse (not_isNotification fun _ h => nomatch h)
  | .int _ => isFalse (not_isNotification fun _ h => nomatch h)
  | .binary _ => isFalse (not_isNotification fun _ h => nomatch h)
  | .str _ => isFalse (not_isNotification fun _ h => nomatch h)
  | .arr _ => isFalse (not_isNotification fun _ h => nomatch h)

/-- The value is a text or a whole number, as ids are. -/
def IsPlainId : Json → Prop
  | .str _ | .int _ => True
  | _ => False

/-- **A response to a message:** it tells its version, it has either a result or an error, and its
id is the one of the message. -/
structure IsResponseTo (message response : Json) : Prop where
  version : response.member? "jsonrpc" = some (.str ("2.0" : Text))
  outcome : Xor (∃ result, response.member? "result" = some result)
    (∃ error, response.member? "error" = some error)
  no_id : (∀ members, message ≠ .obj members) → response.member? "id" = some .null
  same_id : ∀ id, message.member? "id" = some id → IsPlainId id →
    response.member? "id" = some id

/-- The response to one message as a value. -/
def responseTo? (context : Context) (message : Json) : Option Json :=
  (answerRequest context message).map Response.toJson

/-- **What is sent back to a message.** An empty batch has one response. Any other batch has the
responses to those of its messages that are no notifications, in their order, and nothing is sent
if there is none. A single message has its response, and a notification none. -/
def IsReplyTo (context : Context) : Json → Option Json → Prop
  | .arr [], reply => ∃ response, reply = some response ∧ IsResponseTo (.arr []) response
  | .arr messages, reply =>
    let requests := messages.filter fun message => ¬ IsNotification message
    ∃ responses, responses.map some = requests.map (responseTo? context) ∧
      List.Forall₂ IsResponseTo requests responses ∧
      reply = if responses = [] then none else some (.arr responses)
  | message, reply =>
    reply = responseTo? context message ∧
      if IsNotification message then reply = none
      else ∃ response, reply = some response ∧ IsResponseTo message response

variable {context : Context} {message id : Json} {response : Response}

/-! ### Responses -/

theorem member?_toJson_version (response : Response) :
    response.toJson.member? "jsonrpc" = some (.str ("2.0" : Text)) :=
  rfl

theorem member?_toJson_id (response : Response) :
    response.toJson.member? "id" = some response.id :=
  rfl

/-- A response has a result or an error, and not both. -/
theorem xor_member?_toJson (response : Response) :
    Xor (∃ result, response.toJson.member? "result" = some result)
      (∃ error, response.toJson.member? "error" = some error) := by
  obtain ⟨id, outcome⟩ := response
  cases outcome with
  | ok result => exact Or.inl ⟨⟨result, rfl⟩, fun ⟨_, h⟩ => nomatch h⟩
  | error problem => exact Or.inr ⟨⟨_, rfl⟩, fun ⟨_, h⟩ => nomatch h⟩

/-- A response is one to a message if its id is right. -/
theorem isResponseTo_toJson (hnull : (∀ members, message ≠ .obj members) → response.id = .null)
    (hsame : ∀ id, message.member? "id" = some id → IsPlainId id → response.id = id) :
    IsResponseTo message response.toJson where
  version := member?_toJson_version response
  outcome := xor_member?_toJson response
  no_id h := by rw [member?_toJson_id, hnull h]
  same_id id hid hplain := by rw [member?_toJson_id, hsame id hid hplain]

/-- A member that is there is the one that is read. -/
theorem member_eq_of_member? {members : Json.Members} {key : Text} {value : Json}
    (h : (Json.obj members).member? key = some value) : member members key = value := by
  rw [member, show Json.Members.get? members key = some value from h]
  rfl

/-- An id that is a text or a whole number is sent back as it is. -/
theorem idOf?_of_isPlainId (h : IsPlainId id) : idOf? id = some id := by
  cases id with
  | str points => rfl
  | int n => rfl
  | _ => exact h.elim

/-- The id of a proper request is the one that is sent back. -/
theorem idOf?_of_requestOf? {members : Json.Members} {request : Request}
    (h : requestOf? members = some request) :
    idOf? (member members "id") = some request.id := by
  unfold requestOf? at h
  cases hid : idOf? (member members "id") with
  | none => rw [hid] at h; nomatch h
  | some id =>
    rw [hid] at h
    -- a request that is read keeps the id of its message on every way through
    simp only [Option.bind_eq_bind, Option.bind_some] at h
    split at h
    · split at h
      all_goals
        obtain ⟨-, -, h⟩ := Option.bind_eq_some_iff.mp h
        obtain ⟨parameters, -, hrequest⟩ := Option.bind_eq_some_iff.mp h
        cases hrequest
        rfl
    · nomatch h

/-! ### Single messages -/

/-- **The messages without a response** are the notifications. -/
theorem answerRequest_eq_none_iff : answerRequest context message = none ↔
    IsNotification message := by
  cases message with
  | obj members =>
    rw [isNotification_obj]
    unfold answerRequest
    simp only
    split
    · next h => exact ⟨fun _ => h, fun _ => rfl⟩
    · next h =>
      -- a request that is not proper is answered too
      refine ⟨fun hnone => ?_, fun hnull => absurd hnull h⟩
      cases hrequest : requestOf? members with
      | none => rw [hrequest] at hnone; nomatch hnone
      | some request => rw [hrequest] at hnone; nomatch hnone
  | _ => exact ⟨(nomatch ·), fun h => absurd h (not_isNotification fun _ heq => nomatch heq)⟩

/-- **The response to an object** is the outcome of its request, or says that it holds none. -/
theorem cases_of_answerRequest {members : Json.Members}
    (h : answerRequest context (.obj members) = some response) :
    (requestOf? members = none ∧ response = .problem (member members "id") .invalidRequest) ∨
      ∃ request, requestOf? members = some request ∧
        response = ⟨request.id, perform context request⟩ := by
  unfold answerRequest at h
  simp only at h
  split at h
  · nomatch h
  · split at h
    · next hnone => exact Or.inl ⟨hnone, (Option.some.inj h).symm⟩
    · next request hrequest => exact Or.inr ⟨request, hrequest, (Option.some.inj h).symm⟩

/-- **Each response is one to its message.** -/
theorem isResponseTo_of_answerRequest (h : answerRequest context message = some response) :
    IsResponseTo message response.toJson := by
  cases message with
  | obj members =>
    refine isResponseTo_toJson (fun hno => absurd rfl (hno members)) fun id hid hplain => ?_
    have hmember := member_eq_of_member? hid
    -- a request that can be read has the id of the message, and no other one is sent back
    obtain ⟨-, rfl⟩ | ⟨request, hrequest, rfl⟩ := cases_of_answerRequest h
    · exact hmember
    · have hidOf := idOf?_of_requestOf? hrequest
      rw [hmember, idOf?_of_isPlainId hplain] at hidOf
      exact (Option.some.inj hidOf).symm
  | _ =>
    cases h
    exact isResponseTo_toJson (fun _ => rfl) fun id hid => nomatch hid

/-- A message that is no notification has a response. -/
theorem exists_responseTo? (context : Context) (h : ¬ IsNotification message) :
    ∃ response, responseTo? context message = some response ∧ IsResponseTo message response := by
  cases hanswer : answerRequest context message with
  | none => exact absurd (answerRequest_eq_none_iff.mp hanswer) h
  | some response =>
    exact ⟨response.toJson, by rw [responseTo?, hanswer]; rfl,
      isResponseTo_of_answerRequest hanswer⟩

theorem responseTo?_of_isNotification (context : Context) (h : IsNotification message) :
    responseTo? context message = none := by
  rw [responseTo?, answerRequest_eq_none_iff.mpr h]
  rfl

/-! ### Batches -/

/-- **The responses to the messages of a batch**, by induction on the messages: a notification adds
nothing, and any other message one response. -/
theorem filterMap_responseTo? (context : Context) (messages : List Json) :
    let requests := messages.filter fun message => ¬ IsNotification message
    let responses := messages.filterMap (responseTo? context)
    responses.map some = requests.map (responseTo? context) ∧
      List.Forall₂ IsResponseTo requests responses := by
  induction messages with
  | nil => exact ⟨rfl, .nil⟩
  | cons message messages ih =>
    simp only at ih ⊢
    -- a notification adds nothing to either list, and any other message one answer
    by_cases h : IsNotification message
    · rw [List.filterMap_cons_none (responseTo?_of_isNotification context h),
        List.filter_cons_of_neg (by simpa using h)]
      exact ih
    · obtain ⟨response, hresponse, hproper⟩ := exists_responseTo? context h
      rw [List.filterMap_cons_some hresponse, List.filter_cons_of_pos (by simpa using h),
        List.map_cons, List.map_cons, hresponse, ih.1]
      exact ⟨rfl, .cons hproper ih.2⟩

/-- What is sent back to a batch. -/
theorem toJson?_answer_arr (context : Context) (message : Json) (messages : List Json) :
    (answer context (.arr (message :: messages))).toJson? =
      let responses := (message :: messages).filterMap (responseTo? context)
      if responses = [] then none else some (.arr responses) := by
  have hresponses : (message :: messages).filterMap (responseTo? context) =
      ((message :: messages).filterMap (answerRequest context)).map Response.toJson :=
    List.map_filterMap.symm
  simp only [hresponses, List.map_eq_nil_iff]
  unfold answer
  simp only
  cases (message :: messages).filterMap (answerRequest context) with
  | nil => rfl
  | cons response responses => rfl

/-- What is sent back to a single message. -/
theorem toJson?_answer_single (context : Context) (h : ∀ messages, message ≠ .arr messages) :
    (answer context message).toJson? = responseTo? context message := by
  have hanswer : answer context message =
      (answerRequest context message).elim .nothing .single := by
    unfold answer
    split
    · exact absurd rfl (h _)
    · exact absurd rfl (h _)
    · rfl
  rw [hanswer, responseTo?]
  cases answerRequest context message with
  | none => rfl
  | some response => rfl

/-- **All messages are answered as they should be:** batches in order and each message once, single
messages by their response. -/
theorem isReplyTo_answer (context : Context) (message : Json) :
    IsReplyTo context message (answer context message).toJson? := by
  have hsingle (message : Json) (h : ∀ messages, message ≠ .arr messages) :
      (answer context message).toJson? = responseTo? context message ∧
        if IsNotification message then (answer context message).toJson? = none
        else ∃ response, (answer context message).toJson? = some response ∧
          IsResponseTo message response := by
    rw [toJson?_answer_single context h]
    refine ⟨rfl, ?_⟩
    split
    · next hnotification => exact responseTo?_of_isNotification context hnotification
    · next hrequest => exact exists_responseTo? context hrequest
  -- a message alone is answered for itself, a batch for each of its messages
  cases message with
  | arr messages =>
    cases messages with
    | nil => exact ⟨_, rfl, isResponseTo_toJson (fun _ => rfl) fun id hid => nomatch hid⟩
    | cons message messages =>
      obtain ⟨hmap, hforall⟩ := filterMap_responseTo? context (message :: messages)
      exact ⟨_, hmap, hforall, toJson?_answer_arr context message messages⟩
  | _ => exact hsingle _ fun messages heq => nomatch heq

end Rpc

end SectionIndex
