import SectionIndex.Proofs.Json.Limits
import SectionIndex.Proofs.Service.Answer
import SectionIndex.Proofs.Service.Repetition

/-!
# What ends a service

A line that is no JSON is answered, and so is a message that is no request. What is left is a text
that the reader refuses, and a reply that nests too deep to be written: both end the service at
standard input, and over HTTP they have the response to a fault that nobody expected. Over HTTP
there is one more: a response repeats parts of its message, and some values that are read cannot be
sent.

How deep is too deep is told by whoever runs the service. If replies can be written as deep as
messages are read, no reply is too deep for a message that is read.

## Main definitions

* `Stdio.IsAnswerable`, `Stdio.IsServed` — the messages that are answered, and every line answered
  by itself.
* `Web.IsAnswerable` — the bodies of remote calls that are answered.
* `Web.IsReplied` — the response to a body.

## Main statements

* `Stdio.serve_eq_ok_iff`, `Stdio.exists_serve_iff` — the inputs that are served to their end.
* `Stdio.exists_serve_of_isShort` — inputs of short lines are.
* `endures_iff` — exactly what ends the services.
-/

namespace SectionIndex

/-! ### Standard input -/

namespace Stdio

variable {context : Context} {depths : Rpc.Depths} {line : Text} {lines replies : List Text}

/-- **The message is answered:** it is readable, and what is repeated of it can be written. -/
structure IsAnswerable (depths : Rpc.Depths) (message : Points) : Prop where
  readable : Json.IsReadable depths.reading message
  writable : ∀ value, Json.parse depths.reading message = .ok value →
    Rpc.IsWritable depths.writing value

/-- A text that is no JSON is answered by a parse error. -/
theorem isAnswerable_of_malformed {message : Points}
    (h : Json.parse depths.reading message = .error .malformed) : IsAnswerable depths message where
  readable fault hfault := by
    rw [h] at hfault
    cases hfault
    rfl
  writable value hvalue := nomatch h.symm.trans hvalue

theorem exists_replyLine_iff (depth : Nat) (reply : Rpc.Reply) :
    (∃ answer, replyLine depth reply = .ok answer) ↔
      ∀ value, reply.toJson? = some value → value.nesting ≤ depth := by
  unfold replyLine
  cases reply.toJson? with
  | none => exact iff_of_true ⟨none, rfl⟩ fun _ h => nomatch h
  | some value =>
    simp only [Option.some.injEq, forall_eq']
    split
    · next h => exact iff_of_true ⟨_, rfl⟩ h
    · next h => exact iff_of_false (fun ⟨_, hline⟩ => nomatch hline) h

/-- The problem that stands for what is no JSON can be written. -/
theorem exists_replyLine_parseError (depths : Rpc.Depths) :
    ∃ answer, replyLine depths.writing (.single (.problem .null .parseError)) = .ok answer := by
  refine (exists_replyLine_iff _ _).mpr fun value h => ?_
  cases h
  exact le_trans (by decide : 2 ≤ Rpc.ownDepth) depths.own_le_writing

/-- An answerable message is answered by a line or by nothing, and no other message is. -/
theorem exists_answer_iff (context : Context) (depths : Rpc.Depths) (message : Points) :
    (∃ answer, (answerMessage context depths.reading message >>= replyLine depths.writing) =
        .ok answer) ↔ IsAnswerable depths message := by
  simp only [Fault.bind_eq_ok_iff]
  unfold answerMessage
  -- a message is answered, malformed, which has an answer too, or it stops the server
  cases hparse : Json.parse depths.reading message with
  | ok value =>
    have hwritable := (exists_replyLine_iff depths.writing (Rpc.answer context value)).trans
      (Rpc.nesting_answer_le_iff depths.own_le_writing context value)
    constructor
    · rintro ⟨answer, reply, hreply, hline⟩
      cases hreply
      refine ⟨fun fault h => (nomatch hparse.symm.trans h), fun other h => ?_⟩
      cases hparse.symm.trans h
      exact hwritable.mp ⟨answer, hline⟩
    · intro h
      obtain ⟨answer, hline⟩ := hwritable.mpr (h.writable value hparse)
      exact ⟨answer, _, rfl, hline⟩
  | error fault =>
    cases fault with
    | malformed =>
      obtain ⟨answer, hline⟩ := exists_replyLine_parseError depths
      exact iff_of_true ⟨answer, _, rfl, hline⟩ (isAnswerable_of_malformed hparse)
    | numberTooLong digits =>
      exact iff_of_false (fun ⟨_, _, h, _⟩ => (nomatch h)) fun h => nomatch h.readable _ hparse
    | tooDeep bracket =>
      exact iff_of_false (fun ⟨_, _, h, _⟩ => (nomatch h)) fun h => nomatch h.readable _ hparse

theorem exists_answerLine_iff (context : Context) (depths : Rpc.Depths) (line : Text) :
    (∃ answer, answerLine context depths line = .ok answer) ↔ IsAnswerable depths line.strip := by
  unfold answerLine
  split
  · next h =>
    rw [h]
    exact iff_of_true ⟨none, rfl⟩ (isAnswerable_of_malformed rfl)
  · exact exists_answer_iff context depths line.strip

/-- **Every line is answered by itself**, and the replies are all of these answers in order. -/
def IsServed (context : Context) (depths : Rpc.Depths) (lines replies : List Text) : Prop :=
  ∃ answers,
    List.Forall₂ (fun line answer => answerLine context depths line = .ok answer) lines answers ∧
      replies = answers.flatMap Option.toList

/-- The lines are answered one after another, by induction on the lines. -/
theorem answerLines_eq_ok_iff : answerLines context depths lines = .ok replies ↔
    IsServed context depths lines replies := by
  -- by induction on the lines: the first one is answered before the others are read
  induction lines generalizing replies with
  | nil =>
    constructor
    · intro h
      cases h
      exact ⟨[], .nil, rfl⟩
    · rintro ⟨answers, hanswers, rfl⟩
      cases hanswers
      rfl
  | cons line lines ih =>
    rw [answerLines, Fault.bind_eq_ok_iff]
    constructor
    · rintro ⟨answer, hanswer, h⟩
      obtain ⟨rest, hrest, h⟩ := Fault.bind_eq_ok_iff.mp h
      cases h
      obtain ⟨answers, hanswers, rfl⟩ := ih.mp hrest
      exact ⟨answer :: answers, .cons hanswer hanswers, rfl⟩
    · rintro ⟨answers, hanswers, rfl⟩
      cases hanswers with
      | @cons _ answer _ answers hanswer hanswers =>
        exact ⟨answer, hanswer, Fault.bind_eq_ok_iff.mpr ⟨_, ih.mpr ⟨answers, hanswers, rfl⟩, rfl⟩⟩

/-- All lines are answered if each of them is. -/
theorem exists_isServed_iff : (∃ replies, IsServed context depths lines replies) ↔
    ∀ line ∈ lines, IsAnswerable depths line.strip := by
  induction lines with
  | nil => exact ⟨fun _ => List.forall_mem_nil _, fun _ => ⟨[], [], .nil, rfl⟩⟩
  | cons line lines ih =>
    rw [List.forall_mem_cons, ← exists_answerLine_iff context depths, ← ih]
    constructor
    · rintro ⟨replies, answers, hanswers, -⟩
      cases hanswers with
      | cons hanswer hanswers => exact ⟨⟨_, hanswer⟩, _, _, hanswers, rfl⟩
    · rintro ⟨⟨answer, hanswer⟩, replies, answers, hanswers, -⟩
      exact ⟨_, answer :: answers, .cons hanswer hanswers, rfl⟩

/-- **What is served:** each line as if it stood alone. -/
theorem serve_eq_ok_iff {input : Text} : serve context depths input = .ok replies ↔
    IsServed context depths (input.splitOn '\n') replies :=
  answerLines_eq_ok_iff

/-- **The inputs that are served to their end.** -/
theorem exists_serve_iff {input : Text} : (∃ replies, serve context depths input = .ok replies) ↔
    ∀ line ∈ input.splitOn '\n', IsAnswerable depths (Text.strip line) := by
  simp only [serve_eq_ok_iff]
  exact exists_isServed_iff

/-- **A short message is answered** if replies can be written as deep as messages are read. -/
theorem isAnswerable_of_isShort {message : Points} (hdepths : depths.reading ≤ depths.writing)
    (h : Json.IsShort depths.reading message) : IsAnswerable depths message where
  readable := h.isReadable
  writable _ hvalue :=
    Rpc.isWritable_of_nesting_le depths.own_le_writing
      ((Json.nesting_le_of_parse hvalue).trans hdepths)

/-- **An input of short lines** is served to its end, whatever it says. -/
theorem exists_serve_of_isShort {input : Text} (hdepths : depths.reading ≤ depths.writing)
    (h : ∀ line ∈ input.splitOn '\n', Json.IsShort depths.reading (Text.strip line)) :
    ∃ replies, serve context depths input = .ok replies :=
  exists_serve_iff.mpr fun line hline => isAnswerable_of_isShort hdepths (h line hline)

end Stdio

/-! ### Remote calls over HTTP -/

namespace Web

variable {context : Context} {depths : Rpc.Depths} {body : Bytes}

/-- **The bodies that are answered:** what they hold is answerable, and what the responses repeat of
its messages can be sent. -/
def IsAnswerable (depths : Rpc.Depths) (body : Bytes) : Prop :=
  ∀ message, decodeMessage body = some message →
    Stdio.IsAnswerable depths message ∧
      ∀ value, Json.parse depths.reading message = .ok value →
        ∀ m ∈ Rpc.messagesOf value, Rpc.IsRepeatable m

/-- **The reply to a body:** to the message that it holds, or a parse error if it holds none. -/
def IsReplyToBody (context : Context) (depths : Rpc.Depths) (body : Bytes) (reply : Option Json) :
    Prop :=
  match (decodeMessage body).map (Json.parse depths.reading) with
  | some (.ok value) => Rpc.IsReplyTo context value reply
  | _ => reply = some (Rpc.Response.problem .null .parseError).toJson

/-- **The response with the reply to a body:** with status 200 and the reply in JSON, or with status
202 and empty if nothing is sent. -/
def IsReplied (context : Context) (depths : Rpc.Depths) (body : Bytes) (response : Response) :
    Prop :=
  (∃ value, IsReplyToBody context depths body (some value) ∧ response.status = 200 ∧
      response.body = .json value) ∨
    (IsReplyToBody context depths body none ∧ response.status = 202 ∧ response.body = .text [])

/-- **The replies that have a response** can be sent and written. -/
theorem isRepeatable_and_isWritable_iff (context : Context) (depths : Rpc.Depths) (value : Json) :
    (∀ reply, (Rpc.answer context value).toJson? = some reply →
        isSendable reply = true ∧ reply.nesting ≤ depths.writing) ↔
      (∀ m ∈ Rpc.messagesOf value, Rpc.IsRepeatable m) ∧ Rpc.IsWritable depths.writing value := by
  rw [← Rpc.isSendable_answer_iff context,
    ← Rpc.nesting_answer_le_iff depths.own_le_writing context]
  exact forall₂_and

/-- **The bodies that have a response** are the ones that are answered. -/
theorem callsResponse?_cases (context : Context) (depths : Rpc.Depths) (body : Bytes) :
    (callsResponse? context depths body = none ∧ ¬ IsAnswerable depths body) ∨
      ∃ response, callsResponse? context depths body = some response ∧ IsAnswerable depths body ∧
        IsReplied context depths body response ∧ response.status ≠ 500 := by
  have hparseError : isSendable (Rpc.Response.problem .null .parseError).toJson = true ∧
      (Rpc.Response.problem .null .parseError).toJson.nesting ≤ depths.writing :=
    ⟨by decide, le_trans (by decide : 2 ≤ Rpc.ownDepth) depths.own_le_writing⟩
  unfold callsResponse? IsAnswerable IsReplied IsReplyToBody
  simp only
  -- a body is no text, or no JSON, or it stops the reader, or it is answered
  cases hbody : decodeMessage body with
  | none =>
    refine Or.inr ⟨_, if_pos hparseError, fun _ h => (nomatch h), Or.inl ⟨_, rfl, rfl, rfl⟩, ?_⟩
    decide
  | some message =>
    simp only [Option.some.injEq, forall_eq', Option.map_some]
    unfold Stdio.answerMessage
    cases hparse : Json.parse depths.reading message with
    | error fault =>
      cases fault with
      | malformed =>
        exact Or.inr ⟨_, if_pos hparseError,
          ⟨Stdio.isAnswerable_of_malformed hparse, fun _ h => (nomatch h)⟩,
          Or.inl ⟨_, rfl, rfl, rfl⟩, by decide⟩
      | numberTooLong digits => exact Or.inl ⟨rfl, fun h => nomatch h.1.readable _ hparse⟩
      | tooDeep bracket => exact Or.inl ⟨rfl, fun h => nomatch h.1.readable _ hparse⟩
    | ok value =>
      have hproper := Rpc.isReplyTo_answer context value
      have hrepeated := isRepeatable_and_isWritable_iff context depths value
      have hanswerable : (Stdio.IsAnswerable depths message ∧
          ∀ other, (Except.ok value : Except Json.ParseFault Json) = .ok other →
            ∀ m ∈ Rpc.messagesOf other, Rpc.IsRepeatable m) ↔
          ∀ reply, (Rpc.answer context value).toJson? = some reply →
            isSendable reply = true ∧ reply.nesting ≤ depths.writing := by
        rw [hrepeated]
        constructor
        · exact fun h => ⟨h.2 value rfl, h.1.writable value hparse⟩
        · rintro ⟨hrepeatable, hwritable⟩
          refine ⟨⟨fun _ h => (nomatch hparse.symm.trans h), fun other h => ?_⟩, fun other h => ?_⟩
          · cases hparse.symm.trans h
            exact hwritable
          · cases h
            exact hrepeatable
      simp only [hanswerable]
      cases hreply : (Rpc.answer context value).toJson? with
      | none =>
        exact Or.inr ⟨_, rfl, fun _ h => (nomatch h), Or.inr ⟨hreply ▸ hproper, rfl, rfl⟩,
          by decide⟩
      | some reply =>
        simp only [Option.some.injEq, forall_eq']
        by_cases hsend : isSendable reply = true ∧ reply.nesting ≤ depths.writing
        · exact Or.inr ⟨_, if_pos hsend, hsend, Or.inl ⟨reply, hreply ▸ hproper, rfl, rfl⟩,
            (by decide : (200 : Nat) ≠ 500)⟩
        · exact Or.inl ⟨if_neg hsend, hsend⟩

/-- The request, sent to the route for remote calls. -/
def Request.posted (request : Request) : Request :=
  { request with method := Route.calls.method, path := Route.calls.path }

theorem dispatch?_posted (context : Context) (service : Service) (request : Request) :
    dispatch? context service request.posted =
      callsResponse? context service.depths request.body := by
  have hroute : Route.ofPath? request.posted.path = some .calls := by
    show Route.ofPath? Route.calls.path = _
    decide
  rw [dispatch?, hroute]
  rfl

end Web

/-- **What ends the services.** At standard input the depths are those of its own process. -/
theorem endures_iff (context : Context) (depths : Rpc.Depths) (service : Web.Service) (input : Text)
    (request : Web.Request) :
    ((∃ replies, Stdio.serve context depths input = .ok replies) ↔
      ∀ line ∈ input.splitOn '\n', Stdio.IsAnswerable depths (Text.strip line)) ∧
    (∀ replies, Stdio.serve context depths input = .ok replies ↔
      Stdio.IsServed context depths (input.splitOn '\n') replies) ∧
    let response := Web.respond context service request.posted
    (response.status ≠ 500 ↔ Web.IsAnswerable service.depths request.body) ∧
      (response.status = 500 ∨ Web.IsReplied context service.depths request.body response) := by
  refine ⟨Stdio.exists_serve_iff, fun _ => Stdio.serve_eq_ok_iff, ?_⟩
  intro response
  have hresponse : response = Web.finished service request.posted
      (Web.callsResponse? context service.depths request.body) := by
    rw [← Web.dispatch?_posted context service]
    rfl
  rcases Web.callsResponse?_cases context service.depths request.body with ⟨hnone, hnot⟩ |
    ⟨found, hsome, hanswerable, hreplied, hstatus⟩
  · rw [hnone] at hresponse
    rw [hresponse]
    exact ⟨iff_of_false (fun h => h rfl) hnot, Or.inl rfl⟩
  · rw [hsome] at hresponse
    rw [hresponse]
    exact ⟨iff_of_true hstatus hanswerable, Or.inr hreplied⟩

/-- A line with a number of 4301 digits ends the service before the line after it is read, and a
request with half of a surrogate pair for its id has the response to an unexpected fault. -/
theorem not_endures_of_long_number :
    let context : Context := ⟨⟨⟨[]⟩, [], "/", []⟩, { workspaceRoot := ⟨.root, []⟩ },
      ⟨2024, 2, 29, 1, 2, 3, 4, 0⟩⟩
    let depths : Rpc.Depths := ⟨8, 8, by decide⟩
    let number : Text := List.replicate 4301 '1'
    let ping : Text := "\x7b\"id\": 1, \"method\": \"ping\"\x7d\n"
    let body : Text :=
      "\x7b\"jsonrpc\": \"2.0\", \"id\": \"\\ud800\", \"method\": \"ping\"\x7d"
    (¬ ∃ replies, Stdio.serve context depths (number ++ '\n' :: ping) = .ok replies) ∧
      (Web.respond context ⟨"localhost", "id", depths⟩
        { method := "POST", path := "/mcp", body := encodeUtf8 body }).status = 500 := by
  intro context depths number ping body
  have hends := endures_iff context depths ⟨"localhost", "id", depths⟩ (number ++ '\n' :: ping)
    { method := "POST", path := "/mcp", body := encodeUtf8 body }
  obtain ⟨hserve, -, hpost⟩ := hends
  constructor
  · -- the number has a digit too many to be read
    rw [hserve]
    intro hanswerable
    have hdigits : ∀ c ∈ number, c.isDigit = true := fun c hc => by
      rw [List.eq_of_mem_replicate hc]
      rfl
    have hsplit : number ∈ (number ++ '\n' :: ping).splitOn '\n' := by
      rw [List.splitOn_append_cons_self_of_not_mem fun h => absurd (hdigits _ h) (by decide)]
      exact List.mem_cons_self
    have hstrip : number.strip = number :=
      Text.strip_of_forall fun c hc => isBlank_of_isDigit (hdigits c hc)
    have hlong : maxDigits < number.length := by
      rw [List.length_replicate]
      decide
    have hparse := Json.parse_of_long depths.reading hdigits (by decide) hlong
    have hline := hanswerable number hsplit
    rw [hstrip] at hline
    nomatch hline.readable _ hparse
  · -- the id is repeated, and it has no bytes
    have hnot : ¬ Web.IsAnswerable depths (encodeUtf8 body) := by
      intro hanswerable
      have hmessage : decodeMessage (encodeUtf8 body) = some (body : Points) := by decide +kernel
      have hid : ((Json.parse depths.reading (body : Points)).toOption.bind
          (·.member? "id")).map Web.isSendable = some false := by
        decide +kernel
      cases hparse : Json.parse depths.reading (body : Points) with
      | error fault =>
        rw [hparse] at hid
        cases hid
      | ok value =>
        rw [hparse] at hid
        obtain ⟨id, hmember, hsend⟩ := Option.map_eq_some_iff.mp hid
        have hsendable := Rpc.isSendable_of_forall ((hanswerable _ hmessage).2 value hparse) hmember
        cases hsend.symm.trans hsendable
    by_contra hstatus
    exact hnot (hpost.1.mp hstatus)

end SectionIndex
