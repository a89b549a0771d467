import SectionIndex.Proofs.Json.Printable
import SectionIndex.Proofs.Service.Endurance
import SectionIndex.Proofs.Text.LineCount

/-!
# The lines of the service at standard input

What is written for an input is what is written for its lines, one after another, each of them
served as if it stood alone. A line is answered by one line or by nothing: a value is written
without a line break, whatever texts are in it. Nothing is written for a blank line and for messages
that have no response.

## Main definitions

* `Stdio.outputOf` — the text that is written for an input.
* `Rpc.IsUnanswered` — the messages for which nothing is sent.
* `Stdio.IsSilent` — the lines for which nothing is written.
* `Stdio.IsFramed` — what is written for one line.

## Main statements

* `Stdio.outputOf_line`, `Stdio.outputOf_ended_line` — a line served alone.
* `Stdio.outputOf_eq_ok_iff` — the lines of an input are served independently of each other.
-/

namespace SectionIndex

namespace Rpc

variable {message : Json}

/-- **The messages for which nothing is sent:** notifications, and batches of nothing else that have
at least one. -/
def IsUnanswered (message : Json) : Prop :=
  IsNotification message ∨
    ∃ messages, message = .arr messages ∧ messages ≠ [] ∧ ∀ m ∈ messages, IsNotification m

theorem responseTo?_eq_none_iff (context : Context) (message : Json) :
    responseTo? context message = none ↔ IsNotification message := by
  unfold responseTo?
  rw [Option.map_eq_none_iff]
  exact answerRequest_eq_none_iff

/-- **Nothing is sent** exactly for these messages. -/
theorem toJson?_answer_eq_none_iff (context : Context) (message : Json) :
    (answer context message).toJson? = none ↔ IsUnanswered message := by
  have hsingle (hno : ∀ messages, message ≠ .arr messages) :
      (answer context message).toJson? = none ↔ IsUnanswered message := by
    rw [toJson?_answer_single context hno, responseTo?_eq_none_iff]
    refine ⟨Or.inl, fun h => h.resolve_right ?_⟩
    rintro ⟨messages, heq, -⟩
    exact hno messages heq
  cases message with
  | arr messages =>
    -- a batch is no notification itself
    have hno : ¬ IsNotification (.arr messages) :=
      not_isNotification fun _ heq => by cases heq
    cases messages with
    | nil =>
      -- an empty batch is answered by a problem
      refine iff_of_false (fun h => by cases h) ?_
      rintro (h | ⟨messages, heq, hne, -⟩)
      · exact hno h
      · cases heq
        exact hne rfl
    | cons first rest =>
      have hnone : (first :: rest).filterMap (responseTo? context) = [] ↔
          ∀ m ∈ first :: rest, IsNotification m := by
        rw [List.filterMap_eq_nil_iff]
        simp only [responseTo?_eq_none_iff]
      rw [toJson?_answer_arr]
      simp only
      constructor
      · intro h
        split at h
        · next hnil => exact Or.inr ⟨_, rfl, List.cons_ne_nil first rest, hnone.mp hnil⟩
        · cases h
      · rintro (h | ⟨messages, heq, -, hall⟩)
        · exact absurd h hno
        · cases heq
          exact if_pos (hnone.mpr hall)
  | _ => exact hsingle fun _ heq => by cases heq

end Rpc

namespace Stdio

open Text

variable {context : Context} {depths : Rpc.Depths} {line reply input output : Text}
  {answer : Option Text}

/-- **The text that is written for an input:** each reply with a line feed after it. -/
def outputOf (context : Context) (depths : Rpc.Depths) (input : Text) : Except Fault Text :=
  (serve context depths input).map wholeLines

/-- **The lines for which nothing is written:** blank ones, and those with a message for which
nothing is sent. -/
def IsSilent (depths : Rpc.Depths) (line : Text) : Prop :=
  line.strip = [] ∨
    ∃ message, Json.parse depths.reading line.strip = .ok message ∧ Rpc.IsUnanswered message

/-- **What is written for a line.** It is the same whether a line feed ends the line or the input
ends there. It is nothing or one line, and nothing exactly for silent lines. -/
structure IsFramed (context : Context) (depths : Rpc.Depths) (line output : Text) : Prop where
  alone : outputOf context depths line = .ok output
  ended : outputOf context depths (line ++ ['\n']) = .ok output
  one_line : output = [] ∨ ∃ reply, reply.IsUnbroken ∧ output = reply ++ ['\n']
  silent : output = [] ↔ IsSilent depths line

/-! ### One line -/

/-- The line of a reply is the reply in JSON. -/
theorem eq_of_replyLine {depth : Nat} {sent : Rpc.Reply}
    (h : replyLine depth sent = .ok answer) : answer = sent.toJson?.map Json.render := by
  -- without an answer there is no line, and with one the line is its text
  unfold replyLine at h
  cases hvalue : sent.toJson? with
  | none =>
    rw [hvalue] at h
    cases h
    rfl
  | some value =>
    rw [hvalue] at h
    simp only at h
    split at h
    · cases h
      rfl
    · nomatch h

theorem exists_of_answerLine (h : answerLine context depths line = .ok answer)
    (hline : line.strip ≠ []) :
    ∃ reply, answerMessage context depths.reading line.strip = .ok reply ∧
      answer = reply.toJson?.map Json.render := by
  unfold answerLine at h
  rw [if_neg hline] at h
  obtain ⟨reply, hreply, hwritten⟩ := Fault.bind_eq_ok_iff.mp h
  exact ⟨reply, hreply, eq_of_replyLine hwritten⟩

/-- **A reply stays on its line:** it is a value in JSON on one line. -/
theorem isUnbroken_of_answerLine (h : answerLine context depths line = .ok (some reply)) :
    reply.IsUnbroken := by
  by_cases hline : line.strip = []
  · unfold answerLine at h
    rw [if_pos hline] at h
    nomatch h
  · obtain ⟨sent, -, heq⟩ := exists_of_answerLine h hline
    obtain ⟨value, -, rfl⟩ := Option.map_eq_some_iff.mp heq.symm
    exact Json.isUnbroken_render value

/-- **The lines without a reply** are the silent ones. -/
theorem isSilent_iff_of_answerLine (h : answerLine context depths line = .ok answer) :
    answer = none ↔ IsSilent depths line := by
  by_cases hline : line.strip = []
  · unfold answerLine at h
    rw [if_pos hline] at h
    cases h
    exact iff_of_true rfl (Or.inl hline)
  · obtain ⟨sent, hsent, rfl⟩ := exists_of_answerLine h hline
    rw [Option.map_eq_none_iff]
    unfold answerMessage at hsent
    unfold IsSilent
    cases hparse : Json.parse depths.reading line.strip with
    | ok message =>
      rw [hparse] at hsent
      cases hsent
      rw [Rpc.toJson?_answer_eq_none_iff]
      constructor
      · exact fun hmessage => Or.inr ⟨message, rfl, hmessage⟩
      · rintro (hblank | ⟨_, heq, hmessage⟩)
        · exact absurd hblank hline
        · cases heq
          exact hmessage
    | error fault =>
      -- what is no JSON is answered by a problem
      rw [hparse] at hsent
      have hno : ¬ (line.strip = [] ∨ ∃ message,
          Except.error fault = Except.ok message ∧ Rpc.IsUnanswered message) := by
        rintro (hblank | ⟨_, heq, -⟩)
        · exact hline hblank
        · nomatch heq
      cases fault with
      | malformed =>
        cases hsent
        exact iff_of_false (fun h => nomatch h) hno
      | numberTooLong digits => nomatch hsent
      | tooDeep bracket => nomatch hsent

/-! ### Lines served alone -/

/-- The text that is written for an answer. -/
def answerText (answer : Option Text) : Text :=
  wholeLines answer.toList

theorem outputOf_of_splitOn {lines : List Text} (h : input.splitOn '\n' = lines) :
    outputOf context depths input = (answerLines context depths lines).map wholeLines := by
  unfold outputOf serve
  rw [h]

/-- **A line served alone** has its answer. -/
theorem outputOf_line (h : '\n' ∉ line) :
    outputOf context depths line = (answerLine context depths line).map answerText := by
  rw [outputOf_of_splitOn (List.splitOn_eq_singleton h), answerLines]
  cases answerLine context depths line with
  | error fault => rfl
  | ok answer =>
    show Except.ok (wholeLines (answer.toList ++ [])) = Except.ok (wholeLines answer.toList)
    rw [List.append_nil]

/-- A line feed after the line changes nothing: no message stands after it. -/
theorem outputOf_ended_line (h : '\n' ∉ line) :
    outputOf context depths (line ++ ['\n']) = (answerLine context depths line).map answerText := by
  have hsplit : (line ++ ['\n']).splitOn '\n' = [line, []] :=
    List.splitOn_append_cons_self_of_not_mem h []
  rw [outputOf_of_splitOn hsplit, answerLines, answerLines]
  cases answerLine context depths line with
  | error fault => rfl
  | ok answer =>
    show Except.ok (wholeLines (answer.toList ++ ([] ++ []))) = Except.ok (wholeLines answer.toList)
    rw [List.append_nil, List.append_nil]

/-- **What a line is answered by** is framed. -/
theorem isFramed_of_answerLine (hline : '\n' ∉ line)
    (h : answerLine context depths line = .ok answer) :
    IsFramed context depths line (answerText answer) where
  alone := by
    rw [outputOf_line hline, h]
    rfl
  ended := by
    rw [outputOf_ended_line hline, h]
    rfl
  one_line := by
    cases answer with
    | none => exact Or.inl rfl
    | some reply => exact Or.inr ⟨reply, isUnbroken_of_answerLine h, wholeLines_cons reply []⟩
  silent := by
    rw [← isSilent_iff_of_answerLine h]
    cases answer with
    | none => exact iff_of_true rfl rfl
    | some reply =>
      refine iff_of_false ?_ (Option.some_ne_none reply)
      show wholeLines [reply] ≠ []
      rw [wholeLines_cons]
      exact List.append_ne_nil_of_right_ne_nil _ (List.cons_ne_nil _ _)

theorem IsFramed.exists_answerLine (hline : '\n' ∉ line) (h : IsFramed context depths line output) :
    ∃ answer, answerLine context depths line = .ok answer ∧ output = answerText answer := by
  have halone := h.alone
  rw [outputOf_line hline] at halone
  obtain ⟨answer, hanswer, rfl⟩ := Fault.map_eq_ok_iff.mp halone
  exact ⟨answer, hanswer, rfl⟩

/-! ### All lines -/

/-- **What is written for lines** is what is written for each of them, by induction on the lines. -/
theorem answerLines_map_eq_ok_iff {lines : List Text} (hlines : ∀ line ∈ lines, '\n' ∉ line) :
    (answerLines context depths lines).map wholeLines = .ok output ↔
      ∃ outputs, List.Forall₂ (IsFramed context depths) lines outputs ∧
        output = outputs.flatten := by
  -- by induction on the lines, each of which is framed by itself
  induction lines generalizing output with
  | nil =>
    constructor
    · intro h
      cases h
      exact ⟨[], .nil, rfl⟩
    · rintro ⟨outputs, houtputs, rfl⟩
      cases houtputs
      rfl
  | cons line lines ih =>
    obtain ⟨hline, hlines⟩ := List.forall_mem_cons.mp hlines
    rw [Fault.map_eq_ok_iff, answerLines]
    constructor
    · rintro ⟨replies, hreplies, rfl⟩
      obtain ⟨answer, hanswer, hreplies⟩ := Fault.bind_eq_ok_iff.mp hreplies
      obtain ⟨rest, hrest, hreplies⟩ := Fault.bind_eq_ok_iff.mp hreplies
      cases hreplies
      obtain ⟨outputs, houtputs, heq⟩ := (ih hlines).mp (congrArg _ hrest)
      refine ⟨answerText answer :: outputs,
        .cons (isFramed_of_answerLine hline hanswer) houtputs, ?_⟩
      rw [wholeLines_append, heq]
      rfl
    · rintro ⟨outputs, houtputs, rfl⟩
      cases houtputs with
      | @cons _ first _ rest hfirst hrest =>
        obtain ⟨answer, hanswer, rfl⟩ := hfirst.exists_answerLine hline
        obtain ⟨replies, hreplies, heq⟩ :=
          Fault.map_eq_ok_iff.mp ((ih hlines).mpr ⟨rest, hrest, rfl⟩)
        refine ⟨answer.toList ++ replies, Fault.bind_eq_ok_iff.mpr ⟨answer, hanswer,
          Fault.bind_eq_ok_iff.mpr ⟨replies, hreplies, rfl⟩⟩, ?_⟩
        rw [wholeLines_append, heq]
        rfl

/-- **The lines of an input are served independently of each other.** -/
theorem outputOf_eq_ok_iff (context : Context) (depths : Rpc.Depths) (input output : Text) :
    outputOf context depths input = .ok output ↔
      ∃ outputs, List.Forall₂ (IsFramed context depths) (input.splitOn '\n') outputs ∧
        output = outputs.flatten := by
  rw [outputOf_of_splitOn rfl]
  exact answerLines_map_eq_ok_iff fun line hline => (of_mem_splitOn hline).1

/-- Of a blank line, a request, a notification and a batch of one notification, only the request is
answered. -/
example :
    let context : Context := ⟨⟨⟨[]⟩, [], "/", []⟩, { workspaceRoot := ⟨.root, []⟩ },
      ⟨2024, 2, 29, 1, 2, 3, 4, 0⟩⟩
    let ping : Text := "\x7b\"jsonrpc\": \"2.0\", \"id\": \"a\\nb\", \"method\": \"ping\"\x7d"
    let pong : Text := "\x7b\"jsonrpc\": \"2.0\", \"id\": \"a\\nb\", \"result\": \x7b\x7d\x7d"
    (outputOf context ⟨8, 8, by decide⟩
      (wholeLines [" \t", ping, "\x7b\x7d", "[\x7b\x7d]"])).toOption = some (pong ++ ['\n']) := by
  decide +kernel

end Stdio

end SectionIndex
