import SectionIndex.Proofs.Service.Answer

/-!
# Confinement to the workspace

The path that is asked about is compared with the workspace after its links are followed. The path
of a companion document is not: a link in the workspace can lead it to any file of the host, which
is then read and told of. So what is written in files outside the workspace can be found in an
answer, and it can be if and only if the question opens one of them.

## Main definitions

* `Inquiry`, `Inquiry.answer` — a message or a web request, and its answer.
* `Inquiry.IsConfined` — all files that are opened for the answer lie in the workspace.

## Main statements

* `Inquiry.answer_of_isConfined` — files elsewhere have no influence on a confined answer.
* `Inquiry.exists_answer_ne` — on any other answer they have.
* `Inquiry.unaffected_iff_isConfined` — both together.
-/

namespace SectionIndex

/-- **What can be sent to the service:** a message that calls a tool, or a web request that gets
what a route gives. -/
inductive Inquiry
  | call (message : Json)
  | get (service : Web.Service) (request : Web.Request)

/-- **What is sent back.** A notification has no reply. -/
inductive Inquiry.Answer
  | reply (response : Option Json)
  | page (response : Web.Response)

namespace Inquiry

/-- **The answer.** -/
def answer (context : Context) : Inquiry → Answer
  | call message => .reply ((Rpc.answerRequest context message).map Rpc.Response.toJson)
  | get service request => .page (Web.respond context service { request with method := "GET" })

/-- The question that is asked, if any. -/
def question? : Inquiry → Option Question
  | call message => Rpc.question? message
  | get _ request => Web.question? { request with method := "GET" }

/-- **The file at a place is opened** for the answer. -/
def Opens (context : Context) (inquiry : Inquiry) (place : Location) : Prop :=
  ∃ question ∈ inquiry.question?, question.Opens context place

/-- **The answer is confined** to the workspace. -/
def IsConfined (context : Context) (inquiry : Inquiry) : Prop :=
  ∀ place, inquiry.Opens context place → context.IsInWorkspace place

variable {context : Context} {inquiry : Inquiry} {other : Host}

/-- **The answer depends on the host** by what is found alone. -/
theorem answers_question? (inquiry : Inquiry) :
    Answers (fun context => inquiry.answer context) inquiry.question? := by
  cases inquiry with
  | call message =>
    exact (Rpc.answers_question? message).comp fun _ _ => Answer.reply.inj
  | get service request =>
    exact (Web.answers_question? service rfl).comp fun _ _ => Answer.page.inj

/-- **Files outside the workspace have no influence** on a confined answer. -/
theorem answer_of_isConfined (hconfined : inquiry.IsConfined context)
    (h : context.IsAlikeOutside other) :
    inquiry.answer (context.withHost other) = inquiry.answer context := by
  have hanswers := inquiry.answers_question?
  cases hquestion : inquiry.question? with
  | none =>
    rw [hquestion] at hanswers
    exact hanswers context other
  | some question =>
    rw [hquestion] at hanswers
    obtain ⟨respond, -, hrespond⟩ := hanswers
    have hfind : question.find (context.withHost other) = question.find context := by
      refine Question.find_of_isAlikeOutside (fun place hopens => ?_) h
      exact hconfined place ⟨question, hquestion, hopens⟩
    calc inquiry.answer (context.withHost other)
      _ = respond (question.find (context.withHost other)) := hrespond _
      _ = respond (question.find context) := by rw [hfind]
      _ = inquiry.answer context := (hrespond context).symm

/-- **On any other answer** some file outside the workspace has an influence, as long as the clock
shows a time. -/
theorem exists_answer_ne (hclock : context.now.utc? ≠ none) (h : ¬ inquiry.IsConfined context) :
    ∃ other, context.IsAlikeOutside other ∧
      inquiry.answer (context.withHost other) ≠ inquiry.answer context := by
  obtain ⟨place, ⟨question, hquestion, hopens⟩, hout⟩ :
      ∃ place, inquiry.Opens context place ∧ ¬ context.IsInWorkspace place := by
    -- some file that is opened lies outside
    by_contra hnone
    exact h fun place hopens => by_contra fun hout => hnone ⟨place, hopens, hout⟩
  have hanswers := inquiry.answers_question?
  rw [hquestion] at hanswers
  obtain ⟨respond, htells, hrespond⟩ := hanswers
  -- it can hold bytes that lead to two different answers
  obtain ⟨new, new', hapart⟩ := Question.exists_apart hclock hopens hout
  obtain ⟨bytes, hget⟩ := hopens.exists_file
  have halike := Context.isAlikeOutside_put hget hout
  have hdifferent : inquiry.answer (context.withFile place new) ≠
      inquiry.answer (context.withFile place new') := fun heq =>
    htells _ _ hapart ((hrespond _).symm.trans (heq.trans (hrespond _)))
  -- two answers that differ cannot both be the one at the host as it is
  by_cases hsame : inquiry.answer (context.withFile place new) = inquiry.answer context
  · refine ⟨_, halike new', fun hsame' => hdifferent ?_⟩
    exact hsame.trans hsame'.symm
  · exact ⟨_, halike new, hsame⟩

/-- **Files outside the workspace have no influence on an answer** if and only if none of them is
opened for it. -/
theorem unaffected_iff_isConfined (inquiry : Inquiry) (hclock : context.now.utc? ≠ none) :
    (∀ other, context.IsAlikeOutside other →
        inquiry.answer (context.withHost other) = inquiry.answer context) ↔
      inquiry.IsConfined context := by
  constructor
  · intro hunaffected
    by_contra hnot
    obtain ⟨other, halike, hne⟩ := exists_answer_ne hclock hnot
    exact hne (hunaffected other halike)
  · intro hconfined other halike
    exact answer_of_isConfined hconfined halike

/-- A companion document that is a link out of the workspace is told of. -/
theorem answer_ne_of_linked_companion :
    let tree : FileTree := ⟨[(["ws"], .directory), (["ws", "x.py"], .file (encodeUtf8 "x = 1\n")),
      (["ws", "x.py.ai.md"], .link "../secret.md"), (["secret.md"], .file (encodeUtf8 "# S\n"))]⟩
    let context : Context := ⟨⟨tree, [], "/", []⟩, { workspaceRoot := ⟨.root, ["ws"]⟩ },
      ⟨2024, 2, 29, 1, 2, 3, 4, 0⟩⟩
    let inquiry : Inquiry := .get ⟨"localhost", "id", ⟨8, 8, by decide⟩⟩
      { method := "GET", path := "/v1/index", query := [("path", "x.py")] }
    context.now.utc? ≠ none ∧ ∃ other, context.IsAlikeOutside other ∧
      inquiry.answer (context.withHost other) ≠ inquiry.answer context := by
  intro tree context inquiry
  have hclock : context.now.utc? ≠ none := by decide
  have hroot : context.workspace = .ok (.ofLocation ["ws"]) := by decide +kernel
  have hpath : context.resolvePath "x.py" = .ok (.ofLocation ["ws", "x.py"]) := by decide +kernel
  have hload : context.host.loadFile "/ws/x.py" = .ok "x = 1\n" := by decide +kernel
  -- the companion document is a link that leads out of the workspace
  have hlocate : context.host.locateCompanion "/ws/x.py" =
      .ok (some (.ofLocation ["ws", "x.py.ai.md"])) := by decide +kernel
  have hfile : context.host.lookup (Path.ofText "/ws/x.py.ai.md") =
      .found ["secret.md"] (.file (encodeUtf8 "# S\n")) := by decide +kernel
  have hquestion : inquiry.question? = some (.index "x.py") := by decide +kernel
  have hopens : inquiry.Opens context ["secret.md"] :=
    ⟨_, hquestion, .companion trivial hpath hload hlocate hfile⟩
  have hout : ¬ context.IsInWorkspace ["secret.md"] := by
    rintro ⟨root, hworkspace, hbelow⟩
    rw [hroot] at hworkspace
    cases hworkspace
    exact absurd hbelow (by decide)
  refine ⟨hclock, ?_⟩
  by_contra hnone
  have hconfined := (unaffected_iff_isConfined inquiry hclock).mp fun other halike =>
    by_contra fun hne => hnone ⟨other, halike, hne⟩
  exact hout (hconfined _ hopens)

end Inquiry

end SectionIndex
