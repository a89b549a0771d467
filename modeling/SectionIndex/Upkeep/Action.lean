import SectionIndex.Files.Write
import SectionIndex.Upkeep.Generate

/-!
# Operations on a host

Writing and removing the index of a file, step by step as it is done on a host: what is read is read
from the host as it is by then, and the new text is written as the last step of the attempt. A fault
ends an attempt, but it takes nothing back that was written before it. The faults are those of
reading and of the contents; the write itself cannot fail.

## Main definitions

* `Action` — what reads and changes a host, and can end with a fault.
* `Action.generate`, `Action.remove` — the operations on a file. They write nothing if they are only
  tried out.
-/

namespace SectionIndex

/-- **What reads and changes a host**, and has a result or ends with a fault. -/
abbrev Action := ExceptT Fault (StateM Host)

namespace Action

variable {α : Type}

/-- The outcome of an action on a host, and the host after it. -/
def on (action : Action α) (host : Host) : Except Fault α × Host :=
  StateT.run (ExceptT.run action) host

/-- What a host answers as it is now. -/
def ask (question : Host → Except Fault α) : Action α :=
  ExceptT.mk fun host => (question host, host)

/-- A result or a fault, whatever the host is. -/
def settle (result : Except Fault α) : Action α :=
  ask fun _ => result

/-- Writes a text into the file at the end of a path, which cannot fail. -/
def overwrite (path : Path) (content : Text) : Action Unit :=
  ExceptT.mk fun host => (.ok (), host.overwrite path content)

/-- The attempt to write the index of a file. -/
def tryGenerate (settings : Settings) (now : Moment) (file : Text) (minLines : Int)
    (write : Bool) : Action GenerateResult := do
  let content ← ask (·.loadFile file)
  let lines := Text.splitLines content
  if minLines ≠ 0 ∧ lines.length < minLines then
    return { GenerateResult.skipped file "below-threshold" with totalLines := lines.length }
  match Language.ofPath? (Path.ofText file) with
  | none => throw (.unsupported file)
  | some language =>
    match language.blockStyle with
    | none => return .skipped file "no-comment-syntax"
    | some style =>
      let existing ← settle (Block.parse content)
      let (sections, _) ← ask fun host => Context.detect ⟨host, settings, now⟩ file lines
      let now ← ask fun host => Context.utcNow ⟨host, settings, now⟩
      let indexed := indexedContent content existing style sections now.stamp
      settle (Block.checkNumbers indexed.sections indexed.totalLines)
      if write then overwrite (Path.ofText file) indexed.content
      return {
        path := file
        status := .success
        action := some (if existing.isSome then .updated else .added)
        sections := indexed.sections.length
        totalLines := indexed.totalLines }

/-- **Writes the index of a file.** -/
def generate (settings : Settings) (now : Moment) (file : Text) (minLines : Option Int)
    (write : Bool) : Action GenerateResult :=
  tryCatch (tryGenerate settings now file (minLines.getD settings.minLines) write)
    fun fault => settle (GenerateResult.ofFault file fault)

/-- The attempt to remove the index of a file. -/
def tryRemove (file : Text) (write : Bool) : Action RemoveResult := do
  let content ← ask (·.loadFile file)
  match ← settle (Block.parse content) with
  | none => return ⟨file, .skipped, false, some IssueKind.noIndex.label⟩
  | some existing =>
    if write then overwrite (Path.ofText file) (Block.remove content existing)
    return ⟨file, .success, true, none⟩

/-- **Removes the index of a file.** -/
def remove (file : Text) (write : Bool) : Action RemoveResult :=
  tryCatch (tryRemove file write) fun fault => settle (RemoveResult.ofFault file fault)

end Action

end SectionIndex
