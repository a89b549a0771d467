import SectionIndex.Indexing.Resolve
import SectionIndex.Json.Record
import SectionIndex.Upkeep.Outcome

/-!
# Payloads

The answers to questions about files as JSON objects. The members have a fixed order. The numbers of
an answer have least values: a line number and a number of lines are 1 at least. An answer with a
smaller number is refused, with the names of the fields that are too small. Counts of lines and of
tokens are natural numbers, and no limit is left for them to break.

## Main definitions

* `FileIndex.payload`, `ReadResult.payload` — the answers.
* `Section.faultyFields`, `ReadResult.faultyFields` — the fields whose numbers are too small.
* `FileIndex.checkedPayload`, `ReadResult.checkedPayload` — an answer, unless it is refused.
-/

namespace SectionIndex

/-- A section as an object. -/
def Section.payload (s : Section) : Json :=
  .obj (Json.record
    [("name", .str s.name), ("start", .int s.first), ("end", .int s.last),
     ("size", .int s.size), ("description", .str s.description), ("source", .str s.source.label)])

/-- A text as a value, or null if it is empty. -/
def Json.ofNonempty (t : Text) : Json :=
  if t = [] then .null else .text t

/-- **The index of a file** as the members of an object. -/
def FileIndex.payload (index : FileIndex) : Json.Members :=
  Json.record
    [("file", .str (Path.ofText index.path).name),
     ("path", .str index.path),
     ("language", .str index.language),
     ("total_lines", .nat index.totalLines),
     ("sections", .arr (index.sections.map Section.payload)),
     ("generated_at", .ofText? (index.generatedAt.map Moment.fineStamp)),
     ("companion_path", .ofText? index.companionPath),
     ("description", .ofNonempty index.description),
     ("notes", .ofNonempty index.notes)]

/-- **What a reader gets** as the members of an object. -/
def ReadResult.payload : ReadResult → Json.Members
  | .text s content =>
    Json.record
      [("section", .str s.name), ("start", .int s.first), ("end", .int s.last),
       ("content", .str content), ("token_count", .nat (countTokens content))]
  | .unknown name available =>
    Json.record
      [("error", .str (Fault.sectionNotFound name available).message),
       ("available_sections", .arr (available.map .text))]

/-- An issue as an object. -/
def Issue.payload (issue : Issue) : Json :=
  .obj (Json.record
    [("kind", .str issue.kind.label), ("section", .ofText? issue.sectionName),
     ("message", .str issue.message), ("stored_start", .ofInt? issue.storedStart),
     ("actual_start", .ofInt? issue.actualStart)])

/-- **What came of a check** as the members of an object. -/
def VerifyResult.payload (result : VerifyResult) : Json.Members :=
  Json.record
    [("path", .str result.path), ("status", .str result.status.label),
     ("valid", .bool result.valid), ("issues", .arr (result.issues.map Issue.payload)),
     ("reason", .ofText? result.reason)]

/-- What came of writing an index as the members of an object. -/
def GenerateResult.payload (result : GenerateResult) : Json.Members :=
  Json.record
    [("path", .str result.path), ("status", .str result.status.label),
     ("action", .ofText? (result.action.map IndexAction.label)),
     ("reason", .ofText? result.reason), ("sections", .int result.sections),
     ("total_lines", .int result.totalLines)]

/-- What came of removing an index as the members of an object. -/
def RemoveResult.payload (result : RemoveResult) : Json.Members :=
  Json.record
    [("path", .str result.path), ("status", .str result.status.label),
     ("removed", .bool result.removed), ("reason", .ofText? result.reason)]

/-! ### Limits of the answers -/

/-- The least number of a line, and the least number of lines of a section. -/
def leastNumber : Int := 1

/-- The fields of a section whose numbers are too small. -/
def Section.faultyFields (s : Section) : List Text :=
  Json.faultyNames
    [("start", leastNumber ≤ s.first), ("end", leastNumber ≤ s.last),
      ("size", leastNumber ≤ s.size)]

/-- The fields of what a reader gets whose numbers are too small. The names that there are have no
numbers. -/
def ReadResult.faultyFields : ReadResult → List Text
  | .text s _ => Json.faultyNames [("start", leastNumber ≤ s.first), ("end", leastNumber ≤ s.last)]
  | .unknown _ _ => []

/-- A value, unless there are faulty fields. -/
def refuseFaulty {α : Type} (names : List Text) (value : α) : Except (List Text) α :=
  if names = [] then .ok value else .error names

/-- **The index of a file as an answer.** Its sections are checked one after another, and the first
one with faulty fields is the one that is reported. -/
def FileIndex.checkedPayload (index : FileIndex) : Except (List Text) Json.Members := do
  forM index.sections fun s => refuseFaulty s.faultyFields ()
  return index.payload

/-- **What a reader gets as an answer.** -/
def ReadResult.checkedPayload (result : ReadResult) : Except (List Text) Json.Members :=
  refuseFaulty result.faultyFields result.payload

end SectionIndex
