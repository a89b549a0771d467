import SectionIndex.Json.Loose
import SectionIndex.Json.Record
import SectionIndex.Upkeep.Outcome

/-!
# Outcomes as records

Outcomes read back from the records that they are kept as. What is wrong with a record is told by
the names of its faulty fields.

## Main definitions

* `GenerateResult.ofRecord`, `VerifyResult.ofRecord`, `RemoveResult.ofRecord`.
-/

namespace SectionIndex

/-- All statuses. -/
def Status.all : List Status := [.success, .skipped, .failed]

/-- All actions. -/
def IndexAction.all : List IndexAction := [.added, .updated]

/-- All kinds of issues. -/
def IssueKind.all : List IssueKind := [.noIndex, .outOfRange, .missingFromIndex, .lineDrift]

/-- A status by its word. -/
def Status.read? : Json → Option Status := Json.oneOf? Status.label Status.all

/-- An action by its word. -/
def IndexAction.read? : Json → Option IndexAction := Json.oneOf? IndexAction.label IndexAction.all

/-- A kind of issue by its word. -/
def IssueKind.read? : Json → Option IssueKind := Json.oneOf? IssueKind.label IssueKind.all

/-- A reason, which can be missing. -/
def Json.Members.reason? (record : Json.Members) : Option (Option Text) :=
  record.optional? "reason" (Json.orNull? Json.exactText?) none

/-- **What came of writing an index**, from its record. -/
def GenerateResult.ofRecord (record : Json.Members) : Except (List Text) GenerateResult :=
  let path := record.required? "path" Json.exactText?
  let status := record.required? "status" Status.read?
  let action := record.optional? "action" (Json.orNull? IndexAction.read?) none
  let reason := record.reason?
  let sections := record.optional? "sections" Json.looseNatural? 0
  let totalLines := record.optional? "total_lines" Json.looseNatural? 0
  match path, status, action, reason, sections, totalLines with
  | some path, some status, some action, some reason, some sections, some totalLines =>
    .ok ⟨path, status, action, reason, sections, totalLines⟩
  | _, _, _, _, _, _ =>
    .error (Json.faultyNames
      [("path", path.isSome), ("status", status.isSome), ("action", action.isSome),
       ("reason", reason.isSome), ("sections", sections.isSome),
       ("total_lines", totalLines.isSome)])

/-- **One issue**, from its record. -/
def Issue.ofRecord (record : Json.Members) : Except (List Text) Issue :=
  let kind := record.required? "kind" IssueKind.read?
  let sectionName := record.optional? "section" (Json.orNull? Json.exactText?) none
  let message := record.required? "message" Json.exactText?
  let storedStart := record.optional? "stored_start" (Json.orNull? Json.looseInt?) none
  let actualStart := record.optional? "actual_start" (Json.orNull? Json.looseInt?) none
  match kind, sectionName, message, storedStart, actualStart with
  | some kind, some sectionName, some message, some storedStart, some actualStart =>
    .ok ⟨kind, sectionName, message, storedStart, actualStart⟩
  | _, _, _, _, _ =>
    .error (Json.faultyNames
      [("kind", kind.isSome), ("section", sectionName.isSome), ("message", message.isSome),
       ("stored_start", storedStart.isSome), ("actual_start", actualStart.isSome)])

/-- One issue, from a value that is known by a name. Faulty fields are told by their full names. -/
def Issue.ofValue (name : Text) : Json → Except (List Text) Issue
  | .obj record => (Issue.ofRecord record).mapError fun names => names.map (Json.fieldOf name)
  | _ => .error [name]

/-- Several issues, from values that are known by a name and their numbers, the first of which is
`number`. -/
def Issue.ofValues (name : Text) (number : Nat) : List Json → Except (List Text) (List Issue)
  | [] => .ok []
  | value :: values =>
    match Issue.ofValue (Json.fieldOf name (Text.ofNat number)) value,
      Issue.ofValues name (number + 1) values with
    | .ok issue, .ok issues => .ok (issue :: issues)
    | .error names, .ok _ => .error names
    | .ok _, .error names => .error names
    | .error names, .error moreNames => .error (names ++ moreNames)

/-- The member that holds the issues. -/
def Issue.listName : Text := "issues"

/-- The issues of a record, which can be missing. -/
def Issue.listOfRecord (record : Json.Members) : Except (List Text) (List Issue) :=
  match record.get? Issue.listName with
  | none => .ok []
  | some (.arr items) => Issue.ofValues Issue.listName 0 items
  | some _ => .error [Issue.listName]

/-- **What came of a check**, from its record. -/
def VerifyResult.ofRecord (record : Json.Members) : Except (List Text) VerifyResult :=
  let path := record.required? "path" Json.exactText?
  let status := record.required? "status" Status.read?
  let valid := record.required? "valid" Json.looseBool?
  let issues := Issue.listOfRecord record
  let reason := record.reason?
  match path, status, valid, issues, reason with
  | some path, some status, some valid, .ok issues, some reason =>
    .ok ⟨path, status, valid, issues, reason⟩
  | _, _, _, _, _ =>
    .error (Json.sortNames (Json.faultyNames
      [("path", path.isSome), ("status", status.isSome), ("valid", valid.isSome),
       ("reason", reason.isSome)] ++ Json.namesOf issues))

/-- **What came of removing an index**, from its record. -/
def RemoveResult.ofRecord (record : Json.Members) : Except (List Text) RemoveResult :=
  let path := record.required? "path" Json.exactText?
  let status := record.required? "status" Status.read?
  let removed := record.optional? "removed" Json.looseBool? false
  let reason := record.reason?
  match path, status, removed, reason with
  | some path, some status, some removed, some reason => .ok ⟨path, status, removed, reason⟩
  | _, _, _, _ =>
    .error (Json.faultyNames
      [("path", path.isSome), ("status", status.isSome), ("removed", removed.isSome),
       ("reason", reason.isSome)])

end SectionIndex
