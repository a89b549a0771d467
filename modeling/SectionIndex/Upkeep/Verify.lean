import SectionIndex.Block.Parser
import SectionIndex.Indexing.Resolve
import SectionIndex.Upkeep.Outcome

/-!
# Checking the index of a file

The stored rows are compared with the file as it is. Every row must name lines of the file; the
marks of an author tell where sections are, so only those are looked for again.

## Main definitions

* `rangeIssues`, `driftIssues` — what is wrong with the rows.
* `Context.verify`.
-/

namespace SectionIndex

/-- The rows that name lines past the end of the file. -/
def rangeIssues (rows : List Block.Row) (totalLines : Nat) : List Issue :=
  rows.filterMap fun row =>
    if (totalLines : Int) < row.first ∨ (totalLines : Int) < row.last then
      some (.outOfRange row.name row.first totalLines)
    else none

/-- The sections that have no row, or start more than `tolerance` lines away from where their row
says. -/
def driftIssues (rows : List Block.Row) (sections : List Section) (tolerance : Int) : List Issue :=
  sections.filterMap fun s =>
    match Block.findRow? rows s.name with
    | none => some (.missingFromIndex s.name s.first)
    | some row =>
      if tolerance < (row.first - s.first).natAbs then some (.lineDrift s.name row.first s.first)
      else none

/-- All that is wrong with the rows stored in a file. -/
def contentIssues (rows : List Block.Row) (language : Option Language) (content : Text)
    (tolerance : Int) : List Issue :=
  let lines := Text.splitLines content
  rangeIssues rows lines.length ++
    driftIssues rows (Section.uniqueNames (scanExplicit language lines)) tolerance

/-- The outcome of a check that found these issues. -/
def VerifyResult.ofIssues (file : Text) (issues : List Issue) : VerifyResult where
  path := file
  status := if issues = [] then .success else .failed
  valid := issues.isEmpty
  issues := issues

/-- The outcome for a file that has no index. -/
def VerifyResult.noIndex (file : Text) : VerifyResult where
  path := file
  status := .failed
  valid := false
  issues := [.noIndex]
  reason := some IssueKind.noIndex.label

/-- The outcome for a file that cannot be read. -/
def VerifyResult.skipped (file reason : Text) : VerifyResult where
  path := file
  status := .skipped
  valid := false
  reason := some reason

/-- **Checks the index of a file.** A section may start up to `tolerance` lines away from where the
index says. -/
def Context.verify (context : Context) (file : Text) (tolerance : Option Int) :
    Except Fault VerifyResult :=
  match context.host.loadFile file with
  | .error (.unreadable _ reason) => .ok (.skipped file reason.label)
  | .error fault => .error fault
  | .ok content => do
    match ← Block.parse content with
    | none => return .noIndex file
    | some stored =>
      return .ofIssues file
        (contentIssues stored.rows (Language.ofPath? (Path.ofText file)) content
          (tolerance.getD context.settings.driftTolerance))

end SectionIndex
