import SectionIndex.Upkeep.Outcome

/-!
# Reports

The lines that say what came of each file.
-/

namespace SectionIndex

/-- The mark of a status. -/
def Status.mark : Status → Char
  | .success => '✓'
  | .skipped => '-'
  | .failed => '✗'

/-- The line about a file. -/
def statusLine (path : Text) (status : Status) (text : Text) : Text :=
  "   " ++ status.mark :: ' ' :: path ++ ": " ++ text

/-- A word that can be missing. -/
def Text.orNone (word : Option Text) : Text :=
  word.getD "None"

/-- A reason in brackets after what it is the reason for. -/
def because (what : Text) (reason : Option Text) : Text :=
  what ++ " (" ++ Text.orNone reason ++ ")"

/-- **What came of writing an index**, as a line. -/
def GenerateResult.report (result : GenerateResult) : Text :=
  statusLine result.path result.status <|
    match result.status with
    | .success =>
      Text.orNone (result.action.map IndexAction.label) ++ " index (" ++
        Text.ofInt result.sections ++ " sections, " ++ Text.ofInt result.totalLines ++ " lines)"
    | .skipped => because "skipped" result.reason
    | .failed => because "failed" result.reason

/-- **What came of a check**, as a line and a further one for each issue. -/
def VerifyResult.report (result : VerifyResult) : Text :=
  if result.valid then statusLine result.path result.status "index valid"
  else if result.status = .skipped then
    statusLine result.path result.status (because "skipped" result.reason)
  else
    Text.join ['\n'] <|
      statusLine result.path result.status (Text.ofNat result.issues.length ++ " issue(s)") ::
        result.issues.map fun issue => "      - " ++ issue.message

/-- **What came of removing an index**, as a line. -/
def RemoveResult.report (result : RemoveResult) : Text :=
  statusLine result.path result.status <|
    if result.removed then "index removed"
    else
      because (if result.status = .skipped then "skipped" else "failed") result.reason

end SectionIndex
