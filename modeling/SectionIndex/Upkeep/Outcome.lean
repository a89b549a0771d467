import SectionIndex.Text.Basic

/-!
# What came of an operation

Each operation on one file has an outcome, so that a file that cannot be handled does not stop the
others.

## Main definitions

* `Status`, `IndexAction`, `GenerateResult`, `RemoveResult`.
* `Issue`, `VerifyResult`.
-/

namespace SectionIndex

/-- **How it went.** -/
inductive Status
  | success
  | skipped
  | failed
  deriving DecidableEq, Repr

/-- What was done to the index of a file. -/
inductive IndexAction
  | added
  | updated
  deriving DecidableEq, Repr

/-- What can be wrong with a stored index. -/
inductive IssueKind
  | noIndex
  | outOfRange
  | missingFromIndex
  | lineDrift
  deriving DecidableEq, Repr

/-- **One thing that is wrong** with a stored index. -/
structure Issue where
  kind : IssueKind
  sectionName : Option Text := none
  message : Text
  storedStart : Option Int := none
  actualStart : Option Int := none
  deriving DecidableEq, Repr

/-- What came of writing the index of a file. -/
structure GenerateResult where
  path : Text
  status : Status
  action : Option IndexAction := none
  reason : Option Text := none
  sections : Int := 0
  totalLines : Int := 0
  deriving DecidableEq, Repr

/-- What came of checking the index of a file. -/
structure VerifyResult where
  path : Text
  status : Status
  valid : Bool
  issues : List Issue := []
  reason : Option Text := none
  deriving DecidableEq, Repr

/-- What came of removing the index of a file. -/
structure RemoveResult where
  path : Text
  status : Status
  removed : Bool := false
  reason : Option Text := none
  deriving DecidableEq, Repr

/-- The word for a status. -/
def Status.label : Status → Text
  | .success => "success"
  | .skipped => "skipped"
  | .failed => "failed"

/-- The word for an action. -/
def IndexAction.label : IndexAction → Text
  | .added => "added"
  | .updated => "updated"

/-- The word for a kind of issue. -/
def IssueKind.label : IssueKind → Text
  | .noIndex => "no-index"
  | .outOfRange => "out-of-range"
  | .missingFromIndex => "missing-from-index"
  | .lineDrift => "line-drift"

namespace Issue

/-- The file has no index. -/
def noIndex : Issue where
  kind := .noIndex
  message := "No index found"

/-- A section as it is named in messages. -/
def named (name : Text) : Text :=
  "Section \"" ++ name ++ "\""

/-- A row names lines past the end of the file. -/
def outOfRange (name : Text) (storedStart : Int) (totalLines : Nat) : Issue where
  kind := .outOfRange
  sectionName := some name
  message := named name ++ ": line numbers exceed file length (" ++ Text.ofNat totalLines ++ ")"
  storedStart := some storedStart

/-- A section of the file has no row. -/
def missingFromIndex (name : Text) (actualStart : Int) : Issue where
  kind := .missingFromIndex
  sectionName := some name
  message := named name ++ " in code but not in index"
  actualStart := some actualStart

/-- A section starts elsewhere than its row says. -/
def lineDrift (name : Text) (storedStart actualStart : Int) : Issue where
  kind := .lineDrift
  sectionName := some name
  message := named name ++ ": index says line " ++ Text.ofInt storedStart ++ ", actual is " ++
    Text.ofInt actualStart
  storedStart := some storedStart
  actualStart := some actualStart

end Issue

end SectionIndex
