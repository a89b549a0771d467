import SectionIndex.Proofs.Files.Resolve
import SectionIndex.Proofs.Indexing.Source
import SectionIndex.Service.Payload
import SectionIndex.Upkeep.Verify

/-!
# Questions about files

What tools and routes ask is one of three questions. To find the answer at most two files are
opened: the file that is asked about, and its companion document. Nothing else of what is written in
files can have an influence on the answer.

## Main definitions

* `Question`, `Question.find` — a question and what is found.
* `Question.Opens` — the question opens the file at a place.
* `Context.IsAlikeOutside` — another host that looks alike and is the same in the workspace.
* `Question.IsConfined` — all that is opened lies in the workspace.

## Main statements

* `Question.find_of_isAlikeOutside` — if a question is confined to the workspace, files elsewhere
  have no influence on what is found.
-/

namespace SectionIndex

/-! ### Hosts and the workspace -/

namespace Context

/-- The same settings and clock at another host. -/
def withHost (context : Context) (other : Host) : Context :=
  { context with host := other }

/-- **The place lies in the workspace.** -/
def IsInWorkspace (context : Context) (place : Location) : Prop :=
  ∃ root, context.workspace = .ok root ∧ root.names <+: place

/-- **The other host looks alike**, and is the same in the workspace: only bytes of files elsewhere
can differ. -/
structure IsAlikeOutside (context : Context) (other : Host) : Prop
    extends context.host.IsAlike other where
  inside : ∀ place, context.IsInWorkspace place →
    other.tree.get? place = context.host.tree.get? place

variable {context : Context} {other : Host} {place : Location} {bytes : Bytes}

/-- **A file outside the workspace that is given other bytes** leaves a host that is alike. -/
theorem isAlikeOutside_put (h : context.host.tree.get? place = some (.file bytes))
    (hout : ¬ context.IsInWorkspace place) (new : Bytes) :
    context.IsAlikeOutside (context.host.put place (.file new)) where
  toIsAlike := Host.isAlike_put h new
  inside p hp := by
    refine FileTree.get?_put_of_ne _ _ ?_
    rintro rfl
    exact hout hp

/-- The clock is the same at another host. -/
theorem utcNow_withHost (context : Context) (other : Host) :
    (context.withHost other).utcNow = context.utcNow := rfl

theorem resolvePath_withHost (h : context.IsAlikeOutside other) (file : Text) :
    (context.withHost other).resolvePath file = context.resolvePath file :=
  resolvePath_of_isAlike h.toIsAlike file

end Context

/-! ### Files with the same bytes -/

namespace Host

variable {host other : Host}

/-- **A path leads to the same** in both hosts if the file at its end has the same bytes. -/
theorem lookup_eq_of_isAlike (h : host.IsAlike other) {path : Path}
    (hfile : ∀ place bytes, host.lookup path = .found place (.file bytes) →
      other.tree.get? place = host.tree.get? place) :
    other.lookup path = host.lookup path := by
  rcases lookup_cases_of_isAlike h path with ⟨place, bytes, bytes', hhost, hother, hget⟩ | ⟨heq, -⟩
  · have hsame := hfile place bytes hhost
    rw [hget, get?_of_lookup hhost] at hsame
    cases hsame
    rw [hhost, hother]
  · exact heq

theorem loadFile_eq_of_lookup {file : Text}
    (h : other.lookup (Path.ofText file) = host.lookup (Path.ofText file)) :
    other.loadFile file = host.loadFile file := by
  unfold loadFile find
  rw [h]

theorem readCompanion_eq_of_lookup {file : Text}
    (h : other.lookup (Path.ofText file) = host.lookup (Path.ofText file)) :
    other.readCompanion file = host.readCompanion file := by
  unfold readCompanion
  rw [h]

/-- **A file has the same companion document** in both hosts if the path at which it is located
leads to the same. -/
theorem companionOf_eq_of_isAlike (h : host.IsAlike other) {file : Text}
    (hlookup : ∀ companion, host.locateCompanion file = .ok (some companion) →
      other.lookup (Path.ofText companion.toText) = host.lookup (Path.ofText companion.toText)) :
    other.companionOf file = host.companionOf file := by
  unfold companionOf
  rw [locateCompanion_of_isAlike h]
  cases hlocate : host.locateCompanion file with
  | error fault => simp only [bind, Except.bind]
  | ok companion? =>
    cases companion? with
    | none => simp only [bind, Except.bind]
    | some companion => exact readCompanion_eq_of_lookup (hlookup companion hlocate)

end Host

/-! ### Questions -/

/-- **What can be asked about a file.** -/
inductive Question
  | index (file : Text)
  | readSection (file name : Text)
  | verify (file : Text)
  deriving DecidableEq, Repr

/-- **What is found.** -/
inductive Finding
  | index (found : FileIndex)
  | reading (result : ReadResult)
  | check (result : VerifyResult)
  deriving DecidableEq, Repr

/-- What is found as the members of an object. -/
def Finding.payload : Finding → Json.Members
  | .index found => found.payload
  | .reading result => result.payload
  | .check result => result.payload

namespace Question

/-- The file that is asked about. -/
def file : Question → Text
  | .index file | .readSection file _ | .verify file => file

/-- The question seeks the companion document. A check does not. -/
def SeeksCompanion : Question → Prop
  | .verify _ => False
  | _ => True

/-- What is found at a resolved path. -/
def findAt (context : Context) (path : Text) : Question → Except Fault Finding
  | .index _ => (context.index path).map .index
  | .readSection _ name => (context.readSection path name).map .reading
  | .verify _ => (context.verify path context.settings.driftTolerance).map .check

/-- **What is found** when the question is asked. -/
def find (context : Context) (question : Question) : Except Fault Finding := do
  let path ← context.resolvePath question.file
  question.findAt context path.toText

/-- **The question opens the file at a place:** the file that is asked about, or its companion
document, which is looked for after the file was read. -/
inductive Opens (context : Context) (question : Question) : Location → Prop
  | file {path : Path} {place : Location} {bytes : Bytes}
      (hpath : context.resolvePath question.file = .ok path)
      (hfile : context.host.lookup (Path.ofText path.toText) = .found place (.file bytes)) :
      Opens context question place
  | companion {path companion : Path} {place : Location} {bytes : Bytes} {content : Text}
      (hseeks : question.SeeksCompanion)
      (hpath : context.resolvePath question.file = .ok path)
      (hload : context.host.loadFile path.toText = .ok content)
      (hlocate : context.host.locateCompanion path.toText = .ok (some companion))
      (hfile : context.host.lookup (Path.ofText companion.toText) = .found place (.file bytes)) :
      Opens context question place

/-- What is opened is a file. -/
theorem Opens.exists_file {context : Context} {question : Question} {place : Location}
    (h : question.Opens context place) :
    ∃ bytes, context.host.tree.get? place = some (.file bytes) := by
  cases h with
  | file hpath hfile => exact ⟨_, Host.get?_of_lookup hfile⟩
  | companion hseeks hpath hload hlocate hfile => exact ⟨_, Host.get?_of_lookup hfile⟩

/-- **The question is confined** to the workspace. -/
def IsConfined (context : Context) (question : Question) : Prop :=
  ∀ place, question.Opens context place → context.IsInWorkspace place

variable {context : Context} {other : Host} {question : Question} {path : Path} {content : Text}

/-- The file that is asked about is the same in both hosts. -/
theorem IsConfined.loadFile_eq (hconfined : question.IsConfined context)
    (h : context.IsAlikeOutside other) (hpath : context.resolvePath question.file = .ok path) :
    other.loadFile path.toText = context.host.loadFile path.toText := by
  refine Host.loadFile_eq_of_lookup (Host.lookup_eq_of_isAlike h.toIsAlike ?_)
  intro place bytes hfile
  exact h.inside place (hconfined place (.file hpath hfile))

/-- Its companion document is the same in both hosts. -/
theorem IsConfined.companionOf_eq (hconfined : question.IsConfined context)
    (h : context.IsAlikeOutside other) (hseeks : question.SeeksCompanion)
    (hpath : context.resolvePath question.file = .ok path)
    (hload : context.host.loadFile path.toText = .ok content) :
    other.companionOf path.toText = context.host.companionOf path.toText := by
  refine Host.companionOf_eq_of_isAlike h.toIsAlike fun companion hlocate => ?_
  refine Host.lookup_eq_of_isAlike h.toIsAlike fun place bytes hfile => ?_
  exact h.inside place (hconfined place (.companion hseeks hpath hload hlocate hfile))

theorem IsConfined.indexOf_eq (hconfined : question.IsConfined context)
    (h : context.IsAlikeOutside other) (hseeks : question.SeeksCompanion)
    (hpath : context.resolvePath question.file = .ok path)
    (hload : context.host.loadFile path.toText = .ok content) :
    (context.withHost other).indexOf path.toText content = context.indexOf path.toText content := by
  unfold Context.indexOf Context.detect
  rw [show (context.withHost other).host.companionOf path.toText = _ from
    hconfined.companionOf_eq h hseeks hpath hload, Context.utcNow_withHost]

/-- **Files outside the workspace have no influence** on what is found, if the question is confined
to the workspace. -/
theorem find_of_isAlikeOutside (hconfined : question.IsConfined context)
    (h : context.IsAlikeOutside other) :
    question.find (context.withHost other) = question.find context := by
  unfold find
  -- the path is resolved by links and folders alone, which are the same for both
  rw [Context.resolvePath_withHost h]
  cases hpath : context.resolvePath question.file with
  | error fault => simp only [bind, Except.bind]
  | ok path =>
    have hfile : (context.withHost other).host.loadFile path.toText =
        context.host.loadFile path.toText := hconfined.loadFile_eq h hpath
    show question.findAt (context.withHost other) path.toText = question.findAt context path.toText
    -- all that is read after the path is resolved is the file and its companion document
    cases question with
    | index file =>
      rw [findAt, findAt, Context.index, Context.index, hfile]
      cases hload : context.host.loadFile path.toText with
      | error fault => simp only [bind, Except.bind]
      | ok content => exact congrArg _ (hconfined.indexOf_eq h trivial hpath hload)
    | readSection file name =>
      rw [findAt, findAt, Context.readSection, Context.readSection, hfile]
      cases hload : context.host.loadFile path.toText with
      | error fault => simp only [bind, Except.bind]
      | ok content =>
        have hindex := hconfined.indexOf_eq h trivial hpath hload
        show Except.map _ ((context.withHost other).indexOf path.toText content >>= _) = _
        rw [hindex]
        rfl
    | verify file =>
      rw [findAt, findAt, Context.verify, Context.verify, hfile]
      rfl

end Question

end SectionIndex
