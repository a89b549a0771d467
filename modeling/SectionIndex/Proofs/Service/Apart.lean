import SectionIndex.Proofs.Companion.Overlong
import SectionIndex.Proofs.Service.Question
import SectionIndex.Service.Tool

/-!
# Files that have an influence

Every file that a question opens has an influence on what is found: it can hold bytes that make a
difference which all who ask will see. Either what is wrong with the file stands at another place in
it, or one of its contents is a fault that no answer tells of.

## Main definitions

* `Apart` — two findings that are told apart by all who ask.
* `Context.withFile` — other bytes in the file at a place.

## Main statements

* `Question.exists_apart` — a file that is opened and lies outside the workspace can hold bytes that
  are told apart.
-/

namespace SectionIndex

/-- The first byte that is no character stands at the offset. -/
def badByteAt (offset : Nat) : Utf8Fault :=
  ⟨.start, 0xFF, offset, 1⟩

/-- **Two findings that are told apart** by all who ask: a file that is no text from one place or
from another one on, or a fault that is not about the file where something else was found. -/
inductive Apart : Except Fault Finding → Except Fault Finding → Prop
  | unreadable (file : Text) :
      Apart (.error (.unreadable file (.notReadable (badByteAt 0))))
        (.error (.unreadable file (.notReadable (badByteAt 1))))
  | failed {fault : Fault} (finding : Finding) (h : fault.isAboutFile = false) :
      Apart (.error fault) (.ok finding)

/-- A row of an index whose first line is a digit that makes no numeral. -/
def faultyBlock : Text := "/**\n * @ai-index\n * |a|²|1|\n */"

theorem parse_faultyBlock : Block.parse faultyBlock = .error (.notANumber ['²']) := rfl

/-! ### Other bytes in a file -/

namespace Context

/-- The context with other bytes in the file at a place. -/
def withFile (context : Context) (place : Location) (bytes : Bytes) : Context :=
  context.withHost (context.host.put place (.file bytes))

variable {context : Context} {path : Path} {file content : Text} {place : Location} {bytes : Bytes}

/-- The other bytes are found where the old ones were. -/
theorem lookup_withFile (h : context.host.lookup path = .found place (.file bytes)) (new : Bytes) :
    (context.withFile place new).host.lookup path = .found place (.file new) := by
  have hget := Host.get?_of_lookup h
  have hroot := FileTree.ne_nil_of_get?_file hget
  have hput : (context.withFile place new).host.tree.get? place = some (.file new) :=
    FileTree.get?_put_self _ _ _ hroot
  have hseen := Host.lookup_of_isAlike (Host.isAlike_put hget new) path
  rw [h, Lookup.seenIn] at hseen
  exact hseen.trans (congrArg (Option.elim · Lookup.missing (Lookup.found place)) hput)

theorem loadFile_withFile_of_error
    (h : context.host.lookup (Path.ofText file) = .found place (.file bytes)) {new : Bytes}
    {fault : Utf8Fault} (hnew : decodeUtf8 new = .error fault) :
    (context.withFile place new).host.loadFile file =
      .error (.unreadable file (.notReadable fault)) := by
  rw [Host.loadFile_of_lookup (lookup_withFile h new), hnew]
  rfl

/-- A file at another place keeps its text. -/
theorem loadFile_withFile_of_ne {other : Location} {otherBytes : Bytes}
    (hget : context.host.tree.get? place = some (.file bytes))
    (h : context.host.lookup (Path.ofText file) = .found other (.file otherBytes))
    (hne : other ≠ place) (new : Bytes) :
    (context.withFile place new).host.loadFile file = context.host.loadFile file := by
  refine Host.loadFile_eq_of_lookup (Host.lookup_eq_of_isAlike (Host.isAlike_put hget new) ?_)
  intro found foundBytes hfound
  rw [h] at hfound
  cases hfound
  exact FileTree.get?_put_of_ne _ _ hne

/-- **An index is made** if the companion document can be read and the clock shows a time. -/
theorem exists_indexOf {companion? : Option Companion}
    (hcompanion : context.host.companionOf file = .ok companion?)
    (hclock : context.now.utc? ≠ none) :
    ∃ index, context.indexOf file content = .ok index := by
  obtain ⟨now, hnow⟩ := Option.ne_none_iff_exists'.mp hclock
  unfold indexOf detect utcNow
  rw [hcompanion, hnow]
  exact ⟨_, rfl⟩

theorem indexOf_of_companionOf_error {fault : Fault}
    (hcompanion : context.host.companionOf file = .error fault) :
    context.indexOf file content = .error fault := by
  unfold indexOf detect
  rw [hcompanion]
  rfl

theorem index_of_loadFile (hload : context.host.loadFile file = .ok content) :
    context.index file = context.indexOf file content := by
  rw [index, hload]
  rfl

theorem readSection_of_loadFile (hload : context.host.loadFile file = .ok content) (name : Text) :
    context.readSection file name = (context.indexOf file content).map fun index =>
      match index.find? name with
      | some s => .text s (sectionText (Text.splitLines content) s)
      | none => .unknown name index.names := by
  rw [readSection, hload]
  show context.indexOf file content >>= _ = _
  cases context.indexOf file content with
  | error fault => rfl
  | ok index =>
    simp only [bind, Except.bind, pure, Except.pure, Except.map]
    cases index.find? name with
    | none => rfl
    | some s => rfl

end Context

namespace Question

variable {context : Context} {question : Question} {path companion : Path} {content : Text}
  {place : Location} {bytes : Bytes}

theorem find_withFile (hget : context.host.tree.get? place = some (.file bytes))
    (hout : ¬ context.IsInWorkspace place) (hpath : context.resolvePath question.file = .ok path)
    (new : Bytes) :
    question.find (context.withFile place new) =
      question.findAt (context.withFile place new) path.toText := by
  have h := Context.resolvePath_withHost (Context.isAlikeOutside_put hget hout new) question.file
  rw [hpath] at h
  unfold find
  rw [show (context.withFile place new).resolvePath question.file = .ok path from h]
  rfl

/-- **The file that is asked about** has an influence on what is found. -/
theorem exists_apart_of_file (hout : ¬ context.IsInWorkspace place)
    (hpath : context.resolvePath question.file = .ok path)
    (hfile : context.host.lookup (Path.ofText path.toText) = .found place (.file bytes)) :
    ∃ new new', Apart (question.find (context.withFile place new))
      (question.find (context.withFile place new')) := by
  have hget := Host.get?_of_lookup hfile
  have hfind := find_withFile hget hout hpath
  -- a byte that starts no character, as the first byte of the file or as the second
  have hbad : (context.withFile place [0xFF]).host.loadFile path.toText =
      .error (.unreadable path.toText (.notReadable (badByteAt 0))) :=
    Context.loadFile_withFile_of_error hfile rfl
  have hlater : (context.withFile place [0x41, 0xFF]).host.loadFile path.toText =
      .error (.unreadable path.toText (.notReadable (badByteAt 1))) :=
    Context.loadFile_withFile_of_error hfile rfl
  cases question with
  | index file =>
    refine ⟨[0xFF], [0x41, 0xFF], ?_⟩
    rw [hfind, hfind, findAt, findAt, Context.index, Context.index, hbad, hlater]
    exact Apart.unreadable path.toText
  | readSection file name =>
    refine ⟨[0xFF], [0x41, 0xFF], ?_⟩
    rw [hfind, hfind, findAt, findAt, Context.readSection, Context.readSection, hbad, hlater]
    exact Apart.unreadable path.toText
  | verify file =>
    -- a check passes over a file that is no text, but not over a block with a faulty number
    have hblock : (context.withFile place (encodeUtf8 faultyBlock)).host.loadFile path.toText =
        .ok faultyBlock :=
      Host.loadFile_of_encodeUtf8 place (Context.lookup_withFile hfile _)
    refine ⟨encodeUtf8 faultyBlock, [0xFF], ?_⟩
    rw [hfind, hfind, findAt, findAt, Context.verify, Context.verify, hblock, hbad]
    simp only [parse_faultyBlock]
    exact Apart.failed _ rfl

/-- The companion document with other bytes in it. -/
theorem companionOf_withFile
    (hlocate : context.host.locateCompanion path.toText = .ok (some companion))
    (hfile : context.host.lookup (Path.ofText companion.toText) = .found place (.file bytes))
    (new : Bytes) :
    (context.withFile place new).host.companionOf path.toText =
      match decodeUtf8 new with
      | .ok text => Companion.parse (Text.normalizeNewlines text) companion.toText
      | .error _ => .ok none := by
  -- the document is found at the same path, as all files stand where they stood
  have h := Host.locateCompanion_of_isAlike (Host.isAlike_put (Host.get?_of_lookup hfile) new)
    path.toText
  rw [hlocate] at h
  have hcompanion : (context.withFile place new).host.companionOf path.toText =
      (context.withFile place new).host.readCompanion companion.toText := by
    unfold Host.companionOf
    rw [show (context.withFile place new).host.locateCompanion path.toText = _ from h]
    rfl
  have hnull := Host.null_not_mem_of_locateCompanion hlocate
  rw [hcompanion]
  cases hdecode : decodeUtf8 new with
  | ok text =>
    rw [Host.readCompanion, if_neg hnull, Context.lookup_withFile hfile]
    simp only [hdecode]
  | error fault =>
    rw [Host.readCompanion, if_neg hnull, Context.lookup_withFile hfile]
    simp only [hdecode]

/-- **The companion document** has an influence on what is found. -/
theorem exists_apart_of_companion (hclock : context.now.utc? ≠ none)
    (hout : ¬ context.IsInWorkspace place) (hseeks : question.SeeksCompanion)
    (hpath : context.resolvePath question.file = .ok path)
    (hload : context.host.loadFile path.toText = .ok content)
    (hlocate : context.host.locateCompanion path.toText = .ok (some companion))
    (hfile : context.host.lookup (Path.ofText companion.toText) = .found place (.file bytes)) :
    ∃ new new', Apart (question.find (context.withFile place new))
      (question.find (context.withFile place new')) := by
  have hget := Host.get?_of_lookup hfile
  have hfind := find_withFile hget hout hpath
  obtain ⟨main, mainBytes, hmain, -⟩ := Host.loadFile_eq_ok_iff.mp hload
  by_cases hsame : main = place
  · -- the file is its own companion document
    subst hsame
    exact exists_apart_of_file hout hpath hmain
  -- the file that is asked about is the same, so the companion document is read
  have hcontent : ∀ new, (context.withFile place new).host.loadFile path.toText = .ok content :=
    fun new => (Context.loadFile_withFile_of_ne hget hmain hsame new).trans hload
  have hcompanion := companionOf_withFile hlocate hfile
  have hoverlong : (context.withFile place (encodeUtf8 Companion.overlong)).host.companionOf
      path.toText = .error (.numberTooLong (some Companion.overlongDigits.length)) := by
    rw [hcompanion, decodeUtf8_encodeUtf8]
    exact Companion.parse_overlong companion.toText
  have hnone : (context.withFile place [0xFF]).host.companionOf path.toText = .ok none :=
    hcompanion [0xFF]
  obtain ⟨found, hfound⟩ : ∃ index, (context.withFile place [0xFF]).indexOf path.toText content =
      .ok index := Context.exists_indexOf hnone hclock
  have hfault :
      (context.withFile place (encodeUtf8 Companion.overlong)).indexOf path.toText content =
      .error (.numberTooLong (some Companion.overlongDigits.length)) :=
    Context.indexOf_of_companionOf_error hoverlong
  refine ⟨encodeUtf8 Companion.overlong, [0xFF], ?_⟩
  cases question with
  | index file =>
    rw [hfind, hfind, findAt, findAt, Context.index_of_loadFile (hcontent _),
      Context.index_of_loadFile (hcontent _), hfault, hfound]
    exact Apart.failed _ rfl
  | readSection file name =>
    rw [hfind, hfind, findAt, findAt, Context.readSection_of_loadFile (hcontent _),
      Context.readSection_of_loadFile (hcontent _), hfault, hfound]
    exact Apart.failed _ rfl
  | verify file => exact hseeks.elim

/-- **A file outside the workspace that is opened** can hold bytes that are told apart. -/
theorem exists_apart (hclock : context.now.utc? ≠ none) (hopens : question.Opens context place)
    (hout : ¬ context.IsInWorkspace place) :
    ∃ new new', Apart (question.find (context.withFile place new))
      (question.find (context.withFile place new')) := by
  cases hopens with
  | file hpath hfile => exact exists_apart_of_file hout hpath hfile
  | companion hseeks hpath hload hlocate hfile =>
    exact exists_apart_of_companion hclock hout hseeks hpath hload hlocate hfile

end Question

end SectionIndex
