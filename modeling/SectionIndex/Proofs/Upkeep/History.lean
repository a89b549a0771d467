import SectionIndex.Proofs.Files.Alike
import SectionIndex.Proofs.Upkeep.Generate

/-!
# What becomes of a file

An index is written into a file and taken out again, over and over, at any time, with any settings,
and whatever happens to other files in between. The file is always as it was, or it is as it was
with one block at its top. No text of it is ever lost or changed.

## Main definitions

* `Call`, `Call.run` — one operation on a file, and the host after it.
* `History` — the hosts that operations on a file lead to.
* `IsKept` — the file as it was, or with a block.

## Main statements

* `History.exists_isKept` — a file is kept all along.
* `History.isKept_and_restored` — and it is as it was when its index is removed.
-/

namespace SectionIndex

open Text (IsLineEnd)

/-- What is done to a file. -/
inductive Call.Task
  | generate (minLines : Option Int)
  | remove
  deriving DecidableEq, Repr

/-- **An operation on a file:** what is done, with which settings, at which time, and whether the
new text is written into the file. -/
structure Call where
  task : Call.Task
  settings : Settings
  now : Moment
  write : Bool
  deriving DecidableEq, Repr

namespace Call

/-- The new text of the file, if the operation gives it one. A fault gives it none. -/
def newText (call : Call) (host : Host) (file : Text) : Option Text :=
  let context : Context := ⟨host, call.settings, call.now⟩
  match call.task with
  | .generate minLines =>
    match context.generate file minLines with
    | .ok (_, new) => new
    | .error _ => none
  | .remove =>
    match context.remove file with
    | .ok (_, new) => new
    | .error _ => none

/-- **The host after an operation** on a file. -/
def run (call : Call) (file : Text) (host : Host) : Host :=
  if call.write then host.overwriteIf (Path.ofText file) (call.newText host file) else host

end Call

/-- **The hosts that operations on a file lead to.** Between operations anything can happen that
leaves the text of the file as it is; above all, its companion document can change. -/
inductive History (file : Text) (start : Host) : Host → Prop
  | start : History file start start
  | call {host : Host} (h : History file start host) (call : Call) :
      History file start (call.run file host)
  | edit {host other : Host} (h : History file start host)
      (hsame : other.loadFile file = host.loadFile file) : History file start other

/-- **The file as it was, or with one block** in the style of its language, at the top or after the
line of an interpreter, and an empty line after it. -/
def IsKept (file original content : Text) : Prop :=
  content = original ∨
    ∃ language style block newline, Language.ofPath? (Path.ofText file) = some language ∧
      language.blockStyle = some style ∧ Block.IsWritten style block ∧ IsLineEnd newline ∧
      content =
        Block.interpreterLine original ++ block ++ newline ++ newline ++ Block.bodyOf original

section Step

variable {context : Context} {file original content : Text}

/-- The block of a file that is kept is the one that was written into it. -/
theorem IsKept.parse_eq (h : IsKept file original content)
    (horiginal : Block.parse original = .ok none) {existing : Option Block}
    (hparse : Block.parse content = .ok existing) :
    (existing = none ∧ content = original) ∨
      ∃ language style block b, Language.ofPath? (Path.ofText file) = some language ∧
        language.blockStyle = some style ∧ Block.Encloses block original content ∧
        existing = some b ∧ b.start = (Block.interpreterLine original).length ∧
        b.stop = b.start + block.length := by
  rcases h with rfl | ⟨language, style, block, newline, hlanguage, hstyle, hblock, hnewline,
    hcontent⟩
  · rw [horiginal] at hparse
    cases hparse
    exact Or.inl ⟨rfl, rfl⟩
  · have hencloses : Block.Encloses block original content := ⟨newline, hnewline, hcontent⟩
    -- the block that is found decides what is parsed, whatever else is in the file
    have hlocate := hencloses.locate?_eq hblock
    cases existing with
    | none =>
      rw [Block.parse, hlocate] at hparse
      obtain ⟨_, -, hparse⟩ := Fault.bind_eq_ok_iff.mp hparse
      obtain ⟨_, -, hparse⟩ := Fault.bind_eq_ok_iff.mp hparse
      cases hparse
    | some b =>
      obtain ⟨hstart, hstop, -, -⟩ := Block.parse_eq_some hlocate hparse
      exact Or.inr ⟨language, style, block, b, hlanguage, hstyle, hencloses, rfl, hstart,
        hstart ▸ hstop⟩

/-- **Writing an index keeps the file.** -/
theorem IsKept.generate (h : IsKept file original content)
    (horiginal : Block.parse original = .ok none) {minLines : Option Int} {result : GenerateResult}
    {new : Text} (hgenerate : context.generate file minLines = .ok (result, some new))
    (hload : context.host.loadFile file = .ok content) : IsKept file original new := by
  obtain ⟨content', language, style, existing, sections, companion, now, hgenerated, rfl⟩ :=
    Context.generated_of_generate hgenerate
  obtain rfl : content' = content := Except.ok.inj (hgenerated.load.symm.trans hload)
  obtain ⟨block, newline, hnewline, hblock, hnew⟩ := hgenerated.exists_isWritten
  -- the file has a new block, or another one in the place of the one it had
  have hencloses : Block.Encloses block original
      (Block.insert content' block existing newline) := by
    rcases h.parse_eq horiginal hgenerated.parse with
      ⟨rfl, rfl⟩ | ⟨_, _, _, b, -, -, hencloses, rfl, hstart, hstop⟩
    · exact Block.encloses_insertNew content' block hnewline
    · exact hencloses.replace hstart hstop block
  obtain ⟨newline, hnewline, hcontent⟩ := hencloses
  exact Or.inr ⟨language, style, block, newline, hgenerated.language_eq, hgenerated.style_eq,
    hblock, hnewline, hnew.trans hcontent⟩

/-- **Removing an index brings the file back** as it was. -/
theorem IsKept.remove (h : IsKept file original content)
    (horiginal : Block.parse original = .ok none)
    (hbody : ∀ newline, IsLineEnd newline → ¬ newline <+: Block.bodyOf original)
    {result : RemoveResult} {new? : Option Text}
    (hremove : context.remove file = .ok (result, new?))
    (hload : context.host.loadFile file = .ok content)
    (hnew : new? ≠ none ∨ result.removed = true) :
    new? = some original := by
  obtain ⟨content', existing, hload', hparse, rfl⟩ := Context.of_remove hremove hnew
  obtain rfl : content' = content := Except.ok.inj (hload'.symm.trans hload)
  rcases h.parse_eq horiginal hparse with ⟨hnone, -⟩ |
    ⟨_, _, _, b, -, -, hencloses, hb, hstart, hstop⟩
  · cases hnone
  · cases hb
    rw [hencloses.remove hstart hstop hbody]

/-- **One operation keeps the file.** -/
theorem IsKept.newText (h : IsKept file original content)
    (horiginal : Block.parse original = .ok none)
    (hbody : ∀ newline, IsLineEnd newline → ¬ newline <+: Block.bodyOf original) {host : Host}
    (hload : host.loadFile file = .ok content) (call : Call) {new : Text}
    (hnew : call.newText host file = some new) : IsKept file original new := by
  unfold Call.newText at hnew
  simp only at hnew
  split at hnew
  · split at hnew
    · next result new? hgenerate =>
      subst hnew
      exact h.generate horiginal hgenerate hload
    · cases hnew
  · split at hnew
    · next result new? hremove =>
      subst hnew
      have hrestored := h.remove horiginal hbody hremove hload (Or.inl (by simp))
      cases hrestored
      exact Or.inl rfl
    · cases hnew

end Step

variable {file original : Text} {start host : Host}

/-- **A file is kept all along**, whatever is done to it. -/
theorem History.exists_isKept (h : History file start host)
    (hload : start.loadFile file = .ok original) (horiginal : Block.parse original = .ok none)
    (hbody : ∀ newline, IsLineEnd newline → ¬ newline <+: Block.bodyOf original) :
    ∃ content, host.loadFile file = .ok content ∧ IsKept file original content := by
  -- by the steps of the history, with the text of the file as what is carried along
  induction h with
  | start => exact ⟨original, hload, Or.inl rfl⟩
  | @call host _ call ih =>
    obtain ⟨content, hcontent, hkept⟩ := ih
    unfold Call.run
    split
    · -- a call that writes leaves a text that is kept, and any other call leaves the file alone
      cases hnew : call.newText host file with
      | none => exact ⟨content, hcontent, hkept⟩
      | some new =>
        exact ⟨new, Host.loadFile_overwrite new hcontent,
          hkept.newText horiginal hbody hcontent call hnew⟩
    · exact ⟨content, hcontent, hkept⟩
  | edit _ hsame ih =>
    obtain ⟨content, hcontent, hkept⟩ := ih
    exact ⟨content, hsame.trans hcontent, hkept⟩

/-- **No text of a file is lost or changed.** After any number of operations the file is as it was
or has one block more, and an operation that says that it removed the index brings it back as it
was. -/
theorem History.isKept_and_restored (h : History file start host)
    (hload : start.loadFile file = .ok original) (horiginal : Block.parse original = .ok none)
    (hbody : ∀ newline, IsLineEnd newline → ¬ newline <+: Block.bodyOf original) :
    (∃ content, host.loadFile file = .ok content ∧ IsKept file original content) ∧
      ∀ settings now result new, (⟨host, settings, now⟩ : Context).remove file = .ok (result, new) →
        result.removed = true →
        (host.overwriteIf (Path.ofText file) new).loadFile file = .ok original := by
  obtain ⟨content, hcontent, hkept⟩ := h.exists_isKept hload horiginal hbody
  refine ⟨⟨content, hcontent, hkept⟩, fun settings now result new hremove hremoved => ?_⟩
  have hrestored := hkept.remove horiginal hbody hremove hcontent (Or.inr hremoved)
  rw [hrestored]
  exact Host.loadFile_overwrite original hcontent

/-- A script is kept when an index is written into it twice. -/
theorem History.isKept_and_restored_of_script :
    let file : Text := "run.py"
    let original : Text := "#!/bin/sh\nimport os\n"
    let start : Host := ⟨⟨[([file], .file (encodeUtf8 original))]⟩, [], "/", []⟩
    let call : Call := ⟨.generate none, { workspaceRoot := ⟨.root, []⟩ },
        ⟨2024, 2, 29, 1, 2, 3, 4, 0⟩, true⟩
    let host := call.run file (call.run file start)
    (∃ content, host.loadFile file = .ok content ∧ IsKept file original content) ∧
      ∀ settings now result new, (⟨host, settings, now⟩ : Context).remove file = .ok (result, new) →
        result.removed = true →
        (host.overwriteIf (Path.ofText file) new).loadFile file = .ok original := by
  intro file original start call host
  have hload : start.loadFile file = .ok original :=
    Host.loadFile_of_encodeUtf8 [file] (by decide +kernel)
  have hlocate : Block.locate? original = none := by decide +kernel
  have hbody : ∀ newline, IsLineEnd newline → ¬ newline <+: Block.bodyOf original := by
    rintro _ (rfl | rfl) <;> decide
  exact History.isKept_and_restored ((History.start.call call).call call) hload
    (Block.parse_of_locate?_eq_none hlocate) hbody

end SectionIndex
