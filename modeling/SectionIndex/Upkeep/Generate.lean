import SectionIndex.Block.Parser
import SectionIndex.Block.Splice
import SectionIndex.Indexing.Resolve
import SectionIndex.Upkeep.Outcome

/-!
# Writing and removing the index of a file

The sections of a file are found, moved to where they will stand once the block is in the file, and
written as a block: in the place of the block that is there, or at the top. To remove the index is
to take the block out.

## Main definitions

* `Placement` — where lines move when a block is put into a file.
* `indexedContent` — the file with its block.
* `Context.generate`, `Context.remove` — what comes of it, and the new text of the file.
-/

namespace SectionIndex

/-- **Where lines move:** the lines from `threshold` on move by `delta`. -/
structure Placement where
  threshold : Int
  delta : Int
  deriving DecidableEq, Repr

/-- The move of the lines when a block of `height` lines is put into a file. In place of another
block, the lines after it move by the difference in height; a new block moves all lines after the
place where it starts by its height and the empty line that follows it. -/
def Placement.of (content : Text) (existing : Option Block) (height : Int) : Placement :=
  match existing with
  | some block => ⟨block.lastLine + 1, height - block.lineCount⟩
  | none => ⟨Block.insertionLine content, height + 1⟩

/-- The section where it will stand. Sections from a companion document stay as they are written
there. -/
def Placement.move (placement : Placement) (s : Section) : Section :=
  if s.source = .companion then s else s.shifted placement.threshold placement.delta

/-- A file with its block: the sections in the block, the number of lines, and the text. -/
structure IndexedContent where
  sections : List Section
  totalLines : Nat
  content : Text
  deriving DecidableEq, Repr

/-- **The file with a block of the sections.** A block has the same number of lines whatever numbers
are in it, so the number of lines of the file is counted with a draft of the block. -/
def indexedContent (content : Text) (existing : Option Block) (style : Block.Style)
    (sections : List Section) (stamp : Text) : IndexedContent :=
  let newline := Text.detectNewline content
  -- a file without sections gets the row of the section that covers it
  let height := Block.height (max sections.length 1 : Nat) style
  let moved := sections.map (Placement.of content existing height).move
  -- the numbers in the draft are of no account, only its lines are
  let draft := Block.render (orFallback 1 moved) 0 style stamp newline
  let totalLines := (Text.splitLines (Block.insert content draft existing newline)).length
  let final := orFallback totalLines moved
  let block := Block.render final totalLines style stamp newline
  ⟨final, totalLines, Block.insert content block existing newline⟩

/-- The outcome for a file that is left as it is. -/
def GenerateResult.skipped (file reason : Text) : GenerateResult where
  path := file
  status := .skipped
  reason := some reason

/-- The outcome for a file whose name the file system does not take. -/
def GenerateResult.failed (file reason : Text) : GenerateResult where
  path := file
  status := .failed
  reason := some reason

/-- What a fault makes of the attempt to write an index: files that cannot be read and languages
that are not known are passed over, a name that is too long is a failure, and any other fault
remains one. -/
def GenerateResult.ofFault (file : Text) (fault : Fault) : Except Fault GenerateResult :=
  match fault with
  | .unreadable _ reason => .ok (.skipped file reason.label)
  | .unsupported _ => .ok (.skipped file "unsupported")
  | .nameTooLong _ => .ok (.failed file fault.message)
  | fault => .error fault

namespace Context

/-- The attempt to write the index of a file: the outcome, and the new text of the file. -/
def tryGenerate (context : Context) (file : Text) (minLines : Int) :
    Except Fault (GenerateResult × Option Text) := do
  let content ← context.host.loadFile file
  let lines := Text.splitLines content
  if minLines ≠ 0 ∧ lines.length < minLines then
    return ({ GenerateResult.skipped file "below-threshold" with totalLines := lines.length }, none)
  match Language.ofPath? (Path.ofText file) with
  | none => .error (.unsupported file)
  | some language =>
    match language.blockStyle with
    | none => return (.skipped file "no-comment-syntax", none)
    | some style =>
      -- the old block is read before the sections are looked for, so its fault comes first
      let existing ← Block.parse content
      let (sections, _) ← context.detect file lines
      let now ← context.utcNow
      let indexed := indexedContent content existing style sections now.stamp
      Block.checkNumbers indexed.sections indexed.totalLines
      let result : GenerateResult :=
        { path := file
          status := .success
          action := some (if existing.isSome then .updated else .added)
          sections := indexed.sections.length
          totalLines := indexed.totalLines }
      return (result, some indexed.content)

/-- **Writes the index of a file:** the outcome, and the new text of the file if it gets one. Files
of fewer than `minLines` lines are passed over; zero stands for no limit. -/
def generate (context : Context) (file : Text) (minLines : Option Int) :
    Except Fault (GenerateResult × Option Text) :=
  match context.tryGenerate file (minLines.getD context.settings.minLines) with
  | .ok result => .ok result
  | .error fault => (GenerateResult.ofFault file fault).map (·, none)

end Context

/-! ### Removing the index -/

/-- What a fault makes of the attempt to remove an index: files that cannot be read are passed
over, a name that is too long is a failure, and any other fault remains one. -/
def RemoveResult.ofFault (file : Text) (fault : Fault) : Except Fault RemoveResult :=
  match fault with
  | .unreadable _ reason => .ok ⟨file, .skipped, false, some reason.label⟩
  | .nameTooLong _ => .ok ⟨file, .failed, false, some fault.message⟩
  | fault => .error fault

/-- The attempt to remove the index of a file. -/
def Context.tryRemove (context : Context) (file : Text) :
    Except Fault (RemoveResult × Option Text) := do
  let content ← context.host.loadFile file
  match ← Block.parse content with
  | none => return (⟨file, .skipped, false, some IssueKind.noIndex.label⟩, none)
  | some existing => return (⟨file, .success, true, none⟩, some (Block.remove content existing))

/-- **Removes the index of a file:** the outcome, and the new text of the file if it gets one. -/
def Context.remove (context : Context) (file : Text) :
    Except Fault (RemoveResult × Option Text) :=
  match context.tryRemove file with
  | .ok result => .ok result
  | .error fault => (RemoveResult.ofFault file fault).map (·, none)

end SectionIndex
