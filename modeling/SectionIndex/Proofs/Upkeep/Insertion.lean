import SectionIndex.Proofs.Indexing.Shift
import SectionIndex.Proofs.Text.FileLines
import SectionIndex.Proofs.Upkeep.Splice

/-!
# Files with a new block

A new block moves all lines after it down by its height and one, for the empty line after it. The
sections that are found in the file move with them if no line of the block, and no line before it,
is taken for a mark or for the start of a section.

## Main definitions

* `Language.Ignores` — a line that means nothing in a language.

## Main statements

* `Block.splitLines_insertNew`, `Block.breakLines_insertNew` — the lines of a file with a new block.
* `scanned_insertNew` — the sections that are found in it.
-/

namespace SectionIndex

/-! ### The lines of a file with a new block -/

namespace Block

variable {newline : Text} {lines : List Text}

theorem restLines_eq (content : Text) :
    Text.restLines content = headLines content ++ Text.restLines (bodyOf content) := by
  conv => lhs; rw [← interpreterLine_append_bodyOf content]
  exact restLines_interpreterLine_append content (bodyOf content)

/-- **The numbered lines of a file with a new block.** -/
theorem splitLines_insertNew (content : Text) (h : newline.IsLineEnd) (hne : lines ≠ [])
    (hlines : ∀ line ∈ lines, line.IsUnbroken) :
    Text.splitLines (insertNew content (Text.join newline lines) newline) =
      headLines content ++ (lines ++ [[]]) ++ Text.restLines (bodyOf content) := by
  -- the second line end after the block makes an empty line
  have hbody : Text.restLines (newline ++ bodyOf content) = [] :: Text.restLines (bodyOf content) :=
    Text.restLines_append_newline (bodyOf content) h Text.isUnbroken_nil
  have hrest : Text.restLines (insertNew content (Text.join newline lines) newline) =
      headLines content ++ (lines ++ [[]]) ++ Text.restLines (bodyOf content) := by
    have htext : insertNew content (Text.join newline lines) newline = interpreterLine content ++
        (Text.join newline lines ++ newline ++ (newline ++ bodyOf content)) := by
      simp only [insertNew, bodyOf, List.append_assoc]
    rw [htext, restLines_interpreterLine_append, Text.restLines_join_append _ h hne hlines, hbody]
    simp only [List.append_assoc, List.singleton_append]
  rw [Text.splitLines_of_restLines_ne_nil (by rw [hrest]; simp [hne]), hrest]

/-- **The lines of a document with a new block.** -/
theorem breakLines_insertNew (content : Text) (h : newline.IsLineEnd) (hne : lines ≠ [])
    (hlines : ∀ line ∈ lines, line.IsUnbroken) :
    ∃ before, Text.breakLines content = before ++ Text.breakLines (bodyOf content) ∧
      Text.breakLines (insertNew content (Text.join newline lines) newline) =
        before ++ ((lines ++ [[]]) ++ Text.breakLines (bodyOf content)) := by
  -- the line of an interpreter ends with a line feed, so it is cut from what comes after it
  have hhead : ∀ rest, Text.breakLines (interpreterLine content ++ rest) =
      Text.breakLines (interpreterLine content) ++ Text.breakLines rest := by
    intro rest
    unfold interpreterLine
    split
    · rw [List.append_assoc]
      exact Text.breakLinesFrom_append_lineFeed _ _ _
    · rfl
  -- the second line end makes an empty line
  have hbody : Text.breakLines (newline ++ bodyOf content) =
      [] :: Text.breakLines (bodyOf content) :=
    Text.breakLines_append_newline (bodyOf content) Text.isUnbroken_nil h
  have htext : insertNew content (Text.join newline lines) newline = interpreterLine content ++
      (Text.join newline lines ++ newline ++ (newline ++ bodyOf content)) := by
    simp only [insertNew, bodyOf, List.append_assoc]
  refine ⟨Text.breakLines (interpreterLine content), ?_, ?_⟩
  · conv => lhs; rw [← interpreterLine_append_bodyOf content]
    exact hhead _
  · rw [htext, hhead, Text.breakLines_join_append _ h hne hlines, hbody]
    simp only [List.append_assoc, List.singleton_append]

end Block

/-! ### The sections of a file with a new block -/

/-- **The line means nothing in the language:** it is no mark, and it opens no section. -/
structure Language.Ignores (language : Language) (line : Text) : Prop where
  markOf_eq : language.markOf line = .plain
  detect?_eq : language.detect? (Text.dropReturns line) = none

theorem Language.Ignores.passesOver {language : Language} {line : Text}
    (h : language.Ignores line) (lines : List Text) : language.PassesOver lines line :=
  ⟨h.markOf_eq, fun _ => h.detect?_eq⟩

section Scanned

variable {language : Language} {newline content : Text} {lines : List Text}

theorem scanExplicit_splitLines (hempty : language.markOf [] = .plain) (t : Text) :
    scanExplicit (some language) (Text.splitLines t) =
      scanExplicit (some language) (Text.restLines t) := by
  rw [Text.splitLines_eq]
  split
  · next hnil =>
    have hmoved := scanExplicit_append [] (List.forall_mem_singleton.mpr hempty)
    rw [scanExplicit_nil, List.append_nil] at hmoved
    rw [hnil, hmoved, scanExplicit_nil]
    rfl
  · rfl

/-- A file without any text is one line with nothing in it. -/
theorem scanned_splitLines (hempty : language.Ignores []) (t : Text) :
    chooseSections.scanned (some language) (Text.splitLines t) =
      chooseSections.scanned (some language) (Text.restLines t) := by
  rw [Text.splitLines_eq]
  split
  · next hnil =>
    have hmoved : chooseSections.scanned (some language) ([[]] ++ []) =
        (chooseSections.scanned (some language) []).map (Section.moved 1) :=
      scanned_append [] (List.forall_mem_singleton.mpr hempty.markOf_eq)
        fun _ => List.forall_mem_singleton.mpr hempty.detect?_eq
    rw [scanned_nil, List.append_nil] at hmoved
    rw [hnil, hmoved, scanned_nil]
    rfl
  · rfl

/-- **The sections that are found in a file with a new block** are those of the file without it,
moved down by the block and the empty line after it. -/
theorem scanned_insertNew (h : newline.IsLineEnd) (hne : lines ≠ [])
    (hlines : ∀ line ∈ lines, line.IsUnbroken) (hempty : language.Ignores [])
    (hhead : ∀ line ∈ Block.headLines content, language.Ignores line)
    (hmarks : ∀ line ∈ lines, language.markOf line = .plain)
    (hdetect : scanExplicit (some language) (Text.splitLines content) = [] →
      ∀ line ∈ lines, language.detect? (Text.dropReturns line) = none) :
    chooseSections.scanned (some language)
        (Text.splitLines (Block.insertNew content (Text.join newline lines) newline)) =
      (chooseSections.scanned (some language) (Text.splitLines content)).map
        (Section.moved (lines.length + 1)) := by
  -- both files are scanned from the text below the line of an interpreter: with the lines of the
  -- block before it, and without them
  have hold := scanned_append (Text.restLines (Block.bodyOf content))
    (fun line hline => (hhead line hline).markOf_eq)
    fun _ line hline => (hhead line hline).detect?_eq
  have hnew : chooseSections.scanned (some language)
      (Block.headLines content ++ (lines ++ [[]]) ++ Text.restLines (Block.bodyOf content)) =
        (chooseSections.scanned (some language) (Text.restLines (Block.bodyOf content))).map
          (Section.moved (Block.headLines content ++ (lines ++ [[]])).length) := by
    refine scanned_append _ ?_ fun hexplicit => ?_
    · simp only [List.forall_mem_append, List.forall_mem_singleton]
      exact ⟨fun line hline => (hhead line hline).markOf_eq, hmarks, hempty.markOf_eq⟩
    -- sections are detected only if none is marked, and the marks of the file are those of its body
    · have hnone : scanExplicit (some language) (Text.splitLines content) = [] := by
        rw [scanExplicit_splitLines hempty.markOf_eq, Block.restLines_eq content,
          scanExplicit_append _ fun line hline => (hhead line hline).markOf_eq, hexplicit]
        rfl
      simp only [List.forall_mem_append, List.forall_mem_singleton]
      exact ⟨fun line hline => (hhead line hline).detect?_eq, hdetect hnone, hempty.detect?_eq⟩
  rw [Block.splitLines_insertNew content h hne hlines, hnew, scanned_splitLines hempty,
    Block.restLines_eq content, hold, List.map_map]
  refine List.map_congr_left fun s _ => ?_
  rw [Function.comp_apply, Section.moved_moved]
  simp only [List.length_append, List.length_singleton]
  push_cast
  rfl

/-- The sections of a file stand after its line of an interpreter, so a block moves all of them. -/
theorem insertionLine_le_of_mem_scanned (hempty : language.Ignores [])
    (hhead : ∀ line ∈ Block.headLines content, language.Ignores line) {s : Section}
    (hs : s ∈ chooseSections.scanned (some language) (Text.splitLines content)) :
    (Block.insertionLine content : Int) ≤ s.first ∧ s.first ≤ s.last := by
  have hmoved := scanned_append (Text.restLines (Block.bodyOf content))
    (fun line hline => (hhead line hline).markOf_eq)
    fun _ line hline => (hhead line hline).detect?_eq
  rw [scanned_splitLines hempty, Block.restLines_eq content, hmoved] at hs
  obtain ⟨s₀, hs₀, rfl⟩ := List.mem_map.mp hs
  obtain ⟨hfirst, hlast⟩ := bounds_of_mem_scanned hs₀
  rw [Block.insertionLine_eq]
  simp only [Section.moved]
  push_cast
  omega

end Scanned

end SectionIndex
