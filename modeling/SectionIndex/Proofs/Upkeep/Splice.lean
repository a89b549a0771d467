import SectionIndex.Block.Splice
import SectionIndex.Proofs.Block.RoundTrip

/-!
# Blocks in files

A file with a block is its line of an interpreter, if it has one, the block, an empty line and the
rest. The block is found there, another one can be put in its place, and without it the file is as
it was.

## Main definitions

* `Block.bodyOf` — a file without its line of an interpreter.
* `Block.IsWritten` — a block that was written.
* `Block.Encloses` — a file with a block that was written.

## Main statements

* `Block.Encloses.locate?_eq` — the block that is found.
* `Block.Encloses.replace` — another block in its place.
* `Block.Encloses.remove` — the file without it.
-/

namespace SectionIndex

namespace Block

open Text (IsLineEnd EndsLine)

variable {style : Style} {newline block original content : Text}

/-- The file without the line that names an interpreter. -/
def bodyOf (content : Text) : Text :=
  content.drop (interpreterLine content).length

theorem interpreterLine_append_bodyOf (content : Text) :
    interpreterLine content ++ bodyOf content = content := by
  have hprefix : interpreterLine content <+: content := by
    -- if there is such a line, it ends with the first line feed of the file
    unfold interpreterLine
    split
    · next h =>
      obtain ⟨line, rest, rfl, hline⟩ := List.eq_append_cons_of_mem h.2
      rw [Text.takeWhile_append_lineFeed hline]
      exact ⟨rest, by simp⟩
    · exact List.nil_prefix
  exact List.prefix_iff_eq_append.mp hprefix

/-- **A block that was written** in a style, with texts that stay in their lines. -/
def IsWritten (style : Style) (block : Text) : Prop :=
  ∃ sections totalLines now newline, IsLineEnd newline ∧
    (∀ s ∈ sections, '\n' ∉ s.name ∧ '\n' ∉ s.description) ∧
    serialize sections totalLines style now newline = .ok block

/-- **The file `content` is `original` with a block** at its top, after the line that names an
interpreter, and an empty line after the block. -/
def Encloses (block original content : Text) : Prop :=
  ∃ newline, IsLineEnd newline ∧
    content = interpreterLine original ++ block ++ newline ++ newline ++ bodyOf original

/-- **A new block** is put where it belongs. -/
theorem encloses_insertNew (original block : Text) (h : newline.IsLineEnd) :
    Encloses block original (insertNew original block newline) :=
  ⟨newline, h, rfl⟩

/-- **The block that is found** in a file is the one that was put into it. -/
theorem Encloses.locate?_eq (h : Encloses block original content)
    (hblock : IsWritten style block) :
    locate? content = some ((interpreterLine original).length, style, block) := by
  obtain ⟨newline, hnewline, rfl⟩ := h
  obtain ⟨sections, totalLines, now, blockNewline, hblockNewline, hsections, hserialize⟩ := hblock
  obtain ⟨stamp, hstamp, -, rfl⟩ := serialize_eq_ok_iff.mp hserialize
  -- a line ends after the block, so its end marker is a line of its own
  have hpost : EndsLine (newline ++ (newline ++ bodyOf original)) := hnewline.endsLine_append _
  have hlocate := locate?_render style totalLines (isHead_interpreterLine original) hblockNewline
    (isStamp_of_blockStamp hstamp) hsections fun _ => hpost
  simpa only [List.append_assoc] using hlocate

/-- **Another block** can be put in the place of the one that is found. -/
theorem Encloses.replace (h : Encloses block original content) {existing : Block}
    (hstart : existing.start = (interpreterLine original).length)
    (hstop : existing.stop = existing.start + block.length) (new : Text) :
    Encloses new original (replace content new existing) := by
  obtain ⟨newline, hnewline, rfl⟩ := h
  refine ⟨newline, hnewline, ?_⟩
  rw [Block.replace, hstop, hstart, ← List.length_append]
  simp only [List.append_assoc, List.take_left]
  rw [← List.append_assoc (interpreterLine original) block, List.drop_left]

theorem dropLineEnds_append (h : newline.IsLineEnd) (rest : Text) :
    dropLineEnds (newline ++ rest) = dropLineEnds rest := by
  rcases h with rfl | rfl <;> rfl

/-- A text that starts with no line end keeps what it starts with. -/
theorem dropLineEnds_of_not_prefix {t : Text} (h : ∀ newline, IsLineEnd newline → ¬ newline <+: t) :
    dropLineEnds t = t := by
  unfold dropLineEnds
  split
  · next rest => exact absurd ⟨rest, rfl⟩ (h ['\n'] (Or.inl rfl))
  · next rest => exact absurd ⟨rest, rfl⟩ (h ['\r', '\n'] (Or.inr rfl))
  · rfl

/-- **The file without its block** is the file as it was, if it did not start with empty lines. -/
theorem Encloses.remove (h : Encloses block original content) {existing : Block}
    (hstart : existing.start = (interpreterLine original).length)
    (hstop : existing.stop = existing.start + block.length)
    (hbody : ∀ newline, IsLineEnd newline → ¬ newline <+: bodyOf original) :
    remove content existing = original := by
  obtain ⟨newline, hnewline, rfl⟩ := h
  rw [Block.remove, hstop, hstart, ← List.length_append]
  have hdrop : (interpreterLine original ++ block ++ newline ++ newline ++ bodyOf original).drop
      (interpreterLine original ++ block).length = newline ++ (newline ++ bodyOf original) := by
    simp only [List.append_assoc]
    rw [← List.append_assoc (interpreterLine original) block, List.drop_left]
  have htake : (interpreterLine original ++ block ++ newline ++ newline ++ bodyOf original).take
      (interpreterLine original).length = interpreterLine original := by
    simp only [List.append_assoc, List.take_left]
  -- two line ends are taken away, those that were put there
  rw [hdrop, htake, dropLineEnds_append hnewline, dropLineEnds_append hnewline,
    dropLineEnds_of_not_prefix hbody, interpreterLine_append_bodyOf]

end Block

end SectionIndex
