import SectionIndex.Proofs.Scan.Openings
import SectionIndex.Proofs.Upkeep.Table

/-!
# The marks of a file with a new block

The lines of a block are scanned with those of the file, and a name or a description in it can hold
a mark. So the sections that an author has marked are found again below the block, and the lines of
the block may open some more.

## Main statements

* `openings_insertNew` — the opening marks of a file with a new block.
* `map_start_scanExplicit_insertNew` — where the sections of a file with a new block start.
-/

namespace SectionIndex

open Text (EndsInside)

variable {language : Language} {content block newline : Text}

/-- **The lines of a file with a new block**, whatever stands in the block. -/
theorem splitLines_insertNew_of_endsInside (content : Text) (h : newline.IsLineEnd)
    (hends : EndsInside block) :
    Text.splitLines (Block.insertNew content block newline) =
      Block.headLines content ++ ((Text.splitLines block ++ [[]]) ++
        Text.restLines (Block.bodyOf content)) := by
  obtain ⟨-, hblock⟩ := hends.exists_splitLines
  have hempty : Text.restLines (newline ++ Block.bodyOf content) =
      [] :: Text.restLines (Block.bodyOf content) :=
    Text.restLines_append_newline (Block.bodyOf content) h Text.isUnbroken_nil
  have htext : Block.insertNew content block newline = Block.interpreterLine content ++
      (block ++ newline ++ (newline ++ Block.bodyOf content)) := by
    simp only [Block.insertNew, Block.bodyOf, List.append_assoc]
  have hrest : Text.restLines (Block.insertNew content block newline) =
      Block.headLines content ++ ((Text.splitLines block ++ [[]]) ++
        Text.restLines (Block.bodyOf content)) := by
    rw [htext, Block.restLines_interpreterLine_append, hblock _ _ h, hempty]
    simp only [List.append_assoc, List.singleton_append]
  rw [Text.splitLines_of_restLines_ne_nil (by rw [hrest]; simp), hrest]

/-- **The marks of a file with a new block** are those of the file, and those of the block between
them. -/
theorem openings_insertNew (content : Text) (hempty : language.markOf [] = .plain)
    (h : newline.IsLineEnd) (hends : EndsInside block) :
    let head := (Block.headLines content).map language.markOf
    let inner := (Text.splitLines block).map language.markOf
    let body := (Text.restLines (Block.bodyOf content)).map language.markOf
    openings 1 ((Text.splitLines (Block.insertNew content block newline)).map language.markOf) =
      openings 1 head ++ (openings (1 + head.length) inner ++
        (openings (1 + head.length) body).map fun o =>
          (o.1, o.2 + ((inner.length : Int) + 1))) := by
  intro head inner body
  have hplain : ∀ number, openings number [language.markOf []] = [] := by
    intro number
    rw [hempty]
    rfl
  have hbody : openings (1 + head.length + (inner ++ [language.markOf []]).length) body =
      (openings (1 + head.length) body).map fun o => (o.1, o.2 + ((inner.length : Int) + 1)) := by
    rw [List.length_append, List.length_singleton, openings_add]
    push_cast
    rfl
  rw [splitLines_insertNew_of_endsInside content h hends]
  simp only [List.map_append, List.map_singleton]
  rw [openings_append, openings_append, openings_append, hplain, List.append_nil, hbody]

/-- The marks of a file without a new block. -/
theorem openings_splitLines (hempty : language.markOf [] = .plain) (content : Text) :
    let head := (Block.headLines content).map language.markOf
    let body := (Text.restLines (Block.bodyOf content)).map language.markOf
    openings 1 ((Text.splitLines content).map language.markOf) =
      openings 1 head ++ openings (1 + head.length) body := by
  intro head body
  have hrest : openings 1 ((Text.splitLines content).map language.markOf) =
      openings 1 ((Text.restLines content).map language.markOf) := by
    rw [Text.splitLines_eq]
    split
    · next hnil =>
      rw [hnil, List.map_singleton, hempty]
      rfl
    · rfl
  rw [hrest, Block.restLines_eq, List.map_append, openings_append]

/-- Openings before the threshold stay where they are. -/
theorem map_shiftLine_openings_of_le {number : Nat} {threshold : Int} (delta : Int)
    {marks : List Mark} (h : ((number + marks.length : Nat) : Int) ≤ threshold) :
    ((openings number marks).map fun o => (o.1, Section.shiftLine threshold delta o.2)) =
      openings number marks := by
  refine (List.map_congr_left fun o ho => ?_).trans (List.map_id _)
  obtain ⟨-, hhigh⟩ := bounds_of_mem_openings ho
  -- all marks stand before the threshold
  have hlt : o.2 < threshold := by omega
  exact Prod.ext rfl (Section.shiftLine_of_lt _ hlt)

/-- Openings from the threshold on move. -/
theorem map_shiftLine_openings_of_ge {number : Nat} {threshold : Int} (delta : Int)
    (marks : List Mark) (h : threshold ≤ number) :
    ((openings number marks).map fun o => (o.1, Section.shiftLine threshold delta o.2)) =
      (openings number marks).map fun o => (o.1, o.2 + delta) := by
  refine List.map_congr_left fun o ho => ?_
  -- the first mark stands at the threshold or after it
  obtain ⟨hlow, -⟩ := bounds_of_mem_openings ho
  exact Prod.ext rfl (Section.shiftLine_of_le _ (Int.le_trans h hlow))

/-- **The sections of a file with a new block** are those of the file and those that the lines of
the block open; without these, each section starts where the block moves it. -/
theorem map_start_scanExplicit_insertNew (content : Text)
    (hmarkers : language.hasMarkers = true) (hempty : language.markOf [] = .plain)
    (h : newline.IsLineEnd) (hends : EndsInside block) :
    let lines := Text.splitLines (Block.insertNew content block newline)
    let inner := (Text.splitLines block).map language.markOf
    (scanExplicit (some language) lines).length =
        (scanExplicit (some language) (Text.splitLines content)).length +
          (openings (Block.insertionLine content) inner).length ∧
      ((∀ mark ∈ inner, ¬ mark.Opens) → (scanExplicit (some language) lines).map Section.start =
        (scanExplicit (some language) (Text.splitLines content)).map fun s =>
          (s.name,
            Section.shiftLine (Block.insertionLine content) (inner.length + 1) s.first)) := by
  intro lines inner
  have hnew := openings_insertNew content hempty h hends
  have hold := openings_splitLines hempty content
  simp only at hnew hold
  rw [← map_start_scanExplicit hmarkers] at hnew hold
  have hline : Block.insertionLine content =
      1 + ((Block.headLines content).map language.markOf).length := by
    rw [Block.insertionLine_eq, List.length_map, Nat.add_comm]
  rw [← hline] at hnew hold
  change (scanExplicit (some language) lines).map Section.start =
    _ ++ (openings (Block.insertionLine content) inner ++ _) at hnew
  constructor
  · have hlength := congrArg List.length hnew
    have hlength' := congrArg List.length hold
    simp only [List.length_append, List.length_map] at hlength hlength'
    omega
  · intro hinner
    rw [(openings_eq_nil_iff _ _).mpr hinner, List.nil_append] at hnew
    -- the marks before the block stay where they are, and those after it move
    have hmoved := congrArg (List.map fun o : Text × Int =>
      (o.1, Section.shiftLine (Block.insertionLine content) (inner.length + 1) o.2)) hold
    rw [List.map_append, map_shiftLine_openings_of_le _ (Int.ofNat_le.mpr hline.ge),
      map_shiftLine_openings_of_ge _ _ (Int.le_refl _), List.map_map] at hmoved
    exact hnew.trans hmoved.symm

end SectionIndex
