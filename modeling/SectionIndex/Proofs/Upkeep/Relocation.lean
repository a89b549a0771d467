import SectionIndex.Proofs.Upkeep.Places

/-!
# Lines that a block moves

When a block is put into a file, the other lines stay as they are and move by the lines that it has
more than the old block. How far they move is told before the block is written, from the number of
its rows, the lines of the old block and the line where a new block starts. Each line is found at
the number that is told, and no line is left over.

## Main definitions

* `Text.lineAt?` — the line of a number.
* `Placement.Relocates` — the lines of a file are found at the numbers that a placement tells.

## Main statements

* `Block.IsSplice.relocates` — the lines of a file with a block of the height that was told.
* `relocates_insert` — a block that is written moves the lines as its height says.
-/

namespace SectionIndex

/-! ### Lines and their numbers -/

namespace Text

variable {head old new after lines : List Text} {t : Text} {n : Int}

/-- **The line of a number**, where lines are numbered from 1. -/
def lineAt? (lines : List Text) (n : Int) : Option Text :=
  if 0 < n then lines[(n - 1).toNat]? else none

theorem lineAt?_append_left (after : List Text) (h : n ≤ head.length) :
    lineAt? (head ++ after) n = lineAt? head n := by
  unfold lineAt?
  split
  · exact List.getElem?_append_left (by omega)
  · rfl

theorem lineAt?_append_right (head : List Text) (h : 0 < n) :
    lineAt? (head ++ lines) (head.length + n) = lineAt? lines n := by
  have hindex : (head.length + n - 1).toNat = head.length + (n - 1).toNat := by omega
  rw [lineAt?, lineAt?, if_pos h, if_pos (by omega), hindex,
    List.getElem?_append_right (Nat.le_add_right _ _), Nat.add_sub_cancel_left]

/-- **Lines with others in the place of some of them:** the lines before these stay, and those after
them move by the difference. -/
theorem lineAt?_shiftLine (hn : n ≤ head.length ∨ head.length + old.length < n) :
    lineAt? (head ++ (new ++ after))
        (Section.shiftLine (head.length + old.length + 1) (new.length - old.length) n) =
      lineAt? (head ++ (old ++ after)) n := by
  unfold Section.shiftLine
  rcases hn with hbefore | hafter
  · rw [if_neg (by omega), lineAt?_append_left _ hbefore, lineAt?_append_left _ hbefore]
  · -- count from the first line after those that are replaced
    obtain ⟨k, rfl⟩ : ∃ k : Int, n = head.length + (old.length + k) :=
      ⟨n - head.length - old.length, by omega⟩
    have hmoved : head.length + (old.length + k) + (new.length - old.length) =
        head.length + (new.length + k) := by omega
    rw [if_pos (by omega), hmoved, lineAt?_append_right _ (by omega),
      lineAt?_append_right _ (by omega), lineAt?_append_right _ (by omega),
      lineAt?_append_right _ (by omega)]

/-- **A text has no lines** only if there is nothing in it but the half of a line end. -/
theorem restLines_eq_nil_iff : restLines t = [] ↔ t = [] ∨ t = ['\r'] := by
  constructor
  · intro h
    have hne : '\n' ∉ t := by
      intro hfeed
      obtain ⟨line, rest, rfl, hline⟩ := List.eq_append_cons_of_mem hfeed
      rw [restLines_append rest hline] at h
      cases h
    -- so it is one line, which is left out only if it is empty
    have hline : dropReturn t = [] := by
      unfold restLines at h
      rw [List.splitOn_eq_singleton hne, List.map_singleton] at h
      by_contra hkept
      simp [hkept] at h
    unfold dropReturn at hline
    split at hline
    · next hlast =>
      obtain ⟨init, rfl⟩ := List.getLast?_eq_some_iff.mp hlast
      rw [List.dropLast_concat] at hline
      rw [hline]
      exact Or.inr rfl
    · exact Or.inl hline
  · rintro (rfl | rfl) <;> decide

end Text

/-! ### What a placement tells -/

/-- **The lines of a file are found at the numbers that a placement tells** when it has a new text:
each line outside the lines of its block, and none besides these and the lines that were added. -/
structure Placement.Relocates (placement : Placement) (existing : Option Block)
    (content new : Text) : Prop where
  lineAt?_eq : ∀ n : Int, (∀ b ∈ existing, n < b.firstLine ∨ b.lastLine < n) →
    Text.lineAt? (Text.splitLines new)
        (Section.shiftLine placement.threshold placement.delta n) =
      Text.lineAt? (Text.splitLines content) n
  length_eq : ((Text.splitLines new).length : Int) =
    (Text.splitLines content).length + placement.delta

namespace Block

variable {content block newline : Text} {existing : Option Block} {sections : List Section}
  {style : Style} {totalLines : Int} {now : Moment}

/-- **The lines of a file with a block** of the height that was told. -/
theorem IsSplice.relocates {head old new after : List Text}
    (h : IsSplice content block newline existing head old new after)
    (hparse : parse content = .ok existing)
    (hlines : Text.restLines content ≠ []) :
    (Placement.of content existing (block.count '\n' + 1)).Relocates existing content
      (insert content block existing newline) := by
  have hplacement := h.placement_eq hparse
  obtain ⟨hcontent, hinsert, hhead, hold, -⟩ := h
  have hsplit : Text.splitLines content = head ++ (old ++ after) := by
    rw [Text.splitLines_of_restLines_ne_nil hlines, hcontent]
  rw [hplacement]
  refine ⟨fun n hn => ?_, ?_⟩
  · rw [hinsert, hsplit]
    refine Text.lineAt?_shiftLine ?_
    -- the lines that are replaced are those of the old block, counted by its line feeds
    cases existing with
    | some b =>
      obtain ⟨-, -, hfirst, hlast⟩ := exists_of_parse hparse
      have hout := hn b rfl
      rw [placeOf] at hhead
      rw [Option.elim_some] at hold
      omega
    | none =>
      rw [Option.elim_none] at hold
      omega
  · rw [hinsert, hsplit]
    simp only [List.length_append]
    push_cast
    omega

/-- **A block that is written** moves the lines as the number of its rows says. -/
theorem relocates_insert_of_serialize (hparse : parse content = .ok existing)
    (hlines : Text.restLines content ≠ []) (h : newline.IsLineEnd)
    (hsections : ∀ s ∈ sections, s.HasTexts ('\n' ∉ ·))
    (hserialize : serialize sections totalLines style now newline = .ok block) :
    (Placement.of content existing (height sections.length style)).Relocates existing content
      (insert content block existing newline) := by
  obtain ⟨stamp, hstamp, -, rfl⟩ := serialize_eq_ok_iff.mp hserialize
  have hends := endsInside_render style sections totalLines stamp newline
  obtain ⟨head, old, new, after, hsplice⟩ := exists_isSplice hparse h hends
  rw [← count_render style totalLines h (isStamp_of_blockStamp hstamp) hsections]
  exact hsplice.relocates hparse hlines

end Block

/-- **A block that is put into a file moves the other lines as it was told** before it was written,
from the number of its rows and the place where it is put. This is how the sections of a file are
moved when its index is written. Only a file without a line is excepted: its one line is empty, and
it is gone when there is a block. -/
theorem relocates_insert {content : Text} {existing : Option Block}
    (hparse : Block.parse content = .ok existing) (hne : content ≠ [])
    (hreturn : content ≠ ['\r']) :
    (∀ sections totalLines style now newline block, Text.IsLineEnd newline →
      (∀ s ∈ sections, s.HasTexts ('\n' ∉ ·)) →
      Block.serialize sections totalLines style now newline = .ok block →
        (Placement.of content existing (Block.height sections.length style)).Relocates existing
          content (Block.insert content block existing newline)) ∧
      ∀ (context : Context) file minLines result new, context.host.loadFile file = .ok content →
        context.generate file minLines = .ok (result, some new) →
          ∃ language style found companion now,
            Generated context file content language style existing found companion now ∧
              new = (indexedContent content existing style found now.stamp).content ∧
              (Placement.of content existing (Block.height (max found.length 1 : Nat)
                style)).Relocates existing content new := by
  have hlines : Text.restLines content ≠ [] := by
    rw [ne_eq, Text.restLines_eq_nil_iff, not_or]
    exact ⟨hne, hreturn⟩
  refine ⟨fun sections totalLines style now newline block hnewline hsections hserialize =>
    Block.relocates_insert_of_serialize hparse hlines hnewline hsections hserialize, ?_⟩
  intro context file minLines result new hload hgenerate
  obtain ⟨content', language, style, existing', found, companion, now, hg, rfl⟩ :=
    Context.generated_of_generate hgenerate
  -- the text that was loaded and the block in it are those that are given
  obtain rfl : content' = content := Except.ok.inj (hg.load.symm.trans hload)
  obtain rfl : existing' = existing := Except.ok.inj (hg.parse.symm.trans hparse)
  obtain ⟨hserialize, hcontent⟩ := hg.serialize_eq
  refine ⟨language, style, found, companion, now, hg, rfl, ?_⟩
  have hrelocates := Block.relocates_insert_of_serialize hparse hlines
    (Text.detectNewline_isLineEnd _) (hg.lineFeed_not_mem _) hserialize
  rw [length_orFallback, List.length_map] at hrelocates
  rw [hcontent]
  exact hrelocates

/-- Where a block in the middle of lines is replaced. -/
theorem relocates_insert_of_comment :
    let content : Text := "a(); /**\r\n * @ai-index\r\n */ b();\r\nc();\r\n"
    let sections : List Section :=
      [⟨"x | */ y", 4, 4, "\u2028", .explicit⟩, ⟨[], -3, 0, "@ai-index", .auto⟩]
    let newline : Text := "\r\n"
    ∃ existing block, Block.parse content = .ok (some existing) ∧ content ≠ [] ∧
      content ≠ ['\r'] ∧ newline.IsLineEnd ∧ (∀ s ∈ sections, s.HasTexts ('\n' ∉ ·)) ∧
      Block.serialize sections 4 .jsdoc ⟨2024, 2, 29, 1, 2, 3, 4, 0⟩ newline = .ok block ∧
      (Placement.of content (some existing) (Block.height 2 .jsdoc)).Relocates (some existing)
        content (Block.insert content block (some existing) newline) ∧
      Text.lineAt? (Text.splitLines (Block.insert content block (some existing) newline)) 11 =
        some "c();" := by
  intro content sections newline
  let existing : Block :=
    { raw := "/**\r\n * @ai-index\r\n */"
      style := .jsdoc, start := 5, stop := 27, firstLine := 1, lastLine := 3
      rows := [], generatedAt := none, totalLines := none }
  have hparse : Block.parse content = .ok (some existing) := by decide +kernel
  have hne : content ≠ [] := by decide
  have hreturn : content ≠ ['\r'] := by decide
  have hnewline : newline.IsLineEnd := Or.inr rfl
  have hsections : ∀ s ∈ sections, s.HasTexts ('\n' ∉ ·) :=
    List.forall_mem_cons.mpr ⟨⟨by decide, by decide⟩,
      List.forall_mem_singleton.mpr ⟨by decide, by decide⟩⟩
  obtain ⟨block, hserialize⟩ : ∃ block, Block.serialize sections 4 .jsdoc
      ⟨2024, 2, 29, 1, 2, 3, 4, 0⟩ newline = .ok block := ⟨_, rfl⟩
  have hrelocates := (relocates_insert hparse hne hreturn).1 sections 4 .jsdoc _ newline block
    hnewline hsections hserialize
  refine ⟨existing, block, hparse, hne, hreturn, hnewline, hsections, hserialize, hrelocates, ?_⟩
  -- the last line of the file has number 4, and the block has seven lines more
  have hlast : Text.lineAt? (Text.splitLines content) 4 = some "c();" := by decide +kernel
  have hout : ∀ b ∈ some existing, (4 : Int) < b.firstLine ∨ b.lastLine < (4 : Int) := by
    decide
  exact (hrelocates.lineAt?_eq 4 hout).trans hlast

end SectionIndex
