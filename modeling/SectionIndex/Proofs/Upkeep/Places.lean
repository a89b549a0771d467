import SectionIndex.Proofs.Upkeep.Marks
import SectionIndex.Proofs.Upkeep.Recognition

/-!
# Where the lines of a block stand

A block can start in the middle of a line and end in the middle of one, so the lines it stands in
are not its own lines alone. They are what is replaced in the file when its block is, and the other
lines stay.

## Main definitions

* `Block.linesIn` — the lines of the file in which a block stands.
* `Block.IsSplice` — the lines of a file before and after a block is put into it.

## Main statements

* `Block.IsSplice.placement_eq` — how far the lines after a block move.
* `Block.exists_restLines_insert` — which lines of a file are replaced when a block is put into it.
* `scanned_insert` — the sections that are found then, if the lines of both blocks mean nothing.
-/

namespace SectionIndex

open Text (EndsInside)

namespace Block

variable {content block newline : Text} {existing : Option Block} {b : Block}

/-- **The lines of the file in which the block stands.** -/
def linesIn (b : Block) (content : Text) : List Text :=
  ((Text.splitLines content).take b.lastLine).drop (b.firstLine - 1)

theorem linesIn_eq {head inner after : List Text}
    (hlines : Text.splitLines content = head ++ (inner ++ after))
    (hfirst : b.firstLine = head.length + 1) (hlast : b.lastLine = head.length + inner.length) :
    b.linesIn content = inner := by
  rw [linesIn, hlines, hfirst, hlast, List.take_length_add_append, List.take_left,
    Nat.add_sub_cancel, List.drop_left]

/-- The lines of a block are those of its text. -/
theorem lineCount_of_parse (h : parse content = .ok (some b)) :
    b.lineCount = b.raw.count '\n' + 1 := by
  obtain ⟨-, -, -, hlast⟩ := exists_of_parse h
  rw [lineCount, hlast, Nat.add_sub_cancel_left]

/-- What stands before and after a block that is replaced stays. -/
theorem take_drop_replace (block : Text) (h : parse content = .ok (some b)) :
    (replace content block b).take b.start = content.take b.start ∧
      (replace content block b).drop (b.start + block.length) = content.drop b.stop := by
  obtain ⟨-, hlength, -⟩ := exists_eq_of_parse h
  constructor
  · rw [replace, List.append_assoc]
    exact List.take_left' hlength
  · exact List.drop_left' (by rw [List.length_append, hlength])

/-- The text of a block can be told from the file it is put into. -/
theorem insert_inj {block' : Text}
    (h : insert content block existing newline = insert content block' existing newline) :
    block = block' := by
  obtain ⟨before, after, hinsert⟩ := exists_insert_eq content existing newline
  rw [hinsert, hinsert] at h
  exact List.append_cancel_left (List.append_cancel_right h)

/-- A block whose text stands between lines stands in as many lines as it has. -/
theorem linesIn_of_parse {head inner after : List Text} (h : parse content = .ok (some b))
    (hlines : Text.splitLines content = head ++ (inner ++ after))
    (hhead : head.length = (content.take b.start).count '\n')
    (hinner : inner.length = b.raw.count '\n' + 1) : b.linesIn content = inner := by
  obtain ⟨-, -, hfirst, hlast⟩ := exists_of_parse h
  rw [← hhead] at hfirst
  exact linesIn_eq hlines hfirst (by omega)

theorem count_interpreterLine (content : Text) :
    (interpreterLine content).count '\n' = (headLines content).length := by
  unfold headLines interpreterLine
  split
  · have hline : '\n' ∉ content.takeWhile (· != '\n') := fun hmem =>
      absurd (List.all_eq_true.mp List.all_takeWhile _ hmem) (by decide)
    rw [if_neg (List.append_ne_nil_of_right_ne_nil _ (List.cons_ne_nil _ _)), List.count_append,
      List.count_eq_zero_of_not_mem hline]
    rfl
  · rfl

theorem take_interpreterLine (content : Text) :
    content.take (interpreterLine content).length = interpreterLine content := by
  have htake : (interpreterLine content ++ bodyOf content).take (interpreterLine content).length =
      interpreterLine content := List.take_left
  rwa [interpreterLine_append_bodyOf] at htake

/-- What stands before a block that is put into a file stays. -/
theorem take_placeOf_insert (block newline : Text) (hparse : parse content = .ok existing) :
    (insert content block existing newline).take (placeOf content existing) =
      content.take (placeOf content existing) := by
  cases existing with
  | some b₀ => exact (take_drop_replace block hparse).1
  | none =>
    rw [insert_none, insertNew, placeOf, take_interpreterLine]
    simp only [List.append_assoc]
    exact List.take_left

/-- **The lines of a file when a block is put into it:** those of the old block, if there is one,
are taken out from between the others, and those of the new one come into their place. An empty line
follows the first block of a file. -/
structure IsSplice (content block newline : Text) (existing : Option Block)
    (head old new after : List Text) : Prop where
  content_eq : Text.restLines content = head ++ (old ++ after)
  insert_eq : Text.splitLines (insert content block existing newline) = head ++ (new ++ after)
  head_eq : head.length = (content.take (placeOf content existing)).count '\n'
  old_eq : old.length = existing.elim 0 fun b => b.raw.count '\n' + 1
  exists_new : ∃ inner, inner.length = block.count '\n' + 1 ∧
    new = inner ++ existing.elim [[]] fun _ => []

/-- **The lines of a file when a block is put into it.** -/
theorem exists_isSplice (hparse : parse content = .ok existing) (h : newline.IsLineEnd)
    (hends : EndsInside block) :
    ∃ head old new after, IsSplice content block newline existing head old new after := by
  cases existing with
  | some b₀ =>
    -- the lines around the place do not depend on what stands there, the old block or the new one
    obtain ⟨head, after, hhead, hlines⟩ :=
      Text.exists_restLines_around (content.take b₀.start) (content.drop b₀.stop)
    obtain ⟨hcontent, hends₀⟩ := insert_raw newline hparse
    obtain ⟨old, hold, holdLines⟩ := hlines b₀.raw hends₀
    obtain ⟨new, hnew, hnewLines⟩ := hlines block hends
    rw [insert_some, replace] at hcontent
    rw [hcontent] at holdLines
    refine ⟨head, old, new, after, holdLines, ?_, hhead, hold, new, hnew, (List.append_nil _).symm⟩
    rw [insert_some, Text.splitLines_of_restLines_ne_nil]
    · exact hnewLines
    · rw [replace, hnewLines]
      simp [← List.length_eq_zero_iff, hnew]
  | none =>
    -- nothing is taken out, and the second line end after the block makes an empty line
    have hnewLines := splitLines_insertNew_of_endsInside content h hends
    obtain ⟨hlength, -⟩ := hends.exists_splitLines
    refine ⟨headLines content, [], Text.splitLines block ++ [[]], Text.restLines (bodyOf content),
      restLines_eq content, hnewLines, ?_, rfl, Text.splitLines block, hlength, rfl⟩
    rw [placeOf, take_interpreterLine, count_interpreterLine]

/-- A block that is put into a file moves the lines after it by the lines that it has more than the
old one. -/
theorem IsSplice.placement_eq {head old new after : List Text}
    (h : IsSplice content block newline existing head old new after)
    (hparse : parse content = .ok existing) :
    Placement.of content existing (block.count '\n' + 1) =
      ⟨head.length + old.length + 1, new.length - old.length⟩ := by
  obtain ⟨-, -, hhead, hold, inner, hinner, rfl⟩ := h
  -- either block has as many lines as line feeds, and one more
  cases existing with
  | some b₀ =>
    obtain ⟨-, -, hfirst, hlast⟩ := exists_of_parse hparse
    rw [placeOf] at hhead
    rw [Option.elim_some] at hold
    rw [Placement.of, lineCount_of_parse hparse, hlast, hfirst, ← hhead, hold, Option.elim_some,
      List.append_nil, hinner]
    simp only [Placement.mk.injEq]
    push_cast
    omega
  | none =>
    rw [placeOf, take_interpreterLine, count_interpreterLine] at hhead
    rw [Option.elim_none] at hold
    rw [Placement.of, insertionLine_eq, ← hhead, hold, Option.elim_none, List.length_append, hinner,
      List.length_singleton]
    simp only [Placement.mk.injEq]
    push_cast
    omega

/-- **Which lines are replaced** when a block is put into a file and found there: those in which the
old block stands, or none. A new block stands in its lines, with an empty line after it if it is
the first. -/
theorem exists_restLines_insert (hparse : parse content = .ok existing) (h : newline.IsLineEnd)
    (hends : EndsInside block)
    (hb : parse (insert content block existing newline) = .ok (some b))
    (hstart : b.start = placeOf content existing) (hraw : b.raw = block) :
    ∃ head old new after,
      Text.restLines content = head ++ (old ++ after) ∧
      Text.splitLines (insert content block existing newline) = head ++ (new ++ after) ∧
      (∀ line ∈ old, ∃ b₀ ∈ existing, line ∈ b₀.linesIn content) ∧
      (∀ line ∈ new, line = [] ∨ line ∈ b.linesIn (insert content block existing newline)) ∧
      (old ≠ [] ∨ head.length ≤ 1) ∧
      Placement.of content existing (block.count '\n' + 1) =
        ⟨head.length + old.length + 1, new.length - old.length⟩ := by
  obtain ⟨head, old, new, after, hsplice⟩ := exists_isSplice hparse h hends
  have hplacement := hsplice.placement_eq hparse
  obtain ⟨hcontent, hinsert, hhead, hold, inner, hinner, rfl⟩ := hsplice
  refine ⟨head, old, _, after, hcontent, hinsert, ?_, ?_, ?_, hplacement⟩
  · -- a line that is taken out is one of the old block
    intro line hline
    cases existing with
    | some b₀ =>
      have hsplit : Text.splitLines content = head ++ (old ++ after) := by
        rw [← hcontent]
        refine Text.splitLines_of_restLines_ne_nil ?_
        rw [hcontent]
        exact List.append_ne_nil_of_right_ne_nil _
          (List.append_ne_nil_of_left_ne_nil (List.ne_nil_of_mem hline) _)
      exact ⟨b₀, rfl, linesIn_of_parse hparse hsplit hhead hold ▸ hline⟩
    | none =>
      obtain rfl := List.length_eq_zero_iff.mp hold
      exact absurd hline List.not_mem_nil
  · -- the block that is found stands where the lines before it end
    have hlines : b.linesIn (insert content block existing newline) = inner := by
      rw [List.append_assoc] at hinsert
      refine linesIn_of_parse hb hinsert ?_ (by rw [hraw, hinner])
      rw [hstart, take_placeOf_insert block newline hparse, hhead]
    rw [List.forall_mem_append, hlines]
    refine ⟨fun line hline => Or.inr hline, fun line hline => Or.inl ?_⟩
    cases existing with
    | some b₀ => exact absurd hline List.not_mem_nil
    | none => exact List.mem_singleton.mp hline
  · -- an old block has a line, and without one at most the line of an interpreter comes first
    cases existing with
    | some b₀ =>
      refine Or.inl ?_
      rw [← List.length_pos_iff, hold]
      exact Nat.succ_pos _
    | none =>
      refine Or.inr ?_
      rw [hhead, placeOf, take_interpreterLine, count_interpreterLine]
      unfold headLines
      split
      · exact Nat.zero_le 1
      · exact Nat.le_refl 1

end Block

/-! ### The sections that are found then -/

variable {language : Language} {content block newline : Text} {existing : Option Block} {b : Block}

/-- **The block means nothing in the file:** the block that is found is the one that was put there,
and neither the lines of the old block nor its own are marks or the start of a section. -/
structure Block.IsSettled (language : Language) (style : Style) (content : Text)
    (existing : Option Block) (block new : Text) (b : Block) : Prop where
  parse_eq : parse new = .ok (some b)
  start_eq : b.start = placeOf content existing
  style_eq : b.style = style
  raw_eq : b.raw = block
  old : ∀ b₀ ∈ existing, ∀ line ∈ b₀.linesIn content,
    language.PassesOver (Text.splitLines content) line
  new : ∀ line ∈ b.linesIn new, language.PassesOver (Text.splitLines content) line

/-- The rows of the block that is found are read from the one that was put there. -/
theorem Block.IsSettled.parseRows_eq {style : Style} {new : Text}
    (h : IsSettled language style content existing block new b) :
    parseRows style [] (Text.breakLines block) = .ok b.rows := by
  obtain ⟨hlocate, -⟩ := exists_of_parse h.parse_eq
  obtain ⟨-, -, -, hread⟩ := parse_eq_some hlocate h.parse_eq
  rwa [h.style_eq, h.raw_eq] at hread

/-- **The sections that are found in a file with a block** that means nothing there. -/
theorem scanned_insert {style : Block.Style} (hempty : language.Ignores [])
    (hparse : Block.parse content = .ok existing) (h : newline.IsLineEnd) (hends : EndsInside block)
    (hsettled : Block.IsSettled language style content existing block
      (Block.insert content block existing newline) b) :
    let placement := Placement.of content existing (block.count '\n' + 1)
    chooseSections.scanned (some language)
        (Text.splitLines (Block.insert content block existing newline)) =
      (chooseSections.scanned (some language) (Text.splitLines content)).map
        (Section.carried placement.threshold placement.delta) := by
  intro placement
  obtain ⟨head, old, new, after, hcontent, hnew, hold, hlines, hfew, hplacement⟩ :=
    Block.exists_restLines_insert hparse h hends hsettled.parse_eq hsettled.start_eq
      hsettled.raw_eq
  -- a line that the scan passes over in the file is passed over among its pieces as well
  have hpasses : ∀ line, language.PassesOver (Text.splitLines content) line →
      language.PassesOver (head ++ (old ++ after)) line := by
    intro line hline
    rw [← hcontent]
    refine ⟨hline.markOf_eq, fun hnone => hline.detect?_eq ?_⟩
    rw [scanExplicit_splitLines hempty.markOf_eq, hnone]
  have hreplaced := scanned_replaced after hfew
    (fun line hline => by
      obtain ⟨b₀, hb₀, hmem⟩ := hold line hline
      exact hpasses line (hsettled.old b₀ hb₀ line hmem))
    (fun line hline => by
      rcases hlines line hline with rfl | hmem
      · exact hempty.passesOver _
      · exact hpasses line (hsettled.new line hmem))
  have hplace : placement = ⟨head.length + old.length + 1, new.length - old.length⟩ := hplacement
  rw [hnew, hreplaced, scanned_splitLines hempty, hcontent, hplace]

end SectionIndex
