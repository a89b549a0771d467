import SectionIndex.Proofs.Block.Search
import SectionIndex.Proofs.Scan.BlockLines
import SectionIndex.Proofs.Upkeep.FirstIndex

/-!
# The file that is written

A block has as many line feeds as its height says, whatever is written in its rows, and it ends with
no line end. So the number of lines that is counted with a draft of the block is that of the file
with the block, and a block in the place of another adds the lines by which it is taller.

## Main statements

* `Block.count_render` — the line feeds of a block.
* `Block.insert_raw` — a file with its block in the place of its block.
* `Context.exists_generated` — success gives the file a new text.
* `Generated.serialize_eq`, `Generated.totalLines_eq` — what is written.
* `Generated.length_splitLines` — how many lines the file has then.
-/

namespace SectionIndex

open Text (EndsInside)

namespace Block

variable {style : Style} {sections : List Section} {totalLines : Int} {stamp newline : Text}

/-! ### The lines of a block in a file -/

theorem lineFeed_not_mem_of_mem_blockLines (hstamp : IsStamp stamp)
    (hsections : ∀ s ∈ sections, s.HasTexts ('\n' ∉ ·)) :
    ∀ line ∈ blockLines style (bodyLines style sections totalLines stamp), '\n' ∉ line := by
  intro line hline
  rcases mem_blockLines hline with hframe | ⟨body, hbody, rfl⟩
  · have hframes : ∀ style, ∀ line ∈ frameLines style, '\n' ∉ line := by
      intro style
      cases style <;> decide
    exact hframes style line hframe
  · have hsign : '\n' ∉ style.sign := by cases style <;> decide
    exact lineFeed_not_mem_commentLine hsign
      (isBodyLine_of_mem hstamp hsections body hbody).lineFeed_not_mem

/-- **The line feeds of a block** are one less than its lines. -/
theorem count_render (style : Style) (totalLines : Int) (h : newline.IsLineEnd)
    (hstamp : IsStamp stamp)
    (hsections : ∀ s ∈ sections, s.HasTexts ('\n' ∉ ·)) :
    ((render sections totalLines style stamp newline).count '\n' : Int) + 1 =
      height sections.length style := by
  rw [← length_blockLines style sections totalLines stamp, render,
    ← Text.count_join h (blockLines_ne_nil _ _)
      (lineFeed_not_mem_of_mem_blockLines hstamp hsections)]
  push_cast
  rfl

/-- A block with no rows is as tall as its frame, and one with rows is taller. -/
theorem height_pos (count : Nat) (style : Style) : 0 < height count style := by
  cases style <;> simp only [height] <;> omega

/-- A block ends with the end of a comment or with the end mark. -/
theorem endsInside_render (style : Style) (sections : List Section) (totalLines : Int)
    (stamp newline : Text) : EndsInside (render sections totalLines style stamp newline) := by
  have hlast : ∀ last : Text, EndsInside last → ∀ lines : List Text, lines ≠ [] →
      EndsInside (Text.join newline (lines ++ [last])) := by
    intro last hlast lines hne
    rw [Text.join_append _ hne (List.cons_ne_nil _ _), Text.join_singleton]
    exact hlast.append _
  cases style with
  | jsdoc => exact hlast _ ⟨'/', rfl, by decide, by decide⟩ _ (List.cons_ne_nil _ _)
  | hash => exact hlast _ ⟨'x', rfl, by decide, by decide⟩ _ (List.cons_ne_nil _ _)

/-- **The numbered lines of a block** are the lines that it is made of. -/
theorem splitLines_render (h : newline.IsLineEnd) (hstamp : IsStamp stamp)
    (hsections : ∀ s ∈ sections, s.HasTexts ('\n' ∉ ·)) :
    Text.splitLines (render sections totalLines style stamp newline) =
      blockLines style (bodyLines style sections totalLines stamp) :=
  Text.splitLines_join h (blockLines_ne_nil _ _) fun line hline =>
    ⟨endsInside_of_mem_blockLines hstamp hline,
      lineFeed_not_mem_of_mem_blockLines hstamp hsections line hline⟩

/-- A block stands between two parts of the file that do not depend on it. -/
theorem exists_insert_eq (content : Text) (existing : Option Block) (newline : Text) :
    ∃ before after, ∀ block, insert content block existing newline = before ++ block ++ after := by
  cases existing with
  | some b => exact ⟨content.take b.start, content.drop b.stop, fun _ => rfl⟩
  | none =>
    refine ⟨interpreterLine content, newline ++ newline ++ bodyOf content, fun block => ?_⟩
    simp only [insert_none, insertNew, bodyOf, List.append_assoc]

/-- **The number of lines of a file with a block** grows with the line feeds of the block. -/
theorem exists_length_splitLines_insert (content : Text) (existing : Option Block)
    (newline : Text) : ∃ k, ∀ block, EndsInside block →
      (Text.splitLines (insert content block existing newline)).length =
        block.count '\n' + k := by
  obtain ⟨before, after, hinsert⟩ := exists_insert_eq content existing newline
  obtain ⟨k, hk⟩ := Text.exists_length_splitLines after
  refine ⟨before.count '\n' + k, fun block hblock => ?_⟩
  rw [hinsert, hk _ (hblock.append before), List.count_append]
  omega

/-- A file with a block has as many lines as with any other of as many rows. -/
theorem length_splitLines_insert_render {content : Text} {existing : Option Block}
    {sections' : List Section} (h : newline.IsLineEnd) (hstamp : IsStamp stamp)
    (hsections : ∀ s ∈ sections, s.HasTexts ('\n' ∉ ·))
    (hsections' : ∀ s ∈ sections', s.HasTexts ('\n' ∉ ·))
    (hlength : sections'.length = sections.length) (totalLines totalLines' : Int) :
    (Text.splitLines (insert content (render sections' totalLines' style stamp newline) existing
        newline)).length =
      (Text.splitLines (insert content (render sections totalLines style stamp newline) existing
        newline)).length := by
  obtain ⟨k, hk⟩ := exists_length_splitLines_insert content existing newline
  have hcount := count_render style totalLines h hstamp hsections
  have hcount' := count_render style totalLines' h hstamp hsections'
  rw [hlength] at hcount'
  rw [hk _ (endsInside_render style sections totalLines stamp newline),
    hk _ (endsInside_render style sections' totalLines' stamp newline)]
  omega

/-- **A file with its block in the place of its block** is the file. -/
theorem insert_raw {content : Text} {b : Block} (newline : Text)
    (h : parse content = .ok (some b)) :
    insert content b.raw (some b) newline = content ∧ EndsInside b.raw := by
  obtain ⟨hlocate, hstop, -⟩ := exists_of_parse h
  obtain ⟨before, post, hcontent, hstart, hends⟩ := exists_of_locate? hlocate
  refine ⟨?_, hends⟩
  rw [insert_some, replace, hstop, hstart, hcontent, ← List.length_append, List.drop_left,
    List.append_assoc before, List.take_left, List.append_assoc]

/-- **A file whose block is replaced** has as many lines more as the new block is taller. -/
theorem length_splitLines_replace {content block : Text} {b : Block}
    (h : parse content = .ok (some b)) (hblock : EndsInside block) :
    ((Text.splitLines (replace content block b)).length : Int) =
      (Text.splitLines content).length + (block.count '\n' + 1 - b.lineCount) := by
  obtain ⟨k, hk⟩ := exists_length_splitLines_insert content (some b) []
  obtain ⟨-, -, -, hlastLine⟩ := exists_of_parse h
  obtain ⟨hcontent, hends⟩ := insert_raw [] h
  have hold := hk b.raw hends
  have hnew := hk block hblock
  rw [hcontent] at hold
  rw [insert_some] at hnew
  rw [hnew, hold, lineCount, hlastLine]
  push_cast
  omega

/-- **A file that gets its first block** has the lines of the block more, and an empty one. -/
theorem length_splitLines_insertNew (content block : Text) (h : newline.IsLineEnd) :
    (Text.splitLines (insertNew content block newline)).length =
      (Text.restLines content).length + (block.count '\n' + 2) := by
  obtain ⟨lines, last, hlines, hlast, rfl⟩ := Text.exists_wholeLines block
  have hcount : (Text.wholeLines lines ++ last).count '\n' = lines.length := by
    rw [List.count_append, Text.count_wholeLines hlines, List.count_eq_zero_of_not_mem hlast,
      Nat.add_zero]
  -- the first line end ends the last line of the block, and the second one a line that is empty
  have hempty : (Text.restLines ([] ++ newline ++ bodyOf content)).length =
      (Text.restLines (bodyOf content)).length + 1 :=
    Text.length_restLines_append_newline (bodyOf content) h List.not_mem_nil
  rw [List.nil_append] at hempty
  have htext : insertNew content (Text.wholeLines lines ++ last) newline =
      interpreterLine content ++
        (Text.wholeLines lines ++ (last ++ newline ++ (newline ++ bodyOf content))) := by
    simp only [insertNew, bodyOf, List.append_assoc]
  have hlength : (Text.restLines (insertNew content (Text.wholeLines lines ++ last)
      newline)).length = (Text.restLines content).length + (lines.length + 2) := by
    rw [htext, restLines_interpreterLine_append, restLines_eq content, List.length_append,
      List.length_append, Text.length_restLines_wholeLines_append _ hlines,
      Text.length_restLines_append_newline _ h hlast, hempty]
    omega
  have hne : Text.restLines (insertNew content (Text.wholeLines lines ++ last) newline) ≠ [] := by
    rw [← List.length_pos_iff, hlength]
    omega
  rw [Text.splitLines_of_restLines_ne_nil hne, hlength, hcount]

end Block

/-! ### What is written -/

section Written

variable {context : Context} {file content : Text} {language : Language} {style : Block.Style}
  {existing : Option Block} {sections : List Section} {companion : Option Companion} {now : Moment}

/-- **Success gives the file a new text:** its block holds the sections that were found, and the
outcome gives its number of lines. -/
theorem Context.exists_generated (hload : context.host.loadFile file = .ok content)
    (hparse : Block.parse content = .ok existing) {minLines : Option Int} {result : GenerateResult}
    {new? : Option Text} (hgenerate : context.generate file minLines = .ok (result, new?))
    (hsuccess : result.status = .success) :
    ∃ language style found companion now,
      Generated context file content language style existing found companion now ∧
        new? = some (indexedContent content existing style found now.stamp).content ∧
        result.totalLines = (indexedContent content existing style found now.stamp).totalLines := by
  rcases generate_cases hgenerate with ⟨hstatus, -⟩ |
    ⟨content', language, style, existing', found, companion, now, hg, -, -, htotal, hnew⟩
  · exact absurd hsuccess hstatus
  · obtain rfl : content' = content := Except.ok.inj (hg.load.symm.trans hload)
    obtain rfl : existing' = existing := Except.ok.inj (hg.parse.symm.trans hparse)
    exact ⟨language, style, found, companion, now, hg, hnew, htotal⟩

/-- The companion document that was read has no sections if the file has none with sections. -/
theorem Generated.sections_eq_nil
    (h : Generated context file content language style existing sections companion now)
    (hcompanion : ∀ document, context.host.companionOf file = .ok (some document) →
      document.sections = []) : ∀ document ∈ companion, document.sections = [] := by
  obtain ⟨hdocument, -⟩ := Context.detect_eq_ok_iff.mp h.detect
  rintro document rfl
  exact hcompanion document hdocument

theorem Generated.sections_eq_nil_of_lacksRows
    (h : Generated context file content language style existing sections companion now)
    (hlacks : context.host.LacksRows file) : ∀ document ∈ companion, document.sections = [] := by
  obtain ⟨hdocument, -⟩ := Context.detect_eq_ok_iff.mp h.detect
  obtain ⟨companion', hdocument', hnorows⟩ := hlacks
  obtain rfl := Except.ok.inj (hdocument.symm.trans hdocument')
  exact hnorows

/-- The style of the block is that of the language of the file. -/
theorem Generated.bind_blockStyle_eq
    (h : Generated context file content language style existing sections companion now) :
    (Language.ofPath? (Path.ofText file)).bind Language.blockStyle = some style := by
  rw [h.language_eq]
  exact h.style_eq

/-- **The block that is written.** -/
def indexedBlock (content : Text) (existing : Option Block) (style : Block.Style)
    (sections : List Section) (stamp : Text) : Text :=
  let indexed := indexedContent content existing style sections stamp
  Block.render indexed.sections indexed.totalLines style stamp (Text.detectNewline content)

theorem Generated.clock_ne_none
    (h : Generated context file content language style existing sections companion now) :
    context.now.utc? ≠ none :=
  Option.ne_none_iff_exists'.mpr ⟨now, Context.utcNow_eq_ok_iff.mp h.clock⟩

theorem Generated.found_eq_presentSections
    (h : Generated context file content language style existing sections companion now) :
    sections =
      presentSections (chooseSections companion (some language) (Text.splitLines content)) := by
  obtain ⟨-, hfound⟩ := Context.detect_eq_ok_iff.mp h.detect
  rw [hfound, h.language_eq]

/-- No text of a section has a line feed in it when the section is moved. -/
theorem Context.lineFeed_not_mem_orFallback
    (hdetect : context.detect file (Text.splitLines content) = .ok (sections, companion))
    (placement : Placement) (totalLines : Nat) :
    ∀ s ∈ orFallback totalLines (sections.map placement.move), s.HasTexts ('\n' ∉ ·) :=
  forall_move (by decide) (by decide) (lineFeed_not_mem_of_detect hdetect)

/-- No text of a section that is written has a line feed in it. -/
theorem Generated.lineFeed_not_mem
    (h : Generated context file content language style existing sections companion now)
    (totalLines : Nat) : ∀ s ∈ orFallback totalLines (sections.map (Placement.of content existing
      (Block.height (max sections.length 1 : Nat) style)).move), s.HasTexts ('\n' ∉ ·) :=
  Context.lineFeed_not_mem_orFallback h.detect _ totalLines

/-- **The block that is written** holds the sections that are moved, and it is put in the place of
the one that was found, or at the top. -/
theorem Generated.serialize_eq
    (h : Generated context file content language style existing sections companion now) :
    let indexed := indexedContent content existing style sections now.stamp
    let newline := Text.detectNewline content
    Block.serialize indexed.sections indexed.totalLines style context.now newline =
        .ok (indexedBlock content existing style sections now.stamp) ∧
      indexed.content = Block.insert content
        (indexedBlock content existing style sections now.stamp) existing newline := by
  intro indexed newline
  refine ⟨Block.serialize_eq_ok_iff.mpr ⟨now.stamp, Context.blockStamp_of_utcNow h.clock, ?_, rfl⟩,
    rfl⟩
  exact Block.checkNumbers_eq_ok_iff.mp h.numbers

/-- **The number of lines in the block** is that of the file with the block, as the draft that it
was counted with has as many lines. -/
theorem Generated.totalLines_eq
    (h : Generated context file content language style existing sections companion now) :
    let indexed := indexedContent content existing style sections now.stamp
    indexed.totalLines = (Text.splitLines indexed.content).length := by
  have hstamp := h.isStamp
  have hlength : ∀ totalLines, (orFallback totalLines (sections.map (Placement.of content existing
      (Block.height (max sections.length 1 : Nat) style)).move)).length =
        max sections.length 1 := by
    intro totalLines
    rw [length_orFallback, List.length_map]
  exact Block.length_splitLines_insert_render (Text.detectNewline_isLineEnd content) hstamp
    (h.lineFeed_not_mem _) (h.lineFeed_not_mem _) ((hlength _).trans (hlength _).symm) _ _

/-- The line feeds of the block that is written. -/
theorem Generated.count_indexedBlock
    (h : Generated context file content language style existing sections companion now) :
    ((indexedBlock content existing style sections now.stamp).count '\n' : Int) + 1 =
      Block.height (max sections.length 1 : Nat) style := by
  have hstamp := h.isStamp
  let indexed := indexedContent content existing style sections now.stamp
  have hcount := Block.count_render style indexed.totalLines (Text.detectNewline_isLineEnd content)
    hstamp (h.lineFeed_not_mem indexed.totalLines)
  rw [length_orFallback, List.length_map] at hcount
  exact hcount

/-- The number of lines that a block is added to. A file without any text has no lines before its
first block. -/
def linesBefore (content : Text) : Option Block → Nat
  | some _ => (Text.splitLines content).length
  | none => (Text.restLines content).length

/-- **How many lines the file has then.** -/
theorem Generated.length_splitLines
    (h : Generated context file content language style existing sections companion now) :
    let placement := Placement.of content existing
      (Block.height (max sections.length 1 : Nat) style)
    ((Text.splitLines (indexedContent content existing style sections
      now.stamp).content).length : Int) = linesBefore content existing + placement.delta := by
  -- the block ends inside its last line, which is counted once
  have hends : EndsInside (indexedBlock content existing style sections now.stamp) :=
    Block.endsInside_render _ _ _ _ _
  have hcount := h.count_indexedBlock
  obtain ⟨-, hcontent⟩ := h.serialize_eq
  intro placement
  rw [hcontent]
  cases existing with
  | some b =>
    -- one block takes the place of the other
    rw [Block.insert_some, Block.length_splitLines_replace h.parse hends, hcount]
    rfl
  | none =>
    -- a first block is followed by an empty line
    have hdelta : placement.delta = Block.height (max sections.length 1 : Nat) style + 1 := rfl
    rw [Block.insert_none, Block.length_splitLines_insertNew _ _
      (Text.detectNewline_isLineEnd content), hdelta, ← hcount, linesBefore]
    push_cast
    omega

/-- The first block of a file makes it longer. -/
theorem Generated.length_splitLines_le
    (h : Generated context file content language style none sections companion now) :
    (Text.splitLines content).length ≤
      (Text.splitLines (indexedContent content none style sections now.stamp).content).length := by
  have hlines := h.length_splitLines
  have hpos := Block.height_pos (max sections.length 1) style
  have hle : (Text.splitLines content).length ≤ (Text.restLines content).length + 1 := by
    rw [Text.splitLines_eq]
    split
    · exact Nat.le_add_left 1 _
    · exact Nat.le_add_right _ 1
  simp only [linesBefore, Placement.of] at hlines
  omega

end Written

end SectionIndex
