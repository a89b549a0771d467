import SectionIndex.Proofs.Upkeep.Marks
import SectionIndex.Proofs.Upkeep.Recognition
import SectionIndex.Proofs.Upkeep.Verify

/-!
# The check of an index that was just written

A first index that is written for the marks of a file is meant to pass the check at once. It does if
the block keeps the names of all sections, and no line of the block is taken for a mark that opens a
section. If a name is lost, its section is missing from the index; if a line of the block opens a
section, there are more sections than rows.

## Main statements

* `Generated.map_start_marked` — the sections of the marks of the file that is written.
* `Generated.contentIssues_eq_nil_iff` — when nothing is wrong with the rows of the new block.
* `Context.verify_of_generate_iff` — when an index that was just written passes the check.
-/

namespace SectionIndex

open Text (EndsInside)

/-! ### The rows of a new block -/

/-- **What is read from a file with a new block** is what is read from the block. -/
theorem Block.exists_parse_insertNew_iff {style : Style} {sections : List Section}
    {totalLines : Int} {stamp newline content : Text} (h : newline.IsLineEnd)
    (hstamp : IsStamp stamp) (htotal : 0 ≤ totalLines)
    (hnumbers : (numbers sections totalLines).all isWritable = true)
    (hsections : ∀ s ∈ sections, s.HasTexts ('\n' ∉ ·)) (hparse : parse content = .ok none)
    (P : List Row → Prop) :
    let block := render sections totalLines style stamp newline
    (∃ b, parse (insertNew content block newline) = .ok (some b) ∧ P b.rows) ↔
      ∃ rows, parseRows style [] (Text.breakLines block) = .ok rows ∧ P rows := by
  intro block
  have hlocate : locate? (insertNew content block newline) =
      some (placeOf content none, style, block) :=
    (locate?_insert_render_iff h hstamp hsections hparse).mpr
      fun _ h => absurd h (Option.not_mem_none _)
  constructor
  · rintro ⟨b, hb, hrows⟩
    obtain ⟨-, -, -, hread⟩ := parse_eq_some hlocate hb
    exact ⟨b.rows, hread, hrows⟩
  · rintro ⟨rows, hread, hrows⟩
    obtain ⟨hwritable, -⟩ := isWritable_of_numbers hnumbers
    obtain ⟨b, hb, -⟩ := (isFoundAt_render_iff h hstamp htotal hwritable).mpr ⟨hlocate, rows, hread⟩
    obtain ⟨-, -, -, hread'⟩ := parse_eq_some hlocate hb
    obtain rfl := Except.ok.inj (hread.symm.trans hread')
    exact ⟨b, hb, hrows⟩

/-! ### The file that is written -/

section Written

variable {context : Context} {file content : Text} {language : Language} {style : Block.Style}
  {found : List Section} {companion : Option Companion} {now : Moment}

/-- The rows that are read from the block of the file that is written. -/
theorem Generated.exists_parse_iff
    (h : Generated context file content language style none found companion now)
    (P : List Block.Row → Prop) :
    (∃ b, Block.parse (indexedContent content none style found now.stamp).content = .ok (some b) ∧
        P b.rows) ↔
      ∃ rows, Block.parseRows style []
          (Text.breakLines (indexedBlock content none style found now.stamp)) = .ok rows ∧
        P rows := by
  have hnumbers := Block.checkNumbers_eq_ok_iff.mp h.numbers
  exact Block.exists_parse_insertNew_iff (Text.detectNewline_isLineEnd content) h.isStamp
    (Int.natCast_nonneg _) hnumbers (h.lineFeed_not_mem _) h.parse P

/-- The sections of a first block are laid out in the file, as all lines after it move down. -/
theorem Generated.isLayout_sections
    (h : Generated context file content language style none found companion now)
    (hcompanion : ∀ document ∈ companion, document.sections = []) :
    IsLayout 1 (indexedContent content none style found now.stamp).totalLines
      (indexedContent content none style found now.stamp).sections := by
  have hpos := Block.height_pos (max found.length 1) style
  refine (h.isLayout_iff hcompanion).2 ?_
  simp only [Placement.of]
  omega

/-- Descriptions are of no account for names and starts. -/
theorem map_start_presentSections (sections : List Section) :
    (presentSections sections).map Section.start =
      (Section.uniqueNames sections).map Section.start := by
  have hdescribe : (sections.map Section.describe).map Section.start =
      sections.map fun s => (s.name, id s.first) := by
    rw [List.map_map]
    exact List.map_congr_left fun s _ => by simp [Section.start]
  exact Section.map_start_uniqueNames id hdescribe

/-! ### A file with marks -/

section Marked

-- a first block for the marks of a file that has no companion document with sections
variable (h : Generated context file content language style none found companion now)
  (hcompanion : ∀ document ∈ companion, document.sections = [])
  (hmarks : scanExplicit (some language) (Text.splitLines content) ≠ [])

include h hcompanion hmarks

/-- **The sections that are found** are those of the marks, with descriptions and with all names
different. -/
theorem Generated.found_eq :
    found = presentSections (scanExplicit (some language) (Text.splitLines content)) := by
  obtain ⟨-, hfound⟩ := Context.detect_eq_ok_iff.mp h.detect
  rw [chooseSections_of_forall _ _ hcompanion, h.language_eq] at hfound
  rw [hfound, chooseSections.scanned]
  split
  · next hnil => exact absurd hnil hmarks
  · rfl

/-- **The sections of marks that are written** start where the block moves them. -/
theorem Generated.map_start_sections :
    let block := indexedBlock content none style found now.stamp
    (indexedContent content none style found now.stamp).sections.map Section.start =
      (Section.uniqueNames (scanExplicit (some language) (Text.splitLines content))).map fun s =>
        (s.name, Section.shiftLine (Block.insertionLine content)
          ((Text.splitLines block).length + 1) s.first) := by
  intro block
  have hfound := h.found_eq hcompanion hmarks
  obtain ⟨hsource, -⟩ := h.isLayout_found hcompanion
  have hends : EndsInside block := Block.endsInside_render _ _ _ _ _
  obtain ⟨hlength, -⟩ := hends.exists_splitLines
  -- the block moves all lines after it by its lines and an empty one
  let placement := Placement.of content none (Block.height (max found.length 1 : Nat) style)
  have hdelta : placement.delta = (Text.splitLines block).length + 1 := by
    show Block.height (max found.length 1 : Nat) style + 1 = _
    rw [← h.count_indexedBlock, hlength]
    rfl
  have hne : found.map placement.move ≠ [] := by
    rw [hfound, ne_eq, List.map_eq_nil_iff, ← List.length_eq_zero_iff, presentSections,
      Section.length_uniqueNames, List.length_map, List.length_eq_zero_iff]
    exact hmarks
  have hsections : (indexedContent content none style found now.stamp).sections =
      found.map placement.move := if_neg hne
  have hmove : (found.map placement.move).map Section.start =
      (found.map Section.start).map fun o =>
        (o.1, Section.shiftLine placement.threshold placement.delta o.2) := by
    rw [List.map_map, List.map_map]
    refine List.map_congr_left fun s hs => ?_
    rw [Function.comp_apply, Placement.move, if_neg (hsource s hs)]
    rfl
  rw [hsections, hmove, hfound, map_start_presentSections, List.map_map, hdelta]
  rfl

/-- **The sections of the marks of the file that is written** are those that are written and those
that the lines of the block open. -/
theorem Generated.map_start_marked :
    let indexed := indexedContent content none style found now.stamp
    let inner := (Text.splitLines (indexedBlock content none style found now.stamp)).map
      language.markOf
    let marked := Section.uniqueNames
      (scanExplicit (some language) (Text.splitLines indexed.content))
    marked.length =
        indexed.sections.length + (openings (Block.insertionLine content) inner).length ∧
      ((∀ mark ∈ inner, ¬ mark.Opens) →
        marked.map Section.start = indexed.sections.map Section.start) := by
  intro indexed inner marked
  have hmarkers : language.hasMarkers = true := by
    by_contra hnone
    exact hmarks (if_neg hnone)
  have hempty : language.markOf [] = .plain :=
    (Language.ignores_nil (Language.mem_all_of_ofPath? h.language_eq) h.style_eq).markOf_eq
  have hends : EndsInside (indexedBlock content none style found now.stamp) :=
    Block.endsInside_render _ _ _ _ _
  obtain ⟨hlength, hstart⟩ := map_start_scanExplicit_insertNew content hmarkers hempty
    (Text.detectNewline_isLineEnd content) hends
  have hsections := h.map_start_sections hcompanion hmarks
  -- the marks are as many as the sections that are written, and then begin where those begin
  constructor
  · have hcount := congrArg List.length hsections
    rw [List.length_map, List.length_map, Section.length_uniqueNames] at hcount
    rw [Section.length_uniqueNames, hcount]
    exact hlength
  · intro hinner
    have hinserted := hstart hinner
    rw [List.length_map] at hinserted
    rw [hsections]
    exact Section.map_start_uniqueNames _ hinserted

/-- The names that are written are those of the marks. -/
theorem Generated.map_name_sections :
    (indexedContent content none style found now.stamp).sections.map Section.name =
      (Section.uniqueNames (scanExplicit (some language) (Text.splitLines content))).map
        Section.name :=
  Section.map_name_of_map_start _ (h.map_start_sections hcompanion hmarks)

/-- **A check that finds nothing wrong** shows that the block keeps all names, and that none of its
lines opens a section. -/
theorem Generated.keepsName_of_contentIssues {tolerance : Int} {rows : List Block.Row}
    (hread : Block.parseRows style []
      (Text.breakLines (indexedBlock content none style found now.stamp)) = .ok rows)
    (hissues : contentIssues rows (some language)
      (indexedContent content none style found now.stamp).content tolerance = []) :
    (∀ s ∈ Section.uniqueNames (scanExplicit (some language) (Text.splitLines content)),
        Block.KeepsName style s.name) ∧
      ∀ line ∈ Text.splitLines (indexedBlock content none style found now.stamp),
        ¬ (language.markOf line).Opens := by
  have hstamp := h.isStamp
  obtain ⟨hlength, hmarked⟩ := h.map_start_marked hcompanion hmarks
  obtain ⟨-, hdrift⟩ := List.append_eq_nil_iff.mp hissues
  obtain ⟨hrow, hle⟩ := exists_row_of_driftIssues hdrift
  have hrows := Block.length_le_of_parseRows_render (Text.detectNewline_isLineEnd content) hstamp
    hread
  -- a section that a line of the block opens would be one more than the rows
  have hinner : ∀ mark ∈ (Text.splitLines (indexedBlock content none style found now.stamp)).map
      language.markOf, ¬ mark.Opens := by
    have hmarkedRows := hle (Section.nodup_uniqueNames _)
    rw [hlength] at hmarkedRows
    rw [← openings_eq_nil_iff (Block.insertionLine content), ← List.length_eq_zero_iff]
    exact Nat.le_zero.mp (Nat.le_of_add_le_add_left (hmarkedRows.trans hrows))
  refine ⟨?_, fun line hline => hinner _ (List.mem_map_of_mem hline)⟩
  -- each name is that of a row, and a row that is read is one that a block can hold
  have hstorable := Block.isStorable_of_parseRows (fun _ => Text.isUnbroken_of_mem_breakLines) hread
  have hnames := congrArg (List.map Prod.fst) (hmarked hinner)
  rw [List.map_map, List.map_map] at hnames
  have hkept : ∀ name ∈ (Section.uniqueNames (scanExplicit (some language)
      (Text.splitLines (indexedContent content none style found now.stamp).content))).map
        Section.name, Block.KeepsName style name := by
    refine List.forall_mem_map.mpr fun t ht => ?_
    obtain ⟨row, hmem, hname⟩ := hrow t ht
    exact hname ▸ (hstorable row hmem).keepsName
  rw [← List.forall_mem_map, ← h.map_name_sections hcompanion hmarks]
  exact hnames ▸ hkept

/-- **The names and lines that are written are read again** if the block keeps all names. -/
theorem Generated.exists_parseRows
    (hkept : ∀ s ∈ Section.uniqueNames (scanExplicit (some language) (Text.splitLines content)),
      Block.KeepsName style s.name) :
    ∃ rows, Block.parseRows style []
        (Text.breakLines (indexedBlock content none style found now.stamp)) = .ok rows ∧
      rows.map (fun row => (row.name, row.first, row.last)) =
        (indexedContent content none style found now.stamp).sections.map fun s =>
          (s.name, s.first, s.last) := by
  have hstamp := h.isStamp
  obtain ⟨-, hwritable⟩ := h.isWritable_numbers
  have hlayout := h.isLayout_sections hcompanion
  have hnames := h.map_name_sections hcompanion hmarks
  rw [← List.forall_mem_map, ← hnames, List.forall_mem_map] at hkept
  refine Block.exists_parseRows_of_keepsName _ (Text.detectNewline_isLineEnd content) hstamp
    (hnames ▸ Section.nodup_uniqueNames _) fun s hs => ?_
  obtain ⟨hfirst, hlines, -⟩ := hlayout.bounds s hs
  exact ⟨hkept s hs, hwritable s hs, by omega, by omega⟩

/-- **A check right after the writing finds nothing wrong** if the block keeps all names and none of
its lines opens a section, and only then. -/
theorem Generated.contentIssues_eq_nil_iff {tolerance : Int} (htolerance : 0 ≤ tolerance) :
    let indexed := indexedContent content none style found now.stamp
    (∃ b, Block.parse indexed.content = .ok (some b) ∧
        contentIssues b.rows (some language) indexed.content tolerance = []) ↔
      (∀ s ∈ Section.uniqueNames (scanExplicit (some language) (Text.splitLines content)),
          Block.KeepsName style s.name) ∧
        ∀ line ∈ Text.splitLines (indexedBlock content none style found now.stamp),
          ¬ (language.markOf line).Opens := by
  intro indexed
  rw [h.exists_parse_iff fun rows =>
    contentIssues rows (some language) indexed.content tolerance = []]
  constructor
  · rintro ⟨rows, hread, hissues⟩
    exact h.keepsName_of_contentIssues hcompanion hmarks hread hissues
  · rintro ⟨hkept, hplain⟩
    obtain ⟨rows, hread, hmap⟩ := h.exists_parseRows hcompanion hmarks hkept
    obtain ⟨-, hmarked⟩ := h.map_start_marked hcompanion hmarks
    -- the rows have the names and the lines of the sections that are written
    have hnames := congrArg (List.map Prod.fst) hmap
    have hstarts := congrArg (List.map fun r : Text × Int × Int => (r.1, r.2.1)) hmap
    have hlines := congrArg (List.map Prod.snd) hmap
    rw [List.map_map, List.map_map] at hnames hstarts hlines
    have hnodup : (rows.map Block.Row.name).Nodup := by
      refine hnames ▸ ?_
      exact h.map_name_sections hcompanion hmarks ▸ Section.nodup_uniqueNames _
    refine ⟨rows, hread, List.append_eq_nil_iff.mpr ⟨?_, ?_⟩⟩
    · rw [← h.totalLines_eq]
      exact rangeIssues_eq_nil_of_map (h.isLayout_sections hcompanion) hlines
    · have hstart := hmarked (List.forall_mem_map.mpr hplain)
      exact driftIssues_eq_nil_of_map_start hnodup (hstart.trans hstarts.symm) htolerance

end Marked

/-- **An index of marks that was just written passes the check** if the block keeps all names and
none of its lines opens a section, and only then. The file has no companion document with sections,
and it had no index before. -/
theorem Context.verify_of_generate_iff (hload : context.host.loadFile file = .ok content)
    (hparse : Block.parse content = .ok none)
    (hcompanion : ∀ document, context.host.companionOf file = .ok (some document) →
      document.sections = [])
    (hmarks : scanExplicit (Language.ofPath? (Path.ofText file)) (Text.splitLines content) ≠ [])
    {minLines : Option Int} {result : GenerateResult} {new? : Option Text}
    (hgenerate : context.generate file minLines = .ok (result, new?))
    (hsuccess : result.status = .success) :
    ∃ language style written block new,
      Language.ofPath? (Path.ofText file) = some language ∧ language.blockStyle = some style ∧
      Block.serialize written (Text.splitLines new).length style context.now
        (Text.detectNewline content) = .ok block ∧
      new? = some new ∧ new = Block.insertNew content block (Text.detectNewline content) ∧
      ∀ settings later (tolerance : Option Int), 0 ≤ tolerance.getD settings.driftTolerance →
        ((∃ check, (⟨context.host.overwrite (Path.ofText file) new, settings, later⟩ :
            Context).verify file tolerance = .ok check ∧ check.IsClean) ↔
          (∀ s ∈ Section.uniqueNames (scanExplicit (some language) (Text.splitLines content)),
              Block.KeepsName style s.name) ∧
            ∀ line ∈ Text.splitLines block, ¬ (language.markOf line).Opens) := by
  obtain ⟨language, style, found, companion, now, hg, rfl, -⟩ :=
    exists_generated hload hparse hgenerate hsuccess
  rw [hg.language_eq] at hmarks
  obtain ⟨hserialize, hcontent⟩ := hg.serialize_eq
  rw [hg.totalLines_eq] at hserialize
  refine ⟨language, style, _, _, _, hg.language_eq, hg.style_eq, hserialize, rfl, hcontent, ?_⟩
  intro settings later tolerance htolerance
  have hwritten := Host.loadFile_overwrite
    (indexedContent content none style found now.stamp).content hload
  rw [exists_isClean_iff hwritten, hg.language_eq]
  exact hg.contentIssues_eq_nil_iff (hg.sections_eq_nil hcompanion) hmarks htolerance

/-- A section with the name of the heading of the table is missing from the index. -/
theorem Context.not_isClean_of_generate_of_script :
    let file : Text := "a.ts"
    let content : Text := "//#region Section\nlet x = 1;\n//#endregion\n"
    let context : Context := ⟨⟨⟨[([file], .file (encodeUtf8 content))]⟩, [], "/", []⟩,
      { workspaceRoot := ⟨.root, []⟩ }, ⟨2024, 2, 29, 1, 2, 3, 4, 0⟩⟩
    ∃ result new, context.generate file none = .ok (result, some new) ∧
      result.status = .success ∧
      ∀ settings later (tolerance : Option Int), 0 ≤ tolerance.getD settings.driftTolerance →
        ¬ ∃ check, (⟨context.host.overwrite (Path.ofText file) new, settings, later⟩ :
          Context).verify file tolerance = .ok check ∧ check.IsClean := by
  intro file content context
  have hload : context.host.loadFile file = .ok content :=
    Host.loadFile_of_encodeUtf8 [file] (by decide +kernel)
  have hparse : Block.parse content = .ok none := by decide +kernel
  have hcompanion : context.host.companionOf file = .ok none := by decide +kernel
  have hmarked : scanExplicit (Language.ofPath? (Path.ofText file)) (Text.splitLines content) =
      [⟨Block.nameHeading, 1, 3, [], .explicit⟩] := by
    decide +kernel
  have hsuccess : (context.generate file none).toOption.map (·.1.status) = some .success := by
    decide +kernel
  clear_value context content file
  obtain ⟨⟨result, new?⟩, hgenerate, hsuccess⟩ := Fault.toOption_map_eq_some_iff.mp hsuccess
  have hlacks : ∀ document, context.host.companionOf file = .ok (some document) →
      document.sections = [] := by
    intro document hdocument
    cases hcompanion.symm.trans hdocument
  have hmarks :
      scanExplicit (Language.ofPath? (Path.ofText file)) (Text.splitLines content) ≠ [] :=
    hmarked ▸ List.cons_ne_nil _ _
  obtain ⟨language, style, written, block, new, hlanguage, -, -, rfl, -, hclean⟩ :=
    Context.verify_of_generate_iff hload hparse hlacks hmarks hgenerate hsuccess
  refine ⟨result, new, hgenerate, hsuccess, ?_⟩
  intro settings later tolerance htolerance hcheck
  obtain ⟨hkept, -⟩ := (hclean settings later tolerance htolerance).mp hcheck
  rw [← hlanguage, hmarked] at hkept
  exact (hkept _ List.mem_cons_self).ne_heading rfl

end Written

end SectionIndex
