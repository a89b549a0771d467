import SectionIndex.Proofs.Indexing.Order
import SectionIndex.Proofs.Upkeep.Written

/-!
# The table that is written

The sections of a file are laid out in it, and they are moved to where they will stand when the
block is in the file. Each end of a section is moved by itself: the lines after the old block move
by the difference in height, and the lines before it, and those of the old block, do not move. If
the new block is lower, the lines after it move up, and a section that ends on a line of the old
block can be left behind: then it overlaps the section after it, or ends before it starts, or ends
past the end of the file.

## Main definitions

* `Placement.Fits` — no end of a section is left behind.

## Main statements

* `isLayout_map_shifted_iff` — sections that are moved are laid out if they fit.
* `Context.isLayout_of_generate_iff` — the sections in the block that is written are laid out in the
  file that is written if they fit, and they do if the new block is as tall as the old one.
-/

namespace SectionIndex

/-! ### Sections that are moved -/

/-- **No end of a section is left behind** by lines that move up: a section around the threshold
does not end before it starts, a section before the threshold ends before all sections after it, and
it ends in the file, which has `total` lines then. -/
structure Placement.Fits (placement : Placement) (total : Int) (sections : List Section) :
    Prop where
  within : ∀ s ∈ sections, s.first < placement.threshold → placement.threshold ≤ s.last →
    s.first ≤ s.last + placement.delta
  apart : ∀ s ∈ sections, ∀ t ∈ sections, s.last < placement.threshold →
    placement.threshold ≤ t.first → s.last < t.first + placement.delta
  inFile : ∀ s ∈ sections, s.last < placement.threshold → s.last ≤ total

variable {placement : Placement} {total newTotal : Int} {sections : List Section}

/-- Lines that move down leave no end behind. -/
theorem Placement.fits_of_nonneg (h : IsLayout 1 total sections) (hdelta : 0 ≤ placement.delta)
    (htotal : newTotal = total + placement.delta) : placement.Fits newTotal sections where
  within := by
    intro s hs _ _
    obtain ⟨-, hlines, -⟩ := h.bounds s hs
    omega
  apart := by
    intro s _ t _ hlast hfirst
    omega
  inFile := by
    intro s hs _
    obtain ⟨-, -, hlast⟩ := h.bounds s hs
    omega

/-- **A section that is moved** keeps its lines in order and in the file. -/
theorem Placement.Fits.bounds (h : placement.Fits newTotal sections)
    (hlayout : IsLayout 1 total sections) (hlow : 1 ≤ placement.threshold + placement.delta)
    (htotal : newTotal = total + placement.delta) {s : Section} (hs : s ∈ sections) :
    let moved := s.shifted placement.threshold placement.delta
    1 ≤ moved.first ∧ moved.first ≤ moved.last ∧ moved.last ≤ newTotal := by
  obtain ⟨hfirst, hlines, hlast⟩ := hlayout.bounds s hs
  simp only [Section.shifted]
  by_cases hbefore : s.last < placement.threshold
  · -- the section stands before the threshold
    have hstart : s.first < placement.threshold := Int.lt_of_le_of_lt hlines hbefore
    rw [Section.shiftLine_of_lt _ hstart, Section.shiftLine_of_lt _ hbefore]
    exact ⟨hfirst, hlines, h.inFile s hs hbefore⟩
  · have hend : placement.threshold ≤ s.last := Int.not_lt.mp hbefore
    rw [Section.shiftLine_of_le _ hend]
    by_cases hstart : s.first < placement.threshold
    · -- the threshold stands in the section
      have hwithin := h.within s hs hstart hend
      rw [Section.shiftLine_of_lt _ hstart]
      exact ⟨hfirst, hwithin, by omega⟩
    · rw [Section.shiftLine_of_le _ (Int.not_lt.mp hstart)]
      omega

/-- **Sections that are moved are laid out** if and only if no end is left behind. -/
theorem isLayout_map_shifted_iff (hlayout : IsLayout 1 total sections)
    (hlow : 1 ≤ placement.threshold + placement.delta)
    (htotal : newTotal = total + placement.delta) :
    IsLayout 1 newTotal
        (sections.map fun s => s.shifted placement.threshold placement.delta) ↔
      placement.Fits newTotal sections := by
  constructor
  · intro h
    have hbounds := List.forall_mem_map.mp h.bounds
    have hapart := List.pairwise_map.mp h.apart
    refine ⟨?_, ?_, ?_⟩
    · -- a section around the threshold keeps its first line, while its last one moves
      intro s hs hstart hend
      obtain ⟨-, hlines, -⟩ := hbounds s hs
      simp only [Section.shifted] at hlines
      rwa [Section.shiftLine_of_lt _ hstart, Section.shiftLine_of_le _ hend] at hlines
    · intro s hs t ht hlast hfirst
      have hlt := hlayout.rel_of_lt hapart hs ht (Int.lt_of_lt_of_le hlast hfirst)
      simp only [Section.shifted] at hlt
      rwa [Section.shiftLine_of_lt _ hlast, Section.shiftLine_of_le _ hfirst] at hlt
    · intro s hs hlast
      obtain ⟨-, -, hfile⟩ := hbounds s hs
      simp only [Section.shifted] at hfile
      rwa [Section.shiftLine_of_lt _ hlast] at hfile
  · intro h
    refine ⟨?_, List.forall_mem_map.mpr fun s hs => h.bounds hlayout hlow htotal hs⟩
    -- two sections stay in order: both move, or neither does, or the condition says so
    refine List.pairwise_map.mpr (hlayout.apart.imp_of_mem ?_)
    intro s t hs ht hlt
    obtain ⟨-, hslines, -⟩ := hlayout.bounds s hs
    simp only [Section.shifted]
    by_cases hfirst : placement.threshold ≤ t.first
    · rw [Section.shiftLine_of_le _ hfirst]
      by_cases hlast : s.last < placement.threshold
      · rw [Section.shiftLine_of_lt _ hlast]
        exact h.apart s hs t ht hlast hfirst
      · rw [Section.shiftLine_of_le _ (Int.not_lt.mp hlast)]
        omega
    · rw [Section.shiftLine_of_lt _ (by omega), Section.shiftLine_of_lt _ (by omega)]
      exact hlt

/-! ### The block that is written -/

section Written

variable {context : Context} {file content new : Text} {language : Language} {style : Block.Style}
  {existing : Option Block} {found : List Section} {companion : Option Companion} {now : Moment}

/-- The first line after a new block stands after line 1. -/
theorem Placement.one_le_threshold_add_delta (h : Block.parse content = .ok existing)
    (count : Nat) :
    let placement := Placement.of content existing (Block.height count style)
    1 ≤ placement.threshold + placement.delta := by
  have hheight := Block.height_pos count style
  cases existing with
  | some b =>
    obtain ⟨-, -, -, hlastLine⟩ := Block.exists_of_parse h
    simp only [Placement.of, Block.lineCount]
    omega
  | none =>
    simp only [Placement.of]
    omega

/-- **The sections that are found** do not come from a companion document, and they are laid out in
the lines that the block is added to. -/
theorem Generated.isLayout_found
    (h : Generated context file content language style existing found companion now)
    (hcompanion : ∀ document ∈ companion, document.sections = []) :
    (∀ s ∈ found, s.source ≠ .companion) ∧ IsLayout 1 (linesBefore content existing) found := by
  obtain ⟨-, hfound⟩ := Context.detect_eq_ok_iff.mp h.detect
  rw [chooseSections_of_forall _ _ hcompanion, h.language_eq] at hfound
  -- without rows of a companion all sections were scanned
  have hsource : ∀ s ∈ found, s.source ≠ .companion := by
    intro s hs
    rw [hfound] at hs
    obtain ⟨s₀, hs₀, -, -, heq⟩ := exists_of_mem_presentSections hs
    rw [heq]
    exact source_of_mem_scanned hs₀
  refine ⟨hsource, ?_⟩
  have hlayout : IsLayout 1 (Text.splitLines content).length found :=
    (Context.isMap_of_detect h.detect).layout hsource
  by_cases hrest : Text.restLines content = []
  · -- one line with nothing in it holds no section
    have hempty := Language.ignores_nil (Language.mem_all_of_ofPath? h.language_eq) h.style_eq
    have hnil : found = [] := by
      rw [hfound, scanned_splitLines hempty, hrest, scanned_nil]
      rfl
    rw [hnil]
    exact IsLayout.nil _ _
  · have hlines : linesBefore content existing = (Text.splitLines content).length := by
      cases existing with
      | some b => rfl
      | none => rw [linesBefore, Text.splitLines_of_restLines_ne_nil hrest]
    rw [hlines]
    exact hlayout

/-- **The sections that are written** are laid out in the file if and only if no end is left
behind. -/
theorem Generated.isLayout_iff
    (h : Generated context file content language style existing found companion now)
    (hcompanion : ∀ document ∈ companion, document.sections = []) :
    let indexed := indexedContent content existing style found now.stamp
    let placement := Placement.of content existing (Block.height (max found.length 1 : Nat) style)
    (IsLayout 1 indexed.totalLines indexed.sections ↔ placement.Fits indexed.totalLines found) ∧
      (0 ≤ placement.delta → IsLayout 1 indexed.totalLines indexed.sections) := by
  intro indexed placement
  obtain ⟨hsource, hlayout⟩ := h.isLayout_found hcompanion
  have hlow : 1 ≤ placement.threshold + placement.delta :=
    Placement.one_le_threshold_add_delta h.parse _
  have htotal : (indexed.totalLines : Int) = linesBefore content existing + placement.delta := by
    rw [h.totalLines_eq]
    exact h.length_splitLines
  -- no section is of a companion, so each one is moved
  have hmove : found.map placement.move =
      found.map fun s => s.shifted placement.threshold placement.delta :=
    List.map_congr_left fun s hs => if_neg (hsource s hs)
  have hsections : indexed.sections = orFallback indexed.totalLines (found.map placement.move) :=
    rfl
  have hiff : IsLayout 1 indexed.totalLines indexed.sections ↔
      placement.Fits indexed.totalLines found := by
    have hshifted := isLayout_map_shifted_iff hlayout hlow htotal
    rw [hsections, orFallback, hmove]
    split
    · next hnil =>
      -- a file without sections gets the one that covers it, and no end can be left behind
      rw [hnil] at hshifted
      have hpos : 0 < indexed.totalLines := by
        rw [h.totalLines_eq]
        exact List.length_pos_iff.mpr (Text.splitLines_ne_nil _)
      exact iff_of_true (isLayout_fallback hpos) (hshifted.mp (IsLayout.nil _ _))
    · exact hshifted
  exact ⟨hiff, fun hdelta => hiff.mpr (Placement.fits_of_nonneg hlayout hdelta htotal)⟩

/-- **The table that is written** is laid out in the file that is written if and only if no end of a
section is left behind, and none is if the new block is at least as tall as the one it replaces. The
sections do not come from a companion document. -/
theorem Context.isLayout_of_generate_iff (hload : context.host.loadFile file = .ok content)
    (hparse : Block.parse content = .ok existing)
    (hcompanion : ∀ document, context.host.companionOf file = .ok (some document) →
      document.sections = [])
    {minLines : Option Int} {result : GenerateResult} {new? : Option Text}
    (hgenerate : context.generate file minLines = .ok (result, new?))
    (hsuccess : result.status = .success) :
    ∃ found companion style written block new,
      context.detect file (Text.splitLines content) = .ok (found, companion) ∧
      (Language.ofPath? (Path.ofText file)).bind Language.blockStyle = some style ∧
      Block.serialize written (Text.splitLines new).length style context.now
        (Text.detectNewline content) = .ok block ∧
      new? = some new ∧ new = Block.insert content block existing (Text.detectNewline content) ∧
      let height := Block.height (max found.length 1 : Nat) style
      (IsLayout 1 (Text.splitLines new).length written ↔
        (Placement.of content existing height).Fits (Text.splitLines new).length found) ∧
      ((∀ b ∈ existing, (b.lineCount : Int) ≤ height) →
        IsLayout 1 (Text.splitLines new).length written) := by
  obtain ⟨language, style, found, companion, now, hg, rfl, -⟩ :=
    exists_generated hload hparse hgenerate hsuccess
  obtain ⟨hserialize, hcontent⟩ := hg.serialize_eq
  obtain ⟨hiff, hdown⟩ := hg.isLayout_iff (hg.sections_eq_nil hcompanion)
  rw [hg.totalLines_eq] at hserialize hiff hdown
  refine ⟨found, companion, style, _, _, _, hg.detect, hg.bind_blockStyle_eq, hserialize, rfl,
    hcontent, hiff, ?_⟩
  intro hheight
  refine hdown ?_
  -- a first block moves all lines after it down
  cases existing with
  | none =>
    have hpos := Block.height_pos (max found.length 1) style
    simp only [Placement.of]
    omega
  | some b =>
    have hb := hheight b rfl
    simp only [Placement.of]
    omega

/-- A lower block leaves the end of the section before it behind: it stays on a line where the next
section starts then. -/
theorem Context.not_isLayout_of_generate_of_script :
    let file : Text := "a.py"
    let content : Text :=
      "import os\n# @ai-index\n#\n#\n#\n#\n#\n#\n#\n#\n# @end-ai-index\nclass A(B):\n"
    let context : Context := ⟨⟨⟨[([file], .file (encodeUtf8 content))]⟩, [], "/", []⟩,
      { workspaceRoot := ⟨.root, []⟩ }, ⟨2024, 2, 29, 1, 2, 3, 4, 0⟩⟩
    ∃ result style written block new, context.generate file none = .ok (result, some new) ∧
      result.status = .success ∧
      Block.serialize written (Text.splitLines new).length style context.now ['\n'] = .ok block ∧
      block <:+: new ∧ ¬ IsLayout 1 (Text.splitLines new).length written := by
  intro file content context
  let sections : List Section := [⟨"imports", 1, 11, "External dependencies", .auto⟩,
    ⟨"classes", 12, 12, "Class definitions", .auto⟩]
  let old : Block :=
    { raw := "# @ai-index\n#\n#\n#\n#\n#\n#\n#\n#\n# @end-ai-index"
      style := .hash, start := 10, stop := 53, firstLine := 2, lastLine := 11
      rows := [], generatedAt := none, totalLines := none }
  have hload : context.host.loadFile file = .ok content :=
    Host.loadFile_of_encodeUtf8 [file] (by decide +kernel)
  have hparse : Block.parse content = .ok (some old) := by decide +kernel
  have hcompanion : context.host.companionOf file = .ok none := by decide +kernel
  have hdetect : context.detect file (Text.splitLines content) = .ok (sections, none) := by
    decide +kernel
  have hstyle : (Language.ofPath? (Path.ofText file)).bind Language.blockStyle = some .hash := by
    decide +kernel
  have hnewline : Text.detectNewline content = ['\n'] := by decide +kernel
  -- the first section ends on the last line of the old block, and the second one moves up to it
  have hfits : ∀ total, ¬ (Placement.of content (some old) (Block.height 2 .hash)).Fits total
      sections := by
    intro total hfits
    have hapart := hfits.apart ⟨"imports", 1, 11, "External dependencies", .auto⟩ (by decide)
      ⟨"classes", 12, 12, "Class definitions", .auto⟩ (by decide) (by decide) (by decide)
    exact absurd hapart (by decide)
  have hsuccess : (context.generate file none).toOption.map (·.1.status) = some .success := by
    decide +kernel
  have hlength : sections.length = 2 := rfl
  clear_value sections old context content file
  obtain ⟨⟨result, new?⟩, hgenerate, hsuccess⟩ := Fault.toOption_map_eq_some_iff.mp hsuccess
  have hlacks : ∀ document, context.host.companionOf file = .ok (some document) →
      document.sections = [] := by
    intro document hdocument
    cases hcompanion.symm.trans hdocument
  obtain ⟨found, companion, style, written, block, new, hfound, hstyle', hserialize, rfl, hnew,
    hiff, -⟩ := Context.isLayout_of_generate_iff hload hparse hlacks hgenerate hsuccess
  obtain ⟨rfl, rfl⟩ := Prod.mk.inj (Except.ok.inj (hfound.symm.trans hdetect))
  obtain rfl := Option.some.inj (hstyle'.symm.trans hstyle)
  rw [hlength] at hiff
  rw [hnewline] at hserialize
  refine ⟨result, _, written, block, new, hgenerate, hsuccess, hserialize, ?_,
    mt hiff.mp (hfits _)⟩
  rw [hnew]
  exact ⟨content.take old.start, content.drop old.stop, rfl⟩

end Written

end SectionIndex
