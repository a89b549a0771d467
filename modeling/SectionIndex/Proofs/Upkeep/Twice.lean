import SectionIndex.Proofs.Block.Again
import SectionIndex.Proofs.Upkeep.Inert
import SectionIndex.Proofs.Upkeep.Table

/-!
# Writing an index twice

An index that is written twice in a row is meant to be the same at both times. The second block is
as tall as the first one, so it moves nothing: its rows are the sections that are found in the file
with the first block. These are the sections that were found before, moved with their lines. The
rows of the first block are moved end by end, and there an end on the last line of the old block
stays, although the section goes on to the last line of the new one.

## Main definitions

* `Placement.KeepsEnds` — no section ends on the last line of an old block of another height.

## Main statements

* `Generated.presentSections_again` — the sections that are found with the first block.
* `Generated.exists_again` — the second writing.
* `Generated.sameTable_of_keepsEnds`, `Generated.keepsEnds_of_sameTable` — when the second block is
  the first one.
* `Context.sameTable_of_generate_twice` — when writing an index twice gives the same table.
* `Context.sameTable_of_generate_first` — it does for a first index of detected sections.
-/

namespace SectionIndex

open Text (EndsInside)

/-! ### Ends on the last line of a block -/

/-- **No section ends on the last line of the old block**, unless the new block is as tall. -/
def Placement.KeepsEnds (placement : Placement) (sections : List Section) : Prop :=
  ∀ s ∈ sections, s.last = placement.threshold - 1 → placement.delta = 0

/-- **Sections are moved as they are carried** if and only if their ends are kept. -/
theorem Placement.map_carried_eq_iff (placement : Placement) (sections : List Section) :
    sections.map (Section.carried placement.threshold placement.delta) =
        sections.map (fun s => s.shifted placement.threshold placement.delta) ↔
      placement.KeepsEnds sections := by
  rw [List.map_inj_left]
  refine forall₂_congr fun s _ => ?_
  rw [Section.carried, Section.shifted, Section.mk.injEq]
  simp only [true_and, and_true, Section.shiftLine]
  constructor
  · intro heq hlast
    rw [if_pos (by omega), if_neg (by omega)] at heq
    omega
  · intro hkept
    by_cases hlast : s.last = placement.threshold - 1
    · rw [hkept hlast]
      simp
    · by_cases hlt : placement.threshold ≤ s.last
      · rw [if_pos (by omega), if_pos hlt]
      · rw [if_neg (by omega), if_neg hlt]

/-- Sections that are laid out in a file have numbers that can be written if that of its lines
can. -/
theorem IsLayout.all_isWritable {total : Nat} {sections : List Section}
    (h : IsLayout 1 total sections) (htotal : isWritable (total : Int) = true) :
    (Block.numbers sections total).all isWritable = true := by
  have hle : ∀ m : Int, 0 ≤ m → m ≤ total → isWritable m = true :=
    fun m hm hmt => isWritable_of_le hm hmt htotal
  rw [List.all_eq_true, Block.numbers, List.forall_mem_cons]
  refine ⟨htotal, fun m hm => ?_⟩
  obtain ⟨s, hs, hm⟩ := List.mem_flatMap.mp hm
  obtain ⟨hfirst, hlines, hlast⟩ := h.bounds s hs
  simp only [List.mem_cons, List.not_mem_nil, or_false] at hm
  rcases hm with rfl | rfl | rfl
  · exact hle _ (by omega) (by omega)
  · exact hle _ (by omega) hlast
  · exact hle _ (by rw [Section.size]; omega) (by rw [Section.size]; omega)

/-! ### A block in the place of one of the same height -/

/-- **A block in the place of one of the same height** moves nothing. -/
theorem sections_indexedContent_of_lineCount {content stamp : Text} {b : Block}
    {style : Block.Style} {sections : List Section}
    (hheight : (b.lineCount : Int) = Block.height (max sections.length 1 : Nat) style) :
    (indexedContent content (some b) style sections stamp).sections =
      orFallback (indexedContent content (some b) style sections stamp).totalLines sections := by
  have hmove : sections.map (Placement.of content (some b)
      (Block.height (max sections.length 1 : Nat) style)).move = sections := by
    refine (List.map_congr_left fun s _ => ?_).trans (List.map_id _)
    simp only [Placement.of, Placement.move, hheight, Int.sub_self, Section.shifted_zero, ite_self,
      id]
  simp only [indexedContent, hmove]

namespace Block

variable {content : Text} {b : Block}

variable {style : Style} {newline newline' stamp stamp' : Text} {sections sections' : List Section}
  {totalLines totalLines' : Int}

/-- **A block that is written again** is found in the place of the first one. -/
theorem locate?_replace_render (h : newline.IsLineEnd) (h' : newline'.IsLineEnd)
    (hstamp : IsStamp stamp) (hstamp' : IsStamp stamp')
    (hsections : ∀ s ∈ sections, s.HasTexts ('\n' ∉ ·))
    (hsections' : ∀ s ∈ sections', s.HasTexts ('\n' ∉ ·))
    (htexts : sections'.map (fun s => (s.name, s.description)) =
      sections.map fun s => (s.name, s.description))
    (hparse : parse content = .ok (some b)) (hstyle : b.style = style)
    (hraw : b.raw = render sections totalLines style stamp newline) :
    let block := render sections' totalLines' style stamp' newline'
    locate? (replace content block b) = some (b.start, style, block) := by
  obtain ⟨hlocate, -⟩ := exists_of_parse hparse
  obtain ⟨hinsert, -⟩ := insert_raw newline hparse
  rw [hraw, hstyle] at hlocate
  rw [hraw] at hinsert
  have hclear := (locate?_insert_render_iff h hstamp hsections hparse).mp (hinsert.symm ▸ hlocate)
  refine (locate?_insert_render_iff h' hstamp' hsections' hparse).mpr fun b₀ hb₀ => ?_
  exact (hclear b₀ hb₀).render h h' hstamp hstamp' htexts

end Block

/-- A file with a block in the place of one of the same height has as many lines. -/
theorem totalLines_indexedContent_of_lineCount {context : Context} {file content stamp : Text}
    {b : Block} {style : Block.Style} {sections : List Section} {companion : Option Companion}
    (hparse : Block.parse content = .ok (some b))
    (hdetect : context.detect file (Text.splitLines content) = .ok (sections, companion))
    (hstamp : Block.IsStamp stamp)
    (hheight : (b.lineCount : Int) = Block.height (max sections.length 1 : Nat) style) :
    (indexedContent content (some b) style sections stamp).totalLines =
      (Text.splitLines content).length := by
  let placement := Placement.of content (some b) (Block.height (max sections.length 1 : Nat) style)
  have hcount := Block.count_render style 0 (Text.detectNewline_isLineEnd content) hstamp
    (Context.lineFeed_not_mem_orFallback hdetect placement 1)
  rw [length_orFallback, List.length_map, ← hheight] at hcount
  have hlines := Block.length_splitLines_replace hparse (Block.endsInside_render style
    (orFallback 1 (sections.map placement.move)) 0 stamp (Text.detectNewline content))
  rw [hcount, Int.sub_self, Int.add_zero] at hlines
  exact Int.ofNat_inj.mp hlines

section Written

variable {context : Context} {file content : Text} {language : Language} {style : Block.Style}
  {existing : Option Block} {found : List Section} {companion : Option Companion} {now : Moment}

variable (h : Generated context file content language style existing found companion now)

include h

/-- The sections that are written are those that are found, moved end by end. -/
theorem Generated.sections_eq (hcompanion : ∀ document ∈ companion, document.sections = []) :
    let indexed := indexedContent content existing style found now.stamp
    let placement := Placement.of content existing (Block.height (max found.length 1 : Nat) style)
    indexed.sections = orFallback indexed.totalLines
      (found.map fun s => s.shifted placement.threshold placement.delta) := by
  intro indexed placement
  obtain ⟨hsource, -⟩ := h.isLayout_found hcompanion
  have hmove : found.map placement.move =
      found.map fun s => s.shifted placement.threshold placement.delta :=
    List.map_congr_left fun s hs => if_neg (hsource s hs)
  show orFallback indexed.totalLines (found.map placement.move) = _
  rw [hmove]

/-- **The rows that are read from the block** are the names and lines of the sections in it, if it
keeps all names. -/
theorem Generated.map_rows_eq (hnames : ∀ s ∈ found, Block.KeepsName style s.name)
    (hne : found ≠ [])
    (hbounds : ∀ s ∈ (indexedContent content existing style found now.stamp).sections,
      0 ≤ s.first ∧ 0 ≤ s.last)
    {rows : List Block.Row} (hrows : Block.parseRows style []
      (Text.breakLines (indexedBlock content existing style found now.stamp)) = .ok rows) :
    rows.map (fun row => (row.name, row.first, row.last)) =
      (indexedContent content existing style found now.stamp).sections.map fun s =>
        (s.name, s.first, s.last) := by
  have hstamp := h.isStamp
  obtain ⟨-, hwritable⟩ := h.isWritable_numbers
  -- no two sections have one name, so no row takes the place of another
  have hnodup : (found.map Section.name).Nodup := by
    rw [h.found_eq_presentSections]
    exact Section.nodup_uniqueNames _
  have hkept : ∀ s ∈ (indexedContent content existing style found now.stamp).sections,
      Block.KeepsName style s.name := by
    intro s hs
    have hmoved : s ∈ found.map (Placement.of content existing
        (Block.height (max found.length 1 : Nat) style)).move := by
      rwa [indexedContent, orFallback, if_neg (List.map_eq_nil_iff.not.mpr hne)] at hs
    obtain ⟨s₀, hs₀, rfl⟩ := List.mem_map.mp hmoved
    rw [Placement.move_name]
    exact hnames s₀ hs₀
  obtain ⟨rows', hrows', hmap⟩ := Block.exists_parseRows_of_keepsName
    (indexedContent content existing style found now.stamp).totalLines
    (Text.detectNewline_isLineEnd content) hstamp (nodup_indexedContent hnodup)
    fun s hs => ⟨hkept s hs, hwritable s hs, hbounds s hs⟩
  obtain rfl := Except.ok.inj (hrows'.symm.trans hrows)
  exact hmap

/-! ### The file with the first block -/

variable {b : Block} (hsettled : Block.IsSettled language style content existing
  (indexedBlock content existing style found now.stamp)
  (indexedContent content existing style found now.stamp).content b)

include hsettled

/-- The block that is found is as tall as it was planned. -/
theorem Generated.lineCount_eq :
    (b.lineCount : Int) = Block.height (max found.length 1 : Nat) style := by
  rw [Block.lineCount_of_parse hsettled.parse_eq, hsettled.raw_eq, ← h.count_indexedBlock]
  push_cast
  rfl

/-- **The sections that are found with the first block** are those that were found before, carried
with their lines. -/
theorem Generated.presentSections_again
    (hcompanion : ∀ document ∈ companion, document.sections = []) :
    let placement := Placement.of content existing (Block.height (max found.length 1 : Nat) style)
    presentSections (chooseSections.scanned (some language) (Text.splitLines
        (indexedContent content existing style found now.stamp).content)) =
      found.map (Section.carried placement.threshold placement.delta) := by
  intro placement
  have hempty := Language.ignores_nil (Language.mem_all_of_ofPath? h.language_eq) h.style_eq
  have hends : EndsInside (indexedBlock content existing style found now.stamp) :=
    Block.endsInside_render _ _ _ _ _
  obtain ⟨-, hcontent⟩ := h.serialize_eq
  have hfound := h.found_eq_presentSections
  rw [chooseSections_of_forall _ _ hcompanion] at hfound
  have hscanned := scanned_insert hempty h.parse (Text.detectNewline_isLineEnd content) hends
    (hcontent ▸ hsettled)
  rw [h.count_indexedBlock, ← hcontent] at hscanned
  rw [hscanned, presentSections_carried, ← hfound]

/-- **The second writing** goes through: it finds the block of the first one, and the sections that
were found before, carried with their lines. -/
theorem Generated.exists_again (hcompanion : ∀ document ∈ companion, document.sections = [])
    (settings : Settings) {later : Moment} (hlater : later.utc? ≠ none)
    (hlacks : (context.host.overwrite (Path.ofText file)
      (indexedContent content existing style found now.stamp).content).LacksRows file) :
    let placement := Placement.of content existing (Block.height (max found.length 1 : Nat) style)
    let new := (indexedContent content existing style found now.stamp).content
    ∃ companion' moment,
      Generated ⟨context.host.overwrite (Path.ofText file) new, settings, later⟩ file new language
          style (some b) (found.map (Section.carried placement.threshold placement.delta))
          companion' moment ∧
        ∀ document ∈ companion', document.sections = [] := by
  intro placement new
  obtain ⟨moment, hmoment⟩ := Option.ne_none_iff_exists'.mp hlater
  obtain ⟨companion', hdocument, hnorows⟩ := hlacks
  -- the second scan finds the sections that were carried, as the block means nothing to it
  have hagain : presentSections (chooseSections.scanned (some language) (Text.splitLines new)) =
      found.map (Section.carried placement.threshold placement.delta) :=
    h.presentSections_again hsettled hcompanion
  let after : Context := ⟨context.host.overwrite (Path.ofText file) new, settings, later⟩
  have hdetect : after.detect file (Text.splitLines new) =
      .ok (found.map (Section.carried placement.threshold placement.delta), companion') := by
    refine Context.detect_eq_ok_iff.mpr ⟨hdocument, ?_⟩
    rw [chooseSections_of_forall _ _ hnorows, h.language_eq]
    exact hagain.symm
  have hclock : after.utcNow = .ok moment := Context.utcNow_eq_ok_iff.mpr hmoment
  have hstamp := Context.isStamp_of_utcNow hclock
  refine ⟨companion', moment, ?_, hnorows⟩
  -- as many sections make a block of the same height
  have hlength : (found.map (Section.carried placement.threshold placement.delta)).length =
      found.length := List.length_map _
  have hheight : (b.lineCount : Int) = Block.height (max (found.map
      (Section.carried placement.threshold placement.delta)).length 1 : Nat) style := by
    rw [hlength]
    exact h.lineCount_eq hsettled
  generalize found.map (Section.carried placement.threshold placement.delta) = sections at *
  refine ⟨Host.loadFile_overwrite new h.load, h.language_eq, h.style_eq, hsettled.parse_eq, hdetect,
    hclock, ?_⟩
  -- all numbers are those of lines of the file, and the number of its lines was written before
  have htotal := totalLines_indexedContent_of_lineCount hsettled.parse_eq hdetect hstamp hheight
  have hwritable : isWritable ((Text.splitLines new).length : Int) = true := by
    obtain ⟨hwritable, -⟩ := h.isWritable_numbers
    rw [h.totalLines_eq] at hwritable
    exact hwritable
  have hlayout : IsLayout 1 (Text.splitLines new).length
      (orFallback (Text.splitLines new).length sections) := by
    unfold orFallback
    split
    · exact isLayout_fallback (List.length_pos_iff.mpr (Text.splitLines_ne_nil new))
    · refine (Context.isMap_of_detect hdetect).layout fun s hs => ?_
      rw [← hagain] at hs
      obtain ⟨s₀, hs₀, -, -, heq⟩ := exists_of_mem_presentSections hs
      exact heq ▸ source_of_mem_scanned hs₀
  rw [Block.checkNumbers_eq_ok_iff, sections_indexedContent_of_lineCount hheight, htotal]
  exact hlayout.all_isWritable hwritable

/-! ### The second block -/

section Again

variable {after : Context} {companion' : Option Companion} {moment : Moment}

/-- **The sections of the second block** are those that are found with the first one. -/
theorem Generated.sections_again :
    let placement := Placement.of content existing (Block.height (max found.length 1 : Nat) style)
    let indexed := indexedContent content existing style found now.stamp
    let sections := found.map (Section.carried placement.threshold placement.delta)
    Generated after file indexed.content language style (some b) sections companion' moment →
      let indexed' := indexedContent indexed.content (some b) style sections moment.stamp
      indexed'.totalLines = indexed.totalLines ∧
        indexed'.sections = orFallback indexed.totalLines sections := by
  intro placement indexed sections h' indexed'
  have hstamp := h'.isStamp
  have hheight : (b.lineCount : Int) = Block.height (max sections.length 1 : Nat) style := by
    rw [List.length_map]
    exact h.lineCount_eq hsettled
  have htotal : indexed'.totalLines = indexed.totalLines := by
    rw [h.totalLines_eq]
    exact totalLines_indexedContent_of_lineCount hsettled.parse_eq h'.detect hstamp hheight
  refine ⟨htotal, ?_⟩
  rw [← htotal]
  exact sections_indexedContent_of_lineCount hheight

/-- **The second block is found** where the first one was, whatever is in its rows. -/
theorem Generated.locate?_again (hcompanion : ∀ document ∈ companion, document.sections = []) :
    let placement := Placement.of content existing (Block.height (max found.length 1 : Nat) style)
    let new := (indexedContent content existing style found now.stamp).content
    let sections := found.map (Section.carried placement.threshold placement.delta)
    Generated after file new language style (some b) sections companion' moment →
      Block.locate? (indexedContent new (some b) style sections moment.stamp).content =
        some (b.start, style, indexedBlock new (some b) style sections moment.stamp) := by
  intro placement new sections h'
  have hstamp := h.isStamp
  have hstamp' := h'.isStamp
  obtain ⟨-, hsecond⟩ := h.sections_again hsettled h'
  have hfirst := h.sections_eq hcompanion
  -- both blocks hold the same names and descriptions
  have htexts : (indexedContent new (some b) style sections moment.stamp).sections.map
        (fun s => (s.name, s.description)) =
      (indexedContent content existing style found now.stamp).sections.map
        fun s => (s.name, s.description) := by
    rw [hsecond, hfirst, orFallback, orFallback]
    simp only [List.map_eq_nil_iff]
    split
    · rfl
    · rw [List.map_map, List.map_map]
      rfl
  exact Block.locate?_replace_render (Text.detectNewline_isLineEnd content)
    (Text.detectNewline_isLineEnd new) hstamp hstamp' (h.lineFeed_not_mem _)
    (h'.lineFeed_not_mem _) htexts hsettled.parse_eq hsettled.style_eq hsettled.raw_eq

/-- **The second block is the first one** if all ends are kept. -/
theorem Generated.sameTable_of_keepsEnds
    (hcompanion : ∀ document ∈ companion, document.sections = []) :
    let placement := Placement.of content existing (Block.height (max found.length 1 : Nat) style)
    let new := (indexedContent content existing style found now.stamp).content
    let sections := found.map (Section.carried placement.threshold placement.delta)
    Generated after file new language style (some b) sections companion' moment →
      placement.KeepsEnds found →
      Block.SameTable new (indexedContent new (some b) style sections moment.stamp).content := by
  intro placement new sections h' hkept
  have hnewline := Text.detectNewline_isLineEnd content
  have hnewline' := Text.detectNewline_isLineEnd new
  have hstamp := h.isStamp
  have hstamp' := h'.isStamp
  have hlocate := h.locate?_again hsettled hcompanion h'
  obtain ⟨-, hsecond⟩ := h.sections_again hsettled h'
  -- sections that keep their ends are carried to where they were moved
  have hsame : (indexedContent new (some b) style sections moment.stamp).sections =
      (indexedContent content existing style found now.stamp).sections := by
    rw [hsecond, h.sections_eq hcompanion]
    exact congrArg _ ((placement.map_carried_eq_iff found).mpr hkept)
  -- the rows do not depend on the stamp or on how lines end
  have hread : Block.parseRows style []
      (Text.breakLines (indexedBlock new (some b) style sections moment.stamp)) = .ok b.rows := by
    rw [indexedBlock, hsame, ← hsettled.parseRows_eq]
    exact Block.parseRows_render_eq style _ _ _ hnewline hnewline' hstamp hstamp'
  obtain ⟨-, hcontent⟩ := h'.serialize_eq
  obtain ⟨hwritable, -⟩ := h'.isWritable_numbers
  obtain ⟨b', hb', -⟩ := (Block.isFoundAt_render_iff hnewline' hstamp' (Int.natCast_nonneg _)
    hwritable).mpr ⟨hlocate, b.rows, hread⟩
  obtain ⟨hstart, hstop, -, hread'⟩ := Block.parse_eq_some hlocate hb'
  obtain ⟨htake, hdrop⟩ := Block.take_drop_replace
    (indexedBlock new (some b) style sections moment.stamp) hsettled.parse_eq
  refine ⟨b, b', hsettled.parse_eq, hb', Except.ok.inj (hread'.symm.trans hread), ?_, ?_⟩
  · rw [hstart, hcontent]
    exact htake
  · rw [hstop, hcontent]
    exact hdrop

/-- **All ends are kept if the second block is the first one**, and it keeps all names. -/
theorem Generated.keepsEnds_of_sameTable
    (hcompanion : ∀ document ∈ companion, document.sections = [])
    (hnames : ∀ s ∈ found, Block.KeepsName style s.name) :
    let placement := Placement.of content existing (Block.height (max found.length 1 : Nat) style)
    let new := (indexedContent content existing style found now.stamp).content
    let sections := found.map (Section.carried placement.threshold placement.delta)
    Generated after file new language style (some b) sections companion' moment →
      (∀ document ∈ companion', document.sections = []) →
      Block.SameTable new (indexedContent new (some b) style sections moment.stamp).content →
      placement.KeepsEnds found := by
  rintro placement new sections h' hcompanion' ⟨b₁, b', hb₁, hb', hrows, -⟩
  obtain rfl : b = b₁ := Option.some.inj (Except.ok.inj (hsettled.parse_eq.symm.trans hb₁))
  -- without sections there is no end to keep
  by_cases hnone : found = []
  · rw [hnone]
    exact List.forall_mem_nil _
  obtain ⟨-, hlayout⟩ := h.isLayout_found hcompanion
  obtain ⟨-, hlayout'⟩ := h'.isLayout_found hcompanion'
  have hlow : 1 ≤ placement.threshold + placement.delta :=
    Placement.one_le_threshold_add_delta h.parse _
  -- the rows of the first block are the sections that were moved end by end
  have hfirst : b.rows.map (fun row => (row.name, row.first, row.last)) =
      (found.map fun s => s.shifted placement.threshold placement.delta).map
        fun s => (s.name, s.first, s.last) := by
    have hwritten : (indexedContent content existing style found now.stamp).sections =
        found.map fun s => s.shifted placement.threshold placement.delta := by
      rw [h.sections_eq hcompanion, orFallback, if_neg (List.map_eq_nil_iff.not.mpr hnone)]
    rw [← hwritten]
    refine h.map_rows_eq hnames hnone ?_ (hsettled.parseRows_eq)
    rw [hwritten, List.forall_mem_map]
    intro s hs
    obtain ⟨hstart, hlines, -⟩ := hlayout.bounds s hs
    simp only [Section.shifted, Section.shiftLine]
    constructor <;> split <;> omega
  -- the rows of the second block are the sections that were carried
  have hsecond : b'.rows.map (fun row => (row.name, row.first, row.last)) =
      sections.map fun s => (s.name, s.first, s.last) := by
    have hne : sections ≠ [] := List.map_eq_nil_iff.not.mpr hnone
    have hwritten : (indexedContent new (some b) style sections moment.stamp).sections =
        sections := by
      rw [(h.sections_again hsettled h').2, orFallback, if_neg hne]
    obtain ⟨-, -, -, hread⟩ := Block.parse_eq_some (h.locate?_again hsettled hcompanion h') hb'
    have hmap := h'.map_rows_eq (List.forall_mem_map.mpr hnames) hne
      (fun s hs => ?_) hread
    · rwa [hwritten] at hmap
    · rw [hwritten] at hs
      obtain ⟨hstart, hlines, -⟩ := hlayout'.bounds s hs
      omega
  -- rows that are the same have the same ends
  rw [← hrows, hsecond, List.map_map, List.map_map, List.map_inj_left] at hfirst
  refine (placement.map_carried_eq_iff found).mp (List.map_inj_left.mpr fun s hs => ?_)
  obtain ⟨-, hlines⟩ := Prod.mk.inj (hfirst s hs)
  obtain ⟨-, hlast⟩ := Prod.mk.inj hlines
  rw [Section.carried, Section.shifted, Section.mk.injEq]
  exact ⟨rfl, rfl, hlast, rfl, rfl⟩

end Again

/-- **The index is written again:** the second writing succeeds and replaces the block, and the
table is the same if all ends are kept; and if the block keeps all names, only then. -/
theorem Generated.exists_generate_again
    (hcompanion : ∀ document ∈ companion, document.sections = []) (settings : Settings)
    {later : Moment} (hlater : later.utc? ≠ none) (limit : Option Int) :
    let new := (indexedContent content existing style found now.stamp).content
    let after : Context := ⟨context.host.overwrite (Path.ofText file) new, settings, later⟩
    let placement := Placement.of content existing (Block.height (max found.length 1 : Nat) style)
    after.host.LacksRows file →
    ¬ (limit.getD settings.minLines ≠ 0 ∧
      ((Text.splitLines new).length : Int) < limit.getD settings.minLines) →
    ∃ result' new', after.generate file limit = .ok (result', some new') ∧
      result'.status = .success ∧ result'.action = some .updated ∧
      (placement.KeepsEnds found → Block.SameTable new new') ∧
      ((∀ s ∈ found, Block.KeepsName style s.name) → Block.SameTable new new' →
        placement.KeepsEnds found) := by
  intro new after placement hlacks hlimit
  obtain ⟨companion', moment, h', hcompanion'⟩ :=
    h.exists_again hsettled hcompanion settings hlater hlacks
  obtain ⟨result', hagain, hsuccess, haction⟩ := h'.generate_eq hlimit
  exact ⟨result', _, hagain, hsuccess, haction, h.sameTable_of_keepsEnds hsettled hcompanion h',
    fun hnames => h.keepsEnds_of_sameTable hsettled hcompanion hnames h' hcompanion'⟩

end Written

/-- **Writing an index twice in a row.** If the block that was written is found and means nothing in
the file, and the file is not below the limit, the second writing succeeds and replaces the block.
The table is the same, in the same text, if all ends are kept; and if the block keeps all names,
only then. The file has no companion document with sections. -/
theorem Context.sameTable_of_generate_twice {context : Context} {file content : Text}
    {existing : Option Block} (hload : context.host.loadFile file = .ok content)
    (hparse : Block.parse content = .ok existing) (hlacks : context.host.LacksRows file)
    {minLines : Option Int} {result : GenerateResult} {new? : Option Text}
    (hgenerate : context.generate file minLines = .ok (result, new?))
    (hsuccess : result.status = .success) :
    ∃ found companion language style written block new,
      context.detect file (Text.splitLines content) = .ok (found, companion) ∧
      Language.ofPath? (Path.ofText file) = some language ∧ language.blockStyle = some style ∧
      Block.serialize written (Text.splitLines new).length style context.now
        (Text.detectNewline content) = .ok block ∧
      new? = some new ∧ new = Block.insert content block existing (Text.detectNewline content) ∧
      ∀ settings later (limit : Option Int) b, Moment.utc? later ≠ none →
        let after : Context := ⟨context.host.overwrite (Path.ofText file) new, settings, later⟩
        let placement :=
          Placement.of content existing (Block.height (max found.length 1 : Nat) style)
        after.host.LacksRows file →
        ¬ (limit.getD settings.minLines ≠ 0 ∧
          ((Text.splitLines new).length : Int) < limit.getD settings.minLines) →
        Block.IsSettled language style content existing block new b →
        ∃ result' new', after.generate file limit = .ok (result', some new') ∧
          result'.status = .success ∧ result'.action = some .updated ∧
          (placement.KeepsEnds found → Block.SameTable new new') ∧
          ((∀ s ∈ found, Block.KeepsName style s.name) → Block.SameTable new new' →
            placement.KeepsEnds found) := by
  obtain ⟨language, style, found, companion, now, hg, rfl, -⟩ :=
    exists_generated hload hparse hgenerate hsuccess
  obtain ⟨hserialize, hcontent⟩ := hg.serialize_eq
  rw [hg.totalLines_eq] at hserialize
  have hcompanion := hg.sections_eq_nil_of_lacksRows hlacks
  refine ⟨found, companion, language, style, _, _, _, hg.detect, hg.language_eq, hg.style_eq,
    hserialize, rfl, hcontent, ?_⟩
  intro settings later limit b hlater after placement hlacks' hlimit hsettled
  exact hg.exists_generate_again hsettled hcompanion settings hlater limit hlacks' hlimit

/-- The imports before a short block end on its last line, and this end stays when the first writing
makes the block longer. The second writing finds the imports up to the last line of the longer
block. -/
theorem Context.not_sameTable_of_generate_of_script :
    let file : Text := "a.py"
    let content : Text := "import os\n# @ai-index\n# @end-ai-index\nclass A(B):\n"
    let context : Context := ⟨⟨⟨[([file], .file (encodeUtf8 content))]⟩, [], "/", []⟩,
      { workspaceRoot := ⟨.root, []⟩ }, ⟨2024, 2, 29, 1, 2, 3, 4, 0⟩⟩
    ∃ result new result' new', context.generate file none = .ok (result, some new) ∧
      result.status = .success ∧
      (⟨context.host.overwrite (Path.ofText file) new, context.settings, context.now⟩ :
        Context).generate file none = .ok (result', some new') ∧
      result'.status = .success ∧ ¬ Block.SameTable new new' := by
  intro file content context
  let found : List Section := [⟨"imports", 1, 3, "External dependencies", .auto⟩,
    ⟨"classes", 4, 4, "Class definitions", .auto⟩]
  let old : Block :=
    { raw := "# @ai-index\n# @end-ai-index"
      style := .hash, start := 10, stop := 37, firstLine := 2, lastLine := 3
      rows := [], generatedAt := none, totalLines := none }
  have hload : context.host.loadFile file = .ok content :=
    Host.loadFile_of_encodeUtf8 [file] (by decide +kernel)
  have hparse : Block.parse content = .ok (some old) := by decide +kernel
  have hlocate : context.host.locateCompanion file = .ok none := by decide +kernel
  have hcompanion : context.host.companionOf file = .ok none := by decide +kernel
  have hdetect : context.detect file (Text.splitLines content) = .ok (found, none) := by
    decide +kernel
  have hlanguage : Language.ofPath? (Path.ofText file) = some .python := by decide +kernel
  have hstyle : Language.python.blockStyle = some .hash := rfl
  have hmarks : scanExplicit (some .python) (Text.splitLines content) = [] := by decide +kernel
  -- the old block is whole lines that mean nothing, and nothing around it hides the new one
  have hstart : Block.startsLine (content.take old.start) = true := by decide +kernel
  have hafter : Text.EndsLine (content.drop old.stop) :=
    Or.inr ⟨['\n'], "class A(B):\n", Or.inl rfl, by decide +kernel⟩
  have hwhole : Block.InWholeLines content old := ⟨hstart, hafter⟩
  have hclear : ∀ block, Block.IsClear .hash (content.take old.start) block
      (content.drop old.stop) := fun block =>
    ⟨hstart, Or.inl hafter, Block.not_opensLines_of_not_mem (by decide +kernel),
      fun hopens => absurd hopens (Block.not_opensComment_of_not_mem (by decide +kernel))⟩
  have hold : ∀ line ∈ Text.splitLines old.raw, Language.python.Ignores line := by
    have hlines : ∀ line ∈ Text.splitLines old.raw, Language.python.markOf line = .plain ∧
        Language.python.detect? (Text.dropReturns line) = none := by
      decide +kernel
    exact fun line hline => ⟨(hlines line hline).1, (hlines line hline).2⟩
  have hnames : ∀ s ∈ found, Block.KeepsName .hash s.name := by
    have hcells : ∀ s ∈ found, s.name ≠ [] ∧ s.name ≠ Block.nameHeading ∧
        isSeparatorCell s.name = false ∧ s.name.strip = s.name ∧ s.name.IsUnbroken := by
      decide +kernel
    intro s hs
    obtain ⟨hnil, hheading, hdashes, hstrip, hunbroken⟩ := hcells s hs
    have hnot : ¬ IsDashes s.name := by
      rw [← isSeparatorCell_iff, hdashes]
      exact Bool.false_ne_true
    exact ⟨hnil, hheading, hnot, ⟨hstrip, hunbroken, nofun⟩⟩
  -- the imports end on the last line of the old block, and the new one is longer
  have hends : ¬ (Placement.of content (some old) (Block.height 2 .hash)).KeepsEnds found := by
    intro hkept
    exact absurd (hkept _ List.mem_cons_self rfl) (by decide)
  have hsuccess : (context.generate file none).toOption.map (·.1.status) = some .success := by
    decide +kernel
  have hlimit : context.settings.minLines = 0 := rfl
  have hclock : context.now.utc? ≠ none := by decide +kernel
  have hlacks : context.host.LacksRows file := ⟨none, hcompanion, nofun⟩
  have hlength : found.length = 2 := rfl
  clear_value found old context content file
  obtain ⟨⟨result, new?⟩, hgenerate, hsuccess⟩ := Fault.toOption_map_eq_some_iff.mp hsuccess
  -- the block of detected sections is found again and means nothing
  obtain ⟨language, style, found', companion, now, hg, hnew?, -⟩ :=
    exists_generated hload hparse hgenerate hsuccess
  obtain ⟨rfl, rfl⟩ := Prod.mk.inj (Except.ok.inj (hdetect.symm.trans hg.detect))
  obtain rfl := Option.some.inj (hg.language_eq.symm.trans hlanguage)
  obtain rfl := Option.some.inj (hg.style_eq.symm.trans hstyle)
  obtain ⟨b, hsettled⟩ := hg.exists_isSettled_of_auto nofun hmarks
    (fun b hb => Option.some.inj hb ▸ hwhole) (fun b hb => Option.some.inj hb ▸ hclear _)
    fun b hb => Option.some.inj hb ▸ hold
  obtain ⟨-, hcontent⟩ := hg.serialize_eq
  obtain ⟨_, _, _, _, written, block, new, hfound, hlanguage', hstyle', -, rfl, hnew, htwice⟩ :=
    Context.sameTable_of_generate_twice hload hparse hlacks hgenerate hsuccess
  obtain ⟨rfl, rfl⟩ := Prod.mk.inj (Except.ok.inj (hdetect.symm.trans hfound))
  obtain rfl := Option.some.inj (hlanguage'.symm.trans hlanguage)
  obtain rfl := Option.some.inj (hstyle'.symm.trans hstyle)
  obtain rfl := Option.some.inj hnew?
  obtain rfl : block = indexedBlock content (some old) .hash found now.stamp :=
    Block.insert_inj (hnew.symm.trans hcontent)
  obtain ⟨result', new', hagain, hsuccess', -, -, honly⟩ := htwice context.settings context.now
    none b hclock (Host.lacksRows_overwrite hlocate _ _) (fun hbelow => hbelow.1 hlimit) hsettled
  rw [hlength] at honly
  exact ⟨result, _, result', new', hgenerate, hsuccess, hagain, hsuccess',
    fun hsame => hends (honly hnames hsame)⟩

/-- **A first index of detected sections** is the same when it is written again. The file names no
interpreter on its first line, and it has no companion document with sections. -/
theorem Context.sameTable_of_generate_first {context : Context} {file content : Text}
    (hload : context.host.loadFile file = .ok content) (hparse : Block.parse content = .ok none)
    (hlacks : context.host.LacksRows file) (hinterpreter : ¬ ['#', '!'] <+: content)
    (hmarks : scanExplicit (Language.ofPath? (Path.ofText file)) (Text.splitLines content) = [])
    {minLines : Option Int} {result : GenerateResult} {new? : Option Text}
    (hgenerate : context.generate file minLines = .ok (result, new?))
    (hsuccess : result.status = .success) :
    ∃ new, new? = some new ∧ ∀ later, Moment.utc? later ≠ none →
      ∃ result' new', (⟨context.host.overwrite (Path.ofText file) new, context.settings, later⟩ :
          Context).generate file minLines = .ok (result', some new') ∧
        result'.status = .success ∧ result'.action = some .updated ∧ Block.SameTable new new' := by
  obtain ⟨language, style, found, companion, now, h, rfl, -⟩ :=
    exists_generated hload hparse hgenerate hsuccess
  rw [h.language_eq] at hmarks
  have hcompanion := h.sections_eq_nil_of_lacksRows hlacks
  refine ⟨_, rfl, fun later hlater => ?_⟩
  obtain ⟨b, hsettled⟩ := h.exists_isSettled_of_auto hcompanion hmarks nofun nofun nofun
  -- the file has grown, so it is not below the limit now
  have hlimit := not_below_of_success hload hgenerate hsuccess
  have hgrown := h.length_splitLines_le
  obtain ⟨result', new', hagain, hsuccess', haction, hsame, -⟩ := h.exists_generate_again hsettled
    hcompanion context.settings hlater minLines (h.lacksRows_of_auto hcompanion hmarks)
    fun hbelow => hlimit ⟨hbelow.1, Int.lt_of_le_of_lt (Int.ofNat_le.mpr hgrown) hbelow.2⟩
  refine ⟨result', new', hagain, hsuccess', haction, hsame fun s hs hlast => ?_⟩
  -- the block is put before the first line, and no section ends there
  have hline : Block.insertionLine content = 1 := if_pos (Block.interpreterLine_eq_nil hinterpreter)
  obtain ⟨-, hlayout⟩ := h.isLayout_found hcompanion
  obtain ⟨hfirst, hlines, -⟩ := hlayout.bounds s hs
  simp only [Placement.of, hline] at hlast
  omega

end SectionIndex
