import SectionIndex.Proofs.Indexing.Source
import SectionIndex.Proofs.Scan.BlockLines
import SectionIndex.Proofs.Upkeep.Generate
import SectionIndex.Proofs.Upkeep.Insertion

/-!
# The first index of a file

An index that is written into a file without one is true of the file it lands in: the rows of the
block are the sections of the file as it is then. The numbers in the block are computed before the
block is there, and they are those that are found when it is.

## Main definitions

* `Section.IsPlain` — a section whose texts stay what they are in a comment.

## Main statements

* `Context.rows_eq_of_generate` — a first index is true of its file.
-/

namespace SectionIndex

open Text (IsLineEnd)

/-- **A section whose texts stay what they are** in a comment of a style: its name is no heading,
its texts stay in their lines, and in a documentation comment nothing in them looks like an escaped
end of it or like the sign of a line comment. -/
structure Section.IsPlain (style : Block.Style) (s : Section) : Prop where
  name_ne_nil : s.name ≠ []
  name_ne_heading : s.name ≠ Block.nameHeading
  name_not_dashes : ¬ IsDashes s.name
  unbroken : s.HasTexts Text.IsUnbroken
  escapable : s.HasTexts (Block.IsEscapable style)
  no_slashes : style = .jsdoc → s.HasTexts fun t => ¬ ['/', '/'] <:+: t

/-! ### Lines and sections of a first index -/

section Content

variable {content stamp newline : Text} {style : Block.Style} {sections : List Section}

theorem length_orFallback (totalLines : Nat) (sections : List Section) :
    (orFallback totalLines sections).length = max sections.length 1 := by
  unfold orFallback
  split
  · next hnil => rw [hnil]; rfl
  · next hne =>
    have hpos : 0 < sections.length := List.length_pos_iff.mpr hne
    omega

/-- The number of lines of a block and the empty line after it. -/
theorem length_blockLines_add_one (totalLines : Int) :
    ((Block.blockLines style (Block.bodyLines style sections totalLines stamp)).length : Int) + 1 =
      Block.height sections.length style + 1 := by
  rw [Block.length_blockLines]

theorem blockLines_ne_nil (style : Block.Style) (body : List Text) :
    Block.blockLines style body ≠ [] := by
  cases style <;> simp [Block.blockLines]

/-- **The lines of a file with a new block** are as many whatever is in the rows of the block. -/
theorem length_splitLines_insertNew_render (h : newline.IsLineEnd) (hstamp : Block.IsStamp stamp)
    {sections' : List Section} (hsections : ∀ s ∈ sections, s.HasTexts Text.IsUnbroken)
    (hsections' : ∀ s ∈ sections', s.HasTexts Text.IsUnbroken)
    (hlength : sections'.length = sections.length) (totalLines totalLines' : Int) :
    (Text.splitLines (Block.insertNew content
        (Block.render sections' totalLines' style stamp newline) newline)).length =
      (Text.splitLines (Block.insertNew content
        (Block.render sections totalLines style stamp newline) newline)).length := by
  -- the number of lines depends on the number of rows alone
  have hlines : ∀ ss n, (∀ s ∈ ss, s.HasTexts Text.IsUnbroken) →
      ((Text.splitLines (Block.insertNew content (Block.render ss n style stamp newline)
        newline)).length : Int) = (Block.headLines content).length +
          (Block.height ss.length style + 1) + (Text.restLines (Block.bodyOf content)).length := by
    intro ss n hss
    have hsplit := Block.splitLines_insertNew content h
      (blockLines_ne_nil style (Block.bodyLines style ss n stamp))
      (Block.isUnbroken_of_mem_blockLines hstamp hss)
    rw [Block.render, hsplit]
    simp only [List.length_append, List.length_singleton]
    push_cast
    rw [length_blockLines_add_one]
  have hleft := hlines sections' totalLines' hsections'
  have hright := hlines sections totalLines hsections
  rw [hlength] at hleft
  omega

end Content

/-! ### What is in the block -/

section Block

variable {content stamp : Text} {style : Block.Style} {existing : Option Block}
  {sections : List Section} {language : Language}

theorem isPlain_fallback (style : Block.Style) (totalLines : Int) :
    (Section.fallback totalLines).IsPlain style := by
  have hdashes : ¬ IsDashes Section.fallbackName := by
    rw [← isSeparatorCell_iff]
    decide
  have htexts : ∀ t ∈ [Section.fallbackName, Section.fallbackDescription],
      t.IsUnbroken ∧ ¬ Block.escapedClosing <:+: t ∧ ¬ ['/', '/'] <:+: t := by
    decide +kernel
  simp only [List.forall_mem_cons] at htexts
  obtain ⟨hname, hdescription, -⟩ := htexts
  exact
    { name_ne_nil := (by decide : Section.fallbackName ≠ [])
      name_ne_heading := (by decide : Section.fallbackName ≠ Block.nameHeading)
      name_not_dashes := hdashes
      unbroken := ⟨hname.1, hdescription.1⟩
      escapable := ⟨fun _ => hname.2.1, fun _ => hdescription.2.1⟩
      no_slashes := fun _ => ⟨hname.2.2, hdescription.2.2⟩ }

/-- The sections in a block are plain if those that were found are. -/
theorem isPlain_of_mem_indexedContent (h : ∀ s ∈ sections, s.IsPlain style) :
    ∀ s ∈ (indexedContent content existing style sections stamp).sections, s.IsPlain style := by
  intro s hs
  simp only [indexedContent, orFallback] at hs
  split at hs
  · rw [List.mem_singleton.mp hs]
    exact isPlain_fallback style _
  · obtain ⟨s₀, hs₀, rfl⟩ := List.mem_map.mp hs
    obtain ⟨hnil, hheading, hdashes, hunbroken, hescapable, hslashes⟩ := h s₀ hs₀
    unfold Placement.move
    split
    · exact h s₀ hs₀
    · exact ⟨hnil, hheading, hdashes, hunbroken, hescapable, hslashes⟩

/-- The names in a block are those of the sections that were found. -/
theorem nodup_indexedContent (h : (sections.map Section.name).Nodup) :
    ((indexedContent content existing style sections stamp).sections.map Section.name).Nodup := by
  simp only [indexedContent, orFallback]
  split
  · exact List.nodup_singleton _
  · rw [List.map_map]
    -- a section keeps its name when it is moved
    have hname : Section.name ∘ (Placement.of content existing
        (Block.height (max sections.length 1 : Nat) style)).move = Section.name :=
      funext fun s => Placement.move_name _ s
    rw [hname]
    exact h

end Block

/-! ### What stands in the file -/

/-- A line with nothing in it means nothing in a language that has blocks. -/
theorem Language.ignores_nil {language : Language} {style : Block.Style}
    (hlanguage : language ∈ Language.all) (hstyle : language.blockStyle = some style) :
    language.Ignores [] where
  markOf_eq := by
    obtain ⟨hstart, hend⟩ := Language.findIn_region_of_isFrameLine hlanguage hstyle (.empty style)
    refine Language.markOf_eq_plain rfl hstart hend ?_
    by_contra hfind
    obtain ⟨-, hslashes⟩ :=
      Language.slashes_infix_of_findIn_sectionMarker hlanguage hstyle (.empty style) hfind
    exact List.cons_ne_nil _ _ (List.infix_nil.mp hslashes)
  detect?_eq := by
    refine Language.detect?_eq_none fun d hd haccepts => ?_
    obtain ⟨-, hcreate⟩ :=
      Language.create_infix_of_accepts hlanguage hstyle (.empty style) hd haccepts
    exact List.cons_ne_nil _ _ (List.infix_nil.mp hcreate)

/-- **A file that gets its first index:** its language, the comment style, and the sections that are
found in it. -/
structure IsFirst (content : Text) (language : Language) (style : Block.Style)
    (sections : List Section) : Prop where
  language_mem : language ∈ Language.all
  style_eq : language.blockStyle = some style
  head : ∀ line ∈ Block.headLines content, language.Ignores line
  sections_eq : sections =
    presentSections (chooseSections.scanned (some language) (Text.splitLines content))
  plain : ∀ s ∈ sections, s.IsPlain style

section First

variable {content stamp : Text} {language : Language} {style : Block.Style}
  {sections : List Section}

/-- The lines of the block that is put into the file. -/
def blockOf (content : Text) (style : Block.Style) (sections : List Section) (stamp : Text) :
    List Text :=
  let indexed := indexedContent content none style sections stamp
  Block.blockLines style (Block.bodyLines style indexed.sections indexed.totalLines stamp)

theorem content_indexedContent (content : Text) (style : Block.Style) (sections : List Section)
    (stamp : Text) : (indexedContent content none style sections stamp).content =
      Block.insertNew content
        (Text.join (Text.detectNewline content) (blockOf content style sections stamp))
        (Text.detectNewline content) := rfl

theorem length_blockOf (content : Text) (style : Block.Style) (sections : List Section)
    (stamp : Text) : ((blockOf content style sections stamp).length : Int) =
      Block.height (max sections.length 1 : Nat) style := by
  unfold blockOf
  rw [Block.length_blockLines]
  simp only [indexedContent, length_orFallback, List.length_map]

theorem IsFirst.isUnbroken_of_mem_blockOf (h : IsFirst content language style sections)
    (hstamp : Block.IsStamp stamp) :
    ∀ line ∈ blockOf content style sections stamp, line.IsUnbroken :=
  Block.isUnbroken_of_mem_blockLines hstamp fun s hs =>
    (isPlain_of_mem_indexedContent h.plain s hs).unbroken

theorem IsFirst.ignores_nil (h : IsFirst content language style sections) :
    language.Ignores [] :=
  Language.ignores_nil h.language_mem h.style_eq

/-- No line of the block is a mark. -/
theorem IsFirst.markOf_of_mem_blockOf (h : IsFirst content language style sections)
    (hstamp : Block.IsStamp stamp) :
    ∀ line ∈ blockOf content style sections stamp, language.markOf line = .plain := by
  intro line hline
  have hread := Language.readsOnlyRows_of_mem_blockLines h.language_mem h.style_eq hstamp hline
  refine hread.markOf_eq_plain fun hmem s hs => ?_
  exact (isPlain_of_mem_indexedContent h.plain s hs).no_slashes
    (Language.style_eq_jsdoc hmem h.style_eq)

/-- No line of the block opens a section that is detected, as the names of these sections stand in
the table of languages. -/
theorem IsFirst.detect?_of_mem_blockOf (h : IsFirst content language style sections)
    (hstamp : Block.IsStamp stamp) {path : Path} (hlanguage : Language.ofPath? path = some language)
    (hnone : scanExplicit (some language) (Text.splitLines content) = []) :
    ∀ line ∈ blockOf content style sections stamp,
      language.detect? (Text.dropReturns line) = none := by
  intro line hline
  have hread := Language.readsOnlyRows_of_mem_blockLines h.language_mem h.style_eq hstamp hline
  -- the start of a store has a `<` in it, and no name of a detected section has
  have hangle : ∀ s ∈ sections, s.HasTexts ('<' ∉ ·) := by
    rw [h.sections_eq, chooseSections.scanned, hnone, ← hlanguage]
    exact forall_presentSections (fun _ n => not_mem_numbered n (by decide) (by decide))
      (by decide +kernel) (by decide) (forall_scanAuto (by decide) (by decide +kernel))
  refine hread.detect?_eq_none fun _ s hs => ?_
  obtain ⟨hname, hdescription⟩ :=
    Generated.forall_sections stamp (by decide) (by decide) hangle s hs
  exact ⟨Text.not_isInfix_of_not_mem (by decide) hname,
    Text.not_isInfix_of_not_mem (by decide) hdescription⟩

/-- **The sections in the block** are those that are found in the file with it. -/
theorem IsFirst.sections_indexedContent (h : IsFirst content language style sections)
    (hstamp : Block.IsStamp stamp) {path : Path}
    (hlanguage : Language.ofPath? path = some language) :
    let indexed := indexedContent content none style sections stamp
    indexed.totalLines = (Text.splitLines indexed.content).length ∧
      indexed.sections = orFallback indexed.totalLines (presentSections
        (chooseSections.scanned (some language) (Text.splitLines indexed.content))) := by
  intro indexed
  have hnewline := Text.detectNewline_isLineEnd content
  have hunbroken := h.isUnbroken_of_mem_blockOf hstamp
  have hne : blockOf content style sections stamp ≠ [] := blockLines_ne_nil _ _
  let height := Block.height (max sections.length 1 : Nat) style
  let placement := Placement.of content none height
  -- every section stands below the line of the block, so each is moved by the same number
  have hmove : sections.map placement.move = sections.map (Section.moved (height + 1)) := by
    refine List.map_congr_left fun s hs => ?_
    rw [h.sections_eq] at hs
    obtain ⟨s₀, hs₀, hfirst, hlast, hsource⟩ := exists_of_mem_presentSections hs
    obtain ⟨hthreshold, hbounds⟩ := insertionLine_le_of_mem_scanned h.ignores_nil h.head hs₀
    rw [Placement.move, hsource, if_neg (source_of_mem_scanned hs₀)]
    exact Section.shifted_eq_moved _ (by rw [hfirst]; exact hthreshold)
      (by rw [hlast]; exact Int.le_trans hthreshold hbounds)
  refine ⟨?_, ?_⟩
  · -- the draft has as many rows as the block, and so as many lines
    have hmoved : ∀ n, ∀ s ∈ orFallback n (sections.map placement.move),
        s.HasTexts Text.IsUnbroken := fun n =>
      have hfallback := (isPlain_fallback style n).unbroken
      forall_move hfallback.1 hfallback.2 fun s hs => (h.plain s hs).unbroken
    exact length_splitLines_insertNew_render hnewline hstamp (hmoved _) (hmoved _)
      (by rw [length_orFallback, length_orFallback]) _ _
  · have hscanned := scanned_insertNew hnewline hne hunbroken h.ignores_nil h.head
      (h.markOf_of_mem_blockOf hstamp) fun hnone => h.detect?_of_mem_blockOf hstamp hlanguage hnone
    have hsections : indexed.sections =
        orFallback indexed.totalLines (sections.map placement.move) := rfl
    rw [hsections, hmove, content_indexedContent, hscanned, length_blockOf, presentSections_moved,
      ← h.sections_eq]

/-- The rows of the sections in the block are storable. -/
theorem IsFirst.isStorable_of_mem (h : IsFirst content language style sections)
    (hstamp : Block.IsStamp stamp) {path : Path}
    (hlanguage : Language.ofPath? path = some language) :
    ∀ s ∈ (indexedContent content none style sections stamp).sections,
      (Block.rowOf s).IsStorable style := by
  intro s hs
  have hplain := isPlain_of_mem_indexedContent h.plain s hs
  have hstrip : s.HasTexts fun t => t.strip = t := by
    refine Generated.forall_sections stamp (by decide) (by decide) ?_ s hs
    rw [h.sections_eq, ← hlanguage]
    exact strip_of_mem_presentSections
  have hbounds : 1 ≤ s.first ∧ s.first ≤ s.last := by
    -- the sections in the block are those that are found in the file with it, where lines are
    -- counted from one
    obtain ⟨-, hsections⟩ := h.sections_indexedContent hstamp hlanguage
    rw [hsections, orFallback] at hs
    split at hs
    · rw [List.mem_singleton.mp hs]
      exact ⟨Int.le_refl 1, Int.le_max_right _ _⟩
    · obtain ⟨s₀, hs₀, hfirst, hlast, -⟩ := exists_of_mem_presentSections hs
      rw [hfirst, hlast]
      exact bounds_of_mem_scanned hs₀
  exact
    { name_ne_nil := hplain.name_ne_nil
      name_ne_heading := hplain.name_ne_heading
      name_not_dashes := hplain.name_not_dashes
      name := ⟨hstrip.1, hplain.unbroken.1, hplain.escapable.1⟩
      description := ⟨hstrip.2, hplain.unbroken.2, hplain.escapable.2⟩
      first_nonneg := Int.le_trans (by decide) hbounds.1
      last_nonneg := Int.le_trans (by decide) (Int.le_trans hbounds.1 hbounds.2) }

/-- **The block is read back** with the rows of its sections. -/
theorem IsFirst.parse_indexedContent (h : IsFirst content language style sections)
    (hstamp : Block.IsStamp stamp) {path : Path}
    (hlanguage : Language.ofPath? path = some language) :
    let indexed := indexedContent content none style sections stamp
    Block.checkNumbers indexed.sections indexed.totalLines = .ok () →
      ∃ b, Block.parse indexed.content = .ok (some b) ∧
        b.rows = indexed.sections.map Block.rowOf := by
  intro indexed hnumbers
  have hnewline := Text.detectNewline_isLineEnd content
  have hnodup : (indexed.sections.map Section.name).Nodup := by
    refine nodup_indexedContent ?_
    rw [h.sections_eq]
    exact Section.nodup_uniqueNames _
  have hwritable := Block.checkNumbers_eq_ok_iff.mp hnumbers
  have hparse := Block.parse_render
    (Text.detectNewline content ++ (Text.detectNewline content ++ Block.bodyOf content))
    (Block.isHead_interpreterLine content) hnewline
    (fun _ => hnewline.endsLine_append _) hstamp hnodup (h.isStorable_of_mem hstamp hlanguage)
    (Int.natCast_nonneg indexed.totalLines) hwritable
  simp only [← List.append_assoc] at hparse
  exact ⟨_, hparse, rfl⟩

/-- A block whose lines stay whole changes no row of the file as a companion document. -/
theorem readRows_indexedContent
    (h : ∀ line ∈ blockOf content style sections stamp, line.IsUnbroken) :
    Companion.readRows .preamble
        (Text.breakLines (indexedContent content none style sections stamp).content) =
      Companion.readRows .preamble (Text.breakLines content) := by
  have hne : blockOf content style sections stamp ≠ [] := blockLines_ne_nil _ _
  obtain ⟨before, hbefore, hafter⟩ := Block.breakLines_insertNew content
    (Text.detectNewline_isLineEnd content) hne h
  rw [content_indexedContent, hafter, hbefore]
  refine Companion.readRows_append _ _ _ ?_
  simp only [List.forall_mem_append, List.forall_mem_singleton]
  exact ⟨fun line hline => Companion.isComment_of_isFrameLine
      (Block.isFrameLine_of_mem_blockLines hline),
    Companion.isComment_of_isFrameLine (.empty style)⟩

/-- The block changes no row of the file as a companion document. -/
theorem IsFirst.readRows_indexedContent (h : IsFirst content language style sections)
    (hstamp : Block.IsStamp stamp) :
    Companion.readRows .preamble
        (Text.breakLines (indexedContent content none style sections stamp).content) =
      Companion.readRows .preamble (Text.breakLines content) :=
  SectionIndex.readRows_indexedContent (h.isUnbroken_of_mem_blockOf hstamp)

end First

/-! ### The file that is written -/

section Written

variable {context : Context} {file content new : Text} {language : Language} {style : Block.Style}
  {sections : List Section} {companion : Option Companion}

theorem Context.detect_eq_ok_iff {lines : List Text} :
    context.detect file lines = .ok (sections, companion) ↔
      context.host.companionOf file = .ok companion ∧ sections = presentSections
        (chooseSections companion (Language.ofPath? (Path.ofText file)) lines) := by
  unfold detect
  cases context.host.companionOf file with
  | error fault => simp [bind, Except.bind]
  | ok document =>
    simp only [bind, Except.bind, pure, Except.pure, Except.ok.injEq, Prod.mk.injEq]
    constructor
    · rintro ⟨rfl, rfl⟩
      exact ⟨rfl, rfl⟩
    · rintro ⟨rfl, rfl⟩
      exact ⟨rfl, rfl⟩

/-- A companion document without sections does not decide what the sections are. -/
theorem chooseSections_of_forall (language? : Option Language) (lines : List Text)
    (h : ∀ document ∈ companion, document.sections = []) :
    chooseSections companion language? lines = chooseSections.scanned language? lines := by
  cases companion with
  | none => rfl
  | some document => rw [chooseSections, if_neg fun hne => hne (h document rfl)]

/-- **The index of a file** that can be read at a time that can be told in universal time. -/
theorem Context.exists_index {host : Host} (settings : Settings) {later moment : Moment}
    (hload : host.loadFile file = .ok new) (hcompanion : host.companionOf file = .ok companion)
    (hlater : later.utc? = some moment) :
    ∃ index, (⟨host, settings, later⟩ : Context).index file = .ok index ∧
      index.sections = orFallback (Text.splitLines new).length (presentSections
        (chooseSections companion (Language.ofPath? (Path.ofText file))
          (Text.splitLines new))) := by
  have hdetect : (⟨host, settings, later⟩ : Context).detect file (Text.splitLines new) =
      .ok (_, _) :=
    detect_eq_ok_iff.mpr ⟨hcompanion, rfl⟩
  have hclock : (⟨host, settings, later⟩ : Context).utcNow = .ok moment :=
    utcNow_eq_ok_iff.mpr hlater
  simp only [index, indexOf, hload, bind, Except.bind, hdetect, hclock]
  exact ⟨_, rfl, rfl⟩

/-- **A first index is true of its file.** If no name of a section is a heading and all texts stay
what they are in a comment, the rows of the block are the sections that are found in the file when
the block is there. -/
theorem Context.rows_eq_of_generate (hload : context.host.loadFile file = .ok content)
    (hlanguage : Language.ofPath? (Path.ofText file) = some language)
    (hstyle : language.blockStyle = some style) (hparse : Block.parse content = .ok none)
    (hcompanion : ∀ document, context.host.companionOf file = .ok (some document) →
      document.sections = [])
    (hfirst : ∀ line, (Text.splitLines content).head? = some line → ['#', '!'] <+: line →
      language.Ignores line)
    (hplain : ∀ sections companion, context.detect file (Text.splitLines content) =
      .ok (sections, companion) → ∀ s ∈ sections, s.IsPlain style)
    {minLines : Option Int} {result : GenerateResult} {new? : Option Text}
    (hgenerate : context.generate file minLines = .ok (result, new?))
    (hsuccess : result.status = .success) :
    ∃ new b, new? = some new ∧ Block.parse new = .ok (some b) ∧
      ∀ settings later, Moment.utc? later ≠ none →
        ∃ index, (⟨context.host.overwrite (Path.ofText file) new, settings, later⟩ : Context).index
            file = .ok index ∧
          b.rows = index.sections.map Block.rowOf := by
  -- what was read, found and written
  obtain ⟨new, rfl⟩ := exists_of_success hgenerate hsuccess
  obtain ⟨content', language', style', existing, sections, companion, clock, hg, rfl⟩ :=
    generated_of_generate hgenerate
  obtain rfl : content' = content := Except.ok.inj (hg.load.symm.trans hload)
  obtain rfl : existing = none := Except.ok.inj (hg.parse.symm.trans hparse)
  obtain rfl : language' = language := Option.some.inj (hg.language_eq.symm.trans hlanguage)
  obtain rfl : style' = style := Option.some.inj (hg.style_eq.symm.trans hstyle)
  have hstamp := hg.isStamp
  obtain ⟨hdocument, hsections⟩ := detect_eq_ok_iff.mp hg.detect
  have hlacks : ∀ document ∈ companion, document.sections = [] := by
    rintro document rfl
    exact hcompanion document hdocument
  rw [chooseSections_of_forall _ _ hlacks, hlanguage] at hsections
  -- the block holds the sections that are found in the file with it
  have hisFirst : IsFirst content' language' style' sections :=
    { language_mem := Language.mem_all_of_ofPath? hlanguage
      style_eq := hstyle
      head := fun line hline => by
        obtain ⟨hsigns, hhead⟩ := Block.of_mem_headLines hline
        exact hfirst line hhead hsigns
      sections_eq := hsections
      plain := hplain sections companion hg.detect }
  obtain ⟨b, hb, hrows⟩ := hisFirst.parse_indexedContent hstamp hlanguage hg.numbers
  obtain ⟨htotal, hindexed⟩ := hisFirst.sections_indexedContent hstamp hlanguage
  refine ⟨_, b, rfl, hb, fun settings later hlater => ?_⟩
  -- the fresh index is that of the new text, as the companion document still has no sections
  obtain ⟨document?, hdocument', hlacks'⟩ := Host.companionOf_overwrite hload
    (hisFirst.readRows_indexedContent hstamp) ⟨companion, hdocument, hlacks⟩
  have hnew := Host.loadFile_overwrite
    (indexedContent content' none style' sections clock.stamp).content hload
  obtain ⟨moment, hmoment⟩ := Option.ne_none_iff_exists'.mp hlater
  obtain ⟨index, hindex, hindexSections⟩ := Context.exists_index settings hnew hdocument' hmoment
  refine ⟨index, hindex, ?_⟩
  rw [hindexSections, chooseSections_of_forall _ _ hlacks', hlanguage, ← htotal, ← hindexed]
  exact hrows

/-- A script with an import and a class gets its first index. -/
theorem Context.rows_eq_of_generate_of_script :
    let file : Text := "run.py"
    let content : Text := "#!/bin/sh\nimport os\n\nclass A(B):\n  x = 1\n"
    let context : Context := ⟨⟨⟨[([file], .file (encodeUtf8 content))]⟩, [], "/", []⟩,
      { workspaceRoot := ⟨.root, []⟩ }, ⟨2024, 2, 29, 1, 2, 3, 4, 0⟩⟩
    ∃ result new b, context.generate file none = .ok (result, some new) ∧
      Block.parse new = .ok (some b) ∧
      ∀ settings later, Moment.utc? later ≠ none →
        ∃ index, (⟨context.host.overwrite (Path.ofText file) new, settings, later⟩ : Context).index
            file = .ok index ∧
          b.rows = index.sections.map Block.rowOf := by
  intro file content context
  let sections : List Section := [⟨"imports", 2, 3, "External dependencies", .auto⟩,
    ⟨"classes", 4, 5, "Class definitions", .auto⟩]
  have hload : context.host.loadFile file = .ok content :=
    Host.loadFile_of_encodeUtf8 [file] (by decide +kernel)
  have hlanguage : Language.ofPath? (Path.ofText file) = some .python := by decide +kernel
  have hparse : Block.parse content = .ok none :=
    Block.parse_of_locate?_eq_none (by decide +kernel)
  have hcompanion : context.host.companionOf file = .ok none := by decide +kernel
  have hdetect : context.detect file (Text.splitLines content) = .ok (sections, none) := by
    decide +kernel
  -- the line of the interpreter means nothing to the scan
  have hfirst : ∀ line, (Text.splitLines content).head? = some line → ['#', '!'] <+: line →
      Language.python.Ignores line := by
    intro line hline _
    obtain rfl : "#!/bin/sh" = line := Option.some.inj hline
    exact ⟨by decide +kernel, by decide +kernel⟩
  -- no name is that of a heading, and no text breaks a line
  have hplain : ∀ s ∈ sections, s.IsPlain .hash := by
    have htexts : ∀ s ∈ sections,
        Block.isHeadingName s.name = false ∧ s.name.IsUnbroken ∧ s.description.IsUnbroken := by
      decide +kernel
    intro s hs
    obtain ⟨hname, hunbroken⟩ := htexts s hs
    rw [Bool.eq_false_iff, ne_eq, Block.isHeadingName_iff, not_or, not_or] at hname
    exact ⟨hname.1, hname.2.1, hname.2.2, hunbroken, ⟨nofun, nofun⟩, nofun⟩
  have hsuccess : (context.generate file none).toOption.map (·.1.status) = some .success := by
    decide +kernel
  clear_value sections context content file
  obtain ⟨⟨result, new?⟩, hgenerate, hsuccess⟩ := Fault.toOption_map_eq_some_iff.mp hsuccess
  obtain ⟨new, b, rfl, hparse, hrows⟩ := Context.rows_eq_of_generate hload hlanguage rfl hparse
    (fun document h => by rw [hcompanion] at h; cases h) hfirst
    (fun found companion h => by rw [hdetect] at h; cases h; exact hplain) hgenerate hsuccess
  exact ⟨result, new, b, hgenerate, hparse, hrows⟩

end Written

end SectionIndex
