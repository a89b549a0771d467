import SectionIndex.Indexing.Resolve
import SectionIndex.Proofs.Upkeep.Inert

/-!
# Reading a file that has a new block

A new block moves the lines of a file, and the sections that are found in the file move with them.
So a reader gets the same text of a section before the block is written and after. A companion
document is not written, so its sections keep their line numbers, and a reader gets what stands on
these lines then.

## Main definitions

* `Context.ReadsAlike` — a reader gets the same text of a section at two times.
* `Context.ReadsOtherwise` — the first index of a file changes what a reader gets of a section.

## Main statements

* `sectionText_moved` — the text of a section that has moved with its lines.
* `scanned_insertNew_of_not_opens` — the sections that are found in a file with a new block.
* `Context.readSection_of_generate` — what a reader gets when the first index of a file is written.
-/

namespace SectionIndex

open Text (EndsInside)

/-! ### Sections that have moved -/

/-- **The text of a section that has moved** with its lines is the same. -/
theorem sectionText_moved {s : Section} (before lines : List Text)
    (h : 1 ≤ s.first ∧ s.first ≤ s.last) :
    sectionText (before ++ lines) (s.moved before.length) = sectionText lines s := by
  obtain ⟨hfirst, hlast⟩ := h
  have htake : (s.moved before.length).last.toNat = before.length + s.last.toNat := by
    simp only [Section.moved]
    omega
  have hdrop : ((s.moved before.length).first - 1).toNat =
      before.length + (s.first - 1).toNat := by
    simp only [Section.moved]
    omega
  rw [sectionText, sectionText, htake, hdrop, List.take_length_add_append,
    List.drop_length_add_append]

/-- **The sections that are found in a file with a new block**, at the top of which it stands, if
no line of the block opens a section. -/
theorem scanned_insertNew_of_not_opens {language : Language} {content block newline : Text}
    (hhead : Block.interpreterLine content = []) (hempty : language.Ignores [])
    (h : newline.IsLineEnd) (hends : EndsInside block)
    (hmarks : ∀ line ∈ Text.splitLines block, ¬ (language.markOf line).Opens)
    (hdetect : scanExplicit (some language) (Text.splitLines content) = [] →
      ∀ line ∈ Text.splitLines block, language.detect? (Text.dropReturns line) = none) :
    let top := Text.splitLines block ++ [[]]
    Text.splitLines (Block.insertNew content block newline) = top ++ Text.restLines content ∧
      chooseSections.scanned (some language)
          (Text.splitLines (Block.insertNew content block newline)) =
        (chooseSections.scanned (some language) (Text.splitLines content)).map
          (Section.moved top.length) := by
  intro top
  have hbody : Block.bodyOf content = content := by
    rw [Block.bodyOf, hhead]
    rfl
  have hlines : Text.splitLines (Block.insertNew content block newline) =
      top ++ Text.restLines content := by
    rw [splitLines_insertNew_of_endsInside content h hends, Block.headLines, if_pos hhead, hbody]
    rfl
  -- the block and the empty line after it stand before all lines of the file
  refine ⟨hlines, ?_⟩
  rw [hlines, scanned_splitLines hempty]
  refine scanned_append_of_not_opens _ ?_ fun hnone => ?_
  · simp only [top, List.forall_mem_append, List.forall_mem_singleton]
    exact ⟨hmarks, Mark.not_opens_of_eq_plain hempty.markOf_eq⟩
  · rw [← scanExplicit_splitLines hempty.markOf_eq] at hnone
    simp only [top, List.forall_mem_append, List.forall_mem_singleton]
    exact ⟨hdetect hnone, hempty.detect?_eq⟩

/-! ### Where sections come from -/

/-- **The sections of a file** are those of its companion document, or those that are found in the
file itself if the document has none. -/
theorem chooseSections_eq (companion : Option Companion) (language? : Option Language)
    (lines : List Text) :
    chooseSections companion language? lines =
      if Companion.sectionsOf companion = [] then chooseSections.scanned language? lines
      else Companion.sectionsOf companion := by
  cases companion with
  | none => rfl
  | some document =>
    by_cases hsections : document.sections = []
    · exact (if_neg fun hne => hne hsections).trans (if_pos hsections).symm
    · exact (if_pos hsections).trans (if_neg hsections).symm

/-- If there are marks, the sections are those of the marks. -/
theorem scanned_of_scanExplicit_ne_nil {language? : Option Language} {lines : List Text}
    (h : scanExplicit language? lines ≠ []) :
    chooseSections.scanned language? lines = scanExplicit language? lines := by
  unfold chooseSections.scanned
  split
  · next hnil => exact absurd hnil h
  · rfl

/-- A section of a companion document comes from there, and its texts stay in their lines. -/
theorem Host.of_mem_sectionsOf {host : Host} {file : Text} {companion : Option Companion}
    (h : host.companionOf file = .ok companion) {s : Section}
    (hs : s ∈ Companion.sectionsOf companion) :
    s.source = .companion ∧ s.HasTexts Text.IsUnbroken := by
  cases companion with
  | none => exact absurd hs List.not_mem_nil
  | some document =>
    obtain ⟨text, path, hread⟩ := exists_parse_of_companionOf h
    obtain ⟨line, -, hrow⟩ := Companion.exists_of_mem_sections hread hs
    exact ⟨(Companion.of_parseRow hrow).1, Companion.isUnbroken_of_mem_sections hread hs⟩

/-! ### What a reader gets -/

namespace Context

variable {context : Context} {file content : Text} {companion : Option Companion}

/-- **A reader gets the lines of each section of the index**, as no two of them have one name. -/
theorem readSection_of_mem (context : Context) (hload : context.host.loadFile file = .ok content)
    (hcompanion : context.host.companionOf file = .ok companion)
    (hclock : context.now.utc? ≠ none) {s : Section}
    (hs : s ∈ presentSections (chooseSections companion (Language.ofPath? (Path.ofText file))
      (Text.splitLines content))) :
    context.readSection file s.name =
      .ok (.text s (sectionText (Text.splitLines content) s)) := by
  -- reading goes through an index, and the names in it are unique
  obtain ⟨moment, hmoment⟩ := Option.ne_none_iff_exists'.mp hclock
  obtain ⟨index, hindex, hsections⟩ :=
    exists_index context.settings hload hcompanion hmoment
  have hindexOf : context.indexOf file content = .ok index := by
    obtain ⟨content', hcontent', h⟩ := Fault.bind_eq_ok_iff.mp hindex
    obtain rfl := Except.ok.inj (hload.symm.trans hcontent')
    exact h
  rw [orFallback, if_neg (List.ne_nil_of_mem hs)] at hsections
  have hfind : index.find? s.name = some s := by
    have hnodup : (index.sections.map Section.name).Nodup :=
      hsections ▸ Section.nodup_uniqueNames _
    rw [← hsections] at hs
    obtain ⟨t, ht⟩ : ∃ t, index.find? s.name = some t := by
      rw [← Option.ne_none_iff_exists', ne_eq, FileIndex.find?_eq_none_iff, not_not]
      exact List.mem_map_of_mem hs
    obtain ⟨hmem, hname⟩ := FileIndex.find?_eq_some ht
    rw [ht, List.inj_on_of_nodup_map hnodup hmem hs hname]
  simp only [readSection, hload, bind, Except.bind, hindexOf, hfind]
  rfl

/-- **A reader gets the same text of a section** at two times; it can stand on other lines. -/
def ReadsAlike (before after : Context) (file name : Text) : Prop :=
  ∃ s s' text, before.readSection file name = .ok (.text s text) ∧
    after.readSection file name = .ok (.text s' text)

end Context

/-! ### The file that is written -/

section Written

variable {context : Context} {file content : Text} {language : Language} {style : Block.Style}
  {found : List Section} {companion : Option Companion} {now : Moment}

-- the first index of a file
variable (h : Generated context file content language style none found companion now)

include h

/-- **A section that is found in the file itself** is read alike, if no line of the block opens a
section and the companion document gets none. -/
theorem Generated.readsAlike (hhead : Block.interpreterLine content = [])
    (hsections : Companion.sectionsOf companion = [])
    (hmarks : ∀ line ∈ Text.splitLines (indexedBlock content none style found now.stamp),
      ¬ (language.markOf line).Opens)
    (hdetect : scanExplicit (some language) (Text.splitLines content) = [] →
      ∀ line ∈ Text.splitLines (indexedBlock content none style found now.stamp),
        language.detect? (Text.dropReturns line) = none)
    {settings : Settings} {later : Moment} (hlater : later.utc? ≠ none)
    (hlacks : (context.host.overwrite (Path.ofText file)
      (indexedContent content none style found now.stamp).content).LacksRows file)
    {s : Section} (hs : s ∈ found) :
    context.ReadsAlike ⟨context.host.overwrite (Path.ofText file)
        (indexedContent content none style found now.stamp).content, settings, later⟩
      file s.name := by
  have hempty : language.Ignores [] :=
    Language.ignores_nil (Language.mem_all_of_ofPath? h.language_eq) h.style_eq
  have hends : EndsInside (indexedBlock content none style found now.stamp) :=
    Block.endsInside_render _ _ _ _ _
  obtain ⟨-, hcontent⟩ := h.serialize_eq
  obtain ⟨hcompanion, -⟩ := Context.detect_eq_ok_iff.mp h.detect
  have hfound := h.found_eq_presentSections
  obtain ⟨hlines, hscanned⟩ := scanned_insertNew_of_not_opens hhead hempty
    (Text.detectNewline_isLineEnd content) hends hmarks hdetect
  have hwritten := Host.loadFile_overwrite
    (indexedContent content none style found now.stamp).content h.load
  rw [Block.insert_none] at hcontent
  rw [← hcontent] at hlines hscanned
  -- from here on only the lines of the file that is written matter
  generalize (indexedContent content none style found now.stamp).content = new at *
  generalize Text.splitLines (indexedBlock content none style found now.stamp) ++ [[]] = top at *
  obtain ⟨companion', hcompanion', hnorows⟩ := hlacks
  rw [chooseSections_eq, if_pos hsections] at hfound
  have hmem := hfound ▸ hs
  obtain ⟨s₀, hs₀, hfirst, hlast, -⟩ := exists_of_mem_presentSections hmem
  have hbounds : 1 ≤ s.first ∧ s.first ≤ s.last := by
    rw [hfirst, hlast]
    exact bounds_of_mem_scanned hs₀
  -- a file with a section has a line
  have hrest : Text.splitLines content = Text.restLines content := by
    refine Text.splitLines_of_restLines_ne_nil fun hnil => ?_
    rw [scanned_splitLines hempty, hnil, scanned_nil] at hs₀
    exact absurd hs₀ List.not_mem_nil
  have hmoved : s.moved top.length ∈ presentSections (chooseSections companion'
      (Language.ofPath? (Path.ofText file)) (Text.splitLines new)) := by
    rw [chooseSections_of_forall _ _ hnorows, h.language_eq, hscanned, presentSections_moved]
    exact List.mem_map_of_mem hmem
  have hbefore := context.readSection_of_mem h.load hcompanion h.clock_ne_none
    (by rw [chooseSections_eq, if_pos hsections, h.language_eq]; exact hmem)
  have hafter := Context.readSection_of_mem
    ⟨context.host.overwrite (Path.ofText file) new, settings, later⟩ hwritten hcompanion' hlater
    hmoved
  rw [Section.moved_name, hlines, sectionText_moved _ _ hbounds, ← hrest] at hafter
  exact ⟨s, s.moved top.length, _, hbefore, hafter⟩

/-- The companion document has the same sections after a block is written whose lines stay whole. -/
theorem Generated.exists_companionOf
    (hunbroken : ∀ line ∈ blockOf content style found now.stamp, line.IsUnbroken) :
    ∃ companion', (context.host.overwrite (Path.ofText file)
        (indexedContent content none style found now.stamp).content).companionOf file =
          .ok companion' ∧
      Companion.sectionsOf companion' = Companion.sectionsOf companion := by
  obtain ⟨hcompanion, -⟩ := Context.detect_eq_ok_iff.mp h.detect
  have hsame := Host.map_sectionsOf_companionOf_overwrite h.load (readRows_indexedContent hunbroken)
  rw [hcompanion] at hsame
  cases hwritten : (context.host.overwrite (Path.ofText file)
      (indexedContent content none style found now.stamp).content).companionOf file with
  | error fault => rw [hwritten] at hsame; cases hsame
  | ok companion' =>
    rw [hwritten] at hsame
    exact ⟨companion', rfl, Except.ok.inj hsame⟩

/-- **A section of the companion document** keeps its line numbers. -/
theorem Generated.readSection_of_companion (hsections : Companion.sectionsOf companion ≠ [])
    (settings : Settings) {later : Moment} (hlater : later.utc? ≠ none) {s : Section}
    (hs : s ∈ found) :
    let new := (indexedContent content none style found now.stamp).content
    (⟨context.host.overwrite (Path.ofText file) new, settings, later⟩ : Context).readSection file
        s.name = .ok (.text s (sectionText (Text.splitLines new) s)) := by
  intro new
  have hstamp := h.isStamp
  obtain ⟨hcompanion, -⟩ := Context.detect_eq_ok_iff.mp h.detect
  have hfound := h.found_eq_presentSections
  rw [chooseSections_eq, if_neg hsections] at hfound
  -- the names of a document are cut out of its lines, so the block changes no row of it
  have hunbroken : ∀ s ∈ found, s.HasTexts Text.IsUnbroken := by
    rw [hfound]
    exact forall_presentSections (fun _ n => Text.isUnbroken_numbered n) (by decide +kernel)
      Text.isUnbroken_nil fun s hs => (Host.of_mem_sectionsOf hcompanion hs).2
  obtain ⟨companion', hcompanion', hsame⟩ := h.exists_companionOf
    (Block.isUnbroken_of_mem_blockLines hstamp
      (Generated.forall_sections now.stamp (by decide) (by decide) hunbroken))
  have hwritten := Host.loadFile_overwrite new h.load
  refine Context.readSection_of_mem
    ⟨context.host.overwrite (Path.ofText file) new, settings, later⟩ hwritten hcompanion' hlater ?_
  rw [chooseSections_eq, hsame, if_neg hsections]
  exact hfound ▸ hs

/-- **A detected section** is read alike, as the block means nothing in the file and changes no row
of its companion document. -/
theorem Generated.readsAlike_of_auto (hhead : Block.interpreterLine content = [])
    (hsections : Companion.sectionsOf companion = [])
    (hmarks : scanExplicit (some language) (Text.splitLines content) = [])
    {settings : Settings} {later : Moment} (hlater : later.utc? ≠ none) {s : Section}
    (hs : s ∈ found) :
    context.ReadsAlike ⟨context.host.overwrite (Path.ofText file)
        (indexedContent content none style found now.stamp).content, settings, later⟩
      file s.name := by
  have hcompanion := Companion.sectionsOf_eq_nil_iff.mp hsections
  have hlines := h.ignores_of_auto hcompanion hmarks
  exact h.readsAlike hhead hsections
    (fun line hline => Mark.not_opens_of_eq_plain (hlines line hline).2.markOf_eq)
    (fun _ line hline => (hlines line hline).2.detect?_eq) hlater
    (h.lacksRows_of_auto hcompanion hmarks) hs

end Written

/-- **What a reader gets of a section when the first index of its file is written.** The file names
no interpreter on its first line. A detected section is read alike, and so is a section between the
marks of an author if the block itself adds no section. A section of the companion document keeps
its line numbers, so a reader gets the lines of these numbers of the file that is written. -/
theorem Context.readSection_of_generate {context : Context} {file content : Text}
    (hload : context.host.loadFile file = .ok content) (hparse : Block.parse content = .ok none)
    (hinterpreter : ¬ ['#', '!'] <+: content) {minLines : Option Int} {result : GenerateResult}
    {new? : Option Text} (hgenerate : context.generate file minLines = .ok (result, new?))
    (hsuccess : result.status = .success) :
    ∃ index language style written block new,
      context.index file = .ok index ∧ Language.ofPath? (Path.ofText file) = some language ∧
      Block.serialize written (Text.splitLines new).length style context.now
        (Text.detectNewline content) = .ok block ∧
      new? = some new ∧ new = Block.insertNew content block (Text.detectNewline content) ∧
      ∀ settings later, Moment.utc? later ≠ none →
        let after : Context :=
          ⟨context.host.overwrite (Path.ofText file) new, settings, later⟩
        ∀ s ∈ index.sections,
          (s.source = .companion → after.readSection file s.name =
            .ok (.text s (sectionText (Text.splitLines new) s))) ∧
          (s.source = .auto → context.ReadsAlike after file s.name) ∧
          (s.source = .explicit →
            (∀ line ∈ Text.splitLines block, ¬ (language.markOf line).Opens) →
            after.host.LacksRows file → context.ReadsAlike after file s.name) := by
  obtain ⟨language, style, found, companion, now, hg, rfl, -⟩ :=
    exists_generated hload hparse hgenerate hsuccess
  obtain ⟨hserialize, hcontent⟩ := hg.serialize_eq
  rw [hg.totalLines_eq] at hserialize
  obtain ⟨hcompanion, -⟩ := detect_eq_ok_iff.mp hg.detect
  have hfound := hg.found_eq_presentSections
  have hhead := Block.interpreterLine_eq_nil hinterpreter
  obtain ⟨moment, hmoment⟩ := Option.ne_none_iff_exists'.mp hg.clock_ne_none
  obtain ⟨index, hindex, hsections⟩ := exists_index context.settings hload hcompanion hmoment
  rw [hg.language_eq, ← hfound] at hsections
  refine ⟨index, language, style, _, _, _, hindex, hg.language_eq, hserialize, rfl, hcontent, ?_⟩
  intro settings later hlater after s hs
  rw [hsections] at hs
  -- the section that covers a file is none of these three
  by_cases hne : found = []
  · rw [orFallback, if_pos hne, List.mem_singleton] at hs
    subst hs
    refine ⟨fun h => ?_, fun h => ?_, fun h => ?_⟩ <;> cases h
  rw [orFallback, if_neg hne] at hs
  obtain ⟨s₀, hs₀, -, -, hsource⟩ := exists_of_mem_presentSections (hfound ▸ hs)
  rw [chooseSections_eq] at hs₀
  -- one document decides for all sections, so they are all of a companion or none is
  by_cases hnorows : Companion.sectionsOf companion = []
  · rw [if_pos hnorows] at hs₀
    have hother : s.source ≠ .companion := hsource ▸ source_of_mem_scanned hs₀
    refine ⟨fun h => absurd h hother, fun hauto => ?_, fun hexplicit hmarks hlacks => ?_⟩
    · refine hg.readsAlike_of_auto hhead hnorows ?_ hlater hs
      -- sections are detected only if none is marked
      by_contra hmarked
      rw [scanned_of_scanExplicit_ne_nil hmarked] at hs₀
      rw [hsource, (isCutFrom_of_mem_scanExplicit hs₀).1] at hauto
      cases hauto
    · refine hg.readsAlike hhead hnorows hmarks (fun hnone => ?_) hlater hlacks hs
      rw [chooseSections.scanned, hnone] at hs₀
      rw [hsource, (exists_of_mem_scanAuto hs₀).1] at hexplicit
      cases hexplicit
  · -- with a companion all sections are its own, and the other two kinds do not occur
    rw [if_neg hnorows] at hs₀
    have hother : s.source = .companion :=
      hsource.trans (Host.of_mem_sectionsOf hcompanion hs₀).1
    rw [hother]
    refine ⟨fun _ => hg.readSection_of_companion hnorows settings hlater hs, fun h => ?_,
      fun h => ?_⟩ <;> cases h

/-- The detected sections of a script are read alike. -/
theorem Context.readSection_of_generate_of_script :
    let file : Text := "a.py"
    let content : Text := "import os\nclass A(B):\n    pass\n"
    let context : Context := ⟨⟨⟨[([file], .file (encodeUtf8 content))]⟩, [], "/", []⟩,
      { workspaceRoot := ⟨.root, []⟩ }, ⟨2024, 2, 29, 1, 2, 3, 4, 0⟩⟩
    ∃ result new, context.generate file none = .ok (result, some new) ∧
      result.status = .success ∧
      ∀ settings later, Moment.utc? later ≠ none → ∀ name ∈ [("imports" : Text), "classes"],
        context.ReadsAlike ⟨context.host.overwrite (Path.ofText file) new, settings, later⟩ file
          name := by
  intro file content context
  have hload : context.host.loadFile file = .ok content :=
    Host.loadFile_of_encodeUtf8 [file] (by decide +kernel)
  have hparse : Block.parse content = .ok none := by decide +kernel
  have hinterpreter : ¬ ['#', '!'] <+: content := by decide
  let names : List Text := ["imports", "classes"]
  have hsections : (context.index file).toOption.map (fun index => index.sections.map fun s =>
      (s.name, s.source)) = some (names.map fun name => (name, Section.Source.auto)) := by
    decide +kernel
  have hsuccess : (context.generate file none).toOption.map (·.1.status) = some .success := by
    decide +kernel
  show ∃ result new, _ ∧ _ ∧ ∀ settings later, _ → ∀ name ∈ names, _
  clear_value names context content file
  obtain ⟨⟨result, new?⟩, hgenerate, hsuccess⟩ := Fault.toOption_map_eq_some_iff.mp hsuccess
  obtain ⟨index, language, style, written, block, new, hindex, -, -, rfl, -, hread⟩ :=
    Context.readSection_of_generate hload hparse hinterpreter hgenerate hsuccess
  refine ⟨result, new, hgenerate, hsuccess, fun settings later hlater name hname => ?_⟩
  rw [hindex] at hsections
  have hsections : (index.sections.map fun s => (s.name, s.source)) =
      names.map fun name => (name, Section.Source.auto) := Option.some.inj hsections
  -- each of the names is that of a detected section of the index
  have hfound : (name, Section.Source.auto) ∈ index.sections.map fun s => (s.name, s.source) := by
    rw [hsections]
    exact List.mem_map_of_mem hname
  obtain ⟨s, hs, heq⟩ := List.mem_map.mp hfound
  obtain ⟨rfl, hsource⟩ := Prod.mk.inj heq
  exact (hread settings later hlater s hs).2.1 hsource

/-- A reader gets another text of a section of the source `source`, once the first index of the file
is written: the file has no block and does not begin with `#!`, and the index is written. -/
def Context.ReadsOtherwise (context : Context) (file content : Text)
    (source : Section.Source) : Prop :=
  ∃ index s result new, context.host.loadFile file = .ok content ∧
    Block.parse content = .ok none ∧ ¬ ['#', '!'] <+: content ∧
    context.index file = .ok index ∧ s ∈ index.sections ∧ s.source = source ∧
    context.generate file none = .ok (result, some new) ∧ result.status = .success ∧
    ¬ context.ReadsAlike ⟨context.host.overwrite (Path.ofText file) new, context.settings,
      context.now⟩ file s.name

/-- What a reader gets at two times tells whether a section is read alike. -/
theorem Context.readsOtherwise_of_ne {context : Context} {file content : Text} (s s' : Section)
    (text text' : Text) (hload : context.host.loadFile file = .ok content)
    (hparse : Block.parse content = .ok none) (hinterpreter : ¬ ['#', '!'] <+: content)
    (hindex : (context.index file).toOption.map (fun index => decide (s ∈ index.sections)) =
      some true)
    (hbefore : context.readSection file s.name = .ok (.text s text))
    (hafter : (context.generate file none).toOption.map (fun outcome => (outcome.1.status,
      outcome.2.map fun new => Context.readSection ⟨context.host.overwrite (Path.ofText file) new,
        context.settings, context.now⟩ file s.name)) =
      some (.success, some (.ok (.text s' text'))))
    (hne : text ≠ text') : context.ReadsOtherwise file content s.source := by
  obtain ⟨index, hindex, hs⟩ := Fault.toOption_map_eq_some_iff.mp hindex
  obtain ⟨⟨result, new?⟩, hgenerate, houtcome⟩ := Fault.toOption_map_eq_some_iff.mp hafter
  obtain ⟨hsuccess, hwritten⟩ := Prod.mk.inj houtcome
  obtain ⟨new, rfl, hread⟩ := Option.map_eq_some_iff.mp hwritten
  refine ⟨index, s, result, new, hload, hparse, hinterpreter, hindex, of_decide_eq_true hs, rfl,
    hgenerate, hsuccess, ?_⟩
  rintro ⟨s₁, s₂, common, htext, htext'⟩
  have hold := htext.symm.trans hbefore
  have hnew := htext'.symm.trans hread
  simp only [Except.ok.injEq, ReadResult.text.injEq] at hold hnew
  exact hne (hold.2.symm.trans hnew.2)

/-- **Sections that are not read alike.** The line numbers of a companion document are those of the
file as it was, and there the block stands now. A marked section is lost if a row of the block is
taken for a mark: the row of the first section opens another one of the name of the second. -/
theorem Context.not_readsAlike_of_companion_of_row :
    let contextOf := fun files : List (Location × Entry) =>
      (⟨⟨⟨files⟩, [], "/", []⟩, { workspaceRoot := ⟨.root, []⟩ }, ⟨2024, 2, 29, 1, 2, 3, 4, 0⟩⟩ :
        Context)
    let plain : Text := "x = 1\n"
    let document : Text := "## Sections\n| foo | 1 |\n"
    let marked : Text := "//#region a — // SECTION: bbbbbbbb\n// SECTION: bbbbbbbb |\n"
    (contextOf [(["a.py"], .file (encodeUtf8 plain)),
        (["a.py.ai.md"], .file (encodeUtf8 document))]).ReadsOtherwise "a.py" plain .companion ∧
      (contextOf [(["a.ts"], .file (encodeUtf8 marked))]).ReadsOtherwise "a.ts" marked
        .explicit := by
  intro contextOf plain document marked
  constructor
  · exact Context.readsOtherwise_of_ne ⟨"foo", 1, 1, [], .companion⟩ ⟨"foo", 1, 1, [], .companion⟩
      "x = 1" "# @ai-index" (Host.loadFile_of_encodeUtf8 ["a.py"] (by decide +kernel))
      (by decide +kernel) (by decide) (by decide +kernel) (by decide +kernel) (by decide +kernel)
      (by decide)
  · -- the section that the row opens ends where the block does
    let rows : List Text :=
      [" * | a                    |   12 |   12 |    1 | // SECTION: bbbbbbbb |",
       " * | bbbbbbbb \\|          |   13 |   13 |    1 |                      |", " */", []]
    exact Context.readsOtherwise_of_ne ⟨"bbbbbbbb |", 2, 2, [], .explicit⟩
      ⟨"bbbbbbbb |", 8, 11, [], .explicit⟩ "// SECTION: bbbbbbbb |" (Text.join ['\n'] rows)
      (Host.loadFile_of_encodeUtf8 ["a.ts"] (by decide +kernel)) (by decide +kernel)
      (by decide +kernel) (by decide +kernel) (by decide +kernel) (by decide +kernel)
      (by decide +kernel)

end SectionIndex
