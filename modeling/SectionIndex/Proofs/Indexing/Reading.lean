import SectionIndex.Proofs.Scan.Tiling
import SectionIndex.Proofs.Service.Listing
import SectionIndex.Proofs.Upkeep.FirstIndex

/-!
# Sections that are read together

Whoever reads a section gets its lines, and whoever reads all the sections of a file that nobody has
divided gets the file. No two sections of an index have one name, so each of them is read by its
own. The lines of a section are told by their numbers, from one on; the last number can lie behind
the last line of the file. Detected sections follow each other without a gap, so what their texts
give together lacks only the lines before the first one that is detected.

## Main definitions

* `Text.linesBetween` — the lines of a file from one number to another.
* `Section.textIn` — the lines of a section as one text.

## Main statements

* `sectionText_eq_textIn` — what is read of a section is the lines of its numbers.
* `Language.IsTiling.join_textIn` — the texts of sections that tile a file give its lines.
* `Context.readSection_index` — what can be read of the sections of an index.
-/

namespace SectionIndex

/-! ### Lines by their numbers -/

namespace Text

/-- **The lines of a file from one number to another**, both included; the first line has number
one. -/
def linesBetween (lines : List Text) (first last : Int) : List Text :=
  ((lines.zipIdx 1).filter fun (_, number) => first ≤ number ∧ number ≤ last).map Prod.fst

/-- Lines that are numbered from any number on. -/
private theorem map_filter_zipIdx (lines : List Text) (start : Nat) (first last : Int) :
    ((lines.zipIdx start).filter fun (_, number) => first ≤ number ∧ number ≤ last).map Prod.fst =
      (lines.take (last + 1 - start).toNat).drop (first - start).toNat := by
  -- by induction on the lines: the first one has the number `start`
  induction lines generalizing start with
  | nil => simp
  | cons line lines ih =>
    have hrest := ih (start + 1)
    rw [List.zipIdx_cons, List.filter_cons]
    by_cases hlast : (start : Int) ≤ last
    · have htake : (last + 1 - start).toNat = (last + 1 - (start + 1 : Nat)).toNat + 1 := by omega
      rw [htake, List.take_succ_cons]
      by_cases hfirst : first ≤ start
      · -- the line is taken, and so are all after it up to the last
        have hnone : (first - start).toNat = 0 := by omega
        have hnone' : (first - (start + 1 : Nat)).toNat = 0 := by omega
        rw [hnone', List.drop_zero] at hrest
        rw [if_pos (decide_eq_true ⟨hfirst, hlast⟩), List.map_cons, hrest, hnone, List.drop_zero]
      · have hdrop : (first - start).toNat = (first - (start + 1 : Nat)).toNat + 1 := by omega
        rw [if_neg (by simp [hfirst]), hrest, hdrop, List.drop_succ_cons]
    · have htake : (last + 1 - start).toNat = 0 := by omega
      have htake' : (last + 1 - (start + 1 : Nat)).toNat = 0 := by omega
      rw [htake', List.take_zero, List.drop_nil] at hrest
      rw [if_neg (by simp [hlast]), hrest, htake, List.take_zero, List.drop_nil]

/-- The lines between two numbers are a slice. -/
theorem linesBetween_eq (lines : List Text) (first last : Int) :
    linesBetween lines first last = (lines.take last.toNat).drop (first - 1).toNat := by
  have hslice := map_filter_zipIdx lines 1 first last
  rwa [Int.natCast_one, Int.add_sub_cancel] at hslice

/-- The lines of two numbers that are counted from zero. -/
theorem linesBetween_natCast (lines : List Text) (low high : Nat) :
    linesBetween lines ((low + 1 : Nat) : Int) high = (lines.take high).drop low := by
  rw [linesBetween_eq, Int.toNat_natCast, Int.natCast_add, Int.natCast_one, Int.add_sub_cancel,
    Int.toNat_natCast]

/-- **Lines that follow each other** up to the last line of a file. -/
theorem linesBetween_append {lines : List Text} {low middle : Nat} (h : low ≤ middle) :
    linesBetween lines ((low + 1 : Nat) : Int) middle ++ lines.drop middle = lines.drop low := by
  have hrest : lines.drop middle = (lines.drop low).drop (middle - low) := by
    rw [List.drop_drop, Nat.add_sub_cancel' h]
  rw [linesBetween_natCast, List.drop_take, hrest, List.take_append_drop]

end Text

/-! ### The texts of sections -/

namespace Section

/-- **The lines of a section as one text:** those of its numbers that the file has. -/
def textIn (lines : List Text) (s : Section) : Text :=
  Text.join ['\n'] (Text.linesBetween lines s.first (min s.last lines.length))

/-- The text of a section does not depend on its name. -/
theorem textIn_describe (lines : List Text) (s : Section) :
    s.describe.textIn lines = s.textIn lines := by
  rw [textIn, describe_first, describe_last, textIn]

/-- The section that covers a file has its whole text. -/
theorem textIn_fallback {lines : List Text} (h : lines ≠ []) :
    (fallback lines.length).textIn lines = Text.join ['\n'] lines := by
  have hlines : 0 < lines.length := List.length_pos_of_ne_nil h
  have hlast : min (max (lines.length : Int) 1) lines.length = lines.length := by omega
  have hwhole := Text.linesBetween_natCast lines 0 lines.length
  rw [List.take_length, List.drop_zero] at hwhole
  show Text.join ['\n'] (Text.linesBetween lines 1 (min (max lines.length 1) lines.length)) = _
  rw [hlast]
  exact congrArg (Text.join ['\n']) hwhole

end Section

/-- **What is read of a section** is the lines of its numbers. -/
theorem sectionText_eq_textIn (lines : List Text) (s : Section) :
    sectionText lines s = s.textIn lines := by
  have hlast : (min s.last lines.length).toNat = min s.last.toNat lines.length := by omega
  rw [sectionText, Section.textIn, Text.linesBetween_eq, hlast, ← List.take_eq_take_min]

namespace Language.IsTiling

variable {language : Language} {lines : List Text} {low : Nat} {s : Section}
  {sections : List Section}

/-- The text of a section within a file, whose lines are counted from zero. -/
private theorem textIn_eq {last : Nat} (hfirst : s.first = (low + 1 : Nat)) (hlast : s.last = last)
    (h : last ≤ lines.length) :
    s.textIn lines = Text.join ['\n'] (Text.linesBetween lines ((low + 1 : Nat) : Int) last) := by
  have hmin : min (last : Int) lines.length = last := by omega
  rw [Section.textIn, hfirst, hlast, hmin]

/-- **The texts of sections that tile a file** give the lines from the first of them on. -/
theorem join_textIn (h : language.IsTiling lines (low + 1) sections) :
    Text.join ['\n'] (sections.map (Section.textIn lines)) =
      Text.join ['\n'] (lines.drop low) := by
  -- by induction on the sections: what follows the first one tiles the lines behind it
  induction sections generalizing low with
  | nil => cases h.first_eq
  | cons s sections ih =>
    have hfirst : s.first = (low + 1 : Nat) := Option.some.inj h.first_eq
    cases sections with
    | nil =>
      have hlast : s.last = lines.length := Option.some.inj h.last_eq
      rw [List.map_singleton, Text.join_singleton, textIn_eq hfirst hlast (Nat.le_refl _),
        Text.linesBetween_natCast, List.take_length]
    | cons t sections =>
      obtain ⟨middle, hlast, hlow, hrest⟩ := h.exists_of_cons
      have hmiddle : middle + 1 ≤ lines.length := hrest.low_le_length
      have hbefore : Text.linesBetween lines ((low + 1 : Nat) : Int) middle ≠ [] := by
        rw [Text.linesBetween_natCast, ne_eq, List.drop_eq_nil_iff, List.length_take]
        omega
      have hafter : lines.drop middle ≠ [] := by
        rw [ne_eq, List.drop_eq_nil_iff]
        omega
      calc Text.join ['\n'] ((s :: t :: sections).map (Section.textIn lines))
          = s.textIn lines ++ ['\n'] ++
              Text.join ['\n'] ((t :: sections).map (Section.textIn lines)) := by
            rw [List.map_cons, Text.join_cons_of_ne_nil _ _ (by simp)]
        _ = Text.join ['\n'] (Text.linesBetween lines ((low + 1 : Nat) : Int) middle) ++ ['\n'] ++
              Text.join ['\n'] (lines.drop middle) := by
            rw [ih hrest, textIn_eq hfirst hlast (by omega)]
        _ = Text.join ['\n'] (lines.drop low) := by
            rw [← Text.join_append _ hbefore hafter, Text.linesBetween_append (by omega)]

end Language.IsTiling

/-! ### Where the sections of an index come from -/

/-- **Sections that are chosen** cover no file for want of others, and if one of them is detected,
they are what the scan detects. -/
theorem eq_scanAuto_of_mem_chooseSections {companion? : Option Companion}
    {language? : Option Language} {lines : List Text} {s : Section}
    (hcompanion : ∀ document ∈ companion?, ∀ s ∈ document.sections, s.source = .companion)
    (hs : s ∈ chooseSections companion? language? lines) :
    s.source ≠ .fallback ∧ (s.source = .auto →
      chooseSections companion? language? lines = scanAuto language? lines) := by
  -- what is found in the file itself is marked, or detected where nothing is marked
  have hscanned : s ∈ chooseSections.scanned language? lines → s.source ≠ .fallback ∧
      (s.source = .auto →
        chooseSections.scanned language? lines = scanAuto language? lines) := by
    intro hs
    unfold chooseSections.scanned at hs ⊢
    split at hs
    · refine ⟨?_, fun _ => rfl⟩
      rw [(exists_of_mem_scanAuto hs).1]
      exact nofun
    · rw [(isCutFrom_of_mem_scanExplicit hs).1]
      exact ⟨nofun, nofun⟩
  unfold chooseSections at hs ⊢
  split at hs
  · next document =>
    split at hs
    · rw [hcompanion document rfl s hs]
      exact ⟨nofun, nofun⟩
    · next hrows =>
      rw [if_neg hrows]
      exact hscanned hs
  · exact hscanned hs

namespace Context

variable {context : Context} {file : Text} {index : FileIndex}

/-- **What the index of a file is made of:** its text, and the sections that are chosen. -/
theorem exists_of_index (h : context.index file = .ok index) :
    ∃ content companion?, context.host.loadFile file = .ok content ∧
      context.indexOf file content = .ok index ∧
      (∀ document ∈ companion?, ∀ s ∈ document.sections, s.source = .companion) ∧
      index.sections = orFallback (Text.splitLines content).length (presentSections
        (chooseSections companion? (Language.ofPath? (Path.ofText file))
          (Text.splitLines content))) := by
  obtain ⟨content, hload, hindex⟩ := Fault.bind_eq_ok_iff.mp h
  refine ⟨content, ?_⟩
  obtain ⟨⟨sections, companion?⟩, hdetect, hrest⟩ := Fault.bind_eq_ok_iff.mp hindex
  obtain ⟨now, -, hrest⟩ := Fault.bind_eq_ok_iff.mp hrest
  cases hrest
  obtain ⟨hdocument, rfl⟩ := detect_eq_ok_iff.mp hdetect
  refine ⟨companion?, hload, hindex, ?_, rfl⟩
  rintro document rfl s hs
  obtain ⟨text, path, hread⟩ := Host.exists_parse_of_companionOf hdocument
  exact Companion.source_of_mem_sections hread hs

variable {content : Text} {companion? : Option Companion}

section Sources

variable {language? : Option Language} {lines : List Text} {sections : List Section}
  (hcompanion : ∀ document ∈ companion?, ∀ s ∈ document.sections, s.source = .companion)
  (hsections : sections = orFallback lines.length
    (presentSections (chooseSections companion? language? lines)))

include hcompanion hsections

/-- The sections are the one that covers the file, or they are shown from a list that begins with
one of the same source. -/
theorem sections_cases :
    sections = [Section.fallback lines.length] ∨ ∃ s ∈ chooseSections companion? language? lines,
      sections.head?.map Section.source = some s.source ∧ s.source ≠ .fallback ∧
      sections = presentSections (chooseSections companion? language? lines) := by
  have hsource := map_presentSections Section.source (fun _ _ => rfl) Section.describe_source
    (chooseSections companion? language? lines)
  -- either nothing is found, or the first section has the source of all
  cases hchosen : chooseSections companion? language? lines with
  | nil =>
    left
    rw [hsections, hchosen]
    rfl
  | cons s chosen =>
    right
    rw [hchosen, List.map_cons] at hsource
    have hne : presentSections (s :: chosen) ≠ [] := fun hnil => by
      rw [hnil] at hsource
      cases hsource
    have hs : s ∈ chooseSections companion? language? lines :=
      hchosen ▸ List.mem_cons_self
    rw [hchosen, orFallback, if_neg hne] at hsections
    refine ⟨s, List.mem_cons_self, ?_, (eq_scanAuto_of_mem_chooseSections hcompanion hs).1,
      hsections⟩
    rw [hsections, ← List.head?_map, hsource, List.head?_cons]

/-- **The text of the section that covers a file** is that of the file. -/
theorem join_textIn_of_fallback (hlines : lines ≠ [])
    (hsource : sections.head?.map Section.source = some .fallback) :
    Text.join ['\n'] (sections.map (Section.textIn lines)) = Text.join ['\n'] lines := by
  rcases sections_cases hcompanion hsections with rfl | ⟨s, -, hs, hother, -⟩
  · rw [List.map_singleton, Text.join_singleton, Section.textIn_fallback hlines]
  · rw [hs] at hsource
    exact absurd (Option.some.inj hsource) hother

/-- **The texts of detected sections** are those of the lines from the first one that is
detected on. -/
theorem exists_join_textIn_of_auto
    (hsource : sections.head?.map Section.source = some .auto) :
    ∃ language k, language? = some language ∧ lines.findIdx? language.isDetected = some k ∧
      Text.join ['\n'] (sections.map (Section.textIn lines)) =
        Text.join ['\n'] (lines.drop k) := by
  -- the fallback has another source, so the sections were detected
  rcases sections_cases hcompanion hsections with rfl | ⟨s, hs, hhead, -, hshown⟩
  · cases hsource
  · have hauto : s.source = .auto := Option.some.inj (hhead.symm.trans hsource)
    have hscan := (eq_scanAuto_of_mem_chooseSections hcompanion hs).2 hauto
    rw [hscan] at hs hshown
    cases language? with
    | none => cases hs
    | some language =>
      have htiling := isTiling_scanAuto language lines
      cases hfind : lines.findIdx? language.isDetected with
      | none =>
        rw [hfind] at htiling
        rw [htiling] at hs
        cases hs
      | some k =>
        rw [hfind] at htiling
        refine ⟨language, k, rfl, hfind, ?_⟩
        rw [hshown, map_presentSections _ (fun _ _ => rfl) (Section.textIn_describe lines)]
        exact htiling.1.join_textIn

end Sources

/-- **What can be read of the sections of an index**, also at a later time. Each section is read by
its name and gives the lines of its numbers; a name that no section has gives the names there are.
The texts of all sections give the whole file if nothing was found in it, and what begins with the
first line that names a section if they were detected. -/
theorem readSection_index {later : Moment} (hlater : later.utc? ≠ none)
    (h : context.index file = .ok index) :
    ∃ content lines, context.host.loadFile file = .ok content ∧ lines = Text.splitLines content ∧
      (∀ s ∈ index.sections,
        (⟨context.host, context.settings, later⟩ : Context).readSection file s.name =
          .ok (.text s (s.textIn lines))) ∧
      (∀ name ∉ index.names,
        (⟨context.host, context.settings, later⟩ : Context).readSection file name =
          .ok (.unknown name index.names)) ∧
      (index.source = some .fallback →
        Text.join ['\n'] (index.sections.map (Section.textIn lines)) =
          Text.join ['\n'] lines) ∧
      (index.source = some .auto →
        ∃ language k, Language.ofPath? (Path.ofText file) = some language ∧
          lines.findIdx? language.isDetected = some k ∧
          Text.join ['\n'] (index.sections.map (Section.textIn lines)) =
            Text.join ['\n'] (lines.drop k)) := by
  obtain ⟨content, companion?, hload, hindex, hcompanion, hsections⟩ := exists_of_index h
  obtain ⟨index', hindex', hsame⟩ := exists_indexOf_later hlater hindex
  -- the section is looked for in the index that is found when it is read
  have hread : ∀ name, (⟨context.host, context.settings, later⟩ : Context).readSection file name =
      .ok ((index.find? name).elim (.unknown name index.names)
        fun s => .text s (s.textIn (Text.splitLines content))) := by
    intro name
    have hfind : index'.find? name = index.find? name := by rw [FileIndex.find?, hsame]; rfl
    have hnames : index'.names = index.names := congrArg (List.map Section.name) hsame
    unfold readSection
    simp only [hload, hindex', bind, Except.bind, hfind, hnames, sectionText_eq_textIn]
    cases index.find? name with
    | some s => rfl
    | none => rfl
  refine ⟨content, _, hload, rfl, ?_, ?_, ?_, ?_⟩
  · intro s hs
    rw [hread, FileIndex.find?_of_mem (isSound_of_indexOf hindex).nodup_names hs]
    rfl
  · intro name hname
    rw [hread, FileIndex.find?_eq_none_iff.mpr hname]
    rfl
  · intro hsource
    exact join_textIn_of_fallback hcompanion hsections (Text.splitLines_ne_nil content) hsource
  · intro hsource
    exact exists_join_textIn_of_auto hcompanion hsections hsource

/-- The two sections of a script are read a year after they were listed, and give together what
follows its first line. -/
theorem readSection_index_of_script :
    let file : Text := "run.py"
    let content : Text := "# tools\nimport os\n\nclass A(B):\n  x = 1\n"
    let context : Context := ⟨⟨⟨[([file], .file (encodeUtf8 content))]⟩, [], "/", []⟩,
      { workspaceRoot := ⟨.root, []⟩ }, ⟨2024, 2, 29, 1, 2, 3, 4, 0⟩⟩
    let later : Moment := ⟨2025, 2, 28, 1, 2, 3, 4, 0⟩
    let lines : List Text := ["# tools", "import os", [], "class A(B):", "  x = 1"]
    let imports : Section := ⟨"imports", 2, 3, "External dependencies", .auto⟩
    let classes : Section := ⟨"classes", 4, 5, "Class definitions", .auto⟩
    let reader : Context := ⟨context.host, context.settings, later⟩
    later.utc? ≠ none ∧ ∃ index, context.index file = .ok index ∧
      index.sections = [imports, classes] ∧ index.source = some .auto ∧
      reader.readSection file "imports" = .ok (.text imports "import os\n") ∧
      reader.readSection file "classes" = .ok (.text classes "class A(B):\n  x = 1") ∧
      reader.readSection file "main" = .ok (.unknown "main" ["imports", "classes"]) ∧
      Text.join ['\n'] (index.sections.map (Section.textIn lines)) =
        "import os\n\nclass A(B):\n  x = 1" := by
  intro file content context later lines imports classes reader
  have hlater : later.utc? ≠ none := by decide
  have hload : context.host.loadFile file = .ok content :=
    Host.loadFile_of_encodeUtf8 [file] (by decide +kernel)
  have hdetect : context.detect file (Text.splitLines content) =
      .ok ([imports, classes], none) := by
    decide +kernel
  have hnow : context.utcNow = .ok context.now := by decide +kernel
  obtain ⟨index, hindex, hsections⟩ : ∃ index, context.index file = .ok index ∧
      index.sections = [imports, classes] :=
    ⟨_, Fault.bind_eq_ok_iff.mpr ⟨content, hload, Fault.bind_eq_ok_iff.mpr
      ⟨_, hdetect, Fault.bind_eq_ok_iff.mpr ⟨_, hnow, rfl⟩⟩⟩, rfl⟩
  have hsource : index.source = some .auto := by
    rw [FileIndex.source, hsections]
    rfl
  have hnames : index.names = (["imports", "classes"] : List Text) := by
    rw [FileIndex.names, hsections]
    rfl
  obtain ⟨content', lines', hload', hlines', hread, hunknown, -, hauto⟩ :=
    readSection_index hlater hindex
  obtain rfl : content = content' := Except.ok.inj (hload.symm.trans hload')
  obtain rfl : lines' = lines := hlines'.trans (by decide +kernel)
  obtain ⟨language, k, hlanguage, hfirst, hjoin⟩ := hauto hsource
  -- the language is found by the extension, and the first line of the script names no section
  obtain rfl : k = 1 := by
    have hfind : (Language.ofPath? (Path.ofText file)).bind
        (fun language => lines.findIdx? language.isDetected) = some 1 := by
      decide +kernel
    rw [hlanguage] at hfind
    exact Option.some.inj (hfirst.symm.trans hfind)
  have himports : reader.readSection file "imports" = _ :=
    hread imports (by rw [hsections]; exact List.mem_cons_self)
  have hclasses : reader.readSection file "classes" = _ :=
    hread classes (by rw [hsections]; exact List.mem_cons_of_mem _ List.mem_cons_self)
  have hmain : reader.readSection file "main" = _ := hunknown "main" (by rw [hnames]; decide)
  rw [hnames] at hmain
  have htexts : imports.textIn lines = "import os\n" ∧
      classes.textIn lines = "class A(B):\n  x = 1" := by
    decide +kernel
  rw [htexts.1] at himports
  rw [htexts.2] at hclasses
  exact ⟨hlater, index, hindex, hsections, hsource, himports, hclasses, hmain,
    hjoin.trans (by decide +kernel)⟩

end Context

end SectionIndex
