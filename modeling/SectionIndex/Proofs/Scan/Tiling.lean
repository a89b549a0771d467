import SectionIndex.Scan.Auto
import Mathlib.Data.List.Chain

/-!
# Detected sections tile a file

The scan that detects sections keeps one section open until a line names another one. Nothing of a
file is left out from the first line on that names a section: the sections follow each other
without a gap, and each line lies in the section that the latest such line before it has named.

## Main definitions

* `Language.isDetected`, `Language.IsDetectedAs` — whether a line names a section, and which one.
* `Language.IsLatest` — the section that lines are in at their end.
* `Language.IsTiling` — sections that follow each other from a line on to the end of a file.

## Main statements

* `Language.IsTiling.countP_covers` — each line from the first one on lies in one section.
* `Language.exists_isTiling_sectionsOfDetections` — what the scan finds while a section is open.
* `isTiling_scanAuto` — the sections of a file tile it from the first line that names one.
-/

namespace SectionIndex

/-- The line is one of the section. -/
def Section.covers (s : Section) (n : Int) : Bool :=
  decide (s.first ≤ n ∧ n ≤ s.last)

theorem Section.covers_iff {s : Section} {n : Int} :
    s.covers n = true ↔ s.first ≤ n ∧ n ≤ s.last :=
  decide_eq_true_iff

namespace Language

variable (language : Language)

/-! ### The section that a line names -/

/-- **The line names a section:** a rule of the language accepts it. -/
def isDetected (line : Text) : Bool :=
  language.detectors.any (·.rule.accepts (Text.dropReturns line))

/-- **The section that a line names** is the one of the first rule that accepts it. -/
def IsDetectedAs (line name : Text) : Prop :=
  ∃ before detector after, language.detectors = before ++ detector :: after ∧
    (∀ d ∈ before, d.rule.accepts (Text.dropReturns line) = false) ∧
    detector.rule.accepts (Text.dropReturns line) = true ∧ detector.sectionName = name

/-- **The section that lines are in at their end** is the one that the latest line has named that
names one. -/
def IsLatest (lines : List Text) (name : Text) : Prop :=
  ∃ before line after, lines = before ++ line :: after ∧ language.IsDetectedAs line name ∧
    ∀ l ∈ after, language.isDetected l = false

variable {language} {lines : List Text} {line name : Text} {low n : Nat}
  {s : Section} {sections : List Section}

theorem detect?_eq_none_iff :
    language.detect? (Text.dropReturns line) = none ↔ language.isDetected line = false := by
  rw [detect?, Option.map_eq_none_iff, List.find?_eq_none, isDetected, List.any_eq_false]

theorem isDetectedAs_of_detect? (h : language.detect? (Text.dropReturns line) = some name) :
    language.IsDetectedAs line name := by
  obtain ⟨detector, hfind, hname⟩ := Option.map_eq_some_iff.mp h
  obtain ⟨haccepts, before, after, hdetectors, hbefore⟩ := List.find?_eq_some_iff_append.mp hfind
  refine ⟨before, detector, after, hdetectors, ?_, haccepts, hname⟩
  intro d hd
  simpa using hbefore d hd

/-- A line that names no section leaves the lines before it in theirs. -/
theorem IsLatest.concat (h : language.IsLatest lines name)
    (hline : language.isDetected line = false) : language.IsLatest (lines ++ [line]) name := by
  obtain ⟨before, named, after, rfl, hnamed, hafter⟩ := h
  refine ⟨before, named, after ++ [line], ?_, hnamed, ?_⟩
  · rw [List.append_assoc, List.cons_append]
  · rw [List.forall_mem_append]
    exact ⟨hafter, List.forall_mem_singleton.mpr hline⟩

/-- A line that names a section is the latest one. -/
theorem IsDetectedAs.isLatest_concat (h : language.IsDetectedAs line name) (lines : List Text) :
    language.IsLatest (lines ++ [line]) name :=
  ⟨lines, line, [], rfl, h, List.forall_mem_nil _⟩

/-! ### Tilings -/

variable (language)

/-- **Sections that tile a file** from line `low` on: they follow each other without a gap up to the
last line, no two neighbours have one name, and each line is in the section that was named last. -/
structure IsTiling (lines : List Text) (low : Nat) (sections : List Section) : Prop where
  first_eq : sections.head?.map Section.first = some (low : Int)
  last_eq : sections.getLast?.map Section.last = some (lines.length : Int)
  first_le_last : ∀ s ∈ sections, s.first ≤ s.last
  neighbours : sections.IsChain fun s t => t.first = s.last + 1 ∧ s.name ≠ t.name
  isLatest : ∀ s ∈ sections, ∀ n : Nat, s.covers n = true → language.IsLatest (lines.take n) s.name

variable {language}

namespace IsTiling

/-- A section tiles the lines from its first one on, if nothing after it names another one. -/
theorem singleton (hfirst : s.first = low) (hlast : s.last = lines.length)
    (hlines : low ≤ lines.length)
    (hlatest : ∀ n : Nat, s.covers n = true → language.IsLatest (lines.take n) s.name) :
    language.IsTiling lines low [s] where
  first_eq := congrArg some hfirst
  last_eq := congrArg some hlast
  first_le_last := by
    rw [List.forall_mem_singleton, hfirst, hlast]
    exact Int.ofNat_le.mpr hlines
  neighbours := List.isChain_singleton s
  isLatest := List.forall_mem_singleton.mpr hlatest

/-- **A section before a tiling** that starts after its last line. -/
theorem cons {t : Section} {middle : Nat} (h : language.IsTiling lines (middle + 1) (t :: sections))
    (hfirst : s.first = low) (hlast : s.last = middle) (hlines : low ≤ middle)
    (hname : s.name ≠ t.name)
    (hlatest : ∀ n : Nat, s.covers n = true → language.IsLatest (lines.take n) s.name) :
    language.IsTiling lines low (s :: t :: sections) where
  first_eq := congrArg some hfirst
  last_eq := by
    rw [List.getLast?_cons_cons]
    exact h.last_eq
  first_le_last := by
    refine List.forall_mem_cons.mpr ⟨?_, h.first_le_last⟩
    rw [hfirst, hlast]
    exact Int.ofNat_le.mpr hlines
  neighbours := by
    have hnext : t.first = (middle + 1 : Nat) := Option.some.inj h.first_eq
    refine List.isChain_cons_cons.mpr ⟨⟨?_, hname⟩, h.neighbours⟩
    rw [hnext, hlast]
    rfl
  isLatest := List.forall_mem_cons.mpr ⟨hlatest, h.isLatest⟩

/-- **What follows the first section of a tiling** tiles the lines after it. -/
theorem exists_of_cons {t : Section} (h : language.IsTiling lines low (s :: t :: sections)) :
    ∃ middle : Nat, s.last = middle ∧ low ≤ middle ∧
      language.IsTiling lines (middle + 1) (t :: sections) := by
  obtain ⟨hfirst, hlast, hlines, hneighbours, hlatest⟩ := h
  have hlow : s.first = low := Option.some.inj hfirst
  obtain ⟨hs, hrest⟩ := List.forall_mem_cons.mp hlines
  obtain ⟨⟨hnext, -⟩, hchain⟩ := List.isChain_cons_cons.mp hneighbours
  obtain ⟨middle, hmiddle⟩ : ∃ middle : Nat, s.last = middle :=
    Int.eq_ofNat_of_zero_le (by omega)
  refine ⟨middle, hmiddle, by omega, ?_, ?_, hrest, hchain, (List.forall_mem_cons.mp hlatest).2⟩
  · rw [hmiddle] at hnext
    exact congrArg some hnext
  · rw [List.getLast?_cons_cons] at hlast
    exact hlast

theorem low_le_length (h : language.IsTiling lines low sections) : low ≤ lines.length := by
  induction sections generalizing low with
  | nil => cases h.first_eq
  | cons s sections ih =>
    cases sections with
    | nil =>
      have hfirst : s.first = low := Option.some.inj h.first_eq
      have hlast : s.last = lines.length := Option.some.inj h.last_eq
      have hlines := h.first_le_last s (List.mem_singleton_self s)
      omega
    | cons t sections =>
      obtain ⟨middle, -, hlow, hrest⟩ := h.exists_of_cons
      have hmiddle := ih hrest
      omega

/-- **Each line lies in one section** from the first line of a tiling on, and no other line in
any. -/
theorem countP_covers (h : language.IsTiling lines low sections) (n : Int) :
    sections.countP (·.covers n) = if low ≤ n ∧ n ≤ lines.length then 1 else 0 := by
  -- by induction on the sections: the first one has the lines up to where the others start
  induction sections generalizing low with
  | nil => cases h.first_eq
  | cons s sections ih =>
    have hfirst : s.first = low := Option.some.inj h.first_eq
    cases sections with
    | nil =>
      have hlast : s.last = lines.length := Option.some.inj h.last_eq
      simp only [List.countP_singleton, Section.covers_iff, hfirst, hlast]
    | cons t sections =>
      obtain ⟨middle, hlast, hlow, hrest⟩ := h.exists_of_cons
      have hmiddle := hrest.low_le_length
      -- a line up to the middle lies in the first section only, and a later one in the others
      rw [List.countP_cons, ih hrest]
      simp only [Section.covers_iff, hfirst, hlast]
      split <;> split <;> split <;> omega

end IsTiling

/-! ### The scan -/

/-- **A section is open after some lines** that starts in line `first`: each line from there on is
in a section of its name. -/
structure IsOpen (language : Language) (lines : List Text) (name : Text) (first : Nat) : Prop where
  first_le : first ≤ lines.length
  isLatest : ∀ n, first ≤ n → n ≤ lines.length → language.IsLatest (lines.take n) name

/-- A section stays open as long as lines name no other one. -/
theorem IsOpen.concat {first : Nat} (h : language.IsOpen lines name first)
    (hlatest : language.IsLatest (lines ++ [line]) name) :
    language.IsOpen (lines ++ [line]) name first where
  first_le := by
    rw [List.length_append]
    exact Nat.le_add_right_of_le h.first_le
  isLatest := by
    intro n hfirst hn
    rcases Nat.le_or_eq_of_le_succ (by simpa using hn) with hbefore | rfl
    · rw [List.take_append_of_le_length hbefore]
      exact h.isLatest n hfirst hbefore
    · rw [List.take_of_length_le (by simp)]
      exact hlatest

theorem IsOpen.isLatest_length {first : Nat} (h : language.IsOpen lines name first) :
    language.IsLatest lines name := by
  have hlatest := h.isLatest lines.length h.first_le (Nat.le_refl _)
  rwa [List.take_length] at hlatest

/-- A line that names a section opens it. -/
theorem IsDetectedAs.isOpen_concat (h : language.IsDetectedAs line name) (lines : List Text) :
    language.IsOpen (lines ++ [line]) name (lines.length + 1) where
  first_le := by simp
  isLatest := by
    intro n hfirst hn
    rw [List.take_of_length_le (by simpa using hfirst)]
    exact h.isLatest_concat lines

/-- The section that is open after some lines, ended with them. -/
theorem IsOpen.isLatest_of_covers {first : Nat} (h : language.IsOpen lines name first)
    (rest : List Text) (n : Nat)
    (hn : Section.covers ⟨name, first, lines.length, [], .auto⟩ n = true) :
    language.IsLatest ((lines ++ rest).take n) name := by
  obtain ⟨hfirst, hlast⟩ := Section.covers_iff.mp hn
  rw [List.take_append_of_le_length (Int.ofNat_le.mp hlast)]
  exact h.isLatest n (Int.ofNat_le.mp hfirst) (Int.ofNat_le.mp hlast)

/-- **What the scan finds while a section is open:** that section first, and a tiling of the file
from its first line on. -/
theorem exists_isTiling_sectionsOfDetections {first : Nat} (rest : List Text)
    (h : language.IsOpen lines name first) :
    ∃ s sections, s.name = name ∧
      sectionsOfDetections (some (name, first)) (lines.length + 1)
        (rest.map fun line => language.detect? (Text.dropReturns line)) = s :: sections ∧
      language.IsTiling (lines ++ rest) first (s :: sections) := by
  -- by induction on the lines that are left; those that are read are the lines of the open section
  -- and the ones before it
  induction rest generalizing lines name first with
  | nil =>
    refine ⟨⟨name, first, lines.length, [], .auto⟩, [], rfl, rfl, ?_⟩
    rw [List.append_nil]
    refine .singleton rfl rfl h.first_le fun n hn => ?_
    have hlatest := h.isLatest_of_covers [] n hn
    rwa [List.append_nil] at hlatest
  | cons line rest ih =>
    have hlines : lines ++ line :: rest = lines ++ [line] ++ rest := List.append_cons ..
    have hlength : lines.length + 1 = (lines ++ [line]).length := by
      rw [List.length_append, List.length_singleton]
    rw [List.map_cons]
    cases hdetect : language.detect? (Text.dropReturns line) with
    | none =>
      -- the open section has this line too
      have hopen := h.concat (h.isLatest_length.concat (detect?_eq_none_iff.mp hdetect))
      rw [sectionsOfDetections, hlines, hlength]
      exact ih hopen
    | some found =>
      have hfound := isDetectedAs_of_detect? hdetect
      rw [sectionsOfDetections]
      split
      · next hsame =>
        obtain rfl : name = found := Option.some.inj hsame
        rw [hlines, hlength]
        exact ih (h.concat (hfound.isLatest_concat lines))
      · next hother =>
        -- the open section ends on the line before, and the others start on this one
        obtain ⟨t, sections, rfl, heq, htiling⟩ := ih (hfound.isOpen_concat lines)
        rw [← hlength] at heq
        rw [← hlines] at htiling
        rw [heq]
        refine ⟨⟨name, first, lines.length, [], .auto⟩, t :: sections, rfl, rfl, ?_⟩
        exact htiling.cons rfl rfl h.first_le (fun hname => hother (congrArg some hname))
          (h.isLatest_of_covers _)

end Language

/-- **Lines before the first one that names a section** lie in none. -/
theorem sectionsOfDetections_append_of_none {before : List (Option Text)} (number : Nat)
    (detections : List (Option Text)) (h : ∀ detection ∈ before, detection = none) :
    sectionsOfDetections none number (before ++ detections) =
      sectionsOfDetections none (number + before.length) detections := by
  induction before generalizing number with
  | nil => rfl
  | cons detection before ih =>
    obtain ⟨rfl, hbefore⟩ := List.forall_mem_cons.mp h
    rw [List.cons_append, sectionsOfDetections, ih _ hbefore, List.length_cons]
    congr 1
    omega

/-- The lines around the first one that a test holds of. -/
theorem exists_append_of_findIdx? {p : Text → Bool} {lines : List Text} {k : Nat}
    (h : lines.findIdx? p = some k) :
    ∃ before line after, lines = before ++ line :: after ∧ before.length = k ∧
      p line = true ∧ ∀ l ∈ before, p l = false := by
  obtain ⟨hk, hline, hfirst⟩ := List.findIdx?_eq_some_iff_getElem.mp h
  refine ⟨lines.take k, lines[k], lines.drop (k + 1), ?_,
    List.length_take_of_le (Nat.le_of_lt hk), hline, ?_⟩
  · rw [← List.drop_eq_getElem_cons, List.take_append_drop]
  · intro l hl
    obtain ⟨j, hj, rfl⟩ := List.mem_take_iff_getElem.mp hl
    exact eq_false_of_ne_true (hfirst j (by omega))

/-- **The detected sections of a file tile it** from the first line on that names a section, and
there are none if no line does. -/
theorem isTiling_scanAuto (language : Language) (lines : List Text) :
    match lines.findIdx? language.isDetected with
    | none => scanAuto (some language) lines = []
    | some k =>
      language.IsTiling lines (k + 1) (scanAuto (some language) lines) ∧
        ∀ n : Int, (scanAuto (some language) lines).countP (·.covers n) =
          if (k + 1 : Nat) ≤ n ∧ n ≤ lines.length then 1 else 0 := by
  have hnothing : ∀ before : List Text, (∀ l ∈ before, language.isDetected l = false) →
      ∀ detection ∈ before.map fun line => language.detect? (Text.dropReturns line),
        detection = none := by
    intro before hbefore
    rw [List.forall_mem_map]
    exact fun l hl => Language.detect?_eq_none_iff.mpr (hbefore l hl)
  cases hfind : lines.findIdx? language.isDetected with
  | none =>
    have hscan := sectionsOfDetections_append_of_none 1 []
      (hnothing lines (List.findIdx?_eq_none_iff.mp hfind))
    rw [List.append_nil] at hscan
    exact hscan
  | some k =>
    obtain ⟨before, line, after, rfl, rfl, hline, hbefore⟩ := exists_append_of_findIdx? hfind
    obtain ⟨name, hname⟩ : ∃ name, language.detect? (Text.dropReturns line) = some name := by
      rw [← Option.ne_none_iff_exists', ne_eq, Language.detect?_eq_none_iff, hline]
      exact Bool.true_eq_false.mp
    -- the first line that names a section opens it, and the scan goes on from there
    have hopen := (Language.isDetectedAs_of_detect? hname).isOpen_concat before
    obtain ⟨s, sections, -, heq, htiling⟩ :=
      Language.exists_isTiling_sectionsOfDetections after hopen
    have hscan : scanAuto (some language) (before ++ line :: after) = s :: sections := by
      rw [scanAuto, List.map_append, sectionsOfDetections_append_of_none 1 _ (hnothing _ hbefore),
        List.map_cons, hname, ← heq, List.length_map, List.length_append, List.length_singleton,
        Nat.add_comm 1]
      rfl
    rw [hscan]
    rw [← List.append_cons] at htiling
    exact ⟨htiling, htiling.countP_covers⟩

end SectionIndex
