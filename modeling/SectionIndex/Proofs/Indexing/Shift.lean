import SectionIndex.Indexing.Resolve
import SectionIndex.Proofs.Scan.Names
import SectionIndex.Proofs.Scan.Replaced
import SectionIndex.Proofs.Section.Unique

/-!
# Sections of lines that have moved

The sections that are shown move as those that are found do: neither their descriptions nor the
numbers after their names depend on where they stand.

## Main definitions

* `Section.relined` — a section on other lines.
* `Language.PassesOver` — a line that means nothing among the lines of a file.

## Main statements

* `scanned_append` — the sections that are found after lines that mean nothing.
* `scanned_replaced` — the sections that are found when such lines are replaced.
* `presentSections_moved` — the sections that are shown move with those that are found.
* `exists_of_mem_presentSections` — they stand where these stand.
-/

namespace SectionIndex

variable {sections : List Section} {language : Language}

/-! ### Sections that are shown -/

namespace Section

/-- **The section on other lines.** -/
def relined (first last : Int → Int) (s : Section) : Section :=
  { s with first := first s.first, last := last s.last }

variable (first last : Int → Int)

theorem describe_relined (s : Section) :
    (s.relined first last).describe = s.describe.relined first last := by
  unfold describe relined
  split <;> rfl

theorem renameRepeated_relined (taken : List Text) (seen : List (Text × Nat)) :
    renameRepeated taken seen (sections.map (relined first last)) =
      (renameRepeated taken seen sections).map (relined first last) := by
  induction sections generalizing taken seen with
  | nil => rfl
  | cons s sections ih =>
    have hname : (s.relined first last).name = s.name := rfl
    rw [List.map_cons, renameRepeated, renameRepeated, hname]
    cases seen.lookup s.name with
    | none => exact congrArg (s.relined first last :: ·) (ih taken _)
    | some count => exact congrArg (List.cons _) (ih _ _)

theorem uniqueNames_relined :
    uniqueNames (sections.map (relined first last)) =
      (uniqueNames sections).map (relined first last) := by
  have hnames : (sections.map (relined first last)).map name = sections.map name := by
    rw [List.map_map]
    rfl
  rw [uniqueNames, uniqueNames, hnames, renameRepeated_relined]

end Section

/-- **What is shown of sections on other lines** is the same on these lines. -/
theorem presentSections_relined (first last : Int → Int) :
    presentSections (sections.map (Section.relined first last)) =
      (presentSections sections).map (Section.relined first last) := by
  have hdescribe : (sections.map (Section.relined first last)).map Section.describe =
      (sections.map Section.describe).map (Section.relined first last) := by
    rw [List.map_map, List.map_map]
    exact List.map_congr_left fun s _ => Section.describe_relined first last s
  rw [presentSections, hdescribe, Section.uniqueNames_relined]
  rfl

/-- **The sections that are shown move** with those that are found. -/
theorem presentSections_moved (d : Int) :
    presentSections (sections.map (Section.moved d)) =
      (presentSections sections).map (Section.moved d) :=
  presentSections_relined (· + d) (· + d)

theorem presentSections_carried (threshold delta : Int) :
    presentSections (sections.map (Section.carried threshold delta)) =
      (presentSections sections).map (Section.carried threshold delta) :=
  presentSections_relined _ _

/-- **Where sections are shown** is where they are found, and they come from there. -/
theorem exists_of_mem_presentSections {s : Section} (h : s ∈ presentSections sections) :
    ∃ s₀ ∈ sections, s.first = s₀.first ∧ s.last = s₀.last ∧ s.source = s₀.source := by
  obtain ⟨s₁, hs₁, heq, -⟩ := Section.exists_of_mem_uniqueNames h
  obtain ⟨s₀, hs₀, rfl⟩ := List.mem_map.mp hs₁
  refine ⟨s₀, hs₀, ?_⟩
  rw [heq]
  exact ⟨s₀.describe_first, s₀.describe_last, s₀.describe_source⟩

/-! ### Sections that are found -/

@[simp] theorem scanned_nil (language? : Option Language) :
    chooseSections.scanned language? [] = [] := by
  rw [chooseSections.scanned, scanExplicit_nil, scanAuto_nil]

/-- **Lines that open no section** move the sections that are found after them. If there are marks,
it does not matter what else these lines look like. -/
theorem scanned_append_of_not_opens {before : List Text} (lines : List Text)
    (hmarks : ∀ line ∈ before, ¬ (language.markOf line).Opens)
    (hdetect : scanExplicit (some language) lines = [] →
      ∀ line ∈ before, language.detect? (Text.dropReturns line) = none) :
    chooseSections.scanned (some language) (before ++ lines) =
      (chooseSections.scanned (some language) lines).map (Section.moved before.length) := by
  have hexplicit := scanExplicit_append_of_not_opens lines hmarks
  unfold chooseSections.scanned
  rw [hexplicit]
  cases hfound : scanExplicit (some language) lines with
  | nil => exact scanAuto_append lines (hdetect hfound)
  | cons s sections => rfl

/-- **Lines that mean nothing** move the sections that are found after them. -/
theorem scanned_append {before : List Text} (lines : List Text)
    (hmarks : ∀ line ∈ before, language.markOf line = .plain)
    (hdetect : scanExplicit (some language) lines = [] →
      ∀ line ∈ before, language.detect? (Text.dropReturns line) = none) :
    chooseSections.scanned (some language) (before ++ lines) =
      (chooseSections.scanned (some language) lines).map (Section.moved before.length) :=
  scanned_append_of_not_opens lines
    (fun line hline => Mark.not_opens_of_eq_plain (hmarks line hline)) hdetect

/-- **The line means nothing among the lines of a file:** it is no mark, and nothing is detected in
it if sections are detected at all. -/
structure Language.PassesOver (language : Language) (lines : List Text) (line : Text) : Prop where
  markOf_eq : language.markOf line = .plain
  detect?_eq : scanExplicit (some language) lines = [] →
    language.detect? (Text.dropReturns line) = none

/-- **The sections that are found when lines are replaced** that mean nothing. -/
theorem scanned_replaced {before old new : List Text} (after : List Text)
    (hends : old ≠ [] ∨ before.length ≤ 1)
    (hold : ∀ line ∈ old, language.PassesOver (before ++ (old ++ after)) line)
    (hnew : ∀ line ∈ new, language.PassesOver (before ++ (old ++ after)) line) :
    chooseSections.scanned (some language) (before ++ (new ++ after)) =
      (chooseSections.scanned (some language) (before ++ (old ++ after))).map
        (Section.carried (before.length + old.length + 1) (new.length - old.length)) := by
  have hexplicit := scanExplicit_replaced after hends
    (fun line hline => (hold line hline).markOf_eq) fun line hline => (hnew line hline).markOf_eq
  unfold chooseSections.scanned
  rw [hexplicit]
  cases hfound : scanExplicit (some language) (before ++ (old ++ after)) with
  | nil =>
    exact scanAuto_replaced after hends (fun line hline => (hold line hline).detect?_eq hfound)
      fun line hline => (hnew line hline).detect?_eq hfound
  | cons s sections => rfl

/-- No section that is found in a file comes from a companion document. -/
theorem source_of_mem_scanned {language? : Option Language} {lines : List Text} {s : Section}
    (h : s ∈ chooseSections.scanned language? lines) : s.source ≠ .companion := by
  unfold chooseSections.scanned at h
  split at h
  · rw [(exists_of_mem_scanAuto h).1]
    decide
  · rw [(isCutFrom_of_mem_scanExplicit h).1]
    decide

theorem bounds_of_mem_scanned {language? : Option Language} {lines : List Text} {s : Section}
    (h : s ∈ chooseSections.scanned language? lines) : 1 ≤ s.first ∧ s.first ≤ s.last := by
  unfold chooseSections.scanned at h
  split at h
  · exact bounds_of_mem_scanAuto h
  · exact bounds_of_mem_scanExplicit h

end SectionIndex
