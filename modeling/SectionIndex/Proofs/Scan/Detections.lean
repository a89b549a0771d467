import SectionIndex.Scan.Auto
import SectionIndex.Scan.Explicit

/-!
# Detections as marks

A line that names another section than the open one opens that section, and any other line means
nothing. So detections are marks that open sections without a description, and what is known of
sections between marks is known of detected sections too.

## Main definitions

* `marksOfDetections` — detections as marks.
* `Section.detected` — a section that is detected.

## Main statements

* `sectionsOfDetections_eq` — the sections of detections are those of their marks.
* `exists_marksOfDetections_append` — the marks of detections before others do not depend on these.
-/

namespace SectionIndex

/-- **Detections as marks**, where a section of the name `current` is open. -/
def marksOfDetections : (current : Option Text) → List (Option Text) → List Mark
  | _, [] => []
  | current, none :: detections => .plain :: marksOfDetections current detections
  | current, some name :: detections =>
    if current = some name then .plain :: marksOfDetections current detections
    else .opening name [] :: marksOfDetections (some name) detections

@[simp] theorem length_marksOfDetections (current : Option Text)
    (detections : List (Option Text)) :
    (marksOfDetections current detections).length = detections.length := by
  induction detections generalizing current with
  | nil => rfl
  | cons detection detections ih =>
    cases detection with
    | none => exact congrArg Nat.succ (ih current)
    | some name =>
      rw [marksOfDetections]
      split
      · exact congrArg Nat.succ (ih current)
      · exact congrArg Nat.succ (ih (some name))

/-- A detected section that is not ended yet. -/
def OpenSection.ofDetected (o : Text × Nat) : OpenSection :=
  ⟨o.1, [], o.2⟩

/-- **A section that is detected**, and not marked by an author. -/
def Section.detected (s : Section) : Section :=
  { s with source := .auto }

theorem closeDetected_eq (current : Option (Text × Nat)) (last : Nat) :
    closeDetected current last =
      (closeAt (current.map OpenSection.ofDetected) last).map Section.detected := by
  cases current <;> rfl

/-- **The sections of detections** are those of their marks. -/
theorem sectionsOfDetections_eq (current : Option (Text × Nat)) (number : Nat)
    (detections : List (Option Text)) :
    sectionsOfDetections current number detections =
      (sectionsOfMarks (current.map OpenSection.ofDetected) number
        (marksOfDetections (current.map Prod.fst) detections)).map Section.detected := by
  induction detections generalizing current number with
  | nil => exact closeDetected_eq current (number - 1)
  | cons detection detections ih =>
    cases detection with
    | none => exact ih current (number + 1)
    | some name =>
      rw [sectionsOfDetections, marksOfDetections]
      split
      · exact ih current (number + 1)
      · rw [sectionsOfMarks, List.map_append, closeDetected_eq]
        exact congrArg _ (ih (some (name, number)) (number + 1))

/-- **The detected sections of lines** are those of the marks of what is detected in them. -/
theorem scanAuto_eq (language : Language) (lines : List Text) :
    scanAuto (some language) lines = (sectionsOfMarks none 1 (marksOfDetections none
      (lines.map fun line => language.detect? (Text.dropReturns line)))).map Section.detected :=
  sectionsOfDetections_eq none 1 _

/-- **The marks of detections before others** do not depend on these. -/
theorem exists_marksOfDetections_append (current : Option Text) (before : List (Option Text)) :
    ∃ marks current', marks.length = before.length ∧ ∀ detections,
      marksOfDetections current (before ++ detections) =
        marks ++ marksOfDetections current' detections := by
  -- by induction on what is detected, with the name of the open section as a parameter
  induction before generalizing current with
  | nil => exact ⟨[], current, rfl, fun _ => rfl⟩
  | cons detection before ih =>
    cases detection with
    | none =>
      obtain ⟨marks, current', hlength, hmarks⟩ := ih current
      exact ⟨.plain :: marks, current', congrArg Nat.succ hlength,
        fun detections => congrArg _ (hmarks detections)⟩
    | some name =>
      -- a line detected for the open section is plain, and any other one opens the next
      by_cases hsame : current = some name
      · obtain ⟨marks, current', hlength, hmarks⟩ := ih current
        refine ⟨.plain :: marks, current', congrArg Nat.succ hlength, fun detections => ?_⟩
        rw [List.cons_append, marksOfDetections, if_pos hsame, hmarks, List.cons_append]
      · obtain ⟨marks, current', hlength, hmarks⟩ := ih (some name)
        refine ⟨.opening name [] :: marks, current', congrArg Nat.succ hlength,
          fun detections => ?_⟩
        rw [List.cons_append, marksOfDetections, if_neg hsame, hmarks, List.cons_append]

/-- Lines in which nothing is detected are no marks. -/
theorem marksOfDetections_append_of_none {nothing : List (Option Text)} (current : Option Text)
    (detections : List (Option Text)) (h : ∀ detection ∈ nothing, detection = none) :
    marksOfDetections current (nothing ++ detections) =
      List.replicate nothing.length .plain ++ marksOfDetections current detections := by
  induction nothing with
  | nil => rfl
  | cons detection nothing ih =>
    obtain ⟨rfl, hnothing⟩ := List.forall_mem_cons.mp h
    exact congrArg _ (ih hnothing)

end SectionIndex
