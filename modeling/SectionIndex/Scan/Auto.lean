import SectionIndex.Language.Basic
import SectionIndex.Text.Lines

/-!
# Detected sections

Sections of a file without marks. Lines that look like the start of something name a section; it
lasts until a line that names another one.

## Main definitions

* `sectionsOfDetections`, `scanAuto`.
-/

namespace SectionIndex

/-- The section that is open, ended on a line, if there is one. -/
def closeDetected (current : Option (Text × Nat)) (last : Nat) : List Section :=
  (current.map fun (name, first) => ⟨name, first, last, [], .auto⟩).toList

/-- The sections from line `number` on, given for each line what it tends to open; `current` is
the name of the open section and its first line. -/
def sectionsOfDetections :
    (current : Option (Text × Nat)) → (number : Nat) → List (Option Text) → List Section
  | current, number, [] => closeDetected current (number - 1)
  | current, number, none :: detections =>
    sectionsOfDetections current (number + 1) detections
  | current, number, some name :: detections =>
    if current.map Prod.fst = some name then
      sectionsOfDetections current (number + 1) detections
    else
      closeDetected current (number - 1) ++
        sectionsOfDetections (some (name, number)) (number + 1) detections

/-- **The detected sections** of the lines of a file. -/
def scanAuto (language? : Option Language) (lines : List Text) : List Section :=
  match language? with
  | some language =>
    sectionsOfDetections none 1 (lines.map fun line => language.detect? (Text.dropReturns line))
  | none => []

@[simp] theorem scanAuto_none (lines : List Text) : scanAuto none lines = [] := rfl

end SectionIndex
