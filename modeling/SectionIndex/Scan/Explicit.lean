import SectionIndex.Language.Basic
import SectionIndex.Text.Lines

/-!
# Explicit sections

Sections that an author has marked. A mark that opens a section ends the open one on the line
before, as sections do not nest; an end mark ends it on its own line; what is still open at the
end of the file runs to the last line.

## Main definitions

* `Mark`, `Language.markOf` — what a line means for the regions of a file.
* `scanExplicit` — the sections of the marks.
-/

namespace SectionIndex

/-- **What a line means** for the regions of a file. -/
inductive Mark
  | opening (name description : Text)
  | ending
  | plain
  deriving DecidableEq, Repr

namespace Language

/-- The mark of a line. A region start counts before a region end, and both before a section
marker. -/
def markOf (language : Language) (line : Text) : Mark :=
  let line := Text.dropReturns line
  match Rule.findIn language.regionStart line with
  | some found =>
    .opening ((found.group? 1).getD []).strip ((found.group? 2).getD []).strip
  | none =>
    match Rule.findIn language.regionEnd line with
    | some _ => .ending
    | none =>
      match Rule.findIn language.sectionMarker line with
      | some found => .opening ((found.group? 1).getD []).strip []
      | none => .plain

end Language

/-- A section that is not ended yet. -/
structure OpenSection where
  name : Text
  description : Text
  first : Nat
  deriving DecidableEq, Repr

/-- The section, ended on a line. -/
def OpenSection.close (s : OpenSection) (last : Nat) : Section :=
  ⟨s.name, s.first, last, s.description, .explicit⟩

/-- The section, ended on a line, if there is one. -/
def closeAt (current : Option OpenSection) (last : Nat) : List Section :=
  (current.map (·.close last)).toList

/-- The sections of the marks from line `number` on, of which `current` is open. -/
def sectionsOfMarks : (current : Option OpenSection) → (number : Nat) → List Mark → List Section
  | current, number, [] => closeAt current (number - 1)
  | current, number, .opening name description :: marks =>
    closeAt current (number - 1) ++
      sectionsOfMarks (some ⟨name, description, number⟩) (number + 1) marks
  | current, number, .ending :: marks =>
    closeAt current number ++ sectionsOfMarks none (number + 1) marks
  | current, number, .plain :: marks => sectionsOfMarks current (number + 1) marks

/-- **The sections an author has marked** in the lines of a file. -/
def scanExplicit (language? : Option Language) (lines : List Text) : List Section :=
  match language? with
  | some language =>
    if language.hasMarkers then sectionsOfMarks none 1 (lines.map language.markOf) else []
  | none => []

@[simp] theorem scanExplicit_none (lines : List Text) : scanExplicit none lines = [] := rfl

end SectionIndex
