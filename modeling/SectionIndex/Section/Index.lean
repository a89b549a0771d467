import SectionIndex.Section.Basic
import SectionIndex.Time.Moment

/-!
# The index of a file

What is known of a file once its sections are found: their list, the language of the file, and
what a companion document says about it. An index is computed anew for every question.
-/

namespace SectionIndex

/-- **The index of a file.** -/
structure FileIndex where
  path : Text
  language : Text
  totalLines : Nat
  sections : List Section
  generatedAt : Option Moment := none
  companionPath : Option Text := none
  description : Text := []
  notes : Text := []
  deriving DecidableEq, Repr

namespace FileIndex

/-- The names of the sections, in order. -/
def names (index : FileIndex) : List Text :=
  index.sections.map Section.name

/-- Where the sections come from; none if there are no sections. -/
def source (index : FileIndex) : Option Section.Source :=
  index.sections.head?.map Section.source

/-- **The first section of a name.** -/
def find? (index : FileIndex) (name : Text) : Option Section :=
  index.sections.find? (·.name == name)

/-- A section that is found has the name asked for and is one of the index. -/
theorem find?_eq_some {index : FileIndex} {name : Text} {s : Section}
    (h : index.find? name = some s) : s ∈ index.sections ∧ s.name = name :=
  ⟨List.mem_of_find?_eq_some h, by simpa using List.find?_some h⟩

/-- No section is found exactly when the name is not one of the names. -/
theorem find?_eq_none_iff {index : FileIndex} {name : Text} :
    index.find? name = none ↔ name ∉ index.names := by
  simp [find?, names]

end FileIndex

end SectionIndex
