import SectionIndex.Text.Basic

/-!
# Sections

A section is a named range of the lines of a file. Lines are numbered from 1 and both ends belong
to the section.

## Main definitions

* `Section`, `Section.Source`, `Section.size`.
* `Section.shifted` — the section after lines were added or taken away somewhere.
* `Section.fallback` — the one section of a file in which nothing else is found.
* `Section.describe` — the customary description of a section name.
-/

namespace SectionIndex

/-- Where a section comes from. -/
inductive Section.Source
  /-- A table in a companion document, written by a person. -/
  | companion
  /-- Region markers in the file. -/
  | explicit
  /-- Lines that look like the start of something. -/
  | auto
  /-- Nothing was found. -/
  | fallback
  deriving DecidableEq, Repr

/-- **A section:** a named range of lines. Line numbers are whole numbers of any size, as a table
that somebody wrote can hold any. -/
structure Section where
  name : Text
  first : Int
  last : Int
  description : Text := []
  source : Section.Source := .explicit
  deriving DecidableEq, Repr

namespace Section

/-- The word for a source. -/
def Source.label : Source → Text
  | .companion => "companion"
  | .explicit => "explicit"
  | .auto => "auto"
  | .fallback => "fallback"

/-- The number of lines of a section. -/
def size (s : Section) : Int :=
  s.last - s.first + 1

/-- The place of line `n` after `delta` lines were added at line `threshold`. -/
def shiftLine (threshold delta n : Int) : Int :=
  if threshold ≤ n then n + delta else n

/-- **The section after `delta` lines were added at line `threshold`:** each end moves by itself,
so a section around the place of change grows. -/
def shifted (s : Section) (threshold delta : Int) : Section :=
  { s with first := shiftLine threshold delta s.first
           last := shiftLine threshold delta s.last }

@[simp] theorem shifted_name (s : Section) (t d : Int) : (s.shifted t d).name = s.name := rfl

@[simp] theorem shifted_description (s : Section) (t d : Int) :
    (s.shifted t d).description = s.description := rfl

@[simp] theorem shifted_source (s : Section) (t d : Int) : (s.shifted t d).source = s.source := rfl

@[simp] theorem shifted_zero (s : Section) (t : Int) : s.shifted t 0 = s := by
  simp [shifted, shiftLine]

/-- The name of the section that covers a file in which nothing else is found. -/
def fallbackName : Text := "main"

/-- The description of that section. -/
def fallbackDescription : Text := "Main content"

/-- **The section of a file in which nothing else is found:** all of its lines, and line 1 at
least. -/
def fallback (totalLines : Int) : Section where
  name := fallbackName
  first := 1
  last := max totalLines 1
  description := fallbackDescription
  source := .fallback

/-- The descriptions of customary section names. -/
def customary : List (Text × Text) :=
  [("imports", "External dependencies"),
   ("types", "Type definitions"),
   ("config", "Configuration"),
   (fallbackName, fallbackDescription),
   ("tests", "Unit tests"),
   ("types/state", "State interface"),
   ("types/actions", "Action interfaces"),
   ("state/initial", "Initial state"),
   ("store", "State store"),
   ("selectors", "State selectors"),
   ("hooks", "React hooks"),
   ("debug", "Debug utilities"),
   ("classes", "Class definitions"),
   ("models", "Data models"),
   ("dataclasses", "Dataclass definitions"),
   ("routes", "API routes"),
   ("async", "Async functions"),
   ("modules", "Module declarations"),
   ("structs", "Struct definitions"),
   ("enums", "Enum definitions"),
   ("impl", "Implementations"),
   ("functions", "Function definitions"),
   ("interfaces", "Interface definitions"),
   ("methods", "Method definitions"),
   ("namespace", "Namespace declaration"),
   ("package", "Package declaration"),
   ("nodes", "Graph nodes"),
   ("edges", "Graph edges")]

/-- The section, with the customary description of its name if it has none of its own. -/
def describe (s : Section) : Section :=
  if s.description = [] then { s with description := (customary.lookup s.name).getD [] } else s

@[simp] theorem describe_name (s : Section) : s.describe.name = s.name := by
  unfold describe; split <;> rfl

@[simp] theorem describe_first (s : Section) : s.describe.first = s.first := by
  unfold describe; split <;> rfl

@[simp] theorem describe_last (s : Section) : s.describe.last = s.last := by
  unfold describe; split <;> rfl

@[simp] theorem describe_source (s : Section) : s.describe.source = s.source := by
  unfold describe; split <;> rfl

end Section

end SectionIndex
