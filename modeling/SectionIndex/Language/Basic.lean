import SectionIndex.Pattern.Basic
import SectionIndex.Block.Basic

/-!
# Languages

What this library knows of a language: its file extensions, the markers with which authors delimit
regions, the lines that tend to open a section, and the comment style of its index block.

## Main definitions

* `Language` — a language.
* `Detector` — a rule that names a section.
-/

namespace SectionIndex

/-- **A rule that names a section:** a line that matches it tends to open that section. The
priority is advice for readers of the table; the order of the rules decides. -/
structure Detector where
  rule : Rule
  sectionName : Text
  priority : Nat := 5
  deriving DecidableEq, Repr

/-- **A language.** The region start marks the name of the region as group 1 and its description
as group 2, the section marker the name as group 1. -/
structure Language where
  name : Text
  extensions : List Text
  regionStart : Option Rule
  regionEnd : Option Rule
  sectionMarker : Option Rule
  detectors : List Detector := []
  blockStyle : Option Block.Style := some .jsdoc
  deriving DecidableEq, Repr

namespace Language

/-- The language has marks with which an author can open a section. -/
def hasMarkers (language : Language) : Bool :=
  language.regionStart.isSome || language.sectionMarker.isSome

/-- The section that a line tends to open: the one of the first rule that matches. -/
def detect? (language : Language) (line : Text) : Option Text :=
  (language.detectors.find? (·.rule.accepts line)).map Detector.sectionName

end Language

/-- The match of a rule that a language need not have. -/
def Rule.findIn (rule? : Option Rule) (line : Text) : Option Pattern.Outcome :=
  rule?.bind (·.find line)

@[simp] theorem Rule.findIn_none (line : Text) : Rule.findIn none line = none := rfl

@[simp] theorem Rule.findIn_some (rule : Rule) (line : Text) :
    Rule.findIn (some rule) line = rule.find line := rfl

end SectionIndex
