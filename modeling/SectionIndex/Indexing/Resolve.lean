import SectionIndex.Indexing.Source
import SectionIndex.Language.Table
import SectionIndex.Scan.Auto
import SectionIndex.Scan.Explicit
import SectionIndex.Section.Index
import SectionIndex.Section.Unique
import SectionIndex.Settings.Basic

/-!
# The sections of a file

The sections of a file come from its companion document, else from its marks, else from the lines
that look like the start of something; the first of these that gives any section decides. If none
does, one section covers the file. A section is read by its name; a reader with a budget is told
what a text will cost.

## Main definitions

* `chooseSections` — the sections, given what there is.
* `Context.detect`, `Context.index` — the sections and the index of a file.
* `countTokens` — an estimate of what a text costs.
* `sectionText`, `Context.readSection` — the lines of a section, and how they are read by its name.
-/

namespace SectionIndex

/-- The sections of the lines of a file, given its companion document. -/
def chooseSections (companion : Option Companion) (language : Option Language)
    (lines : List Text) : List Section :=
  match companion with
  | some document => if document.sections ≠ [] then document.sections else scanned
  | none => scanned
where
  /-- The sections that are found in the file itself. -/
  scanned : List Section :=
    match scanExplicit language lines with
    | [] => scanAuto language lines
    | sections => sections

/-- The sections with descriptions and with all names different. -/
def presentSections (sections : List Section) : List Section :=
  Section.uniqueNames (sections.map Section.describe)

/-- The sections, or the one that covers a file of `totalLines` lines if there are none. -/
def orFallback (totalLines : Nat) (sections : List Section) : List Section :=
  if sections = [] then [Section.fallback totalLines] else sections

namespace Context

/-- **The sections of a file** and its companion document; no section if nothing is found. -/
def detect (context : Context) (file : Text) (lines : List Text) :
    Except Fault (List Section × Option Companion) := do
  let companion ← context.host.companionOf file
  let language := Language.ofPath? (Path.ofText file)
  return (presentSections (chooseSections companion language lines), companion)

/-- **The index of a text** that stands in a file. -/
def indexOf (context : Context) (file content : Text) : Except Fault FileIndex := do
  let lines := Text.splitLines content
  let (sections, companion) ← context.detect file lines
  let now ← context.utcNow
  return {
    path := file
    language := Language.nameOf (Language.ofPath? (Path.ofText file))
    totalLines := lines.length
    sections := orFallback lines.length sections
    generatedAt := some now
    companionPath := companion.bind fun c => if c.sections ≠ [] then some c.path else none
    description := companion.elim [] Companion.description
    notes := companion.elim [] Companion.notes }

/-- **The index of a file.** -/
def index (context : Context) (file : Text) : Except Fault FileIndex := do
  context.indexOf file (← context.host.loadFile file)

end Context

/-! ### Reading a section -/

/-- The characters that make one token, on average. -/
def charsPerToken : Nat := 4

/-- **The estimated number of tokens of a text:** one for every four characters, and one at least
if there is any text. -/
def countTokens (t : Text) : Nat :=
  if t = [] then 0 else max 1 (t.length / charsPerToken)

@[simp] theorem countTokens_nil : countTokens [] = 0 := rfl

/-- Only the empty text costs nothing. -/
theorem countTokens_eq_zero_iff {t : Text} : countTokens t = 0 ↔ t = [] := by
  unfold countTokens
  split
  · simp_all
  · rename_i h
    simp only [h, iff_false]
    omega

/-- The lines of a section as one text; lines past the end of the file are left out. -/
def sectionText (lines : List Text) (s : Section) : Text :=
  Text.join ['\n'] ((lines.take s.last.toNat).drop (s.first - 1).toNat)

/-- **What a reader gets:** the lines of the section, or the names there are. -/
inductive ReadResult
  | text (s : Section) (content : Text)
  | unknown (name : Text) (available : List Text)
  deriving DecidableEq, Repr

/-- **Reads the section of a name.** -/
def Context.readSection (context : Context) (file name : Text) : Except Fault ReadResult := do
  let content ← context.host.loadFile file
  let index ← context.indexOf file content
  match index.find? name with
  | some s => return .text s (sectionText (Text.splitLines content) s)
  | none => return .unknown name index.names

end SectionIndex
