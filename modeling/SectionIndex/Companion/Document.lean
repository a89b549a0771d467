import SectionIndex.Block.Cell
import SectionIndex.Fault
import SectionIndex.Files.Path
import SectionIndex.Pattern.Basic
import SectionIndex.Section.Basic
import SectionIndex.Text.Lines

/-!
# Companion documents

A companion document describes one source file in Markdown: a title and a description, a table of
sections, and notes. Everything under other headings is passed over. It stands beside the file, in
one of three places.

## Main definitions

* `Companion` — a companion document.
* `Companion.candidates` — the places where it is looked for.
* `lineRange?` — the lines a table cell names.
* `Companion.parse` — reads a document; a document that says nothing is none.
-/

namespace SectionIndex

/-- **A companion document:** where it was read, the description of the file, its sections in the
order of their first lines, and notes. -/
structure Companion where
  path : Text := []
  description : Text := []
  sections : List Section := []
  notes : Text := []
  deriving DecidableEq, Repr

/-- **The lines a cell names:** a number, or two with a hyphen or a dash between them. -/
def lineRange? (value : Text) : Except Fault (Option (Int × Int)) :=
  let value := value.strip
  let first := value.takeWhile isDecimal
  if first = [] then .ok none
  else
    match (value.dropWhile isDecimal).dropWhile isBlank with
    | [] => do
      let n ← readNumber first
      return some (n, n)
    | dash :: rest =>
      let last := rest.dropWhile isBlank
      if (dash = '-' ∨ dash = '–') ∧ last ≠ [] ∧ last.all isDecimal then do
        let m ← readNumber first
        let n ← readNumber last
        return some (m, n)
      else .ok none

namespace Companion

/-- The directory of companion documents beside a file. -/
def directoryName : Text := ".ai"

/-- **The places for the companion document of a file**, in the order in which they are tried:
beside the file with a longer name, or in the directory of companion documents, under the full
name of the file or under its name without the suffix. -/
def candidates (file : Path) : List Path :=
  [file.parent.child (file.name ++ ".ai.md"),
   (file.parent.child directoryName).child (file.name ++ ".md"),
   (file.parent.child directoryName).child (file.stem ++ ".md")]

@[simp] theorem length_candidates (file : Path) : (candidates file).length = 3 := rfl

/-- The headings that name the parts of a document. -/
inductive Part
  | preamble
  | description
  | sections
  | notes
  | other
  deriving DecidableEq, Repr

/-- The heading of the table. -/
def sectionsHeading : Rule where
  anchored := true
  pattern := .inOrder [.word "##", .run 1 .blank, .anyCase "section", .optional (.anyCase "s"),
    .run 0 .blank, .lineEnd]

/-- The heading of the notes. -/
def notesHeading : Rule where
  anchored := true
  pattern := .inOrder [.word "##", .run 1 .blank, .anyCase "notes", .run 0 .blank, .lineEnd]

/-- The names in the heading row of a table. -/
def headingLabels : List Text :=
  ["section", "sections", "name"]

/-- The cells of a line of a table; none if it is no line of a table. -/
def tableCells (line : Text) : List Text :=
  let line := line.strip
  if line.head? = some '|' then
    ((Text.trim (· == '|') line).splitOn '|').map Text.strip
  else []

/-- The name is a heading, the dashes below it, or nothing at all. -/
def isHeadingName (name : Text) : Bool :=
  name.isEmpty || headingLabels.contains (foldCase name) || isSeparatorCell name

/-- **The section of a line of the table**, if it names one: its lines must be in order and start
at line 1 at least. -/
def parseRow (cells : List Text) : Except Fault (Option Section) :=
  match cells with
  | name :: lines :: more =>
    if isHeadingName name then .ok none
    else do
      match ← lineRange? lines with
      | some (first, last) =>
        if 1 ≤ first ∧ first ≤ last then
          return some ⟨name, first, last, more.head?.getD [], .companion⟩
        else return none
      | none => return none
  | _ => .ok none

/-- The part that starts at a line, if one does. The title starts the description, and only the
first one does. -/
def partOf? (current : Part) (line : Text) : Option Part :=
  if ['#', '#', ' '].isPrefixOf line then
    some (if sectionsHeading.accepts line then .sections
      else if notesHeading.accepts line then .notes
      else .other)
  else if ['#', ' '].isPrefixOf line ∧ current = .preamble then some .description
  else none

/-- What the lines of a document hold: the lines of the description, the rows, and the lines of
the notes. -/
structure Draft where
  description : List Text := []
  rows : List Section := []
  notes : List Text := []
  deriving DecidableEq, Repr

/-- What the lines hold that follow in a part. -/
def readLines (current : Part) : List Text → Except Fault Draft
  | [] => .ok {}
  | line :: lines =>
    match partOf? current line with
    | some part => readLines part lines
    | none =>
      match current with
      | .description => do
        let draft ← readLines current lines
        return { draft with description := line :: draft.description }
      | .notes => do
        let draft ← readLines current lines
        return { draft with notes := line :: draft.notes }
      | .sections => do
        let row ← parseRow (tableCells line)
        let draft ← readLines current lines
        return { draft with rows := row.toList ++ draft.rows }
      | _ => readLines current lines

/-- The sections whose names are new, given the names that are not. -/
def firstRows (seen : List Text) : List Section → List Section
  | [] => []
  | s :: rows =>
    if seen.contains s.name then firstRows seen rows else s :: firstRows (s.name :: seen) rows

/-- The rows in the order of their first lines; of rows with one name the first counts. -/
def orderedRows (rows : List Section) : List Section :=
  (firstRows [] rows).mergeSort fun a b => decide (a.first ≤ b.first)

/-- Lines of free text as one text. -/
def paragraph (lines : List Text) : Text :=
  (Text.join ['\n'] lines).strip

/-- **Reads a companion document.** It is none if it says nothing. -/
def parse (text path : Text) : Except Fault (Option Companion) := do
  let draft ← readLines .preamble (Text.breakLines text)
  let document : Companion :=
    { path := path
      description := paragraph draft.description
      sections := orderedRows draft.rows
      notes := paragraph draft.notes }
  if document.description = [] ∧ document.sections = [] ∧ document.notes = [] then return none
  else return some document

end Companion

end SectionIndex
