import SectionIndex.Block.Cell
import SectionIndex.Time.Moment
import SectionIndex.Fault

/-!
# Writing index blocks

The text of a block: a heading with the time and the number of lines, and a table with one row
for each section. The columns of names and descriptions are as wide as their widest entry.

## Main definitions

* `Block.tableRows` — the table.
* `Block.render` — the block, given its time stamp.
* `Block.checkNumbers` — the numbers in it can be written.
* `Block.serialize` — the block, given the moment it is made.
-/

namespace SectionIndex

namespace Block

/-- The least width of the columns of names and descriptions. -/
def minColumnWidth : Nat := 20

/-- The least width of a column of numbers. -/
def numberWidth : Nat := 4

/-- The heading of the column of names. It is what tells the heading from a row. -/
def nameHeading : Text := "Section"

/-- The heading of the column of descriptions. -/
def descriptionHeading : Text := "Description"

/-- The width of a column with these entries. -/
def columnWidth (entries : List Text) : Nat :=
  entries.foldr (fun entry width => max entry.length width) minColumnWidth

/-- The cells of one line of a table. -/
def tableLine (cells : List Text) : Text :=
  "| " ++ Text.join " | " cells ++ " |"

/-- The line of a section. -/
def sectionLine (style : Style) (nameWidth descriptionWidth : Nat) (s : Section) : Text :=
  tableLine
    [Text.padRight nameWidth (escapeCell style s.name),
     Text.padLeft numberWidth (Text.ofInt s.first),
     Text.padLeft numberWidth (Text.ofInt s.last),
     Text.padLeft numberWidth (Text.ofInt s.size),
     Text.padRight descriptionWidth (escapeCell style s.description)]

/-- The line of headings. -/
def headingLine (nameWidth descriptionWidth : Nat) : Text :=
  tableLine
    [Text.padRight nameWidth nameHeading, "Line", "End ", "Size",
     Text.padRight descriptionWidth descriptionHeading]

/-- The line of dashes under the headings. -/
def dashLine (nameWidth descriptionWidth : Nat) : Text :=
  tableLine
    [List.replicate nameWidth '-', List.replicate numberWidth '-', List.replicate numberWidth '-',
     List.replicate numberWidth '-', List.replicate descriptionWidth '-']

/-- **The lines of the table.** -/
def tableRows (style : Style) (sections : List Section) : List Text :=
  let nameWidth := columnWidth (sections.map fun s => escapeCell style s.name)
  let descriptionWidth := columnWidth (sections.map fun s => escapeCell style s.description)
  headingLine nameWidth descriptionWidth :: dashLine nameWidth descriptionWidth ::
    sections.map (sectionLine style nameWidth descriptionWidth)

/-- The label of the time stamp. -/
def generatedLabel : Text := "@generated"

/-- The label of the number of lines. -/
def totalLinesLabel : Text := "@total-lines"

/-- The lines of a block without its comment signs. -/
def bodyLines (style : Style) (sections : List Section) (totalLines : Int) (stamp : Text) :
    List Text :=
  marker :: (generatedLabel ++ ' ' :: stamp) :: (totalLinesLabel ++ ' ' :: Text.ofInt totalLines)
    :: [] :: tableRows style sections

/-- A line after a comment sign, with a space between them unless the line is empty. -/
def commentLine (sign line : Text) : Text :=
  if line = [] then sign else sign ++ ' ' :: line

/-- The lines of a block. -/
def blockLines : Style → List Text → List Text
  | .jsdoc, body => ("/**" : Text) :: body.map (commentLine " *") ++ [(" */" : Text)]
  | .hash, body => body.map (commentLine "#") ++ [commentLine "#" endMarker]

/-- **The text of a block.** -/
def render (sections : List Section) (totalLines : Int) (style : Style) (stamp newline : Text) :
    Text :=
  Text.join newline (blockLines style (bodyLines style sections totalLines stamp))

/-- The numbers that are written in a block. -/
def numbers (sections : List Section) (totalLines : Int) : List Int :=
  totalLines :: sections.flatMap fun s => [s.first, s.last, s.size]

/-- No block is written with a number whose numeral is too long. -/
def checkNumbers (sections : List Section) (totalLines : Int) : Except Fault Unit :=
  if (numbers sections totalLines).all isWritable then .ok () else .error (.numberTooLong none)

/-- **The text of a block that is made now.** -/
def serialize (sections : List Section) (totalLines : Int) (style : Style) (now : Moment)
    (newline : Text) : Except Fault Text :=
  match now.blockStamp with
  | some stamp => do
    checkNumbers sections totalLines
    return render sections totalLines style stamp newline
  | none => .error .dateOutOfRange

theorem checkNumbers_eq_ok_iff {sections : List Section} {totalLines : Int} :
    checkNumbers sections totalLines = .ok () ↔
      (numbers sections totalLines).all isWritable = true := by
  unfold checkNumbers
  split
  · next h => exact iff_of_true rfl h
  · next h => exact iff_of_false (nomatch ·) h

/-- **What is written** is the text of a block with the stamp of the clock. -/
theorem serialize_eq_ok_iff {sections : List Section} {totalLines : Int} {style : Style}
    {now : Moment} {newline block : Text} :
    serialize sections totalLines style now newline = .ok block ↔
      ∃ stamp, now.blockStamp = some stamp ∧
        (numbers sections totalLines).all isWritable = true ∧
        block = render sections totalLines style stamp newline := by
  unfold serialize
  rw [← checkNumbers_eq_ok_iff]
  cases now.blockStamp with
  | none => exact iff_of_false (nomatch ·) fun ⟨_, h, _⟩ => nomatch h
  | some stamp =>
    rw [Fault.bind_eq_ok_iff]
    constructor
    · rintro ⟨_, hcheck, h⟩
      cases h
      exact ⟨stamp, rfl, hcheck, rfl⟩
    · rintro ⟨_, ⟨⟩, hcheck, rfl⟩
      exact ⟨(), hcheck, rfl⟩

@[simp] theorem length_tableRows (style : Style) (sections : List Section) :
    (tableRows style sections).length = sections.length + 2 := by
  simp [tableRows]

/-- **A block has as many lines as its height says.** -/
theorem length_blockLines (style : Style) (sections : List Section) (totalLines : Int)
    (stamp : Text) :
    ((blockLines style (bodyLines style sections totalLines stamp)).length : Int)
      = height sections.length style := by
  cases style <;> simp [blockLines, bodyLines, height] <;> omega

end Block

end SectionIndex
