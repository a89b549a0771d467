import SectionIndex.Block.Cell
import SectionIndex.Block.Finder
import SectionIndex.Block.Printer
import SectionIndex.Fault

/-!
# Reading index blocks

What a block says: the rows of its table, the time it was made and the number of lines it gives.
Lines that are no rows are passed over, so a table can be edited by hand.

## Main definitions

* `Block.parseRow` — the row of one line.
* `Block.parse` — the first block of a file.
-/

namespace SectionIndex

namespace Block

/-- The cell holds characters that show digits, and nothing else. -/
def isDigitCell (cell : Text) : Bool :=
  !cell.isEmpty && cell.all isDigitForm

/-- A line of a block without its comment signs. -/
def uncommented (line : Text) : Text :=
  Text.strip ((Text.strip line).dropWhile fun c => c == '*' || c == '#')

/-- The cells of a line of a table; none if it is no line of a table. -/
def rowCells (style : Style) (line : Text) : List Text :=
  let text := uncommented line
  if text.head? = some '|' then
    -- the bars at both ends frame the row and bound no cell
    (splitCells (Text.trim (· == '|') text)).map fun cell => unescapeCell style cell.strip
  else []

/-- The name is the heading, the dashes below it, or nothing at all. -/
def isHeadingName (name : Text) : Bool :=
  name.isEmpty || name == nameHeading || isSeparatorCell name

/-- The size of a row: the number in its cell, or what the lines say if there is none. -/
def rowSize (first last : Int) : Option Text → Except Fault Int
  | some size => if isDigitCell size then readNumber size else .ok (last - first + 1)
  | none => .ok (last - first + 1)

/-- **The row of a line**, if it is one: it has a name that is no heading, and its first and last
line. The size is computed if it is not given. -/
def parseRow (cells : List Text) : Except Fault (Option Row) :=
  match cells with
  | name :: first :: last :: more =>
    if isHeadingName name || !(isDigitCell first && isDigitCell last) then .ok none
    else do
      -- some characters show digits and yet make no numeral, and then the block is at fault
      let first ← readNumber first
      let last ← readNumber last
      let size ← rowSize first last more.head?
      return some ⟨name, first, last, size, more[1]?.getD []⟩
  | _ => .ok none

/-- The rows of the lines, put into the table one after another. -/
def parseRows (style : Style) (table : List Row) : List Text → Except Fault (List Row)
  | [] => .ok table
  | line :: lines => do
    match ← parseRow (rowCells style line) with
    | some row => parseRows style (putRow row table) lines
    | none => parseRows style table lines

/-- The value after a label at the start of a text: a blank or more, and then characters of a
class. -/
def valueAt? (label : Text) (members : Char → Bool) (t : Text) : Option Text :=
  if label.isPrefixOf t then
    let gap := (t.drop label.length).takeWhile isBlank
    let value := ((t.drop label.length).dropWhile isBlank).takeWhile members
    if gap ≠ [] ∧ value ≠ [] then some value else none
  else none

/-- The value after the first label that has one. -/
def valueAfter? (label : Text) (members : Char → Bool) : Text → Option Text
  | [] => none
  | c :: t =>
    match valueAt? label members (c :: t) with
    | some value => some value
    | none => valueAfter? label members t

/-- **Reads the first block of a file.** -/
def parse (content : Text) : Except Fault (Option Block) :=
  match locate? content with
  | none => .ok none
  | some (start, style, raw) => do
    let firstLine := (content.take start).count '\n' + 1
    let rows ← parseRows style [] (Text.breakLines raw)
    let totalLines ← (valueAfter? totalLinesLabel isDecimal raw).mapM readNumber
    return some
      { raw := raw
        style := style
        start := start
        stop := start + raw.length
        firstLine := firstLine
        lastLine := firstLine + raw.count '\n'
        rows := rows
        generatedAt := valueAfter? generatedLabel (fun c => !isBlank c) raw
        totalLines := totalLines }

/-- A file in which no block is found has none. -/
theorem parse_of_locate?_eq_none {content : Text} (h : locate? content = none) :
    parse content = .ok none := by
  simp [parse, h]

end Block

end SectionIndex
