import SectionIndex.Section.Basic

/-!
# Index blocks

An index block is a comment at the top of a file that holds a table of its sections. Two comment
styles are known: a documentation comment, and lines that each start with a hash sign.

## Main definitions

* `Block.Style` — the two comment styles.
* `Block.Row`, `Block.putRow` — the rows of a table that is read back.
* `Block` — a block found in a file.
* `Block.height` — the number of lines of a written block.
-/

namespace SectionIndex

/-- **The comment style of a block.** -/
inductive Block.Style
  /-- One documentation comment, as in C-like languages. -/
  | jsdoc
  /-- Hash signs at the line starts and an end mark. -/
  | hash
  deriving DecidableEq, Repr

/-- **A row of a stored table.** Unlike a section it stores its size, which can contradict the
line numbers, and does not say where it came from. -/
structure Block.Row where
  name : Text
  first : Int
  last : Int
  size : Int
  description : Text
  deriving DecidableEq, Repr

/-- **A block found in a file:** its text, where it stands, and what it says. Offsets count
characters from 0, lines from 1; `stop` is the offset just past the block. -/
structure Block where
  raw : Text
  style : Block.Style
  start : Nat
  stop : Nat
  firstLine : Nat
  lastLine : Nat
  rows : List Block.Row
  generatedAt : Option Text
  totalLines : Option Int
  deriving DecidableEq, Repr

namespace Block

/-- The word for a style. -/
def Style.label : Style → Text
  | .jsdoc => "jsdoc"
  | .hash => "hash"

/-- The style of a word. -/
def Style.ofLabel? (t : Text) : Option Style :=
  if t = Style.label .jsdoc then some .jsdoc
  else if t = Style.label .hash then some .hash
  else none

/-- The word that marks the start of a block. -/
def marker : Text := "@ai-index"

/-- The word that marks the end of a hash block. -/
def endMarker : Text := "@end-ai-index"

/-- **Puts a row into a table.** A name keeps the place of its first row and the contents of its
last. -/
def putRow (row : Row) : List Row → List Row
  | [] => [row]
  | r :: rows => if r.name = row.name then row :: rows else r :: putRow row rows

/-- The row of a name. -/
def findRow? (rows : List Row) (name : Text) : Option Row :=
  rows.find? (·.name == name)

/-- The number of lines of a block. -/
def lineCount (b : Block) : Nat :=
  b.lastLine - b.firstLine + 1

/-- **The number of lines of a written block with `count` rows:** six lines of heading, the rows,
and the lines that open and close the comment. -/
def height (count : Int) : Style → Int
  | .jsdoc => 6 + count + 2
  | .hash => 6 + count + 1

/-- The row that stores a section. -/
def rowOf (s : Section) : Row :=
  ⟨s.name, s.first, s.last, s.size, s.description⟩

@[simp] theorem Style.ofLabel?_label (style : Style) : Style.ofLabel? style.label = some style := by
  cases style <;> rfl

theorem findRow?_putRow_self (row : Row) (rows : List Row) :
    findRow? (putRow row rows) row.name = some row := by
  induction rows with
  | nil => simp [putRow, findRow?]
  | cons r rows ih =>
    unfold putRow
    split
    · simp [findRow?]
    · rename_i h
      simpa [findRow?, h] using ih

theorem mem_putRow {r row : Row} {rows : List Row} (h : r ∈ putRow row rows) :
    r = row ∨ r ∈ rows := by
  induction rows with
  | nil => exact Or.inl (List.mem_singleton.mp h)
  | cons s rows ih =>
    rw [putRow] at h
    split at h
    · exact (List.mem_cons.mp h).imp id (List.mem_cons_of_mem _)
    · rcases List.mem_cons.mp h with rfl | h
      · exact Or.inr List.mem_cons_self
      · exact (ih h).imp id (List.mem_cons_of_mem _)

/-- Names that are new are put at the end. -/
theorem putRow_of_not_mem (row : Row) (rows : List Row) (h : row.name ∉ rows.map Row.name) :
    putRow row rows = rows ++ [row] := by
  induction rows with
  | nil => rfl
  | cons r rows ih =>
    simp only [List.map_cons, List.mem_cons, not_or] at h
    rw [putRow, if_neg (Ne.symm h.1), ih h.2, List.cons_append]

end Block

end SectionIndex
