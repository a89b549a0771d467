import SectionIndex.Block.Basic

/-!
# Putting blocks into files

A new block stands at the top of a file, only a line that names an interpreter stands before it,
and one empty line follows it. A block that is there already is replaced where it stands.

## Main definitions

* `Block.insertNew`, `Block.replace`, `Block.insert`.
* `Block.remove` — the file without a block.
* `Block.insertionLine` — the line where a new block starts.
-/

namespace SectionIndex

namespace Block

/-- The line at the start of a file that names an interpreter, with its end; nothing if there is
no such line or if it is the whole file. -/
def interpreterLine (content : Text) : Text :=
  if ['#', '!'].isPrefixOf content ∧ '\n' ∈ content then
    content.takeWhile (· != '\n') ++ ['\n']
  else []

/-- The line where a new block starts. -/
def insertionLine (content : Text) : Nat :=
  if interpreterLine content = [] then 1 else 2

/-- The file with a new block. -/
def insertNew (content block newline : Text) : Text :=
  let head := interpreterLine content
  head ++ block ++ newline ++ newline ++ content.drop head.length

/-- The file with a block in the place of another. -/
def replace (content block : Text) (existing : Block) : Text :=
  content.take existing.start ++ block ++ content.drop existing.stop

/-- **The file with a block**, in the place of the one it has, if it has one. -/
def insert (content block : Text) (existing : Option Block) (newline : Text) : Text :=
  match existing with
  | some existing => replace content block existing
  | none => insertNew content block newline

/-- The text without the line ends it starts with. -/
def dropLineEnds : Text → Text
  | '\n' :: t => dropLineEnds t
  | '\r' :: '\n' :: t => dropLineEnds t
  | t => t

/-- **The file without a block** and without the line ends after it. -/
def remove (content : Text) (existing : Block) : Text :=
  content.take existing.start ++ dropLineEnds (content.drop existing.stop)

@[simp] theorem insert_none (content block newline : Text) :
    insert content block none newline = insertNew content block newline := rfl

@[simp] theorem insert_some (content block : Text) (existing : Block) (newline : Text) :
    insert content block (some existing) newline = replace content block existing := rfl

end Block

end SectionIndex
