import SectionIndex.Text.Basic

/-!
# Lines

Two ways to cut a text into lines. `splitLines` is how a *file* is numbered: only a line feed
ends a line, a carriage return before it belongs to the line end, and a final line end opens no
further line. `breakLines` is how a *document* is read: any line boundary of any script counts.

## Main definitions

* `splitLines` — the numbered lines of a file.
* `breakLines` — the lines of a document.
* `detectNewline` — the line end a file uses.
* `normalizeNewlines` — all line ends written as a line feed.
-/

namespace SectionIndex

namespace Text

/-- The line without the carriage return that ends it, if one does. -/
def dropReturn (line : Text) : Text :=
  if line.getLast? = some '\r' then line.dropLast else line

/-- The line without all the carriage returns that end it. -/
def dropReturns (line : Text) : Text :=
  trimEnd (· == '\r') line

/-- **The numbered lines of a file.** A single final line end opens no further line, and a file
with no text at all is one empty line, so there is always a line 1. -/
def splitLines (content : Text) : List Text :=
  let lines := (content.splitOn '\n').map dropReturn
  if 1 < lines.length ∧ lines.getLast? = some [] then lines.dropLast else lines

/-- The characters at which a document's line ends. A carriage return followed by a line feed
ends one line, not two. -/
def isLineBreak (c : Char) : Bool :=
  c == '\n' || c == '\r' || c == '\x0b' || c == '\x0c' || c == '\x1c' || c == '\x1d' ||
    c == '\x1e' || c == '\x85' || c == '\u2028' || c == '\u2029'

/-- The lines of `t`, of which the characters `line` (the latest first) are read already. -/
def breakLinesFrom : (line : Text) → Text → List Text
  | line, [] => if line = [] then [] else [line.reverse]
  | line, c :: t =>
    -- the line feed after a carriage return ends the line, so the return is passed over
    if c = '\r' ∧ t.head? = some '\n' then breakLinesFrom line t
    else if isLineBreak c then line.reverse :: breakLinesFrom [] t
    else breakLinesFrom (c :: line) t

/-- **The lines of a document**, without their ends; a final line end opens no further line. -/
def breakLines (t : Text) : List Text :=
  breakLinesFrom [] t

/-- **The line end a file uses:** carriage return and line feed if its first line ends so. -/
def detectNewline (content : Text) : Text :=
  if '\n' ∈ content ∧ (content.takeWhile (· != '\n')).getLast? = some '\r' then ['\r', '\n']
  else ['\n']

/-- Each line end, a carriage return, a line feed or both, written as one line feed. -/
def normalizeNewlines : Text → Text
  | [] => []
  | '\r' :: '\n' :: t => '\n' :: normalizeNewlines t
  | '\r' :: t => '\n' :: normalizeNewlines t
  | c :: t => c :: normalizeNewlines t

@[simp] theorem splitLines_nil : splitLines [] = [[]] := by decide

@[simp] theorem breakLines_nil : breakLines [] = [] := rfl

theorem splitLines_ne_nil (content : Text) : splitLines content ≠ [] := by
  unfold splitLines
  simp only
  split
  -- the final line is dropped only if another one is left
  · rename_i h
    intro hnil
    have := congrArg List.length hnil
    simp only [List.length_dropLast, List.length_nil] at this
    omega
  · simp [List.splitOn, List.splitOnP_ne_nil]

end Text

end SectionIndex
