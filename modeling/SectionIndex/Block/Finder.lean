import SectionIndex.Block.Basic
import SectionIndex.Text.Lines
import SectionIndex.Text.Basic

/-!
# Finding index blocks

Where the first index block of a file stands. A documentation comment is a block if the marker is
the first thing in it, on a line of its own after a star; it ends with the comment. A run of hash
lines is a block if its first line holds only the marker; it ends at the first line that holds
only the end mark, and all lines between start with a hash sign.

## Main definitions

* `Block.jsdocAt?`, `Block.hashAt?` — the block at the start of a text.
* `Block.locate?` — the first block in a text.
-/

namespace SectionIndex

namespace Block

/-- The text up to the end of the comment. -/
def throughClosing : Text → Option Text
  | [] => none
  | '*' :: '/' :: _ => some ['*', '/']
  | c :: t => (throughClosing t).map (c :: ·)

/-- **The documentation comment block at the start of a text:** the opening, blanks with a line
feed among them, a star, blanks, the marker, and all up to the end of the comment. -/
def jsdocAt? : Text → Option Text
  | '/' :: '*' :: '*' :: t =>
    -- no star is a blank, so the blanks before the star are all the blanks there are
    let gap := t.takeWhile isBlank
    match t.dropWhile isBlank with
    | '*' :: t =>
      let indent := t.takeWhile isBlank
      let body := t.dropWhile isBlank
      if '\n' ∈ gap ∧ marker.isPrefixOf body then
        (throughClosing (body.drop marker.length)).map fun rest =>
          '/' :: '*' :: '*' :: gap ++ '*' :: indent ++ marker ++ rest
      else none
    | _ => none
  | _ => none

/-- A space or a tab. -/
def isInlineBlank (c : Char) : Bool :=
  c == ' ' || c == '\t'

/-- The line holds a hash sign and the word, spaces and tabs between and after them, and nothing
else but a carriage return at its end. -/
def isHashLine (word : Text) : Text → Bool
  | '#' :: t =>
    let body := t.dropWhile isInlineBlank
    let rest := (body.drop word.length).dropWhile isInlineBlank
    word.isPrefixOf body && (rest.isEmpty || rest == ['\r'])
  | _ => false

/-- The lines up to the end mark; all lines before it start with a hash sign. -/
def throughEndMarker : List Text → Option (List Text)
  | [] => none
  | line :: lines =>
    if isHashLine endMarker line then some [Text.dropReturn line]
    else if line.head? = some '#' then (throughEndMarker lines).map (line :: ·)
    else none

/-- **The hash block at the start of a text.** -/
def hashAt? (t : Text) : Option Text :=
  if isHashLine marker (t.takeWhile (· != '\n')) then
    match t.splitOn '\n' with
    | line :: lines => (throughEndMarker lines).map fun rest => Text.join ['\n'] (line :: rest)
    | [] => none
  else none

/-- The first block of what is left of a text from `offset` on; `lineStart` says that a line
starts there. -/
def locateFrom? (offset : Nat) (lineStart : Bool) : Text → Option (Nat × Style × Text)
  | [] => none
  | c :: t =>
    match jsdocAt? (c :: t) with
    | some raw => some (offset, .jsdoc, raw)
    | none =>
      -- a hash block takes whole lines
      match if lineStart then hashAt? (c :: t) else none with
      | some raw => some (offset, .hash, raw)
      | none => locateFrom? (offset + 1) (c == '\n') t

/-- **The first block of a text:** its offset, style and text. -/
def locate? (content : Text) : Option (Nat × Style × Text) :=
  locateFrom? 0 true content

@[simp] theorem locate?_nil : locate? [] = none := rfl

end Block

end SectionIndex
