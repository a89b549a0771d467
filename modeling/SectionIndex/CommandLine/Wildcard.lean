import SectionIndex.Text.Basic

/-!
# Wildcards

Patterns for file names: a star stands for any characters, a question mark for one, and brackets
for one of those inside them, or for one of all others.

## Main definitions

* `Wildcard`, `Wildcard.ofText`.
* `Wildcard.accepts` — the names of a pattern.
-/

namespace SectionIndex

/-- **A part of a pattern.** A set is a list of ranges of characters. -/
inductive Wildcard.Part
  | any
  | one
  | char (c : Char)
  | set (negated : Bool) (ranges : List (Char × Char))
  deriving DecidableEq, Repr

/-- **A pattern for file names.** -/
abbrev Wildcard := List Wildcard.Part

namespace Wildcard

/-- The characters with which a pattern is no plain name. -/
def isMagicChar (c : Char) : Bool :=
  c == '*' || c == '?' || c == '['

/-- The text is a pattern, and not a plain name. -/
def isMagic (t : Text) : Bool :=
  t.any isMagicChar

/-- The ranges between brackets. A hyphen between two characters makes them a range. -/
def rangesOf : Text → List (Char × Char)
  | a :: '-' :: b :: t => (a, b) :: rangesOf t
  | a :: t => (a, a) :: rangesOf t
  | [] => []

/-- What follows an opening bracket up to the closing one, and what follows that. A closing bracket
that comes first is one of the characters. -/
def bracketContents (t : Text) : Option (Text × Text) :=
  let start := if t.head? = some '!' then 1 else 0
  -- a closing bracket in the first place closes nothing
  let start := if (t.drop start).head? = some ']' then start + 1 else start
  let inside := (t.drop start).takeWhile (· != ']')
  match t.drop (start + inside.length) with
  | _ :: rest => some (t.take (start + inside.length), rest)
  | [] => none

/-- The set of what is between brackets. -/
def setOf : Text → Part
  | '!' :: t => .set true (rangesOf t)
  | t => .set false (rangesOf t)

/-- The parts of a text, of which at most `fuel` characters are read. -/
def partsOf : (fuel : Nat) → Text → Wildcard
  | 0, _ | _, [] => []
  | fuel + 1, '*' :: t => .any :: partsOf fuel t
  | fuel + 1, '?' :: t => .one :: partsOf fuel t
  | fuel + 1, '[' :: t =>
    match bracketContents t with
    | some (inside, rest) => setOf inside :: partsOf fuel rest
    | none => .char '[' :: partsOf fuel t
  | fuel + 1, c :: t => .char c :: partsOf fuel t

/-- **Reads a pattern.** A bracket that is not closed stands for itself. -/
def ofText (t : Text) : Wildcard :=
  partsOf t.length t

/-- The part stands for the character. -/
def Part.accepts : Part → Char → Bool
  | .any, _ | .one, _ => true
  | .char d, c => c == d
  | .set negated ranges, c => (ranges.any fun (a, b) => a ≤ c && c ≤ b) != negated

/-- The ends of a text, the text itself first. -/
def endsOf : Text → List Text
  | [] => [[]]
  | c :: t => (c :: t) :: endsOf t

/-- What can be left of a name after a part, given what can be left of it before the part, the
longest first. What is left after a star is an end of the longest, and each such end can be. -/
def Part.rests : Part → List Text → List Text
  | .any, names => (names.head?.map endsOf).getD []
  | part, names => names.filterMap fun
    | c :: t => if part.accepts c then some t else none
    | [] => none

/-- **The pattern stands for the name:** after its parts, nothing can be left of the name. The work
is bounded by the product of the two lengths, however many stars there are. -/
def accepts (w : Wildcard) (name : Text) : Bool :=
  (w.foldl (fun names part => part.rests names) [name]).contains []

/-- The empty pattern stands for the empty name only. -/
@[simp] theorem accepts_nil (name : Text) : accepts [] name = name.isEmpty := by
  cases name <;> rfl

end Wildcard

end SectionIndex
