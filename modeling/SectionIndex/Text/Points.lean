import SectionIndex.Text.Printable

/-!
# Code points

Some messages hold halves of surrogate pairs that stand alone. They are no characters, but they are
carried along, so such messages are lists of code points.

## Main definitions

* `CodePoint`, `Points` — a text is one of them, by a coercion.
* `Points.toText?` — the text, if all code points are characters.
* `pairedChar?`, `joinUnits` — 16-bit units read as code points.
* `Points.quoted` — how they are shown inside a message.
-/

namespace SectionIndex

/-- **A code point:** a character, or half of a surrogate pair. -/
inductive CodePoint
  | char (c : Char)
  | surrogate (unit : Nat)
  deriving DecidableEq, Repr

/-- A list of code points. -/
abbrev Points := List CodePoint

instance : Coe Text Points := ⟨List.map .char⟩

/-- The first half of a surrogate pair. -/
def isLeadingUnit (unit : Nat) : Bool :=
  0xD800 ≤ unit && unit < 0xDC00

/-- The second half of a surrogate pair. -/
def isTrailingUnit (unit : Nat) : Bool :=
  0xDC00 ≤ unit && unit < 0xE000

/-- The code point with a number. -/
def CodePoint.ofNat (n : Nat) : CodePoint :=
  if isLeadingUnit n || isTrailingUnit n then .surrogate n else .char (Char.ofNat n)

/-- The character of two units, if the first is a leading and the second a trailing one. -/
def pairedChar? (first second : Nat) : Option Char :=
  if isLeadingUnit first && isTrailingUnit second then
    some (Char.ofNat (0x10000 + (first - 0xD800) * 0x400 + (second - 0xDC00)))
  else none

/-- **The code points of 16-bit units.** Pairs are joined. -/
def joinUnits : List Nat → Points
  | first :: second :: units =>
    match pairedChar? first second with
    | some c => .char c :: joinUnits units
    | none => .ofNat first :: joinUnits (second :: units)
  | [unit] => [.ofNat unit]
  | [] => []

/-- The character, if it is one. -/
def CodePoint.toChar? : CodePoint → Option Char
  | .char c => some c
  | .surrogate _ => none

namespace Points

/-- **The text**, if all code points are characters. -/
def toText? (points : Points) : Option Text :=
  points.mapM CodePoint.toChar?

/-- A code point inside quotes of the kind `quote`. -/
def quotedPoint (quote : Char) : CodePoint → Text
  | .char c => Text.quotedChar quote c
  | .surrogate unit => '\\' :: 'u' :: Text.hexPadded 4 unit

/-- **The quoted code points**, by the rules for texts. -/
def quoted (points : Points) : Text :=
  let quote := if .char '\'' ∈ points ∧ .char '"' ∉ points then '"' else '\''
  quote :: points.flatMap (quotedPoint quote) ++ [quote]

@[simp] theorem toText?_coe (t : Text) : toText? (t : Points) = some t := by
  unfold toText?
  induction t with
  | nil => rfl
  | cons c t ih => simp_all [CodePoint.toChar?]

end Points

/-- The number of a character leads back to it. -/
theorem CodePoint.ofNat_toNat (c : Char) : CodePoint.ofNat c.toNat = .char c := by
  have h : c.toNat < 0xD800 ∨ 0xE000 ≤ c.toNat := by
    rcases c.valid with h | h
    · exact .inl h
    · exact .inr h.1
  have hnone : (isLeadingUnit c.toNat || isTrailingUnit c.toNat) = false := by
    simp only [isLeadingUnit, isTrailingUnit, Bool.or_eq_false_iff, Bool.and_eq_false_iff,
      decide_eq_false_iff_not]
    omega
  simp [CodePoint.ofNat, hnone]

end SectionIndex
