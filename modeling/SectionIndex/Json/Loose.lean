import SectionIndex.Json.Value
import SectionIndex.Text.Basic
import SectionIndex.Text.Numeral

/-!
# Loose values

Numbers and truth values are often sent as something else: a truth value as 0 or 1, a whole number
with a fraction of zero, or either of them as a text. This module says which of these are accepted
in place of which; everything else is refused.

## Main definitions

* `Json.wholeNumber?` — the whole number that a value other than a text stands for.
* `Json.looseInt?`, `Json.looseBool?`, `Json.exactText?` — the values read from loose ones.
* `Json.oneOf?` — one of several words.
-/

namespace SectionIndex

namespace Json

/-- The bound on numbers with a fraction of zero that are read as whole numbers. -/
def wholeBinaryBound : Nat := Binary.twoTo 63

/-- **The whole number a value stands for:** itself, 0 or 1 for a truth value, or a number without
a fraction that takes at most 64 bits. -/
def wholeNumber? : Json → Option Int
  | .int n => some n
  | .bool b => some (if b then 1 else 0)
  | .binary x => x.whole?.filter fun n => n.natAbs < wholeBinaryBound
  | _ => none

/-- A text, for which nothing else stands. -/
def exactText? : Json → Option Text
  | .str points => points.toText?
  | _ => none

@[simp] theorem exactText?_str (t : Text) : exactText? (.str (t : Points)) = some t :=
  Points.toText?_coe t

/-- A digit that a numeral can start with. -/
def isLeadingDigit (c : Char) : Bool :=
  '1' ≤ c && c ≤ '9'

/-- What is left of a numeral after zeros, the last of which is `last`, and underscores among them.
One of them is kept where no other digit stands before a point or the end. -/
def skipZerosAfter (last : Char) : Text → Option Text
  | [] => some [last]
  | c :: t =>
    if c = '0' ∨ c = '_' then skipZerosAfter c t
    else if isLeadingDigit c ∨ c = '-' then some (c :: t)
    else if c = '.' then some (last :: c :: t)
    else none

/-- A numeral without the zeros in front, which must start with a digit. -/
def skipZeros? : Text → Option Text
  | '0' :: t => skipZerosAfter '0' t
  | c :: t => if isLeadingDigit c then some (c :: t) else none
  | [] => none

/-- The numeral without its fraction, if that is one of zeros. -/
def dropZeroFraction (t : Text) : Text :=
  match t.dropWhile (· != '.') with
  -- a point needs a zero after it
  | _ :: c :: zeros => if (c :: zeros).all (· == '0') then t.takeWhile (· != '.') else t
  | _ => t

/-- The numeral without its underscores, each of which must stand between other characters. -/
def dropUnderscores (t : Text) : Text :=
  let groups := t.splitOn '_'
  if groups.all (!·.isEmpty) then groups.flatten else t

/-- The number of digits without zeros in front. -/
def plainDigits? (t : Text) : Option Nat :=
  if t = ['0'] then some 0
  else if t.head?.any isLeadingDigit ∧ t.all Char.isDigit ∧ t.length ≤ maxDigits then
    some (Nat.ofDigitChars 10 t 0)
  else none

/-- The number of a minus sign, perhaps, and digits. -/
def plainNumeral? : Text → Option Int
  | '-' :: digits => (plainDigits? digits).map fun n => -(n : Int)
  | digits => (plainDigits? digits).map fun n => (n : Int)

/-- A numeral without a sign that is written plainly: without zeros in front, a fraction, or
underscores. -/
def tidyNumeral? (t : Text) : Option Text :=
  (skipZeros? t).map fun t => dropUnderscores (dropZeroFraction t)

/-- The whole number that a text stands for: a sign, digits with underscores between them, and
perhaps a fraction of zero, with blanks around them. A minus sign can also follow zeros. -/
def looseNumeral? (t : Text) : Option Int :=
  match Text.trim isNumeralBlank t with
  | '-' :: t => (tidyNumeral? t).bind fun t => plainNumeral? ('-' :: t)
  | '+' :: t => (tidyNumeral? t).bind plainNumeral?
  | t => (tidyNumeral? t).bind plainNumeral?

/-- **A whole number**, which may be written as a text. -/
def looseInt? : Json → Option Int
  | .str points => points.toText?.bind looseNumeral?
  | value => value.wholeNumber?

/-- A whole number that is not negative. -/
def looseNatural? (value : Json) : Option Int :=
  value.looseInt?.bind fun n => if 0 ≤ n then some n else none

/-- The words for yes, in small letters. -/
def yesWords : List Text := ["1", "on", "t", "true", "y", "yes"]

/-- The words for no, in small letters. -/
def noWords : List Text := ["0", "off", "f", "false", "n", "no"]

/-- The truth value of a word, in any letter case. -/
def looseWord? (t : Text) : Option Bool :=
  let word := t.map Char.toLower
  if yesWords.contains word then some true
  else if noWords.contains word then some false
  else none

/-- **A truth value**, which may be written as a number or as a word. -/
def looseBool? : Json → Option Bool
  | .bool b => some b
  | .str points => points.toText?.bind looseWord?
  | value =>
    match value.wholeNumber? with
    | some 0 => some false
    | some 1 => some true
    | _ => none

/-- The one of several things that has a word. -/
def oneOf? {α : Type} (label : α → Text) (all : List α) (value : Json) : Option α :=
  value.exactText?.bind fun t => all.find? fun a => label a == t

/-- A value that can be missing: null stands for none. -/
def orNull? {α : Type} (read : Json → Option α) : Json → Option (Option α)
  | .null => some none
  | value => (read value).map some

@[simp] theorem looseInt?_int (n : Int) : looseInt? (.int n) = some n := rfl

@[simp] theorem looseBool?_bool (b : Bool) : looseBool? (.bool b) = some b := rfl

end Json

end SectionIndex
