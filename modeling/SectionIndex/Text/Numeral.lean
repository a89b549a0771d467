import SectionIndex.Text.Basic
import SectionIndex.Text.Digit

/-!
# Numerals

Reading whole numbers. A numeral is written with decimal digits of any script, can have a sign,
single underscores between digits and blanks around it, and has at most `maxDigits` digits. Longer
numerals are neither read nor written.

## Main definitions

* `readInt` — the number a numeral stands for, or the reason it stands for none.
* `NumeralFault` — the two reasons.
* `isWritable` — the numbers whose numerals are not too long.
-/

namespace SectionIndex

/-- The longest numeral that is read or written. -/
def maxDigits : Nat := 4300

/-- The numeral of the number is not too long. -/
def isWritable (n : Int) : Bool :=
  (Text.ofNat n.natAbs).length ≤ maxDigits

/-- **Why a text is not read as a number:** it is no numeral, or it is one of too many digits. -/
inductive NumeralFault
  | malformed
  | tooLong (digits : Nat)
  deriving DecidableEq, Repr

/-- The blanks that may surround a numeral: all but the four information separators. -/
def isNumeralBlank (c : Char) : Bool :=
  isBlank c && !(28 ≤ c.toNat && c.toNat ≤ 31)

/-- The number whose decimal digits are the digits of the text, which may hold underscores. -/
def digitsValue (digits : Text) : Nat :=
  digits.foldl (fun value c => (decimalValue? c).elim value (10 * value + ·)) 0

/-- The number that the digits at the start of the text stand for. Two underscores in a row, one
at either end, or no digit at all make it malformed; the length is checked before what follows. -/
def readDigits (t : Text) : Except NumeralFault Nat :=
  let run := t.takeWhile fun c => isDecimal c || c == '_'
  let count := run.countP isDecimal
  if (run.splitOn '_').any List.isEmpty then .error .malformed
  else if maxDigits < count then .error (.tooLong count)
  else if run.length < t.length then .error .malformed
  else .ok (digitsValue run)

/-- **Reads a whole number.** -/
def readInt (t : Text) : Except NumeralFault Int :=
  match Text.trim isNumeralBlank t with
  | '-' :: rest => (readDigits rest).map fun n => -(n : Int)
  | '+' :: rest => (readDigits rest).map fun n => (n : Int)
  | rest => (readDigits rest).map fun n => (n : Int)

end SectionIndex
