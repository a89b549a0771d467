import SectionIndex.Number.Binary

/-!
# Shortest numerals

A binary number is written with the fewest digits that read back as it. Of two numerals with equally
many digits the nearer one is taken, and halfway between them the one that ends in an even digit.

Numerals with a fixed number of digits form a grid. If any point of it reads back as the number, one
of the number's two neighbours on it does, so only these are tried, on finer and finer grids.

## Main definitions

* `Binary.Reach` — what reads back as a number.
* `Binary.shortest` — the digits and the power of ten.
-/

namespace SectionIndex

namespace Binary

/-- **What reads back as a number**, in fourths of its last binary place: from `low` to `high`. The
ends read back too if the mantissa is even. Below a power of two the numbers are twice as dense. -/
structure Reach where
  low : Nat
  middle : Nat
  high : Nat
  hasEnds : Bool
  deriving DecidableEq, Repr

/-- What reads back as the number with a mantissa and an exponent. -/
def Reach.of (mantissa : Nat) (exponent : Int) : Reach where
  low := 4 * mantissa -
    (if 2 * mantissa = mantissaBound ∧ minExponent < exponent then 1 else 2)
  middle := 4 * mantissa
  high := 4 * mantissa + 2
  hasEnds := mantissa % 2 == 0

/-- The point `n` in units of `unit` is in reach, where one fourth counts `fourth`. -/
def Reach.has (reach : Reach) (fourth unit n : Nat) : Bool :=
  let point := n * unit
  (reach.low * fourth < point && point < reach.high * fourth) ||
    (reach.hasEnds && (point == reach.low * fourth || point == reach.high * fourth))

/-- The point of a grid that is in reach and nearest to the middle, if any point is in reach. -/
def Reach.pick? (reach : Reach) (fourth unit : Nat) : Option Nat :=
  let middle := reach.middle * fourth
  let below := middle / unit
  match reach.has fourth unit below, reach.has fourth unit (below + 1) with
  | false, false => none
  | true, false => some below
  | false, true => some (below + 1)
  | true, true => some (roundQuotient middle unit)

/-- The powers of ten for the place of the first digit are searched from here on. -/
def searchedPlaces : Nat := 400

/-- The place of the first digit of `mantissa * 2 ^ exponent`, where one stands just before the
point. -/
def firstPlace (mantissa : Nat) (exponent : Int) : Int :=
  let scaled :=
    mantissa * twoTo exponent * tenTo searchedPlaces / twoTo (-exponent)
  (Text.ofNat scaled).length - searchedPlaces

/-- One fourth of the last binary place, and the unit of the grid of multiples of a power of ten, in
a common measure. -/
def measure (exponent unitPlace : Int) : Nat × Nat :=
  (twoTo (exponent - 2) * tenTo (-unitPlace), tenTo unitPlace * twoTo (2 - exponent))

/-- The first numeral that reads back, on the grids of `count` digits and up to `more` digits more;
on the last grid the point nearest to the middle does. -/
def shortestFrom (reach : Reach) (exponent place : Int) : (count more : Nat) → Nat × Int
  | count, 0 =>
    let (fourth, unit) := measure exponent (place - count)
    (roundQuotient (reach.middle * fourth) unit, place - count)
  | count, more + 1 =>
    let (fourth, unit) := measure exponent (place - count)
    match reach.pick? fourth unit with
    | some digits =>
      -- a point with one digit more than the grid has is the next power of ten
      if digits = tenTo count then (1, place) else (digits, place - count)
    | none => shortestFrom reach exponent place (count + 1) more

/-- The number of digits that always suffice. -/
def sufficientDigits : Nat := 17

/-- **The shortest numeral** of `mantissa * 2 ^ exponent`, which is not zero: its digits and the
power of ten that they are multiplied by. -/
def shortest (mantissa : Nat) (exponent : Int) : Nat × Int :=
  shortestFrom (.of mantissa exponent) exponent (firstPlace mantissa exponent) 1
    (sufficientDigits - 1)

end Binary

end SectionIndex
