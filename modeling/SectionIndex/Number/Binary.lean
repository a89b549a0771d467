import SectionIndex.Text.Basic

/-!
# Binary numbers

Numbers with a fraction are kept in 64 bits: a sign, a mantissa of at most 53 bits and a power of
two. A decimal numeral stands for the nearest of them, and halfway between two for the one with the
even mantissa; beyond the greatest it is infinite, and close enough to zero it is zero with a sign.

## Main definitions

* `Binary` — a number in 64 bits.
* `Binary.ofRatio` — the nearest to a quotient.
* `Binary.ofNumeral` — the nearest to a decimal numeral.
* `Binary.whole?` — the whole number it is.
-/

namespace SectionIndex

/-- **A number in 64 bits.** A finite one is its mantissa times a power of two. The exponent is the
least one possible unless the mantissa has all its 53 bits, so no number is there twice, but for the
two zeros. -/
inductive Binary
  | finite (negative : Bool) (mantissa : Nat) (exponent : Int)
  | infinite (negative : Bool)
  | notANumber
  deriving DecidableEq, Repr

namespace Binary

/-- The power of two with an exponent, or one if the exponent is negative. -/
def twoTo (exponent : Int) : Nat :=
  Nat.pow 2 exponent.toNat

/-- The power of ten with an exponent, or one if the exponent is negative. -/
def tenTo (exponent : Int) : Nat :=
  Nat.pow 10 exponent.toNat

/-- The bound of all mantissas. -/
def mantissaBound : Nat := twoTo 53

/-- The least exponent. -/
def minExponent : Int := -1074

/-- The greatest exponent. -/
def maxExponent : Int := 971

/-- Zero, with a sign. -/
def zero (negative : Bool) : Binary :=
  .finite negative 0 minExponent

/-- The quotient rounded to the nearest whole number, and from halfway to the even one. -/
def roundQuotient (n d : Nat) : Nat :=
  let q := n / d
  let r := n % d
  if 2 * r < d then q
  else if d < 2 * r then q + 1
  else q + q % 2

/-- The quotient `n / d` divided by a power of two, as a quotient. -/
def divideByPower (n d : Nat) (exponent : Int) : Nat × Nat :=
  (n * twoTo (-exponent), d * twoTo exponent)

/-- The exponent of the greatest power of two that is not above `n / d`. -/
def logTwo (n d : Nat) : Int :=
  let estimate : Int := n.log2 - d.log2
  let (n', d') := divideByPower n d estimate
  if n' < d' then estimate - 1 else estimate

/-- **The number nearest to a quotient**, neither part of which is zero. -/
def ofRatio (negative : Bool) (n d : Nat) : Binary :=
  let exponent := max (logTwo n d - 52) minExponent
  let (n', d') := divideByPower n d exponent
  let mantissa := roundQuotient n' d'
  -- rounding up can give one bit too many, and then the mantissa is a power of two
  let (mantissa, exponent) :=
    if mantissa = mantissaBound then (mantissa / 2, exponent + 1) else (mantissa, exponent)
  if maxExponent < exponent then .infinite negative else .finite negative mantissa exponent

/-- A numeral whose point stands more places than this to the right of its first digit is beyond
all finite numbers. -/
def greatestPlace : Int := 310

/-- A numeral whose point stands more places than this to the left of its first digit is nearer to
zero than to any other number. -/
def leastPlace : Int := -330

/-- **The number nearest to a decimal numeral:** digits, times a power of ten. -/
def ofNumeral (negative : Bool) (digits : Text) (exponent : Int) : Binary :=
  -- far beyond the range the powers of ten need not be computed
  let digits := digits.dropWhile (· == '0')
  let place := digits.length + exponent
  if digits = [] ∨ place < leastPlace then zero negative
  else if greatestPlace < place then .infinite negative
  else
    ofRatio negative (Nat.ofDigitChars 10 digits 0 * tenTo exponent) (tenTo (-exponent))

/-- **The whole number it is**; none if it has a fraction or is not finite. -/
def whole? : Binary → Option Int
  | .finite negative mantissa exponent =>
    let unit := twoTo (-exponent)
    if mantissa % unit = 0 then
      let n : Nat := mantissa / unit * twoTo exponent
      some (if negative then -(n : Int) else n)
    else none
  | _ => none

/-- The number is zero. -/
def isZero : Binary → Bool
  | .finite _ mantissa _ => mantissa == 0
  | _ => false

/-- The number is finite. -/
def isFinite : Binary → Bool
  | .finite _ _ _ => true
  | _ => false

/-- Rounding a whole quotient changes nothing. -/
theorem roundQuotient_mul (q d : Nat) (h : 0 < d) : roundQuotient (q * d) d = q := by
  simp [roundQuotient, Nat.mul_div_cancel q h, h]

/-- A rounded quotient is off by at most one half. -/
theorem roundQuotient_bounds (n d : Nat) (h : 0 < d) :
    2 * (roundQuotient n d * d) ≤ 2 * n + d ∧ 2 * n ≤ 2 * (roundQuotient n d * d) + d := by
  have hn : n / d * d + n % d = n := by rw [Nat.mul_comm]; exact Nat.div_add_mod n d
  have hr := Nat.mod_lt n h
  simp only [roundQuotient]
  split
  · omega
  split
  · rw [Nat.add_mul, Nat.one_mul]; omega
  · rcases Nat.mod_two_eq_zero_or_one (n / d) with h2 | h2 <;> rw [h2]
    · rw [Nat.add_zero]; omega
    · rw [Nat.add_mul, Nat.one_mul]; omega

end Binary

end SectionIndex
