/-!
# Double precision numbers

The finite non-negative numbers of double precision, held exactly as a significand times a power
of two. Every operation computes the exact ratio of natural numbers and rounds it once to the
nearest representable number, a tie going to the even significand. Results beyond the largest
finite number are absent.
-/

namespace TreeLint

/-- The number `significand * 2 ^ exponent`. -/
structure Binary64 where
  significand : Nat
  exponent : Int
deriving Repr, DecidableEq

/-- The quotient rounded to the nearest natural number, ties to even. -/
def divideToEven (numerator denominator : Nat) : Nat :=
  let quotient := numerator / denominator
  let twice := 2 * (numerator % denominator)
  if twice < denominator then quotient
  else if denominator < twice then quotient + 1
  else quotient + quotient % 2

namespace Binary64

/-- The smallest exponent. -/
def minExponent : Int := -1074

/-- The largest exponent. -/
def maxExponent : Int := 971

/-- The number zero. -/
def zero : Binary64 := ⟨0, minExponent⟩

/-- A power of two; one if the exponent is negative. -/
def twoTo (exponent : Int) : Nat :=
  Nat.pow 2 exponent.toNat

/-- A power of ten; one if the exponent is negative. -/
def tenTo (exponent : Int) : Nat :=
  Nat.pow 10 exponent.toNat

/-- The exponent that gives a positive ratio a significand of 53 bits, unless it is too small. -/
def exponentFor (numerator denominator : Nat) : Int :=
  let guess : Int := numerator.log2 - denominator.log2 - 53
  let exponent :=
    if numerator * twoTo (-guess) < Nat.pow 2 53 * denominator * twoTo guess then guess
    else guess + 1
  max exponent minExponent

/-- The representable number nearest to a ratio. -/
def ofRatio? (numerator denominator : Nat) : Option Binary64 :=
  if numerator = 0 then some zero
  else
    let exponent := exponentFor numerator denominator
    let significand :=
      divideToEven (numerator * twoTo (-exponent)) (denominator * twoTo exponent)
    let rounded : Binary64 :=
      if significand = Nat.pow 2 53 then ⟨Nat.pow 2 52, exponent + 1⟩ else ⟨significand, exponent⟩
    if maxExponent < rounded.exponent then none else some rounded

/-- Numerator of the number as a ratio. -/
def numerator (x : Binary64) : Nat :=
  x.significand * twoTo x.exponent

/-- Denominator of the number as a ratio. -/
def denominator (x : Binary64) : Nat :=
  twoTo (-x.exponent)

/-- The rounded product. -/
def multiply? (x y : Binary64) : Option Binary64 :=
  ofRatio? (x.numerator * y.numerator) (x.denominator * y.denominator)

/-- The rounded quotient by a positive number. -/
def divide? (x y : Binary64) : Option Binary64 :=
  ofRatio? (x.numerator * y.denominator) (x.denominator * y.numerator)

/-- The largest power of ten used as a factor. -/
def maxTen : Nat := 308

/-- The number nearest to a power of ten. -/
def powerOfTen? (power : Nat) : Option Binary64 :=
  ofRatio? (Nat.pow 10 power) 1

/-- The number read from a decimal significand and a power of ten: the rounded significand,
multiplied or divided by the rounded power. A quotient by a power beyond the largest factor is
taken in two steps. The number is absent when it is too large. -/
def ofDecimal? (significand : Nat) (power : Int) : Option Binary64 := do
  let value ← ofRatio? significand 1
  let steps := power.natAbs
  if 0 ≤ power then
    if steps ≤ maxTen then value.multiply? (← powerOfTen? steps)
    else if significand = 0 then some zero
    else none
  else if steps ≤ maxTen then value.divide? (← powerOfTen? steps)
  else
    let reduced ← value.divide? (← powerOfTen? maxTen)
    if steps - maxTen ≤ maxTen then reduced.divide? (← powerOfTen? (steps - maxTen))
    else some zero

end Binary64

end TreeLint
