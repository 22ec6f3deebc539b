import TreeLint.Decimal.Binary64

/-!
# Shortest decimal text

The fewest decimal digits that read back as a double precision number, and of those the digits
nearest to it. A number is read back by every decimal between the midpoints to its two
neighbours; the midpoints themselves belong to it when its significand is even.
-/

namespace TreeLint

namespace Binary64

/-- The number times four, as units of a quarter of its last place. -/
def quarters (x : Binary64) : Nat :=
  4 * x.significand

/-- Distance to the midpoint below, in quarters: half as far right above a power of two. -/
def quartersBelow (x : Binary64) : Nat :=
  if x.significand = Nat.pow 2 52 ∧ minExponent < x.exponent then 1 else 2

/-- A number of quarters of the last place, on a common scale with `onGrid`. -/
def ofQuarters (x : Binary64) (power : Int) (count : Nat) : Nat :=
  count * twoTo (x.exponent - 2) * tenTo (-power)

/-- A decimal `count * 10 ^ power`, on a common scale with `ofQuarters`. -/
def onGrid (x : Binary64) (power : Int) (count : Nat) : Nat :=
  count * tenTo power * twoTo (2 - x.exponent)

/-- Whether the decimal `count * 10 ^ power` reads back as the number. -/
def readsBack (x : Binary64) (power : Int) (count : Nat) : Bool :=
  let low := x.ofQuarters power (x.quarters - x.quartersBelow)
  let high := x.ofQuarters power (x.quarters + 2)
  let value := x.onGrid power count
  if x.significand % 2 = 0 then low ≤ value && value ≤ high else low < value && value < high

/-- The power of ten of the leading digit of a positive number. -/
def leadingPower (x : Binary64) : Int :=
  (Nat.toDigits 10 (x.numerator * tenTo 340 / x.denominator)).length - 341

/-- The multiple of `10 ^ power` that reads back as the number: of the two around the number the
nearer one, of two equally near the even one. -/
def onGrid? (x : Binary64) (power : Int) : Option Nat :=
  let value := x.ofQuarters power x.quarters
  let below := value / x.onGrid power 1
  match x.readsBack power below, x.readsBack power (below + 1) with
  | false, false => none
  | true, false => some below
  | false, true => some (below + 1)
  | true, true => some (divideToEven value (x.onGrid power 1))

/-- Searches the grids from the coarsest on for a decimal that reads back as the number. -/
def search (x : Binary64) : (grids : Nat) → (power : Int) → Nat × Int
  | 0, power => (divideToEven (x.ofQuarters power x.quarters) (x.onGrid power 1), power)
  | grids + 1, power =>
      match x.onGrid? power with
      | some count => (count, power)
      | none => x.search grids (power - 1)

/-- The shortest decimal that reads back as a positive number, as digits and the power of ten of
the last digit. -/
def shortest (x : Binary64) : List Char × Int :=
  let (count, power) := x.search 17 x.leadingPower
  let digits := Nat.toDigits 10 count
  let zeros := (digits.reverse.takeWhile (· == '0')).length
  (digits.take (digits.length - zeros), power + zeros)

/-- Largest number of digits before the point in positional notation. -/
def positionalDigits : Int := 16

/-- Largest number of zeros right after the point in positional notation. -/
def leadingZeros : Int := 4

/-- An exponent with its sign. -/
def exponentChars (exponent : Int) : List Char :=
  (if exponent < 0 then '-' else '+') :: (toString exponent.natAbs).toList

/-- The text of a number: positional with at least one digit on each side of the point, or in
scientific notation where that would have too many digits or zeros. -/
def text (x : Binary64) : String :=
  if x.significand = 0 then "0.0"
  else
    let (digits, power) := x.shortest
    let point : Int := digits.length + power
    String.ofList <|
      if 0 ≤ power ∧ point ≤ positionalDigits then
        digits ++ List.replicate power.toNat '0' ++ ['.', '0']
      else if 0 < point ∧ point ≤ positionalDigits then
        digits.take point.toNat ++ '.' :: digits.drop point.toNat
      else if -leadingZeros ≤ point ∧ point ≤ 0 then
        ['0', '.'] ++ List.replicate (-point).toNat '0' ++ digits
      else
        let tail := digits.drop 1
        digits.take 1 ++ (if tail.isEmpty then [] else '.' :: tail) ++
          'e' :: exponentChars (point - 1)

end Binary64

end TreeLint
