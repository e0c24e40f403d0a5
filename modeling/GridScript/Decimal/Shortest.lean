/-!
# Shortest decimals

A binary value stands for every real number that rounds to it. Among the
decimals in that interval the ones with the fewest digits are preferred, and
among those the nearest to the value itself. All comparisons are made on exact
natural numbers.
-/

namespace GridScript.Decimal

/-- A positive binary value `significand * 2 ^ exponent`. -/
structure Binary where
  /-- The integer factor. -/
  significand : Nat
  /-- The power of two. -/
  exponent : Int
  /-- Whether the next smaller value lies only half as far away as the next
  larger one, as it does just above a power of two. -/
  narrowBelow : Bool

/-- Which of two equally near decimals is taken. -/
inductive Tie where
  /-- The one whose last digit is even. -/
  | toEven
  /-- The one further from zero. -/
  | awayFromZero
  deriving DecidableEq

/-- A positive decimal: the digits, read as an integer, and the number of them
that stand before the decimal point. -/
structure Digits where
  /-- The digits as one integer, without trailing zeros. -/
  value : Nat
  /-- How many digits that integer has. -/
  count : Nat
  /-- Position of the decimal point, counted from the first digit. -/
  point : Int
  deriving DecidableEq

/-- How many decimal digits a positive integer has. -/
def digitCount (n : Nat) : Nat :=
  (Nat.toDigits 10 n).length

/-- An integer with at most `fuel` trailing zeros removed, and their number. -/
def dropZeros : (fuel n : Nat) → Nat × Nat
  | 0, n => (n, 0)
  | fuel + 1, n =>
    if n ≠ 0 ∧ n % 10 = 0 then
      let (rest, zeros) := dropZeros fuel (n / 10)
      (rest, zeros + 1)
    else (n, 0)

/-- The decimal `value * 10 ^ power` without trailing zeros. -/
def Digits.ofScaled (value : Nat) (power : Int) : Digits :=
  let (core, zeros) := dropZeros (digitCount value) value
  let count := digitCount core
  { value := core, count, point := power + zeros + count }

/-- A positive value scaled to a quotient of integers: `value = num / den` in
units of `10 ^ power`. -/
def Binary.scaled (x : Binary) (factor : Nat) (power : Int) : Nat × Nat :=
  (factor * Nat.pow 2 (x.exponent - 2).toNat * Nat.pow 10 (-power).toNat,
    Nat.pow 10 power.toNat * Nat.pow 2 (2 - x.exponent).toNat)

/-- Whether a positive value is at least `10 ^ power`. -/
def Binary.reaches (x : Binary) (power : Int) : Bool :=
  let (num, den) := x.scaled (4 * x.significand) power
  decide (den ≤ num)

/-- The number of digits before the decimal point of a positive value, zero or
negative when the value is below one tenth. The size of the value in bits gives
it up to one. -/
def Binary.decimalPoint (x : Binary) : Int :=
  let guess := (Nat.log2 x.significand + x.exponent) * 30103 / 100000
  if x.reaches (guess + 1) then guess + 2
  else if x.reaches guess then guess + 1
  else guess

/-- The better of the two multiples of `10 ^ power` around a value, if one of
them rounds to it. The ends of the interval belong to it when the significand
is even. -/
def Binary.nearest? (x : Binary) (tie : Tie) (power : Int) : Option Nat :=
  let (num, den) := x.scaled (4 * x.significand) power
  let (low, _) := x.scaled (4 * x.significand - (if x.narrowBelow then 1 else 2)) power
  let (high, _) := x.scaled (4 * x.significand + 2) power
  let closed := x.significand % 2 = 0
  let below := num / den
  let above := below + 1
  let belowFits := below ≠ 0 ∧ (low < below * den ∨ closed ∧ low = below * den)
  let aboveFits := above * den < high ∨ closed ∧ above * den = high
  let gapBelow := num - below * den
  let gapAbove := above * den - num
  if belowFits then
    if aboveFits then
      if gapBelow < gapAbove then some below
      else if gapAbove < gapBelow then some above
      else
        match tie with
        | .awayFromZero => some above
        | .toEven => some (if below % 2 = 0 then below else above)
    else some below
  else if aboveFits then some above
  else none

/-- The first of `fuel` successively finer grids, starting at `10 ^ power`, that
holds a decimal rounding to the value. -/
def Binary.shortestFrom (x : Binary) (tie : Tie) : (fuel : Nat) → (power : Int) → Digits
  | 0, power => .ofScaled ((x.scaled (4 * x.significand) power).1 / (x.scaled 0 power).2) power
  | fuel + 1, power =>
    match x.nearest? tie power with
    | some value => .ofScaled value power
    | none => x.shortestFrom tie fuel (power - 1)

/-- The shortest decimal that rounds to a positive value. Seventeen digits are
always enough for a significand of at most 53 bits. -/
def Binary.shortest (x : Binary) (tie : Tie) : Digits :=
  x.shortestFrom tie 17 (x.decimalPoint - 1)

end GridScript.Decimal
