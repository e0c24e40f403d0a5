import GridScript.Number.Basic

/-!
# Modulus

The modulus takes the sign of the divisor. It is written once over any kind of
number with a truncated remainder, and used on floats, whose truncated remainder
is computed here on exact integers.
-/

namespace GridScript

/-- What the modulus needs of a kind of number. -/
class TruncatedRemainder (α : Type) where
  /-- A number whose sign is plus; zero has a sign where zeros are signed. -/
  isPositive : α → Bool
  /-- The remainder of division toward zero, with the sign of the dividend. -/
  remainder : α → α → α
  /-- Addition. -/
  add : α → α → α
  /-- Negation. -/
  negate : α → α

/-- The modulus: the truncated remainder when both signs agree, and otherwise
the divisor plus the remainder by the negated divisor. -/
def modulus {α : Type} [TruncatedRemainder α] (a b : α) : α :=
  if TruncatedRemainder.isPositive a == TruncatedRemainder.isPositive b then
    TruncatedRemainder.remainder a b
  else
    TruncatedRemainder.add b (TruncatedRemainder.remainder a (TruncatedRemainder.negate b))

instance : TruncatedRemainder Int where
  isPositive n := decide (0 ≤ n)
  remainder := Int.tmod
  add := (· + ·)
  negate := (- ·)

open Float.Model in
/-- The remainder of two floats in parts, with the sign of the dividend. Finite ones are counted
in units of the smaller of their last places, so the remainder is exact. -/
def partsRemainder : UnpackedFloat → UnpackedFloat → UnpackedFloat
  | .zero sign, .finite .. | .zero sign, .infinity _ => .zero sign
  | .finite sign significand exponent positive, .infinity _ =>
    .finite sign significand exponent positive
  | .finite sign significandA exponentA _, .finite _ significandB exponentB _ =>
    let least := min exponentA exponentB
    let countA := significandA <<< (exponentA - least).toNat
    let countB := significandB <<< (exponentB - least).toNat
    .round .binary64 sign (countA % countB) least
  | _, _ => .notANumber

/-- The remainder of two floats, exact and with the sign of the dividend. -/
def floatRemainder (a b : Float) : Float :=
  .ofModel (.pack (partsRemainder a.toModel.unpack b.toModel.unpack))

instance : TruncatedRemainder Float where
  isPositive x := decide (x.toBits.toNat < signBit)
  remainder := floatRemainder
  add := (· + ·)
  negate := (- ·)

end GridScript
