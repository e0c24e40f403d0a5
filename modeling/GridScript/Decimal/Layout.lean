import GridScript.Decimal.Shortest

/-!
# Layouts of decimals

How the digits of a decimal are set out as text: where positional notation ends
and scientific notation begins, whether an integer keeps a point and a zero, and
how an exponent is marked.
-/

namespace GridScript.Decimal

/-- The decisions a written form of numbers makes. -/
structure Layout where
  /-- Which of two equally near shortest decimals is written. -/
  tie : Tie
  /-- Least and greatest position of the point that is written without an
  exponent, or `none` when exponents are never used. -/
  positional : Option (Int × Int)
  /-- What follows the digits of an integer. -/
  integerTail : String
  /-- What stands between the digits and a positive exponent. -/
  positiveMark : String

/-- `n` zeros. -/
def zeros (n : Nat) : String :=
  String.ofList (List.replicate n '0')

/-- Digits without an exponent. -/
def Layout.plain (layout : Layout) (digits : Digits) : String :=
  let text := Nat.repr digits.value
  if digits.count ≤ digits.point then
    text ++ zeros (digits.point - digits.count).toNat ++ layout.integerTail
  else if 0 < digits.point then
    let whole := digits.point.toNat
    String.ofList (text.toList.take whole) ++ "." ++ String.ofList (text.toList.drop whole)
  else "0." ++ zeros (-digits.point).toNat ++ text

/-- Digits with an exponent. -/
def Layout.scientific (layout : Layout) (digits : Digits) : String :=
  let text := (Nat.repr digits.value).toList
  let exponent := digits.point - 1
  let fraction := text.drop 1
  String.ofList (text.take 1) ++ (if fraction.isEmpty then "" else "." ++ String.ofList fraction) ++
    (if exponent < 0 then "e-" else layout.positiveMark) ++ Nat.repr exponent.natAbs

/-- A positive decimal as text. -/
def Layout.write (layout : Layout) (digits : Digits) : String :=
  match layout.positional with
  | none => layout.plain digits
  | some (least, greatest) =>
    if least ≤ digits.point ∧ digits.point ≤ greatest then layout.plain digits
    else layout.scientific digits

end GridScript.Decimal
