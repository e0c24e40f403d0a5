import GridScript.Decimal.Layout
import GridScript.Decimal.Reader
import GridScript.Text.Blank

/-!
# Numbers

The numbers programs compute with: finite floats of 64 bits, with a single zero.
A number is kept as the bits of its float, so that two numbers are equal exactly
when their bits are, and numbers are ordered by sign and magnitude.
-/

namespace GridScript

/-- The bit that holds the sign of a float. -/
def signBit : Nat :=
  9223372036854775808

/-- The number of fractions a float can have: two to the power `52`. -/
def fractionCount : Nat :=
  4503599627370496

/-- The bits of a float without its sign. -/
def floatMagnitude (bits : UInt64) : Nat :=
  bits.toNat % signBit

/-- The magnitude of the two infinities; larger ones are not numbers at all. -/
def infiniteMagnitude : Nat :=
  2047 * fractionCount

/-- The bits of a zero with a minus sign. -/
def negativeZeroBits : UInt64 :=
  0x8000000000000000

/-- A finite float without a signed zero. -/
structure Number where
  /-- The bits of the float. -/
  bits : UInt64
  /-- The float is finite. -/
  finite : floatMagnitude bits < infiniteMagnitude
  /-- Zero carries no sign. -/
  unsignedZero : bits ≠ negativeZeroBits
  deriving DecidableEq

/-- Why a float is not a number of the language. -/
inductive NumberError where
  /-- The float is not a number. -/
  | notANumber
  /-- The float is infinite. -/
  | infinite
  deriving DecidableEq

namespace NumberError

/-- What the error says. -/
def message : NumberError → String
  | .notANumber => "result is not a number"
  | .infinite => "result is infinite"

end NumberError

namespace Number

/-- The number zero. -/
def zero : Number :=
  ⟨0, by decide, by decide⟩

instance : Inhabited Number := ⟨zero⟩

/-- The number with the given bits, if they are those of a finite float. -/
def ofBits (bits : UInt64) : Except NumberError Number :=
  if finite : floatMagnitude bits < infiniteMagnitude then
    if signed : bits = negativeZeroBits then .ok zero else .ok ⟨bits, finite, signed⟩
  else if floatMagnitude bits = infiniteMagnitude then .error .infinite
  else .error .notANumber

/-- The number a float stands for. -/
def ofFloat (x : Float) : Except NumberError Number :=
  ofBits x.toBits

/-- The float of a number. -/
def toFloat (n : Number) : Float :=
  Float.ofBits n.bits

/-- Reading the bits of a number back gives the number. -/
theorem ofBits_bits (n : Number) : ofBits n.bits = .ok n := by
  simp [ofBits, n.finite, n.unsignedZero]

/-- The number nearest to an integer; integers too large for any give zero. -/
def ofInt (n : Int) : Number :=
  (ofFloat (Float.ofInt n)).toOption.getD zero

instance (n : Nat) : OfNat Number n := ⟨ofInt n⟩

/-- A number below zero. -/
def isNegative (n : Number) : Bool :=
  decide (signBit ≤ n.bits.toNat)

/-- A number's place on the line of all numbers: its magnitude bits, counted
down from zero when it is negative. -/
def rank (n : Number) : Int :=
  if n.isNegative then -(floatMagnitude n.bits : Int) else floatMagnitude n.bits

/-- The order of two numbers. -/
def order (left right : Number) : Ordering :=
  compare left.rank right.rank

/-- The integer factor of a number's absolute value. -/
def significand (n : Number) : Nat :=
  let fraction := n.bits.toNat % fractionCount
  if floatMagnitude n.bits < fractionCount then fraction else fractionCount + fraction

/-- The power of two that goes with the integer factor. -/
def binaryExponent (n : Number) : Int :=
  if floatMagnitude n.bits < fractionCount then -1074
  else (floatMagnitude n.bits / fractionCount : Nat) - 1075

/-- The absolute value in the form the search for shortest decimals takes. -/
def binary (n : Number) : Decimal.Binary where
  significand := n.significand
  exponent := n.binaryExponent
  narrowBelow := n.bits.toNat % fractionCount = 0 ∧ 2 * fractionCount ≤ floatMagnitude n.bits

/-- The integer a number is, if it is one and not negative. -/
def toNat? (n : Number) : Option Nat :=
  if n.isNegative then none
  else
    let scale := Nat.pow 2 (-n.binaryExponent).toNat
    if n.significand % scale = 0 then
      some (n.significand / scale * Nat.pow 2 n.binaryExponent.toNat)
    else none

/-- A number as a count of at most 64 bits; the first integer beyond the range
is still taken, as the greatest count. -/
def toCount? (n : Number) : Option Nat :=
  match n.toNat? with
  | some count => if count ≤ UInt64.size then some (min count (UInt64.size - 1)) else none
  | none => none

/-- A number in the given layout. -/
def write (layout : Decimal.Layout) (n : Number) : String :=
  let digits :=
    if n.bits = 0 then "0" ++ layout.integerTail
    else layout.write (n.binary.shortest layout.tie)
  if n.isNegative then "-" ++ digits else digits

/-- The layout of numbers shown by programs: positional up to sixteen digits
before the point and four zeros after it, and no point after an integer. -/
def shown : Decimal.Layout where
  tie := .toEven
  positional := some (-4, 16)
  integerTail := ""
  positiveMark := "e"

/-- The layout of numbers in stored documents: as shown, but a float is always
recognizable by its point or exponent. -/
def stored : Decimal.Layout where
  tie := .toEven
  positional := some (-4, 16)
  integerTail := ".0"
  positiveMark := "e+"

/-- The layout of numbers quoted in complaints: never an exponent. -/
def spelledOut : Decimal.Layout where
  tie := .awayFromZero
  positional := none
  integerTail := ""
  positiveMark := ""

/-- A number as programs show it. -/
def text (n : Number) : String :=
  n.write shown

/-- A number written in a text: blanks around it are ignored, and integers may
be given in hexadecimal, octal or binary. -/
def parse? (text : String) : Option Number :=
  let cs := Text.trimBoth text.toList
  let based (base : Nat) (digits : List Char) : Option Float :=
    (Decimal.readInteger? base digits).map Float.ofInt
  let value :=
    match cs with
    | '0' :: 'x' :: digits | '0' :: 'X' :: digits => based 16 digits
    | '0' :: 'o' :: digits | '0' :: 'O' :: digits => based 8 digits
    | '0' :: 'b' :: digits | '0' :: 'B' :: digits => based 2 digits
    | cs => Decimal.readFloat? (String.ofList cs)
  value.bind fun x => (ofFloat x).toOption

/-- The order of two numbers, exchanged, is reversed. -/
theorem order_swap (left right : Number) : right.order left = (left.order right).swap :=
  Std.OrientedOrd.eq_swap

end Number

end GridScript
