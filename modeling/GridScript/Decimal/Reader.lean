/-!
# Reading decimals

The grammar of written floating-point numbers: an optional sign, then a special
word in any case, or digits with an optional point and an optional exponent.
-/

namespace GridScript.Decimal

/-- The value of a stretch of decimal digits. -/
def digitsValue (cs : List Char) : Nat :=
  cs.foldl (fun n c => 10 * n + (c.toNat - 48)) 0

/-- The leading digits of a text and what follows them. -/
def spanDigits (cs : List Char) : List Char × List Char :=
  (cs.takeWhile Char.isDigit, cs.dropWhile Char.isDigit)

/-- A text split into its sign (`true` when negative) and the rest. -/
def splitSign : List Char → Bool × List Char
  | '-' :: rest => (true, rest)
  | '+' :: rest => (false, rest)
  | cs => (false, cs)

/-- A signed exponent that ends the text. -/
def readExponent? (cs : List Char) : Option Int :=
  let (negative, digits) := splitSign cs
  if digits.isEmpty || !digits.all Char.isDigit then none
  else some (if negative then -(digitsValue digits : Int) else digitsValue digits)

/-- The float nearest to `mantissa * 10 ^ power`. Powers far outside the range
of floats give infinity or zero without being raised. -/
def toFloat (mantissa : Nat) (power : Int) : Float :=
  let size : Int := (Nat.toDigits 10 mantissa).length
  if mantissa = 0 ∨ size + power < -400 then 0.0
  else if 400 < size + power then 1.0 / 0.0
  else Float.ofScientific mantissa (power < 0) power.natAbs

/-- Digits with an optional point and exponent. -/
def readUnsigned? (cs : List Char) : Option Float :=
  let (whole, rest) := spanDigits cs
  let (fraction, rest) :=
    match rest with
    | '.' :: rest => spanDigits rest
    | rest => ([], rest)
  if whole.isEmpty && fraction.isEmpty then none
  else
    let exponent :=
      match rest with
      | [] => some 0
      | c :: rest => if c == 'e' || c == 'E' then readExponent? rest else none
    exponent.map fun e => toFloat (digitsValue (whole ++ fraction)) (e - fraction.length)

/-- A floating-point number as text. -/
def readFloat? (text : String) : Option Float :=
  let (negative, cs) := splitSign text.toList
  let size :=
    match String.ofList (cs.map Char.toLower) with
    | "inf" | "infinity" => some (1.0 / 0.0)
    | "nan" => some (0.0 / 0.0)
    | _ => readUnsigned? cs
  size.map fun x => if negative then -x else x

/-- The value of one digit in a base of up to sixteen. -/
def baseDigit? (base : Nat) (c : Char) : Option Nat :=
  let value :=
    if c.isDigit then some (c.toNat - 48)
    else if 'a' ≤ c ∧ c ≤ 'f' then some (c.toNat - 87)
    else if 'A' ≤ c ∧ c ≤ 'F' then some (c.toNat - 55)
    else none
  value.filter (· < base)

/-- A signed integer of 64 bits written in the given base. -/
def readInteger? (base : Nat) (cs : List Char) : Option Int :=
  let (negative, digits) := splitSign cs
  if digits.isEmpty then none
  else do
    let size ← digits.foldlM (fun n c => (baseDigit? base c).map (base * n + ·)) 0
    let value : Int := if negative then -(size : Int) else size
    if Int64.minValue.toInt ≤ value ∧ value ≤ Int64.maxValue.toInt then some value else none

end GridScript.Decimal
