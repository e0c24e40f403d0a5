import GridScript.Json.Basic

/-!
# Numerals of documents

A numeral is an integer when it is written as one and fits into 64 bits.
Otherwise it is a float, computed in one pass: as many leading digits as fit
into 64 bits are kept, the rest only shift the power of ten, and the kept digits
are scaled by one multiplication or division. Nearby decimals may therefore end
on neighbouring floats.
-/

namespace GridScript.Json

/-- A numeral split into its parts. -/
structure Numeral where
  /-- Whether there is a minus sign. -/
  negative : Bool
  /-- Digits before the point. -/
  whole : List Char
  /-- Digits after the point, if there is a point. -/
  fraction : Option (List Char)
  /-- Sign and digits of the exponent, if there is one. -/
  exponent : Option (Bool × List Char)

/-- The greatest integer of 64 bits. -/
def greatestWord : Nat :=
  UInt64.size - 1

/-- How far below zero integers of 64 bits go. -/
def leastWord : Nat :=
  9223372036854775808

/-- The digit's value. -/
def digitOf (c : Char) : Nat :=
  c.toNat - 48

/-- The leading digits that fit into 64 bits, put behind those already kept, and
the digits that are left over. -/
def keepDigits (kept : Nat) : List Char → Nat × List Char
  | [] => (kept, [])
  | c :: rest =>
    if greatestWord < kept * 10 + digitOf c then (kept, c :: rest)
    else keepDigits (kept * 10 + digitOf c) rest

/-- A float divided by ten to the power `308` until the remaining power of ten
can be divided by at once, or until nothing is left of it. -/
def scaleDown : (fuel : Nat) → Float → (power : Nat) → Float
  | 0, x, _ => x
  | fuel + 1, x, power =>
    if power ≤ 308 then x / Float.ofScientific 1 false power
    else if x == 0.0 then x
    else scaleDown fuel (x / 1e308) (power - 308)

/-- Kept digits scaled by a power of ten; too large a result has no meaning. -/
def scaleDigits (kept : Nat) (power : Int) : Option Float :=
  let x := Float.ofNat kept
  if power < 0 then some (scaleDown 4 x power.natAbs)
  else if 308 < power then if kept = 0 then some x else none
  else
    let y := x * Float.ofScientific 1 false power.toNat
    if y.isFinite then some y else none

/-- The greatest exponent that is counted. -/
def greatestExponent : Nat :=
  2147483647

/-- The exponent added to a power of ten, or `none` when its digits go beyond
what is counted. -/
def addExponent (power : Int) : Option (Bool × List Char) → Option Int
  | none => some power
  | some (negative, digits) =>
    let size := digits.foldl (fun n c => n * 10 + digitOf c) 0
    if greatestExponent < size then none
    else some (if negative then power - size else power + size)

/-- The float of a numeral without its sign. -/
def Numeral.magnitude (n : Numeral) : Option Float :=
  let (kept, shifted) := keepDigits 0 n.whole
  let (kept, power) :=
    match n.fraction with
    | none => (kept, (shifted.length : Int))
    | some digits =>
      let (kept, passed) := keepDigits kept digits
      (kept, (shifted.length : Int) - (digits.length - passed.length : Nat))
  match addExponent power n.exponent with
  | some power => scaleDigits kept power
  | none =>
    match n.exponent with
    | some (false, _) => if kept = 0 then some 0.0 else none
    | _ => some 0.0

/-- The document a numeral stands for. -/
def Numeral.toJson (n : Numeral) : Json :=
  let integer : Option Int :=
    match n.fraction, n.exponent with
    | none, none =>
      let size := n.whole.foldl (fun n c => n * 10 + digitOf c) 0
      if n.negative then if 0 < size ∧ size ≤ leastWord then some (-(size : Int)) else none
      else if size ≤ greatestWord then some size
      else none
    | _, _ => none
  match integer with
  | some value => .integer value
  | none =>
    match n.magnitude.map fun x => Number.ofFloat (if n.negative then -x else x) with
    | some (.ok value) => .float value
    | _ => .unreadable

end GridScript.Json
