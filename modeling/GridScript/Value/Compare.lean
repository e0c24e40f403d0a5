import GridScript.Value.Convert
import GridScript.Value.Fault

/-!
# Comparing values

Programs compare values loosely: numbers by size wherever both sides can be read
as numbers, and texts without regard to case.
-/

namespace GridScript.Value

/-- Texts, numbers and truth values. -/
def isScalar : Value → Bool
  | .text _ | .number _ | .bool _ => true
  | _ => false

/-- A truth value. -/
def isBool : Value → Bool
  | .bool _ => true
  | _ => false

/-- Equality of scalars: as numbers if both are numeric, as truth values if one
is one and both can be read as such, and as texts otherwise. -/
def scalarEqual (left right : Value) : Bool :=
  let asTexts := Text.sameFolded left.toText right.toText
  match left.asNumber, right.asNumber with
  | .ok a, .ok b => a == b
  | _, _ =>
    if left.isBool || right.isBool then
      match left.asBool, right.asBool with
      | .ok a, .ok b => a == b
      | _, _ => asTexts
    else asTexts

/-- Equality as programs see it. -/
def looselyEqual (left right : Value) : Bool :=
  if left.isScalar && right.isScalar then scalarEqual left right else left == right

/-- The order of two values: by size if both are numeric, without regard to case
if both are texts. -/
def order (left right : Value) : Except Fault Ordering :=
  match left.asNumber, right.asNumber with
  | .ok a, .ok b => .ok (a.order b)
  | _, _ =>
    match left, right with
    | .text a, .text b => .ok (Text.compareFolded a b)
    | _, _ => .error (.incomparable left.kind right.kind)

end GridScript.Value
