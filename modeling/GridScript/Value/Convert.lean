import GridScript.Value.Basic

/-!
# Conversions of values

How a value is read as a number, a truth value or a reference, and how an
argument is converted to the kind its parameter declares.
-/

namespace GridScript.Value

/-- The complaint that a value is not of the expected kind. -/
def mismatch (value : Value) (expected : ValueKind) : ConversionError where
  got := value.kind
  expected := expected

/-- A value read as a number: a text is parsed, a truth value counts as one or
zero, and an item as its amount. -/
def asNumber (value : Value) : Except ConversionError Number :=
  match value with
  | .number content => .ok content
  | .text content =>
    match Number.parse? content with
    | some parsed => .ok parsed
    | none => .error (value.mismatch .number)
  | .bool content => .ok (if content then Number.ofInt 1 else Number.zero)
  | .item content => .ok (Number.ofInt content.amount.toNat)
  | _ => .error (value.mismatch .number)

/-- Words that mean true. -/
def trueWords : List String :=
  ["true", "yes", "on"]

/-- Words that mean false. -/
def falseWords : List String :=
  ["false", "no", "off"]

/-- A text read as a truth value, in any case and with blanks around it. -/
def wordBool? (text : String) : Option Bool :=
  let word := Text.trim text
  if trueWords.any (Text.sameFolded · word) then some true
  else if falseWords.any (Text.sameFolded · word) then some false
  else none

/-- A value read as a truth value: a number is true unless it is zero, a list or
map unless it is empty. -/
def asBool (value : Value) : Except ConversionError Bool :=
  match value with
  | .bool content => .ok content
  | .number content => .ok (content != .zero)
  | .text content =>
    match wordBool? content with
    | some truth => .ok truth
    | none => .error (value.mismatch .bool)
  | .list items => .ok (!items.isEmpty)
  | .map entries => .ok (!entries.isEmpty)
  | _ => .error (value.mismatch .bool)

/-- The items of a list. -/
def asList (value : Value) : Except ConversionError (List Value) :=
  match value with
  | .list items => .ok items
  | _ => .error (value.mismatch .list)

/-- The entries of a map. -/
def asMap (value : Value) : Except ConversionError (List (String × Value)) :=
  match value with
  | .map entries => .ok entries
  | _ => .error (value.mismatch .map)

/-- A value read as an actor; a text that is not empty is taken as the name. -/
def asActor (value : Value) : Except ConversionError Actor :=
  match value with
  | .actor content => .ok content
  | .text content => if content.isEmpty then .error (value.mismatch .actor) else .ok ⟨content⟩
  | _ => .error (value.mismatch .actor)

/-- An item. -/
def asItem (value : Value) : Except ConversionError Item :=
  match value with
  | .item content => .ok content
  | _ => .error (value.mismatch .item)

/-- A location. -/
def asLocation (value : Value) : Except ConversionError Place :=
  match value with
  | .location content => .ok content
  | _ => .error (value.mismatch .location)

/-- A value converted to a declared kind. Texts become numbers, truth values and
actors; numbers and truth values become texts; all else must match. -/
def coerce (value : Value) (expected : ValueKind) : Except ConversionError Value :=
  if expected.accepts value.kind then .ok value
  else
    match expected, value with
    | .number, .text _ => value.asNumber.map .number
    | .bool, .text _ => value.asBool.map .bool
    | .actor, .text _ => value.asActor.map .actor
    | .text, .number _ | .text, .bool _ => .ok (.text value.toText)
    | _, _ => .error (value.mismatch expected)

end GridScript.Value
