import GridScript.Value.Basic

/-!
# Values as plain documents

The exchange with tools that know nothing of kinds: lists are arrays, maps are
objects, and references are written by their parts. Nothing corresponds to null.
-/

namespace GridScript.Value

/-- An optional text, null when it is absent. -/
def plainOption : Option String → Json
  | none => .null
  | some content => .text content

mutual

/-- A value as a plain document. -/
def toPlain : Value → Json
  | .text content => .text content
  | .number content => .float content
  | .bool content => .bool content
  | .list items => .array (itemsToPlain items)
  | .map entries => .object (entriesToPlain entries)
  | .item content =>
    .object [("amount", .integer content.amount.toNat), ("material", .text content.material),
      ("name", plainOption content.name)]
  | .location content =>
    .object [("world", .text content.world), ("x", .integer content.position.x.toInt),
      ("y", .integer content.position.y.toInt), ("z", .integer content.position.z.toInt)]
  | .actor content => .text content.name
  | .any content => .text content.key

/-- Items as plain documents. -/
def itemsToPlain : List Value → List Json
  | [] => []
  | head :: rest => head.toPlain :: itemsToPlain rest

/-- Entries as plain members. -/
def entriesToPlain : List (String × Value) → List (String × Json)
  | [] => []
  | (name, value) :: rest => (name, value.toPlain) :: entriesToPlain rest

end

/-- Why a plain document is not a value. -/
inductive PlainError where
  /-- Null has no counterpart. -/
  | null
  /-- A number is out of range. -/
  | badNumber
  deriving DecidableEq

/-- What the error says. -/
def PlainError.message : PlainError → String
  | .null => "json null has no value equivalent"
  | .badNumber => "json number is out of range"

mutual

/-- The value of a plain document. Of members with one name the last counts. -/
def ofPlain : Json → Except PlainError Value
  | .null | .unreadable => .error .null
  | .bool value => .ok (.bool value)
  | .integer value =>
    ((Number.ofFloat (Float.ofInt value)).mapError fun _ => .badNumber).map .number
  | .float value => .ok (.number value)
  | .text value => .ok (.text value)
  | .array items => (itemsOfPlain items).map .list
  | .object members => do
    let entries ← (Entries.ofList (membersOfPlain members)).mapM fun (name, value) =>
      value.map (name, ·)
    .ok (.map entries)

/-- The values of plain documents. -/
def itemsOfPlain : List Json → Except PlainError (List Value)
  | [] => .ok []
  | head :: rest => do
    let value ← ofPlain head
    let values ← itemsOfPlain rest
    .ok (value :: values)

/-- The values of plain members, each on its own. -/
def membersOfPlain : List (String × Json) → List (String × Except PlainError Value)
  | [] => []
  | (name, value) :: rest => (name, ofPlain value) :: membersOfPlain rest

end

end GridScript.Value
