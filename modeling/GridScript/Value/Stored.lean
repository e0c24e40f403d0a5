import GridScript.Value.Basic

/-!
# Stored values

The lossless document form of values: the kind and the content, as two members.
-/

namespace GridScript

namespace Item

/-- A stored item. -/
def toJson (item : Item) : Json :=
  .object <| [("material", .text item.material), ("amount", .integer item.amount.toNat)] ++
    match item.name with
    | some name => [("name", .text name)]
    | none => []

/-- An item from a stored one. -/
def ofJson? (json : Json) : Option Item := do
  match ← json.fields? ["material", "amount", "name"] with
  | [material, amount, name] =>
    some ⟨← Json.required? Json.asText? material, ← Json.required? Json.asHalfWord? amount,
      ← Json.optional? Json.asText? name⟩
  | _ => none

end Item

namespace Value

/-- A stored location: the world and the coordinates side by side. -/
def locationToJson (place : Place) : Json :=
  .object [("world", .text place.world), ("x", .integer place.position.x.toInt),
    ("y", .integer place.position.y.toInt), ("z", .integer place.position.z.toInt)]

/-- A location from a stored one. -/
def locationOfJson? (json : Json) : Option Place := do
  match ← json.fields? ["world", "x", "y", "z"] with
  | [world, x, y, z] =>
    some ⟨← Json.required? Json.asText? world,
      ⟨← Json.required? Json.asInt32? x, ← Json.required? Json.asInt32? y,
        ← Json.required? Json.asInt32? z⟩⟩
  | _ => none

/-- A stored reference. -/
def referenceToJson (reference : Reference) : Json :=
  .object [("type_name", .text reference.typeName), ("key", .text reference.key)]

/-- A reference from a stored one. -/
def referenceOfJson? (json : Json) : Option Reference := do
  match ← json.fields? ["type_name", "key"] with
  | [typeName, key] =>
    some ⟨← Json.required? Json.asText? typeName, ← Json.required? Json.asText? key⟩
  | _ => none

/-- The content of a stored value under its kind. -/
def withKind (kind : ValueKind) (content : Json) : Json :=
  .object [("kind", kind.toJson), ("value", content)]

mutual

/-- A stored value. -/
def toJson : Value → Json
  | .text content => withKind .text (.text content)
  | .number content => withKind .number (.float content)
  | .bool content => withKind .bool (.bool content)
  | .list items => withKind .list (.array (itemsToJson items))
  | .map entries => withKind .map (.object (entriesToJson entries))
  | .item content => withKind .item content.toJson
  | .location content => withKind .location (locationToJson content)
  | .actor content => withKind .actor (.text content.name)
  | .any content => withKind .any (referenceToJson content)

/-- Stored items. -/
def itemsToJson : List Value → List Json
  | [] => []
  | head :: rest => head.toJson :: itemsToJson rest

/-- Stored entries. -/
def entriesToJson : List (String × Value) → List (String × Json)
  | [] => []
  | (name, value) :: rest => (name, value.toJson) :: entriesToJson rest

end

/-- A value from a stored one with at most `levels` nested documents. -/
def ofJsonWithin? : (levels : Nat) → Json.Access → Json → Option Value
  | 0, _, _ => none
  | levels + 1, access, json => do
    let tagged ← json.tagged? access "kind" "value" (ValueKind.all.map ValueKind.name)
    let content ← tagged.data
    let nested? := ofJsonWithin? levels tagged.access
    match ← ValueKind.ofName? tagged.name with
    | .text => content.asText?.map .text
    | .number => content.asNumber?.map .number
    | .bool => content.asBool?.map .bool
    | .list => (content.asList? nested?).map .list
    | .map => (content.asMembers? nested?).map (.map <| Entries.ofList ·)
    | .item => (Item.ofJson? content).map .item
    | .location => (locationOfJson? content).map .location
    | .actor => content.asText?.map (.actor ⟨·⟩)
    | .any => (referenceOfJson? content).map .any

/-- A value from a stored one. -/
def ofJson? (json : Json) : Option Value :=
  ofJsonWithin? json.depth .direct json

end Value

end GridScript
