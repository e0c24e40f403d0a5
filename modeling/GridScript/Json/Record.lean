import GridScript.Json.Basic

/-!
# Taking documents apart

What a stored record looks like: its fields by name in any order, or by position
in an array. Unknown fields are skipped and a repeated field is an error. A
choice without data is the name of the alternative; a choice with data names the
alternative in one member and carries the data in another. Data written before
the name are kept until the name is known, and kept parts have a few spellings
more than parts that are read as they are met.
-/

namespace GridScript.Json

/-- A text. -/
def asText? : Json → Option String
  | .text value => some value
  | _ => none

/-- A truth value. -/
def asBool? : Json → Option Bool
  | .bool value => some value
  | _ => none

/-- An integer between two bounds. -/
def asInteger? (least greatest : Int) : Json → Option Int
  | .integer value => if least ≤ value ∧ value ≤ greatest then some value else none
  | _ => none

/-- An unsigned integer of 64 bits. -/
def asWord? (json : Json) : Option UInt64 :=
  (json.asInteger? 0 (UInt64.size - 1)).map fun n => UInt64.ofNat n.toNat

/-- An unsigned integer of 32 bits. -/
def asHalfWord? (json : Json) : Option UInt32 :=
  (json.asInteger? 0 (UInt32.size - 1)).map fun n => UInt32.ofNat n.toNat

/-- A signed integer of 32 bits. -/
def asInt32? (json : Json) : Option Int32 :=
  (json.asInteger? Int32.minValue.toInt Int32.maxValue.toInt).map Int32.ofInt

/-- A number, written as a float or as an integer. -/
def asNumber? : Json → Option Number
  | .float value => some value
  | .integer value => (Number.ofFloat (Float.ofInt value)).toOption
  | _ => none

/-- An array whose items are all understood. -/
def asList? {α : Type} (item? : Json → Option α) : Json → Option (List α)
  | .array items => items.mapM item?
  | _ => none

/-- An object whose members are all understood, in written order. -/
def asMembers? {α : Type} (value? : Json → Option α) : Json → Option (List (String × α))
  | .object members => members.mapM fun (name, value) => (value? value).map (name, ·)
  | _ => none

/-- The member of a name that occurs at most once; `none` when it is repeated. -/
def member? (members : List (String × Json)) (name : String) : Option (Option Json) :=
  match members.filter (·.1 == name) with
  | [] => some none
  | [(_, value)] => some (some value)
  | _ => none

/-- The fields of a record, in the order of their names: members of an object in
any order, or items of an array from the first field on. -/
def fields? (names : List String) : Json → Option (List (Option Json))
  | .object members => names.mapM (member? members)
  | .array items =>
    if items.length ≤ names.length then
      some (items.map some ++ List.replicate (names.length - items.length) none)
    else none
  | _ => none

/-- A field that must be there. -/
def required? {α : Type} (value? : Json → Option α) (field : Option Json) : Option α :=
  field.bind value?

/-- A field that has a default. -/
def defaulted? {α : Type} (default : α) (value? : Json → Option α) : Option Json → Option α
  | none => some default
  | some json => value? json

/-- A field that may be null. -/
def nullable? {α : Type} (value? : Json → Option α) : Json → Option (Option α)
  | .null => some none
  | json => (value? json).map some

/-- A field that may be absent or null. -/
def optional? {α : Type} (value? : Json → Option α) : Option Json → Option (Option α) :=
  defaulted? none (nullable? value?)

/-- When a part of a document is read. -/
inductive Access where
  /-- As it is met. -/
  | direct
  /-- Later, after something behind it has become known. -/
  | kept
  deriving DecidableEq

/-- The name of an alternative: a text, or an object that maps the name to null.
A kept object may also map it to an empty object. -/
def choiceName? (access : Access) : Json → Option String
  | .text name => some name
  | .object [(name, .null)] => some name
  | .object [(name, .object [])] => if access = .kept then some name else none
  | _ => none

/-- A choice without data. -/
def choice? {α : Type} (ofName? : String → Option α) (json : Json) : Option α :=
  (choiceName? .direct json).bind ofName?

/-- The name of an alternative at the head of an array: a text. A kept item may
also count the alternatives, from zero. -/
def headName? (access : Access) (names : List String) : Json → Option String
  | .text name => some name
  | .integer index => if access = .kept ∧ 0 ≤ index then names[index.toNat]? else none
  | _ => none

/-- Whether the member of one name stands before the first of another. -/
def comesBefore (members : List (String × Json)) (early late : String) : Bool :=
  (members.takeWhile (·.1 != late)).any (·.1 == early)

/-- The two parts of a choice with data. -/
structure Tagged where
  /-- Name of the alternative. -/
  name : String
  /-- The data, if there are any. -/
  data : Option Json
  /-- When the data are read. -/
  access : Access

/-- A choice with data among the alternatives `names`: the name of the
alternative and the data, as two members of an object or as the two items of an
array. Data that stand before the name are kept until the name is known, and
must be readable for that. -/
def tagged? (access : Access) (tag content : String) (names : List String) :
    Json → Option Tagged
  | .object members => do
    let name ← (← member? members tag).bind (choiceName? access)
    let data ← member? members content
    if !comesBefore members content tag then some ⟨name, data, access⟩
    else if (data.map isReadable).getD true then some ⟨name, data, .kept⟩
    else none
  | .array [name, data] => do
    some ⟨← headName? access names name, some data, access⟩
  | _ => none

end GridScript.Json
