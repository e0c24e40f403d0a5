import GridScript.Grid.Position
import GridScript.Store.SortedMap
import GridScript.Value.Kind

/-!
# Values

What a variable of a program can hold. Lists and maps hold further values; maps
keep their keys in ascending order. Items, places, actors and references to
foreign objects are plain keys: nothing they name is held alive by them.
-/

namespace GridScript

/-- The identity of an actor, on whose behalf programs run. -/
structure Actor where
  /-- The actor's name. -/
  name : String
  deriving DecidableEq

instance : Inhabited Actor := ⟨⟨""⟩⟩

/-- A stack of some material. -/
structure Item where
  /-- The material. -/
  material : String
  /-- How many pieces there are. -/
  amount : UInt32
  /-- The name given to the stack, if any. -/
  name : Option String
  deriving DecidableEq

/-- A reference to an object only the surroundings know. -/
structure Reference where
  /-- Name of the object's type. -/
  typeName : String
  /-- Key of the object. -/
  key : String
  deriving DecidableEq

/-- A value of a program. -/
inductive Value where
  /-- A text. -/
  | text (content : String)
  /-- A number. -/
  | number (content : Number)
  /-- A truth value. -/
  | bool (content : Bool)
  /-- Values in order. -/
  | list (items : List Value)
  /-- Values under names. -/
  | map (entries : List (String × Value))
  /-- A stack of some material. -/
  | item (content : Item)
  /-- A cell of some world. -/
  | location (content : Place)
  /-- An actor. -/
  | actor (content : Actor)
  /-- A foreign object. -/
  | any (content : Reference)

namespace Value

instance : Inhabited Value := ⟨.text ""⟩

mutual

/-- Whether two values are the same. -/
def same : Value → Value → Bool
  | .text a, .text b => a == b
  | .number a, .number b => a == b
  | .bool a, .bool b => a == b
  | .list a, .list b => sameItems a b
  | .map a, .map b => sameEntries a b
  | .item a, .item b => a == b
  | .location a, .location b => a == b
  | .actor a, .actor b => a == b
  | .any a, .any b => a == b
  | _, _ => false

/-- Whether two lists hold the same values. -/
def sameItems : List Value → List Value → Bool
  | [], [] => true
  | a :: as, b :: bs => same a b && sameItems as bs
  | _, _ => false

/-- Whether two lists of entries hold the same values under the same names. -/
def sameEntries : List (String × Value) → List (String × Value) → Bool
  | [], [] => true
  | (k, a) :: as, (l, b) :: bs => k == l && same a b && sameEntries as bs
  | _, _ => false

end

mutual

/-- The test for being the same decides equality. -/
theorem same_iff : (a b : Value) → (same a b = true ↔ a = b)
  | .text _, b => by cases b <;> simp [same]
  | .number _, b => by cases b <;> simp [same]
  | .bool _, b => by cases b <;> simp [same]
  | .list as, b => by cases b <;> simp [same, sameItems_iff as]
  | .map as, b => by cases b <;> simp [same, sameEntries_iff as]
  | .item _, b => by cases b <;> simp [same]
  | .location _, b => by cases b <;> simp [same]
  | .actor _, b => by cases b <;> simp [same]
  | .any _, b => by cases b <;> simp [same]

/-- The test for holding the same values decides equality of lists. -/
theorem sameItems_iff : (a b : List Value) → (sameItems a b = true ↔ a = b)
  | [], b => by cases b <;> simp [sameItems]
  | a :: as, b => by cases b <;> simp [sameItems, same_iff a, sameItems_iff as]

/-- The test for holding the same entries decides equality of entries. -/
theorem sameEntries_iff : (a b : List (String × Value)) → (sameEntries a b = true ↔ a = b)
  | [], b => by cases b <;> simp [sameEntries]
  | (k, a) :: as, b => by
    cases b <;> simp [sameEntries, same_iff a, sameEntries_iff as, Prod.ext_iff]

end

instance : DecidableEq Value := fun a b =>
  decidable_of_iff _ (same_iff a b)

/-- The kind of a value. -/
def kind : Value → ValueKind
  | .text _ => .text
  | .number _ => .number
  | .bool _ => .bool
  | .list _ => .list
  | .map _ => .map
  | .item _ => .item
  | .location _ => .location
  | .actor _ => .actor
  | .any _ => .any

/-- Whether names strictly ascend. -/
def ascends (names : List String) : Bool :=
  decide (names.Pairwise fun left right => compare left right = .lt)

mutual

/-- Whether the keys of every map within a value strictly ascend, as they do in
all values that programs and documents give rise to. -/
def isCanonical : Value → Bool
  | .list items => itemsCanonical items
  | .map entries => ascends (entries.map Prod.fst) && entriesCanonical entries
  | _ => true

/-- Whether all items are canonical. -/
def itemsCanonical : List Value → Bool
  | [] => true
  | head :: rest => head.isCanonical && itemsCanonical rest

/-- Whether all values of entries are canonical. -/
def entriesCanonical : List (String × Value) → Bool
  | [] => true
  | (_, value) :: rest => value.isCanonical && entriesCanonical rest

end

/-- An item as text. -/
def itemText (item : Item) : String :=
  let stack := item.material ++ " x" ++ toString item.amount.toNat
  match item.name with
  | some name => name ++ " (" ++ stack ++ ")"
  | none => stack

mutual

/-- A value as text. Every value has one. -/
def toText : Value → String
  | .text content => content
  | .number content => content.text
  | .bool true => "true"
  | .bool false => "false"
  | .list items => "[" ++ String.intercalate ", " (itemTexts items) ++ "]"
  | .map entries => "\x7b" ++ String.intercalate ", " (entryTexts entries) ++ "\x7d"
  | .item content => itemText content
  | .location content => content.text
  | .actor content => content.name
  | .any content => content.key

/-- The texts of items. -/
def itemTexts : List Value → List String
  | [] => []
  | head :: rest => head.toText :: itemTexts rest

/-- The texts of entries. -/
def entryTexts : List (String × Value) → List String
  | [] => []
  | (name, value) :: rest => (name ++ ": " ++ value.toText) :: entryTexts rest

end

/-- Whether a value is the blank one of its kind. References never are. -/
def isEmpty : Value → Bool
  | .text content => content.isEmpty
  | .number content => content == .zero
  | .bool content => !content
  | .list items => items.isEmpty
  | .map entries => entries.isEmpty
  | .item content => content.amount == 0
  | .location _ | .actor _ | .any _ => false

/-- Whether what a value refers to still exists. -/
def isValid (connected : Actor → Bool) (worldExists : String → Bool) : Value → Bool
  | .actor content => connected content
  | .location content => worldExists content.world
  | .item content => content.amount != 0
  | _ => true

end Value

end GridScript
