import GridScript.Json.Record
import GridScript.Text.Blank
import GridScript.Text.CaseFold

/-!
# Kinds of values

Every value has one of nine kinds. Parameters are declared with a kind; the kind
`any` accepts every value.
-/

namespace GridScript

/-- The kind of a value. -/
inductive ValueKind where
  | text | number | bool | list | map | item | location | actor | any
  deriving DecidableEq

namespace ValueKind

/-- All kinds. -/
def all : List ValueKind :=
  [.text, .number, .bool, .list, .map, .item, .location, .actor, .any]

/-- The name of a kind. -/
def name : ValueKind → String
  | .text => "text"
  | .number => "number"
  | .bool => "bool"
  | .list => "list"
  | .map => "map"
  | .item => "item"
  | .location => "location"
  | .actor => "actor"
  | .any => "any"

/-- The kind of exactly this name. -/
def ofName? (name : String) : Option ValueKind :=
  all.find? (·.name == name)

/-- The names a declaration may use for kinds. -/
def spellings : List (String × ValueKind) :=
  [("text", .text), ("string", .text), ("number", .number), ("num", .number), ("bool", .bool),
    ("boolean", .bool), ("list", .list), ("map", .map), ("item", .item), ("location", .location),
    ("actor", .actor), ("any", .any)]

/-- The kind a declaration names, in any case and with blanks around it. -/
def parse? (text : String) : Option ValueKind :=
  (spellings.find? fun entry => Text.sameFolded entry.1 (Text.trim text)).map Prod.snd

/-- Whether a value of the kind `given` may stand where `expected` is declared. -/
def accepts (expected given : ValueKind) : Bool :=
  expected = .any || expected = given

/-- A stored kind. -/
def toJson (kind : ValueKind) : Json :=
  .text kind.name

/-- A kind from a stored one. -/
def ofJson? : Json → Option ValueKind :=
  Json.choice? ofName?

end ValueKind

/-- A value of one kind was needed and one of another was given. -/
structure ConversionError where
  /-- Kind of the given value. -/
  got : ValueKind
  /-- Kind that was needed. -/
  expected : ValueKind
  deriving DecidableEq

/-- What the error says. -/
def ConversionError.message (error : ConversionError) : String :=
  "expected " ++ error.expected.name ++ ", got " ++ error.got.name

end GridScript
