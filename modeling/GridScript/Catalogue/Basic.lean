import GridScript.Json.Reader
import GridScript.Program.Node
import GridScript.Text.Label
import GridScript.Value.Convert
import GridScript.Value.Fault

/-!
# Catalogues

A catalogue says which symbols exist, what each can do, and how the contents of
container slots become parameters. It is loaded from a document and may be
replaced at any time; every replacement gets a higher version.
-/

namespace GridScript

/-- One action of a symbol. -/
structure ActionSpec where
  /-- Label texts that choose the action, besides its own name. -/
  names : List String
  /-- The parameter each container slot is bound to, if any. -/
  slots : List (Option String)
  deriving DecidableEq

/-- Whether a parameter is bound to several slots and so collects a list. -/
def ActionSpec.isListParam (action : ActionSpec) (name : String) : Bool :=
  1 < action.slots.count (some name)

/-- What a symbol is. -/
structure SymbolSpec where
  /-- Role of its nodes. -/
  category : Category
  /-- Part it plays in grouping. -/
  bracket : BracketRole
  /-- Its actions, in order. -/
  actions : ArrivalMap String ActionSpec
  /-- The action of a symbol without a label. -/
  defaultAction : Option String

/-- How an item of some material is read as a value. -/
inductive MaterialKind where
  /-- As the text of its name. -/
  | text
  /-- As the number in its name, or its amount. -/
  | number
  /-- As the truth value in its name, or as true. -/
  | bool
  /-- As the place its name describes. -/
  | location
  /-- As the actor of its name. -/
  | actor
  /-- As the item it is. -/
  | item
  deriving DecidableEq

namespace MaterialKind

/-- The name of a way of reading. -/
def name : MaterialKind → String
  | .text => "text"
  | .number => "number"
  | .bool => "bool"
  | .location => "location"
  | .actor => "actor"
  | .item => "item"

/-- The way of reading with a name. -/
def ofName? (name : String) : Option MaterialKind :=
  [MaterialKind.text, .number, .bool, .location, .actor, .item].find? (·.name == name)

end MaterialKind

/-- A versioned set of symbols and materials. -/
structure Catalogue where
  /-- Version of the catalogue. -/
  version : UInt64
  /-- Symbols by name. -/
  symbols : SortedMap String SymbolSpec
  /-- Ways of reading items by material. -/
  materials : SortedMap String MaterialKind

/-- Why a catalogue cannot be loaded. -/
inductive CatalogueError where
  /-- The document is not a catalogue. -/
  | malformed
  /-- A symbol breaks a rule. -/
  | invalid (symbol reason : String)
  deriving DecidableEq

/-- What the error says. -/
def CatalogueError.message : CatalogueError → String
  | .malformed => "malformed catalogue"
  | .invalid symbol reason => "symbol `" ++ symbol ++ "`: " ++ reason

/-- What a label chooses. -/
inductive Resolution where
  /-- An action. -/
  | resolved (action : String)
  /-- None; the label is given if there is one. -/
  | unset (label : Option String)
  deriving DecidableEq

namespace SymbolSpec

/-- What is wrong with a symbol, if anything. -/
def fault? (spec : SymbolSpec) : Option String :=
  if spec.category = .bracket ∧ spec.bracket = .plain then
    some "bracket symbols need a bracket role"
  else if spec.category ≠ .bracket ∧ spec.bracket ≠ .plain then
    some "only bracket symbols can have a bracket role"
  else if !(spec.defaultAction.map spec.actions.contains).getD true then
    some "default action is not one of its actions"
  else if !spec.actions.entries.all fun (name, action) =>
      Text.isIdentifier name &&
        action.slots.all fun slot => (slot.map Text.isIdentifier).getD true then
    some "action and parameter names must be identifiers"
  else none

/-- The only action of a symbol that has just one. -/
def singleAction? (spec : SymbolSpec) : Option String :=
  match spec.actions.keys with
  | [name] => some name
  | _ => none

/-- Whether a normal label names an action. -/
def isNamedBy (label name : String) (action : ActionSpec) : Bool :=
  (name :: action.names).any fun candidate => Text.sameFolded (Text.normalLabel candidate) label

/-- The action a label chooses: the first line that is not decoration names it,
in any case and with underscores read as spaces. Without such a line it is the
default action, or the only one. -/
def resolve (spec : SymbolSpec) (label : Option (List String)) : Resolution :=
  match (label.getD []).find? (! Text.isDecorative ·) with
  | none =>
    match spec.defaultAction.or spec.singleAction? with
    | some action => .resolved action
    | none => .unset none
  | some line =>
    let wanted := Text.normalLabel line
    match spec.actions.entries.find? fun (name, action) => isNamedBy wanted name action with
    | some (name, _) => .resolved name
    | none => .unset (some wanted)

end SymbolSpec

/-- An integer of 32 bits. -/
def readCoordinate? (cs : List Char) : Option Int32 := do
  let value ← Decimal.readInteger? 10 cs
  if Int32.minValue.toInt ≤ value ∧ value ≤ Int32.maxValue.toInt then some (Int32.ofInt value)
  else none

/-- A place written as `x y z` or `world x y z`, with commas or blanks between;
without a world it is a cell of the given one. -/
def readPlace? (text world : String) : Option Place := do
  let parts := Text.pieces (fun c => c == ',' || Text.isBlank c) text.toList
  let (world, coordinates) ←
    match parts with
    | [x, y, z] => some (world, x, y, z)
    | [name, x, y, z] => some (String.ofList name, x, y, z)
    | _ => none
  let (x, y, z) := coordinates
  some ⟨world, ← readCoordinate? x, ← readCoordinate? y, ← readCoordinate? z⟩

namespace Catalogue

/-- What is wrong with a catalogue, if anything: the first symbol in order that
breaks a rule. -/
def fault? (catalogue : Catalogue) : Option CatalogueError :=
  catalogue.symbols.entries.findSome? fun (symbol, spec) =>
    spec.fault?.map (.invalid symbol)

/-- The catalogue replaced by another one, under a version above the old one. There is none above
the greatest number of 64 bits, so a catalogue of that version cannot be replaced. -/
def reload? (catalogue other : Catalogue) : Option Catalogue :=
  if catalogue.version = 0xFFFFFFFFFFFFFFFF then none
  else some { other with version := max other.version (catalogue.version + 1) }

/-- What a symbol is. -/
def symbol? (catalogue : Catalogue) (name : String) : Option SymbolSpec :=
  catalogue.symbols.get? name

/-- How items of a material are read. -/
def materialKind (catalogue : Catalogue) (material : String) : MaterialKind :=
  (catalogue.materials.get? material).getD .item

/-- The value an item in a container slot stands for. -/
def readItem (catalogue : Catalogue) (item : Item) (world : String) : Except Fault Value :=
  let name := item.name.map Text.trim
  let mismatch (expected : ValueKind) : Fault := .conversion ⟨.text, expected⟩
  match catalogue.materialKind item.material with
  | .text => .ok (.text (name.getD ""))
  | .number =>
    match name with
    | none => .ok (.number (Number.ofInt item.amount.toNat))
    | some name =>
      match Number.parse? name with
      | some value => .ok (.number value)
      | none => .error (mismatch .number)
  | .bool =>
    match name with
    | none => .ok (.bool true)
    | some name => (Fault.ofConversion (Value.text name).asBool).map .bool
  | .location =>
    match readPlace? (name.getD "") world with
    | some place => .ok (.location place)
    | none => .error (mismatch .location)
  | .actor =>
    match name with
    | some name => if name.isEmpty then .error (mismatch .actor) else .ok (.actor ⟨name⟩)
    | none => .error (mismatch .actor)
  | .item => .ok (.item item)

end Catalogue

end GridScript
