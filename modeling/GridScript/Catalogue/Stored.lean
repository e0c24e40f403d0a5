import GridScript.Catalogue.Basic

/-!
# Stored catalogues

The document form of catalogues. Symbols and materials are stored by name in
ascending order; the actions of a symbol keep their order.
-/

namespace GridScript

namespace ActionSpec

/-- A stored action. -/
def toJson (action : ActionSpec) : Json :=
  .object [("names", .array (action.names.map .text)),
    ("slots", .array (action.slots.map fun slot =>
      match slot with
      | some name => .text name
      | none => .null))]

/-- An action from a stored one. -/
def ofJson? (json : Json) : Option ActionSpec := do
  match ← json.fields? ["names", "slots"] with
  | [names, slots] =>
    some ⟨← Json.defaulted? [] (Json.asList? Json.asText?) names,
      ← Json.defaulted? [] (Json.asList? (Json.nullable? Json.asText?)) slots⟩
  | _ => none

end ActionSpec

namespace SymbolSpec

/-- A stored symbol. -/
def toJson (spec : SymbolSpec) : Json :=
  .object [("category", .text spec.category.name), ("bracket", .text spec.bracket.name),
    ("actions", .object (spec.actions.entries.map fun (name, action) => (name, action.toJson))),
    ("default_action", match spec.defaultAction with
      | some action => .text action
      | none => .null)]

/-- A symbol from a stored one. -/
def ofJson? (json : Json) : Option SymbolSpec := do
  match ← json.fields? ["category", "bracket", "actions", "default_action"] with
  | [category, bracket, actions, defaultAction] =>
    some
      { category := ← Json.required? (Json.choice? Category.ofName?) category
        bracket := ← Json.defaulted? .plain (Json.choice? BracketRole.ofName?) bracket
        actions := ← Json.defaulted? .empty
          (fun json => (json.asMembers? ActionSpec.ofJson?).map ArrivalMap.ofList) actions
        defaultAction := ← Json.optional? Json.asText? defaultAction }
  | _ => none

end SymbolSpec

namespace Catalogue

/-- A stored catalogue. -/
def toJson (catalogue : Catalogue) : Json :=
  .object [("version", .integer catalogue.version.toNat),
    ("symbols", .object (catalogue.symbols.entries.map fun (name, spec) => (name, spec.toJson))),
    ("materials", .object (catalogue.materials.entries.map fun (name, kind) =>
      (name, .text kind.name)))]

/-- A catalogue from a stored one, not yet checked. -/
def ofJson? (json : Json) : Option Catalogue := do
  match ← json.fields? ["version", "symbols", "materials"] with
  | [version, symbols, materials] =>
    some
      { version := ← Json.defaulted? 0 Json.asWord? version
        symbols := ← Json.required?
          (fun json => (json.asMembers? SymbolSpec.ofJson?).map SortedMap.ofList) symbols
        materials := ← Json.defaulted? .empty
          (fun json => (json.asMembers? (Json.choice? MaterialKind.ofName?)).map SortedMap.ofList)
          materials }
  | _ => none

/-- A checked catalogue from the text of a stored one. -/
def load (text : String) : Except CatalogueError Catalogue :=
  match (Json.readStored? text).bind ofJson? with
  | none => .error .malformed
  | some catalogue =>
    match catalogue.fault? with
    | some error => .error error
    | none => .ok catalogue

end Catalogue

end GridScript
