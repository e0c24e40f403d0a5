import GridScript.Json.Reader
import GridScript.Program.Basic
import GridScript.Value.Stored

/-!
# Stored programs

The document form of nodes and programs. The successors of a node are stored as
one flat list, so that documents nest only as deeply as groups do; a successor
has no list of its own. Parts that say nothing are left out.
-/

namespace GridScript

namespace Instruction

/-- The members of a stored node, up to its successors. -/
def members (head : Instruction) (children : List Json) : List (String × Json) :=
  [("id", .integer head.id.toNat), ("symbol", .text head.symbol),
    ("category", .text head.category.name)] ++
  (match head.action with
    | some action => [("action", .text action)]
    | none => []) ++
  (if head.params.isEmpty then []
    else [("params", .object (head.params.entries.map fun (k, v) => (k, v.toJson)))]) ++
  (if children.isEmpty then [] else [("children", .array children)]) ++
  (if head.bracket = .plain then [] else [("bracket", .text head.bracket.name)]) ++
  (match head.position with
    | some position => [("pos", position.toJson)]
    | none => [])

/-- An identity from a stored one. The greatest of 64 bits is refused, since no
counter could be moved past it. -/
def idOfJson? (json : Json) : Option NodeId :=
  json.asWord?.filter (· ≠ 0xFFFFFFFFFFFFFFFF)

/-- Parameters from stored ones. -/
def paramsOfJson? (json : Json) : Option (ArrivalMap String Value) :=
  (json.asMembers? Value.ofJson?).map ArrivalMap.ofList

end Instruction

namespace Node

mutual

/-- A stored node. -/
def toJson : Node → Json
  | .mk head children none => .object (head.members (childrenToJson children))
  | .mk head children (some next) =>
    .object (head.members (childrenToJson children) ++ [("next", .array (linksToJson next))])

/-- Stored children. -/
def childrenToJson : List Node → List Json
  | [] => []
  | node :: rest => node.toJson :: childrenToJson rest

/-- A node and its successors, each stored without successors. -/
def linksToJson : Node → List Json
  | .mk head children none => [.object (head.members (childrenToJson children))]
  | .mk head children (some next) =>
    .object (head.members (childrenToJson children)) :: linksToJson next

end

/-- The fields of a stored node. -/
def fieldNames : List String :=
  ["id", "symbol", "category", "action", "params", "children", "bracket", "pos", "next"]

/-- A stored node taken apart: the node without successors and the documents
that stand for its successors. -/
def partsOfJson? {α : Type} (child? : Json → Option Node) (link? : Json → Option α) (json : Json) :
    Option (Node × List α) := do
  match ← json.fields? fieldNames with
  | [id, symbol, category, action, params, children, bracket, position, next] =>
    let head : Instruction :=
      { id := ← Json.required? Instruction.idOfJson? id
        symbol := ← Json.required? Json.asText? symbol
        category := ← Json.required? (Json.choice? Category.ofName?) category
        action := ← Json.optional? Json.asText? action
        params := ← Json.defaulted? .empty Instruction.paramsOfJson? params
        bracket := ← Json.defaulted? .plain (Json.choice? BracketRole.ofName?) bracket
        position := ← Json.optional? Position.ofJson? position }
    let children ← Json.defaulted? [] (Json.asList? child?) children
    let links ← Json.defaulted? [] (Json.asList? link?) next
    some (.mk head children none, links)
  | _ => none

/-- A node from a stored one with at most `levels` nested documents. The
successors' own lists of successors are skipped. -/
def ofJsonWithin? : (levels : Nat) → Json → Option Node
  | 0, _ => none
  | levels + 1, json => do
    let child? := ofJsonWithin? levels
    let link? (json : Json) : Option Node := (partsOfJson? child? some json).map Prod.fst
    let (node, links) ← partsOfJson? child? link? json
    some (node.setNext (chain links))

/-- A node from a stored one. -/
def ofJson? (json : Json) : Option Node :=
  ofJsonWithin? json.depth json

end Node

namespace ProgramKind

/-- A stored kind of program. -/
def toJson : ProgramKind → Json
  | .event name => .object [("type", .text "event"), ("event", .text name)]
  | .function name => .object [("type", .text "function"), ("name", .text name)]

/-- A kind from its name and the document that holds the rest. -/
def ofParts? (type : String) (rest : Json) : Option ProgramKind := do
  let nameIn (field : String) : Option String := do
    match ← rest.fields? [field] with
    | [name] => Json.required? Json.asText? name
    | _ => none
  match type with
  | "event" => (nameIn "event").map .event
  | "function" => (nameIn "name").map .function
  | _ => none

/-- A kind of program from a stored one. The whole document must be readable,
since the alternative is only known once all of it has been seen. -/
def ofJson? (json : Json) : Option ProgramKind := do
  if !json.isReadable then none
  match json with
  | .object members =>
    let type ← (← Json.member? members "type").bind Json.asText?
    ofParts? type (.object (members.filter (·.1 != "type")))
  | .array (type :: rest) => ofParts? (← type.asText?) (.array rest)
  | _ => none

end ProgramKind

namespace Program

/-- The version of the document form. -/
def formatVersion : Int :=
  1

/-- A stored program. -/
def toJson (program : Program) : Json :=
  .object [("tag", .integer formatVersion), ("kind", program.kind.toJson),
    ("root", program.root.toJson), ("origin", program.origin.toJson),
    ("catalogue_version", .integer program.catalogueVersion.toNat)]

/-- A program from a stored one. -/
def ofJson? (json : Json) : Option Program := do
  match ← json.fields? ["tag", "kind", "root", "origin", "catalogue_version"] with
  | [tag, kind, root, origin, version] =>
    let _ ← Json.required? (Json.asInteger? formatVersion formatVersion) tag
    some
      { kind := ← Json.required? ProgramKind.ofJson? kind
        root := ← Json.required? Node.ofJson? root
        origin := ← Json.required? Place.ofJson? origin
        catalogueVersion := ← Json.required? Json.asWord? version }
  | _ => none

/-- A program from the text of a stored one. -/
def read? (text : String) : Option Program :=
  (Json.readStored? text).bind ofJson?

end Program

end GridScript
