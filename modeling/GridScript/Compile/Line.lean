import GridScript.Catalogue.Basic
import GridScript.Compile.Nesting
import GridScript.Function.Parameter
import GridScript.Grid.Layout
import GridScript.Grid.World

/-!
# Compiling lines of code

A line starts at an entry symbol and runs in the direction of the layout until
the first empty cell, the next entry symbol, or its greatest length. The label of
a symbol chooses its action and its container gives the parameters. Nothing that
is malformed stops the compilation of a line that has a proper entry.
-/

namespace GridScript

/-- What lines of code are compiled with. -/
structure Workshop where
  /-- The world to read from. -/
  world : World
  /-- The known symbols. -/
  catalogue : Catalogue
  /-- How lines are laid out. -/
  layout : Layout

namespace Workshop

/-- A bound slot that holds an item, and what the item was read as. -/
structure Reading where
  /-- Number of the slot. -/
  slot : Nat
  /-- Parameter the slot is bound to. -/
  name : String
  /-- The value, or why there is none. -/
  value : Except Fault Value

/-- The bound slots that hold items, in the order of slots. -/
def readings (shop : Workshop) (action : ActionSpec) (slots : List (Option Item)) : List Reading :=
  ((action.slots.zip slots).zipIdx).filterMap fun ((binding, item), slot) =>
    match binding, item with
    | some name, some item => some ⟨slot, name, shop.catalogue.readItem item shop.world.name⟩
    | _, _ => none

/-- The parameters that are bound to one slot each. -/
def singleParams (action : ActionSpec) (readings : List Reading) : ArrivalMap String Value :=
  readings.foldl (fun params reading =>
    match reading.value with
    | .ok value =>
      if action.isListParam reading.name then params else params.insert reading.name value
    | .error _ => params) .empty

/-- The parameters that collect several slots, in order of first use. -/
def listParams (action : ActionSpec) (readings : List Reading) : ArrivalMap String (List Value) :=
  readings.foldl (fun params reading =>
    match reading.value with
    | .ok value =>
      if action.isListParam reading.name then
        params.insert reading.name ((params.get? reading.name).getD [] ++ [value])
      else params
    | .error _ => params) .empty

/-- The slots whose items could not be read. -/
def badSlots (position : Position) (readings : List Reading) : List CompileError :=
  readings.filterMap fun reading =>
    match reading.value with
    | .ok _ => none
    | .error fault => some (.badSlot position reading.slot fault.message)

/-- The parameters of a symbol with a known action, and the findings about its
container. -/
def readParams (shop : Workshop) (position : Position) (action : ActionSpec) :
    ArrivalMap String Value × List CompileError :=
  match shop.world.containerAt? (shop.layout.container position) with
  | none => (.empty, [])
  | some slots =>
    let readings := shop.readings action slots
    let lists := (listParams action readings).entries
    (lists.foldl (fun params (name, values) => params.insert name (.list values))
      (singleParams action readings), badSlots position readings)

/-- The node of a symbol, without an identity yet, and the findings about it. -/
def readNode (shop : Workshop) (position : Position) (symbol : String) (spec : SymbolSpec) :
    Node × List CompileError :=
  let bare := (Node.bare 0 symbol spec.category).mapHead ({ · with position := some position })
  match spec.resolve (shop.world.labelAt? (shop.layout.label position)) with
  | .unset label => (bare, [.unresolvedAction symbol position label])
  | .resolved name =>
    let (params, findings) :=
      match spec.actions.get? name with
      | some action => shop.readParams position action
      | none => (.empty, [])
    (bare.mapHead ({ · with action := some name, params }), findings)

/-- A text without any copies of a word in front of it. -/
def dropWord (word : List Char) : (fuel : Nat) → List Char → List Char
  | 0, cs => cs
  | fuel + 1, cs => if word.isPrefixOf cs then dropWord word fuel (cs.drop word.length) else cs

/-- The kind a header line such as `-> number` declares. -/
def readReturns? (line : List Char) : Option ValueKind :=
  let line := dropWord ['-', '>'] line.length line
  let line := dropWord ['r', 'e', 't', 'u', 'r', 'n', 's'] line.length line
  ValueKind.parse? (String.ofList line)

/-- The declarations in the slots of a function header that can be read. -/
def goodSpecs (texts : List String) : List String :=
  texts.filter fun text => (Parameter.parse text).toOption.isSome

/-- The findings about declarations that cannot be read. -/
def badSpecs (position : Position) (texts : List String) : List CompileError :=
  (texts.filter fun text => (Parameter.parse text).toOption.isNone).map (.badParameterSpec position)

/-- The entry of a function: its label gives the name and, on a second line, the
kind of the returned value; its container declares the parameters. -/
def readHeader (shop : Workshop) (position : Position) (symbol : String) (spec : SymbolSpec) :
    Except CompileError (ProgramKind × Node × List CompileError) := do
  let label := (shop.world.labelAt? (shop.layout.label position)).getD []
  let lines := (label.filter (! Text.isDecorative ·)).map fun line =>
    Text.trimBoth (Text.stripFormatting line.toList)
  let name := String.ofList (lines.head?.getD [])
  if !Text.isIdentifier name then .error (.missingFunctionName position)
  let returns := (lines.tail.head?).bind readReturns?
  let slots := (shop.world.containerAt? (shop.layout.container position)).getD []
  let texts := (slots.filterMap id).map fun item => Text.trim (item.name.getD "")
  let node := (Node.bare 0 symbol .function).mapHead
    ({ · with position := some position, action := spec.defaultAction })
  let node := node.setParam "name" (.text name)
  let node :=
    match returns with
    | some kind => node.setParam "returns" (.text kind.name)
    | none => node
  let node := node.setParam "params" (.list ((goodSpecs texts).map .text))
  .ok (.function name, node, badSpecs position texts)

/-- The entry of a line. -/
def readEntry (shop : Workshop) (position : Position) :
    Except CompileError (ProgramKind × Node × List CompileError) :=
  match shop.world.symbolAt? position with
  | none => .error (.noSymbol position)
  | some symbol =>
    match shop.catalogue.symbol? symbol with
    | none => .error (.unknownSymbol symbol position)
    | some spec =>
      if spec.category = .event ∧ spec.bracket = .plain then
        let (node, findings) := shop.readNode position symbol spec
        .ok (.event (node.head.action.getD ""), node, findings)
      else if spec.category = .function then shop.readHeader position symbol spec
      else .error (.notAnEntry symbol position)

/-- The pieces of a line from a symbol's index on, for at most `fuel` symbols,
and the findings about them. -/
def scan (shop : Workshop) (entry : Position) :
    (fuel index : Nat) → List LineToken × List CompileError
  | 0, _ => ([], [])
  | fuel + 1, index =>
    let position := shop.layout.cell entry index
    match shop.world.symbolAt? position with
    | none => ([], [])
    | some symbol =>
      match shop.catalogue.symbol? symbol with
      | none =>
        let (tokens, findings) := shop.scan entry fuel (index + 1)
        (tokens, .unknownSymbol symbol position :: findings)
      | some spec =>
        match spec.bracket with
        | .opening =>
          let (tokens, findings) := shop.scan entry fuel (index + 1)
          (.opening position :: tokens, findings)
        | .closing =>
          let (tokens, findings) := shop.scan entry fuel (index + 1)
          (.closing position :: tokens, findings)
        | .plain =>
          if spec.category.isEntry then ([], [])
          else
            let (node, found) := shop.readNode position symbol spec
            let (tokens, findings) := shop.scan entry fuel (index + 1)
            (.node node :: tokens, found ++ findings)

/-- The program of the line that starts at a cell, and the findings about it.
The nodes get new identities. -/
def compileLine (shop : Workshop) (entry : Position) (ids : IdSource) :
    Except CompileError (Program × List CompileError × IdSource) := do
  let (kind, root, atEntry) ← shop.readEntry entry
  let (tokens, along) := shop.scan entry (shop.layout.maxLineLength - 1) 1
  let (body, nesting) := Nesting.ofTokens tokens
  let (root, ids) := (root.setNext (Node.chain body)).renew ids
  .ok (⟨kind, root, ⟨shop.world.name, entry⟩, shop.catalogue.version⟩,
    atEntry ++ along ++ nesting, ids)

/-- The cells of a region where programs start, in scan order. -/
def entriesIn (shop : Workshop) (region : Region) : List Position :=
  let entries := (shop.world.symbolsIn region).filter fun (_, symbol) =>
    match shop.catalogue.symbol? symbol with
    | some spec => spec.category.isEntry && spec.bracket == .plain
    | none => false
  (entries.map Prod.fst).mergeSort fun a b => (Position.scanOrder a b).isLE

/-- The programs that start at the given cells. A program that does not compile
is reported and left out. -/
def compileAll (shop : Workshop) : List Position → IdSource → CompileReport × IdSource
  | [], ids => (⟨[], []⟩, ids)
  | entry :: rest, ids =>
    match shop.compileLine entry ids with
    | .ok (program, findings, ids) =>
      let (report, ids) := shop.compileAll rest ids
      (⟨program :: report.programs, findings.map (⟨.warning, ·⟩) ++ report.diagnostics⟩, ids)
    | .error finding =>
      let (report, ids) := shop.compileAll rest ids
      (⟨report.programs, ⟨.error, finding⟩ :: report.diagnostics⟩, ids)

/-- The programs that start in a region. -/
def compileRegion (shop : Workshop) (region : Region) (ids : IdSource) :
    CompileReport × IdSource :=
  shop.compileAll (shop.entriesIn region) ids

end Workshop

end GridScript
