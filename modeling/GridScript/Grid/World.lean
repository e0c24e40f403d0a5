import GridScript.Store.SortedMap
import GridScript.Value.Basic

/-!
# Worlds

What stands in the cells of a world: symbols, labels and containers. Every edit
that changes something moves the world to a new revision. Revisions are numbered
in 64 bits, and no world is taken to come to 2 ^ 64 of them.
-/

namespace GridScript

/-- The cells of one world. -/
structure World where
  /-- Name of the world. -/
  name : String
  /-- How many edits there have been. -/
  revision : Nat
  /-- Symbols by cell. -/
  symbols : SortedMap Position String
  /-- Lines of labels by cell. -/
  labels : SortedMap Position (List String)
  /-- Slots of containers by cell; a slot may be empty. -/
  containers : SortedMap Position (List (Option Item))

/-- A change to a world. -/
inductive Edit where
  /-- A symbol is placed. -/
  | place (position : Position) (symbol : String)
  /-- A label is attached. -/
  | label (position : Position) (lines : List String)
  /-- A container is attached. -/
  | container (position : Position) (slots : List (Option Item))
  /-- Whatever stands in a cell is removed. -/
  | clear (position : Position)

namespace World

/-- A world without anything in it. -/
def empty (name : String) : World :=
  ⟨name, 0, .empty, .empty, .empty⟩

/-- Whether anything stands in a cell. -/
def occupied (world : World) (position : Position) : Bool :=
  world.symbols.contains position || world.labels.contains position ||
    world.containers.contains position

/-- The world after a change. Clearing an empty cell changes nothing. -/
def edit (world : World) : Edit → World
  | .place position symbol =>
    { world with
      symbols := world.symbols.insert position symbol
      revision := world.revision + 1 }
  | .label position lines =>
    { world with
      labels := world.labels.insert position lines
      revision := world.revision + 1 }
  | .container position slots =>
    { world with
      containers := world.containers.insert position slots
      revision := world.revision + 1 }
  | .clear position =>
    if world.occupied position then
      { world with
        symbols := world.symbols.erase position
        labels := world.labels.erase position
        containers := world.containers.erase position
        revision := world.revision + 1 }
    else world

/-- The symbol in a cell. -/
def symbolAt? (world : World) (position : Position) : Option String :=
  world.symbols.get? position

/-- The lines of the label in a cell. -/
def labelAt? (world : World) (position : Position) : Option (List String) :=
  world.labels.get? position

/-- The slots of the container in a cell. -/
def containerAt? (world : World) (position : Position) : Option (List (Option Item)) :=
  world.containers.get? position

/-- The symbols in a region, in the order of their cells. -/
def symbolsIn (world : World) (region : Region) : List (Position × String) :=
  world.symbols.entries.filter fun (position, _) => region.contains position

end World

end GridScript
