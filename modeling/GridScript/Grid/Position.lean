import GridScript.Json.Record

/-!
# Cells and regions

Programs are laid out in the cells of a three-dimensional grid. A place is a
cell of a named world. Cells are ordered by their coordinates, and the entry
points of programs are visited in scan order: by height of the layer `z`, then
`y`, then `x`. Coordinates have 32 bits, and cells that are looked at are taken to
be within them.
-/

namespace GridScript

/-- A cell of the grid. -/
structure Position where
  /-- First coordinate. -/
  x : Int32
  /-- Second coordinate. -/
  y : Int32
  /-- Third coordinate. -/
  z : Int32
  deriving DecidableEq

namespace Position

instance : Inhabited Position := ⟨⟨0, 0, 0⟩⟩

/-- Cells are ordered by `x`, then `y`, then `z`. -/
instance : Ord Position where
  compare := compareLex (compareOn x) (compareLex (compareOn y) (compareOn z))

instance : Std.TransOrd Position :=
  inferInstanceAs (Std.TransCmp (compareLex (compareOn x) (compareLex (compareOn y) (compareOn z))))

instance : Add Position where
  add a b := ⟨a.x + b.x, a.y + b.y, a.z + b.z⟩

/-- Every coordinate multiplied by a factor. -/
def scale (p : Position) (factor : Int32) : Position :=
  ⟨p.x * factor, p.y * factor, p.z * factor⟩

/-- The order in which entry points are visited. -/
def scanOrder (a b : Position) : Ordering :=
  compareLex (compareOn z) (compareLex (compareOn y) (compareOn x)) a b

/-- A cell as text. -/
def text (p : Position) : String :=
  "(" ++ toString p.x.toInt ++ ", " ++ toString p.y.toInt ++ ", " ++ toString p.z.toInt ++ ")"

/-- A stored cell. -/
def toJson (p : Position) : Json :=
  .object [("x", .integer p.x.toInt), ("y", .integer p.y.toInt), ("z", .integer p.z.toInt)]

/-- A cell from a stored one. -/
def ofJson? (json : Json) : Option Position := do
  match ← json.fields? ["x", "y", "z"] with
  | [x, y, z] =>
    some ⟨← Json.required? Json.asInt32? x, ← Json.required? Json.asInt32? y,
      ← Json.required? Json.asInt32? z⟩
  | _ => none

end Position

/-- A box of cells, both ends included. -/
structure Region where
  /-- The corner with the least coordinates. -/
  least : Position
  /-- The corner with the greatest coordinates. -/
  greatest : Position
  deriving DecidableEq

namespace Region

/-- The smallest region that holds two cells. -/
def spanning (a b : Position) : Region where
  least := ⟨min a.x b.x, min a.y b.y, min a.z b.z⟩
  greatest := ⟨max a.x b.x, max a.y b.y, max a.z b.z⟩

/-- Whether a cell lies in a region. -/
def contains (region : Region) (p : Position) : Bool :=
  decide (region.least.x ≤ p.x ∧ p.x ≤ region.greatest.x) &&
    decide (region.least.y ≤ p.y ∧ p.y ≤ region.greatest.y) &&
    decide (region.least.z ≤ p.z ∧ p.z ≤ region.greatest.z)

/-- Regions are ordered by their corners. -/
instance : Ord Region where
  compare := compareLex (compareOn least) (compareOn greatest)

instance : Std.TransOrd Region :=
  inferInstanceAs (Std.TransCmp (compareLex (compareOn least) (compareOn greatest)))

end Region

/-- A cell of a named world. -/
structure Place where
  /-- Name of the world. -/
  world : String
  /-- The cell. -/
  position : Position
  deriving DecidableEq

namespace Place

instance : Inhabited Place := ⟨⟨"", default⟩⟩

/-- Places are ordered by world, then by cell. -/
instance : Ord Place where
  compare := compareLex (compareOn world) (compareOn position)

instance : Std.TransOrd Place :=
  inferInstanceAs (Std.TransCmp (compareLex (compareOn world) (compareOn position)))

/-- A place as text. -/
def text (place : Place) : String :=
  place.world ++ place.position.text

/-- A stored place, with the cell as a part of its own. -/
def toJson (place : Place) : Json :=
  .object [("world", .text place.world), ("pos", place.position.toJson)]

/-- A place from a stored one. -/
def ofJson? (json : Json) : Option Place := do
  match ← json.fields? ["world", "pos"] with
  | [world, position] =>
    some ⟨← Json.required? Json.asText? world, ← Json.required? Position.ofJson? position⟩
  | _ => none

end Place

end GridScript
