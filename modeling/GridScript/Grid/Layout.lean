import GridScript.Grid.Position

/-!
# Layouts

How lines of code run through the grid, and where the label and the container of
a symbol stand relative to it.
-/

namespace GridScript

/-- How lines of code are laid out. -/
structure Layout where
  /-- Direction in which lines run. -/
  direction : Position
  /-- Distance between neighbouring symbols. -/
  stride : Int32
  /-- Where the label of a symbol stands relative to it. -/
  labelOffset : Position
  /-- Where the container of a symbol stands relative to it. -/
  containerOffset : Position
  /-- Greatest number of symbols in a line, its entry included. -/
  maxLineLength : Nat
  deriving DecidableEq

namespace Layout

/-- Lines run along `x` with every second cell used; labels stand before and
containers above their symbols. -/
def standard : Layout where
  direction := ⟨1, 0, 0⟩
  stride := 2
  labelOffset := ⟨0, 0, -1⟩
  containerOffset := ⟨0, 1, 0⟩
  maxLineLength := 128

/-- The cell of the symbol with the given index in the line that starts at
`entry`. -/
def cell (layout : Layout) (entry : Position) (index : Nat) : Position :=
  entry + layout.direction.scale (layout.stride * Int32.ofNat index)

/-- The cell of a symbol's label. -/
def label (layout : Layout) (position : Position) : Position :=
  position + layout.labelOffset

/-- The cell of a symbol's container. -/
def container (layout : Layout) (position : Position) : Position :=
  position + layout.containerOffset

/-- A stored layout. -/
def toJson (layout : Layout) : Json :=
  .object [("direction", layout.direction.toJson), ("stride", .integer layout.stride.toInt),
    ("label_offset", layout.labelOffset.toJson),
    ("container_offset", layout.containerOffset.toJson),
    ("max_line_len", .integer layout.maxLineLength)]

/-- A layout from a stored one; fields that are left out are standard. -/
def ofJson? (json : Json) : Option Layout := do
  match ← json.fields? ["direction", "stride", "label_offset", "container_offset",
    "max_line_len"] with
  | [direction, stride, label, container, length] =>
    some
      { direction := ← Json.defaulted? standard.direction Position.ofJson? direction
        stride := ← Json.defaulted? standard.stride Json.asInt32? stride
        labelOffset := ← Json.defaulted? standard.labelOffset Position.ofJson? label
        containerOffset := ← Json.defaulted? standard.containerOffset Position.ofJson? container
        maxLineLength :=
          ← Json.defaulted? standard.maxLineLength (·.asWord?.map UInt64.toNat) length }
  | _ => none

end Layout

end GridScript
