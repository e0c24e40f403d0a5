import GridScript.Program.Node

/-!
# Programs

A compiled program is an entry node with all that follows it, the place it was
compiled from, and the version of the symbol catalogue it was compiled with.
-/

namespace GridScript

/-- What a program is for. -/
inductive ProgramKind where
  /-- It runs when an event happens. -/
  | event (name : String)
  /-- It defines a function. -/
  | function (name : String)
  deriving DecidableEq

/-- The event or function a program is named after. -/
def ProgramKind.name : ProgramKind → String
  | .event name | .function name => name

/-- A compiled program. -/
structure Program where
  /-- What the program is for. -/
  kind : ProgramKind
  /-- The entry node, with the body as its successors. -/
  root : Node
  /-- Where the program was compiled from. -/
  origin : Place
  /-- Version of the catalogue it was compiled with. -/
  catalogueVersion : UInt64

instance : Inhabited Program := ⟨⟨.event "", default, default, 0⟩⟩

/-- Whether two programs agree in all but identities, cells and versions. -/
def Program.sameStructure (a b : Program) : Bool :=
  a.kind == b.kind && a.origin == b.origin && a.root.sameStructure b.root

end GridScript
