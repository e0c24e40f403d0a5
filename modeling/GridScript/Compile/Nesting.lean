import GridScript.Compile.Diagnostic

/-!
# Groups

Brackets nest the nodes between them under the node right before the opening
bracket. Brackets are matched from left to right, each closing one ending the
nearest group that is still open. A group without a node to belong to, or one
that never ends, is left out with all it holds; a closing bracket without a
group is ignored.
-/

namespace GridScript

/-- A piece of a line of code. -/
inductive LineToken where
  /-- A node. -/
  | node (node : Node)
  /-- The start of a group. -/
  | opening (position : Position)
  /-- The end of a group. -/
  | closing (position : Position)

/-- A group that has not ended yet. -/
structure Group where
  /-- The node the group belongs to, if there is one. -/
  owner : Option Node
  /-- Where the group starts. -/
  start : Position
  /-- The nodes of the group so far. -/
  items : List Node

/-- How far the nesting of a line has come. -/
structure Nesting where
  /-- Finished nodes outside all groups. -/
  line : List Node
  /-- The open groups, innermost first. -/
  groups : List Group
  /-- The findings so far. -/
  findings : List CompileError

namespace Nesting

/-- Nothing nested yet. -/
def initial : Nesting :=
  ⟨[], [], []⟩

/-- The nodes of the innermost group, or of the line outside all groups. -/
def items (nesting : Nesting) : List Node :=
  match nesting.groups with
  | [] => nesting.line
  | group :: _ => group.items

/-- Other nodes for the innermost group, or for the line outside all groups. -/
def setItems (nesting : Nesting) (items : List Node) : Nesting :=
  match nesting.groups with
  | [] => { nesting with line := items }
  | group :: rest => { nesting with groups := { group with items } :: rest }

/-- One more finding. -/
def report (nesting : Nesting) (finding : CompileError) : Nesting :=
  { nesting with findings := nesting.findings ++ [finding] }

/-- The last node, if a group may belong to it, and the nodes before it. -/
def takeOwner (items : List Node) : Option Node × List Node :=
  match items.getLast? with
  | some node =>
    if node.head.category.isContainer then (some node, items.dropLast) else (none, items)
  | none => (none, items)

/-- The nesting with one more piece of the line. -/
def step (nesting : Nesting) : LineToken → Nesting
  | .node node => nesting.setItems (nesting.items ++ [node])
  | .opening position =>
    let (owner, items) := takeOwner nesting.items
    let nesting := nesting.setItems items
    let nesting := if owner.isNone then nesting.report (.orphanOpen position) else nesting
    { nesting with groups := ⟨owner, position, []⟩ :: nesting.groups }
  | .closing position =>
    match nesting.groups with
    | [] => nesting.report (.unmatchedClose position)
    | group :: rest =>
      let nesting := { nesting with groups := rest }
      match group.owner with
      | none => nesting
      | some owner => nesting.setItems (nesting.items ++ [group.items.foldl Node.addChild owner])

/-- The finished nodes of a line, and the findings about its brackets. -/
def ofTokens (tokens : List LineToken) : List Node × List CompileError :=
  let nesting := tokens.foldl step initial
  (nesting.line, nesting.findings ++ nesting.groups.map fun group => .unclosedOpen group.start)

end Nesting

end GridScript
