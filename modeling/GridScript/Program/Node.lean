import GridScript.Store.ArrivalMap
import GridScript.Value.Basic

/-!
# Nodes

A program is a tree of nodes. Every node owns its children and the node that
follows it, so no node is shared and no chain runs in circles. Nodes carry
identities that are handed out by a counter of 64 bits.
-/

namespace GridScript

/-- The identity of a node. -/
abbrev NodeId := UInt64

/-- The counter node identities come from. -/
structure IdSource where
  /-- The identity handed out next. -/
  next : NodeId
  deriving DecidableEq

namespace IdSource

/-- A counter from which nothing has been taken. -/
def initial : IdSource :=
  ⟨1⟩

/-- A new identity. -/
def fresh (source : IdSource) : NodeId × IdSource :=
  (source.next, ⟨source.next + 1⟩)

/-- The counter moved past an identity that was read from a document. -/
def reserve (source : IdSource) (id : NodeId) : IdSource :=
  ⟨max source.next (id + 1)⟩

end IdSource

/-- The role of a node. -/
inductive Category where
  /-- Starts a program that runs on an event. -/
  | event
  /-- Heads the definition of a function. -/
  | function
  /-- A plain action. -/
  | action
  /-- Works on a variable. -/
  | assignment
  /-- Guards its children by a condition. -/
  | condition
  /-- Follows a condition and runs when that did not hold. -/
  | alternative
  /-- Repeats its children. -/
  | loop
  /-- Directs the flow: waiting, leaving loops, returning, stopping. -/
  | control
  /-- Calls a function. -/
  | call
  /-- Marks the start or end of a group while a line is being read. -/
  | bracket
  deriving DecidableEq

namespace Category

/-- All categories. -/
def all : List Category :=
  [.event, .function, .action, .assignment, .condition, .alternative, .loop, .control, .call,
    .bracket]

/-- The name of a category. -/
def name : Category → String
  | .event => "event"
  | .function => "function"
  | .action => "action"
  | .assignment => "variable"
  | .condition => "condition"
  | .alternative => "else"
  | .loop => "loop"
  | .control => "control"
  | .call => "call"
  | .bracket => "bracket"

/-- The category of a name. -/
def ofName? (name : String) : Option Category :=
  all.find? (·.name == name)

/-- Whether nodes of the category take a bracketed group as children. -/
def isContainer : Category → Bool
  | .condition | .alternative | .loop => true
  | _ => false

/-- Whether nodes of the category start a program. -/
def isEntry : Category → Bool
  | .event | .function => true
  | _ => false

end Category

/-- The part a symbol plays in grouping. -/
inductive BracketRole where
  /-- None. -/
  | plain
  /-- Starts a group. -/
  | opening
  /-- Ends a group. -/
  | closing
  deriving DecidableEq

namespace BracketRole

/-- The name of a role. -/
def name : BracketRole → String
  | .plain => "none"
  | .opening => "open"
  | .closing => "close"

/-- The role of a name. -/
def ofName? (name : String) : Option BracketRole :=
  [BracketRole.plain, .opening, .closing].find? (·.name == name)

end BracketRole

/-- What a node is by itself, without its children and its successor. -/
structure Instruction where
  /-- Identity of the node. -/
  id : NodeId
  /-- Symbol the node was made from. -/
  symbol : String
  /-- Role of the node. -/
  category : Category
  /-- Action the node performs; a node without one does nothing. -/
  action : Option String
  /-- Parameters in the order they were given. -/
  params : ArrivalMap String Value
  /-- Part the node plays in grouping. -/
  bracket : BracketRole
  /-- Cell the node was read from. -/
  position : Option Position

/-- A node with everything it owns. -/
inductive Node where
  /-- A node, its children and its successor. -/
  | mk (head : Instruction) (children : List Node) (next : Option Node)

namespace Node

/-- The node without its children and successor. -/
def head : Node → Instruction
  | .mk head _ _ => head

/-- The children of a node. -/
def children : Node → List Node
  | .mk _ children _ => children

/-- The successor of a node. -/
def next : Node → Option Node
  | .mk _ _ next => next

/-- A node without parameters, children and successor. -/
def bare (id : NodeId) (symbol : String) (category : Category) : Node :=
  .mk ⟨id, symbol, category, none, .empty, .plain, none⟩ [] none

instance : Inhabited Node := ⟨bare 0 "" .action⟩

/-- The node with its own part changed. -/
def mapHead (change : Instruction → Instruction) : Node → Node
  | .mk head children next => .mk (change head) children next

/-- The node with a parameter set. -/
def setParam (node : Node) (name : String) (value : Value) : Node :=
  node.mapHead fun head => { head with params := head.params.insert name value }

/-- The value of a parameter. -/
def param? (node : Node) (name : String) : Option Value :=
  node.head.params.get? name

/-- The node with one more child. -/
def addChild (node child : Node) : Node :=
  .mk node.head (node.children ++ [child]) node.next

/-- The node with another successor. -/
def setNext (node : Node) (next : Option Node) : Node :=
  .mk node.head node.children next

/-- Nodes linked one after the other. Whatever followed a node before is left
out. -/
def chain (nodes : List Node) : Option Node :=
  nodes.foldr (fun node rest => some (node.setNext rest)) none

mutual

/-- A node and all that follow it, each still with its own successor. -/
def toChain : Node → List Node
  | .mk head children next => .mk head children next :: restOfChain next

/-- The nodes from an optional one on. -/
def restOfChain : Option Node → List Node
  | none => []
  | some node => node.toChain

end

mutual

/-- Every node of the tree by itself: a node, what its children own, and then
what follows it. -/
def walk : Node → List Instruction
  | .mk head children next => head :: (walkAll children ++ walkNext next)

/-- Every node that some nodes own. -/
def walkAll : List Node → List Instruction
  | [] => []
  | node :: rest => node.walk ++ walkAll rest

/-- Every node that an optional node owns. -/
def walkNext : Option Node → List Instruction
  | none => []
  | some node => node.walk

end

mutual

/-- The number of nodes in the tree. -/
def count : Node → Nat
  | .mk _ children next => 1 + countAll children + countNext next

/-- The number of nodes that some nodes own. -/
def countAll : List Node → Nat
  | [] => 0
  | node :: rest => node.count + countAll rest

/-- The number of nodes that an optional node owns. -/
def countNext : Option Node → Nat
  | none => 0
  | some node => node.count

end

mutual

/-- The same tree under new identities. -/
def renew : Node → IdSource → Node × IdSource
  | .mk head children next, source =>
    let (id, source) := source.fresh
    let (children, source) := renewAll children source
    let (next, source) := renewNext next source
    (.mk { head with id } children next, source)

/-- The same trees under new identities. -/
def renewAll : List Node → IdSource → List Node × IdSource
  | [], source => ([], source)
  | node :: rest, source =>
    let (node, source) := node.renew source
    let (rest, source) := renewAll rest source
    (node :: rest, source)

/-- The same optional tree under new identities. -/
def renewNext : Option Node → IdSource → Option Node × IdSource
  | none, source => (none, source)
  | some node, source =>
    let (node, source) := node.renew source
    (some node, source)

end

/-- Whether two nodes by themselves agree in all but identity and cell. -/
def sameInstruction (a b : Instruction) : Bool :=
  a.symbol == b.symbol && a.category == b.category && a.action == b.action &&
    a.params == b.params && a.bracket == b.bracket

mutual

/-- Whether two trees agree in all but identities and cells. -/
def sameStructure : Node → Node → Bool
  | .mk a children next, .mk b others other =>
    sameInstruction a b && sameStructures children others && sameSuccessor next other

/-- Whether two lists of trees agree one by one. -/
def sameStructures : List Node → List Node → Bool
  | [], [] => true
  | a :: as, b :: bs => sameStructure a b && sameStructures as bs
  | _, _ => false

/-- Whether two optional trees agree. -/
def sameSuccessor : Option Node → Option Node → Bool
  | none, none => true
  | some a, some b => sameStructure a b
  | _, _ => false

end

/-- The counter moved past every identity of a tree. -/
def reserveIds (node : Node) (source : IdSource) : IdSource :=
  node.walk.foldl (fun source head => source.reserve head.id) source

end Node

end GridScript
