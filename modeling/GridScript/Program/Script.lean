import GridScript.Formula.Eval
import GridScript.Formula.Parser
import GridScript.Program.Basic

/-!
# Scripts

A program is run in linked form: its nodes are laid out in one array, a node
before its children and these before its successor, and every node knows the
index of the first node of its body and of the node that runs after it. The
successors of a child run before the following child. Nodes are put into the array
without links; the links of a node are filled in once it is known where they lead.
Formulas are read once, when the program is linked.
-/

namespace GridScript

/-- A linked parameter. -/
inductive Arg where
  /-- A fixed value. -/
  | const (value : Value)
  /-- A formula with its source. -/
  | formula (source : String) (formula : Formula)
  /-- A text meant as a formula that could not be read, and why. -/
  | invalid (source reason : String)

namespace Arg

/-- A parameter linked: a text that starts with an equals sign is a formula. -/
def link : Value → Arg
  | .text content =>
    match content.toList with
    | '=' :: source =>
      match Formula.parse (String.ofList source) with
      | .ok parsed => .formula content parsed
      | .error error => .invalid content error.message
    | _ => .const (.text content)
  | value => .const value

/-- The value of a parameter. -/
def eval {ρ : Type} [RandomSource ρ] (lookup : String → Option Value) : Arg → Formula.Eval ρ Value
  | .const value => pure value
  | .formula _ parsed => parsed.eval lookup
  | .invalid source reason => throw (.badFormula source reason)

end Arg

/-- A linked node. -/
structure Op where
  /-- Identity of the node. -/
  id : NodeId
  /-- Symbol the node was made from. -/
  symbol : String
  /-- Role of the node. -/
  category : Category
  /-- Action the node performs. -/
  action : Option String
  /-- Linked parameters in their order. -/
  args : ArrivalMap String Arg
  /-- Index of the first node of the body. -/
  body : Option Nat
  /-- Index of the node that runs after this one. -/
  next : Option Nat
  /-- Cell the node was read from. -/
  position : Option Position

/-- A node linked to the given body and successor. -/
def Instruction.link (head : Instruction) (body next : Option Nat) : Op where
  id := head.id
  symbol := head.symbol
  category := head.category
  action := head.action
  args := head.params.mapValues Arg.link
  body := body
  next := next
  position := head.position

/-- A linked node with another one to run after it. -/
def Op.followedBy (op : Op) (index : Nat) : Op :=
  { op with next := some index }

/-- A linked node with another body. -/
def Op.withBody (op : Op) (body : Option Nat) : Op :=
  { op with body := body }

namespace Linker

mutual

/-- A node and its successors put behind the nodes so far, with the indices of the first and the
last node of the chain. The node continues the chain between `bounds`, if there is one. -/
def appendChain (ops : Array Op) (bounds : Option (Nat × Nat)) : Node → Array Op × Nat × Nat
  | .mk head children next =>
    let index := ops.size
    let (ops, body) := appendChildren (ops.push (head.link none none)) none children
    let ops := ops.modify index (·.withBody body)
    match bounds with
    | none => appendNext ops (index, index) next
    | some (first, last) =>
      appendNext (ops.modify last (·.followedBy index)) (first, index) next

/-- An optional successor put behind the nodes so far, at the end of the chain between `bounds`. -/
def appendNext (ops : Array Op) (bounds : Nat × Nat) : Option Node → Array Op × Nat × Nat
  | none => (ops, bounds)
  | some node => appendChain ops (some bounds) node

/-- Children put behind the nodes so far, with the index of the first one. The chain of each
follows that of the one before it; `bounds` are those of all chains so far. -/
def appendChildren (ops : Array Op) (bounds : Option (Nat × Nat)) :
    List Node → Array Op × Option Nat
  | [] => (ops, bounds.map Prod.fst)
  | child :: rest =>
    let (ops, first, last) := appendChain ops none child
    match bounds with
    | none => appendChildren ops (some (first, last)) rest
    | some (head, tail) =>
      appendChildren (ops.modify tail (·.followedBy first)) (some (head, last)) rest

end

end Linker

/-- A linked body of a program or function. -/
structure Script where
  /-- Name of the event or function. -/
  name : String
  /-- Where it was compiled from. -/
  origin : Place
  /-- The linked nodes. -/
  ops : Array Op
  /-- Index of the node to start with. -/
  entry : Option Nat

namespace Script

/-- A bare chain of nodes linked. -/
def ofBody (name : String) (origin : Place) : Option Node → Script
  | none => ⟨name, origin, #[], none⟩
  | some node =>
    let (ops, first, _) := Linker.appendChain #[] none node
    ⟨name, origin, ops, some first⟩

/-- A program linked: everything after its entry node. -/
def ofProgram (program : Program) : Script :=
  ofBody program.kind.name program.origin program.root.next

/-- The node at an index. -/
def op? (script : Script) (index : Nat) : Option Op :=
  script.ops[index]?

end Script

end GridScript
