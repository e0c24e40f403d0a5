import GridScript.Actions.Basic
import GridScript.Ledger.Call

/-!
# Machines

A machine executes one program. It has an activation for the program and one for
every call under way, and each activation has a stack of frames: the groups and
loops that are being executed. Both stacks have the innermost element first. A
machine without activations has ended. The iterations of a loop are counted in 64
bits, and no loop is taken to come to 2 ^ 64 of them.
-/

namespace GridScript

/-- What a block of nodes belongs to. -/
inductive BlockKind where
  /-- The whole program or function. -/
  | root
  /-- A condition or alternative. -/
  | branch
  /-- One iteration of a loop. -/
  | loopBody
  deriving DecidableEq

/-- A chain of nodes that is being executed. -/
structure Block where
  /-- Index of the node to execute next. -/
  next : Option Nat
  /-- What the block belongs to. -/
  kind : BlockKind
  /-- Whether an alternative that comes next may run. -/
  elseArmed : Bool

/-- How a loop goes on. -/
inductive LoopKind where
  /-- A fixed number of times; a variable may count the iterations from one. -/
  | times (count : Nat) (counter : Option String)
  /-- While a condition holds, at most a number of times. -/
  | whileTrue (limit : Nat)
  /-- Once for every item of a list, which is put into a variable. -/
  | forEach (items : List Value) (name : String)
  /-- Without end. -/
  | forever

/-- A loop that is being executed. -/
structure LoopFrame where
  /-- Index of the loop's node. -/
  op : Nat
  /-- Index of the first node of the body. -/
  body : Option Nat
  /-- How the loop goes on. -/
  kind : LoopKind
  /-- Number of iterations that have begun. -/
  iteration : Nat
  /-- Number of ticks to wait between iterations. -/
  delay : Nat
  /-- Whether the wait before the next iteration is over. -/
  waited : Bool

/-- A group or loop that is being executed. -/
inductive Frame where
  /-- A chain of nodes. -/
  | block (block : Block)
  /-- A loop, between two iterations when it is the innermost frame. -/
  | loop (frame : LoopFrame)

/-- A call under way and where its value goes. -/
structure PendingCall where
  /-- The call. -/
  call : ActiveCall
  /-- Variable of the caller that takes the returned value. -/
  result : Option String

/-- A program or call under way. -/
structure Activation where
  /-- The linked nodes. -/
  script : Script
  /-- Variables and requests. -/
  context : Context
  /-- Groups and loops under way, innermost first. -/
  frames : List Frame
  /-- The call, if this is one. -/
  call : Option PendingCall

namespace Activation

/-- An activation that starts at the entry of a script. -/
def start (script : Script) (context : Context) (call : Option PendingCall) : Activation :=
  ⟨script, context, [.block ⟨script.entry, .root, false⟩], call⟩

/-- The activation inside a further block. -/
def enter (activation : Activation) (body : Option Nat) (kind : BlockKind) : Activation :=
  { activation with frames := .block ⟨body, kind, false⟩ :: activation.frames }

/-- The activation after a condition that did not hold. -/
def armElse (activation : Activation) : Activation :=
  match activation.frames with
  | .block block :: outer =>
    { activation with frames := .block { block with elseArmed := true } :: outer }
  | _ => activation

/-- The activation without its innermost frame. -/
def leave (activation : Activation) : Activation :=
  { activation with frames := activation.frames.tail }

/-- Whether the activation is a call that is past its deadline. -/
def isLate (activation : Activation) (now : UInt64) : Bool :=
  match activation.call with
  | some pending => pending.call.isLate now
  | none => false

end Activation

/-- The frames from the innermost loop on. -/
def Frame.fromLoop : List Frame → List Frame
  | [] => []
  | .loop frame :: outer => .loop frame :: outer
  | .block _ :: outer => fromLoop outer

/-- The execution of one program. -/
structure Machine where
  /-- Program and calls under way, innermost first. -/
  stack : List Activation
  /-- Variables of the program when it ended. -/
  finalLocals : Option Locals

namespace Machine

/-- A machine that runs a script. -/
def ofScript (script : Script) (context : Context) : Machine :=
  ⟨[.start script context none], none⟩

/-- A machine whose program is a call that was accepted. -/
def ofCall (call : ActiveCall) (context : Context) : Machine :=
  ⟨[.start call.entry.script context (some ⟨call, none⟩)], none⟩

/-- Whether the machine has not ended. -/
def isRunning (machine : Machine) : Bool :=
  !machine.stack.isEmpty

/-- The number of calls under way. -/
def callDepth (machine : Machine) : Nat :=
  machine.stack.countP (·.call.isSome)

/-- The innermost context. -/
def context? (machine : Machine) : Option Context :=
  machine.stack.head?.map (·.context)

/-- The variables of the program: its current ones, or those at its end. -/
def locals? (machine : Machine) : Option Locals :=
  match machine.stack.getLast? with
  | some bottom => some bottom.context.locals
  | none => machine.finalLocals

/-- The variables of the program, which are given away once it has ended. -/
def takeLocals (machine : Machine) : Locals × Machine :=
  match machine.stack.getLast? with
  | some bottom => (bottom.context.locals, machine)
  | none => (machine.finalLocals.getD .empty, { machine with finalLocals := none })

/-- What frames say about the state of a run: the innermost group or loop. -/
def stateOfFrames : List Frame → RunState
  | [] => .running
  | .loop _ :: _ => .looping
  | .block block :: outer =>
    match block.kind with
    | .loopBody => .looping
    | .branch => .branching
    | .root => stateOfFrames outer

/-- What the machine is doing. -/
def state (machine : Machine) : RunState :=
  match machine.stack with
  | [] => .idle
  | activation :: _ => stateOfFrames activation.frames

/-- The machine after its end, with the variables the program had. -/
def ended (machine : Machine) : Machine :=
  ⟨[], machine.locals?⟩

end Machine

end GridScript
