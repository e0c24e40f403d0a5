import GridScript.Actions.Table
import GridScript.Machine.Surroundings

/-!
# Executing nodes

What a single node does to the activation it belongs to. A failed action is
skipped, a failed condition counts as false, and a loop that cannot be set up is
skipped. What concerns the whole machine (calls, forks, and the end of the run)
is handed on as an effect.
-/

namespace GridScript

/-- A call that a node asks for. -/
structure CallRequest where
  /-- Name of the function. -/
  function : String
  /-- Variable that takes the returned value. -/
  result : Option String
  /-- Arguments by name. -/
  named : ArrivalMap String Value
  /-- Arguments by position. -/
  positional : List Value

/-- What executing a node means for the machine. -/
inductive Effect where
  /-- Nothing further. -/
  | normal
  /-- The machine waits for a number of ticks. -/
  | suspend (ticks : Nat)
  /-- A loop goes on in a machine of its own. -/
  | fork (machine : Machine)
  /-- The run ends. -/
  | stop
  /-- A function is called. -/
  | call (request : CallRequest)

/-- The innermost activation and what surrounds it. -/
structure Stage (σ ρ : Type) where
  /-- The activation. -/
  activation : Activation
  /-- What surrounds it. -/
  around : Surroundings σ ρ

namespace Stage

variable {σ ρ : Type}

/-- Runs a computation of an action. -/
def run {α : Type} (stage : Stage σ ρ) (act : Act σ ρ α) : Except Fault α × Stage σ ρ :=
  let (result, scene) := act.run ⟨stage.activation.context, stage.around.host, stage.around.random⟩
  (result,
    { activation := { stage.activation with context := scene.context }
      around := { stage.around with host := scene.host, random := scene.random } })

/-- Writes a notice down. -/
def note (stage : Stage σ ρ) (notice : Notice) : Stage σ ρ :=
  { stage with around := stage.around.note notice }

/-- Changes the activation. -/
def mapActivation (stage : Stage σ ρ) (change : Activation → Activation) : Stage σ ρ :=
  { stage with activation := change stage.activation }

/-- Sets a variable. -/
def define (stage : Stage σ ρ) (name : String) (value : Value) : Stage σ ρ :=
  stage.mapActivation fun activation =>
    { activation with context := activation.context.define name value }

/-- Replaces the innermost frame by a loop. -/
def setLoop (stage : Stage σ ρ) (frame : LoopFrame) : Stage σ ρ :=
  stage.mapActivation fun activation =>
    { activation with frames := .loop frame :: activation.frames.tail }

variable [Host σ] [RandomSource ρ]

/-- Performs an action. -/
def perform (table : ActionTable σ ρ) (stage : Stage σ ρ) (op : Op) (action : String) :
    Effect × Stage σ ρ :=
  match stage.run (table.action action op) with
  | (.ok .proceed, stage) => (.normal, stage)
  | (.ok (.suspend ticks), stage) => (.suspend ticks, stage)
  | (.ok .stop, stage) => (.stop, stage)
  | (.error fault, stage) => (.normal, stage.note (.actionFailed ⟨action, fault⟩))

/-- The decision of a condition, which the parameter `negate` may turn round. -/
def decision (table : ActionTable σ ρ) (op : Op) (action : String) : Act σ ρ Bool := do
  let holds ← table.condition action op
  let negate ← Act.flag op "negate"
  return holds != negate

/-- Decides a condition; a failure counts as false. -/
def decide (table : ActionTable σ ρ) (stage : Stage σ ρ) (op : Op) (action : String) :
    Bool × Stage σ ρ :=
  match stage.run (decision table op action) with
  | (.ok holds, stage) => (holds, stage)
  | (.error fault, stage) => (false, stage.note (.conditionFailed ⟨action, fault⟩))

/-- Executes a condition: its children come next, or else a following
alternative may run. -/
def branch (table : ActionTable σ ρ) (stage : Stage σ ρ) (op : Op) (action : String) :
    Effect × Stage σ ρ :=
  match stage.decide table op action with
  | (true, stage) => (.normal, stage.mapActivation (·.enter op.body .branch))
  | (false, stage) => (.normal, stage.mapActivation (·.armElse))

/-- How the loop of a node goes on. -/
def loopKind (settings : Settings) (op : Op) (action : String) : Act σ ρ LoopKind := do
  match action with
  | "repeat" =>
    let count ← Act.lift (← Act.arg op "times").asCount
    let counter ← Act.arg? op "counter"
    return .times count (counter.map Value.toText)
  | "while" =>
    match ← Act.arg? op "limit" with
    | some value => return .whileTrue (← Act.lift value.asCount)
    | none => return .whileTrue settings.maxLoopIterations
  | "for_each" =>
    let items ← Act.lift (Fault.ofConversion (← Act.arg op "list").asList)
    let name ← Act.arg? op "var"
    return .forEach items ((name.map Value.toText).getD "item")
  | "forever" => return .forever
  | _ => throw (.unsupported action)

/-- The loop of the node at an index, and whether it is to have a machine of its
own. -/
def newLoop (settings : Settings) (index : Nat) (op : Op) (action : String) :
    Act σ ρ (LoopFrame × Bool) := do
  let delay ←
    match ← Act.arg? op "delay" with
    | some value => Act.lift value.asCount
    | none => pure 0
  let fork ← Act.flag op "async"
  let kind ← loopKind settings op action
  return (⟨index, op.body, kind, 0, delay, false⟩, fork)

/-- The machine a loop has of its own: it starts with a copy of the variables. -/
def forked (activation : Activation) (frame : LoopFrame) : Machine :=
  let context := activation.context
  ⟨[⟨activation.script, .start context.actor context.origin context.locals, [.loop frame], none⟩],
    none⟩

/-- Executes the node of a loop. -/
def enterLoop (stage : Stage σ ρ) (index : Nat) (op : Op) (action : String) :
    Effect × Stage σ ρ :=
  match stage.run (newLoop stage.around.ledger.settings index op action) with
  | (.error fault, stage) => (.normal, stage.note (.loopSkipped ⟨action, fault⟩))
  | (.ok (frame, true), stage) => (.fork (forked stage.activation frame), stage)
  | (.ok (frame, false), stage) =>
    (.normal, stage.mapActivation fun activation =>
      { activation with frames := .loop frame :: activation.frames })

/-- The arguments by name: all parameters except those that describe the call. -/
def namedArgs (op : Op) (values : ArrivalMap String Value) :
    List String → Act σ ρ (ArrivalMap String Value)
  | [] => pure values
  | name :: rest => do
    if name = "function" ∨ name = "result" ∨ name = "args" then namedArgs op values rest
    else
      let value ← Act.arg op name
      namedArgs op (values.insert name value) rest

/-- The call that a node asks for. -/
def callRequest (op : Op) : Act σ ρ CallRequest := do
  let function ← Act.textArg op "function"
  let result := (← Act.arg? op "result").map Value.toText
  let positional :=
    match ← Act.arg? op "args" with
    | none => []
    | some (.list items) => items
    | some value => [value]
  let named ← namedArgs op .empty op.args.keys
  return ⟨function, result.filter (!·.isEmpty), named, positional⟩

/-- Executes the node of a call. -/
def requestCall (stage : Stage σ ρ) (op : Op) : Effect × Stage σ ρ :=
  match stage.run (callRequest op) with
  | (.ok request, stage) => (.call request, stage)
  | (.error fault, stage) => (.normal, stage.note (.callSkipped ⟨"call", fault⟩))

/-- Executes a request to leave the innermost loop or to continue with its next
iteration: everything inside the loop is given up. -/
def exitLoop (stage : Stage σ ρ) (isBreak : Bool) : Effect × Stage σ ρ :=
  match Frame.fromLoop stage.activation.frames with
  | [] => (.normal, stage.note (.strayExit (if isBreak then "break" else "continue")))
  | frames =>
    (.normal, stage.mapActivation fun activation =>
      let flags := activation.context.flags
      { activation with
        frames := frames
        context := { activation.context with
          flags :=
            if isBreak then { flags with breakRequested := true }
            else { flags with continueRequested := true } } })

/-- Name of the variable that holds the value to be returned. -/
def returnName : String :=
  "return"

/-- Executes a return: its value, if any, is set, and nothing is left to do in
the activation. -/
def leaveActivation (stage : Stage σ ρ) (op : Op) : Effect × Stage σ ρ :=
  let (result, stage) := stage.run (Act.arg? op "value")
  let stage :=
    match result with
    | .ok (some value) => stage.define returnName value
    | .ok none => stage
    | .error fault => stage.note (.returnFailed ⟨"return", fault⟩)
  (.normal, stage.mapActivation ({ · with frames := [] }))

/-- Executes a node that has an action. -/
def execAction (table : ActionTable σ ρ) (stage : Stage σ ρ) (index : Nat) (op : Op)
    (armed : Bool) (action : String) : Effect × Stage σ ρ :=
  match op.category with
  | .event | .function | .bracket => (.normal, stage)
  | .condition => stage.branch table op action
  | .alternative => if armed then stage.branch table op action else (.normal, stage)
  | .loop => stage.enterLoop index op action
  | .call => stage.requestCall op
  | .control =>
    match action with
    | "break" => stage.exitLoop true
    | "continue" => stage.exitLoop false
    | "return" => stage.leaveActivation op
    | _ => stage.perform table op action
  | .action | .assignment => stage.perform table op action

/-- Whether a node is an alternative without a condition of its own. -/
def isPlainElse (op : Op) : Bool :=
  op.category == .alternative && (op.action == none || op.action == some "else")

/-- Executes a node. An alternative runs only if it is armed, and a node without
an action does nothing. -/
def exec (table : ActionTable σ ρ) (stage : Stage σ ρ) (index : Nat) (op : Op) (armed : Bool) :
    Effect × Stage σ ρ :=
  if isPlainElse op then
    (.normal, if armed then stage.mapActivation (·.enter op.body .branch) else stage)
  else
    match op.action with
    | none => (.normal, stage)
    | some action => stage.execAction table index op armed action

/-- Whether a loop has iterations left. -/
def hasMore (frame : LoopFrame) : Bool :=
  match frame.kind with
  | .times count _ => frame.iteration < count
  | .whileTrue limit => frame.iteration < limit
  | .forEach items _ => frame.iteration < items.length
  | .forever => true

/-- Whether the loop goes on as far as its condition is concerned. -/
def loopCondition (op : Option Op) : Act σ ρ Bool :=
  match op.bind (·.args.get? "condition") with
  | none => throw (.missingParameter "condition")
  | some arg => do
    let value ← Act.eval arg
    Act.lift (Fault.ofConversion value.asBool)

/-- Evaluates the condition of a `while` loop; a failure counts as false. Other
loops have none. -/
def keepsOn (stage : Stage σ ρ) (frame : LoopFrame) : Bool × Stage σ ρ :=
  match frame.kind with
  | .whileTrue _ =>
    match stage.run (loopCondition (stage.activation.script.op? frame.op)) with
    | (.ok holds, stage) => (holds, stage)
    | (.error fault, stage) => (false, stage.note (.loopConditionFailed ⟨"while", fault⟩))
  | _ => (true, stage)

/-- Sets the variable of a loop for an iteration, counted from one. -/
def setLoopVariable (stage : Stage σ ρ) (kind : LoopKind) (iteration : Nat) : Stage σ ρ :=
  match kind with
  | .times _ (some counter) => stage.define counter (.number (Number.ofInt iteration))
  | .forEach items name =>
    match items[iteration - 1]? with
    | some item => stage.define name item
    | none => stage
  | _ => stage

/-- Begins the next iteration of the innermost loop. -/
def iterate (stage : Stage σ ρ) (frame : LoopFrame) : Stage σ ρ :=
  let iteration := frame.iteration + 1
  let stage := stage.setLoop { frame with iteration, waited := false }
  (stage.setLoopVariable frame.kind iteration).mapActivation (·.enter frame.body .loopBody)

/-- What happens between two iterations of the innermost loop: requests are
honoured, the loop ends when nothing is left, waits if it has a delay, and goes
on otherwise. -/
def loopBoundary (stage : Stage σ ρ) (frame : LoopFrame) : Effect × Stage σ ρ :=
  let flags := stage.activation.context.flags
  let stage := stage.mapActivation fun activation =>
    { activation with context := { activation.context with flags := .none } }
  if flags.breakRequested then (.normal, stage.mapActivation (·.leave))
  else if !hasMore frame then
    let stage :=
      match frame.kind with
      | .whileTrue _ => stage.note .loopLimit
      | _ => stage
    (.normal, stage.mapActivation (·.leave))
  else if 0 < frame.iteration ∧ 0 < frame.delay ∧ !frame.waited then
    (.suspend frame.delay, stage.setLoop { frame with waited := true })
  else
    match stage.keepsOn frame with
    | (false, stage) => (.normal, stage.mapActivation (·.leave))
    | (true, stage) => (.normal, stage.iterate frame)

/-- Executes one node, or one transition between nodes, of an activation. An
activation without frames has nothing left to execute. -/
def advance (table : ActionTable σ ρ) (stage : Stage σ ρ) : Effect × Stage σ ρ :=
  match stage.activation.frames with
  | [] => (.normal, stage)
  | .loop frame :: _ => stage.loopBoundary frame
  | .block block :: outer =>
    match block.next with
    | none => (.normal, stage.mapActivation (·.leave))
    | some index =>
      let op := stage.activation.script.op? index
      let rest : Block := { block with next := op.bind (·.next), elseArmed := false }
      let stage := stage.mapActivation ({ · with frames := .block rest :: outer })
      match op with
      | none => (.normal, stage)
      | some op => stage.exec table index op block.elseArmed

end Stage

end GridScript
