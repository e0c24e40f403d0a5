import GridScript.Machine.Node
import GridScript.Proofs.Linking

/-!
# The structured meaning of programs

What a chain of nodes does, read off the tree: nodes run in the order of the chain,
and a child with everything that follows it runs before the next child. A condition
that holds runs its children, and one that does not lets an alternative run that
follows directly. Loops run their children again and again, `break` and `continue`
act on the innermost loop, `return` ends the chain and `stop` the run. There is no
stack and there are no indices here.

The recursion is on the tree; only loops are given a bound on the number of their
iterations, and there is no result when that is too small. A loop that is to go on
in a machine of its own and a call of a function have no meaning here.
-/

namespace GridScript

/-- A wait of a program: for how many ticks, and the host at its beginning. -/
structure Wait (σ : Type) where
  /-- Number of ticks. -/
  ticks : Nat
  /-- The host as the program left it. -/
  host : σ

/-- What a program came to. -/
structure Completion (σ ρ : Type) where
  /-- The returned value. -/
  result : Option Value
  /-- The variables at the end. -/
  locals : Option Locals
  /-- The surroundings at the end. -/
  around : Surroundings σ ρ
  /-- All waits in order. -/
  waits : List (Wait σ)

/-- How a chain of nodes ends. -/
inductive Outcome where
  /-- Everything was executed; an alternative that follows may run or not. -/
  | finished (armed : Bool)
  /-- The innermost loop is to be left. -/
  | broke
  /-- The next iteration of the innermost loop is to begin. -/
  | continued
  /-- The program returned. -/
  | returned
  /-- The run is to end. -/
  | stopped
  deriving DecidableEq

/-- The outcome of children for what follows their parent. -/
def Outcome.disarm : Outcome → Outcome
  | .finished _ => .finished false
  | outcome => outcome

/-- What nodes work on. -/
structure Situation (σ ρ : Type) where
  /-- The variables, for whom and where. -/
  context : Context
  /-- The surroundings. -/
  around : Surroundings σ ρ
  /-- The waits so far. -/
  waits : List (Wait σ)

/-- What happens to the surroundings while a program waits. -/
abbrev Meanwhile (σ ρ : Type) :=
  Nat → Surroundings σ ρ → Surroundings σ ρ

namespace Situation

variable {σ ρ α : Type}

/-- Runs a computation. -/
def act (situation : Situation σ ρ) (act : Act σ ρ α) : Except Fault α × Situation σ ρ :=
  let (result, scene) := act ⟨situation.context, situation.around.host, situation.around.random⟩
  (result, { situation with
    context := scene.context
    around := { situation.around with host := scene.host, random := scene.random } })

/-- Writes a notice down. -/
def note (situation : Situation σ ρ) (notice : Notice) : Situation σ ρ :=
  { situation with around := situation.around.note notice }

/-- Sets a variable. -/
def define (situation : Situation σ ρ) (name : String) (value : Value) : Situation σ ρ :=
  { situation with context := situation.context.define name value }

/-- Waits for a number of ticks. -/
def wait (meanwhile : Meanwhile σ ρ) (situation : Situation σ ρ) (ticks : Nat) :
    Situation σ ρ where
  context := situation.context
  around := meanwhile ticks situation.around
  waits := situation.waits ++ [⟨ticks, situation.around.host⟩]

/-- What a program came to that ended with an outcome. -/
def completion (situation : Situation σ ρ) (outcome : Outcome) : Completion σ ρ where
  result :=
    match outcome with
    | .stopped => none
    | _ => situation.context.locals.get? Stage.returnName
  locals := some situation.context.locals
  around := situation.around
  waits := situation.waits

end Situation

namespace LoopKind

/-- Whether an iteration may follow a number of iterations. -/
def allows (kind : LoopKind) (iterations : Nat) : Bool :=
  match kind with
  | .times count _ => iterations < count
  | .whileTrue limit => iterations < limit
  | .forEach items _ => iterations < items.length
  | .forever => true

/-- The variable to be set for an iteration, counted from zero, and its value. -/
def binding? (kind : LoopKind) (iteration : Nat) : Option (String × Value) :=
  match kind with
  | .times _ (some counter) => some (counter, .number (Number.ofInt ↑(iteration + 1)))
  | .forEach items name => items[iteration]?.map (name, ·)
  | _ => none

end LoopKind

namespace Meaning

variable {σ ρ : Type}

/-- What executing something comes to, if it comes to an end. -/
abbrev Result (σ ρ : Type) :=
  Option (Outcome × Situation σ ρ)

/-- Goes on after something that was executed to its end. -/
def andThen (result : Result σ ρ) (next : Bool → Situation σ ρ → Result σ ρ) : Result σ ρ :=
  match result with
  | some (.finished armed, situation) => next armed situation
  | other => other

/-- Runs children. -/
def group (body : Situation σ ρ → Result σ ρ) (situation : Situation σ ρ) : Result σ ρ :=
  (body situation).map fun (outcome, situation) => (outcome.disarm, situation)

/-- Leaves the innermost loop, or continues with its next iteration. -/
def exit (inLoop : Bool) (outcome : Outcome) (word : String) (situation : Situation σ ρ) :
    Outcome × Situation σ ρ :=
  if inLoop then (outcome, situation) else (.finished false, situation.note (.strayExit word))

variable [RandomSource ρ]

/-- Returns, with a value if the node has one. -/
def leave (head : Instruction) (situation : Situation σ ρ) : Outcome × Situation σ ρ :=
  match situation.act (Act.arg? head.alone "value") with
  | (.ok (some value), situation) => (.returned, situation.define Stage.returnName value)
  | (.ok none, situation) => (.returned, situation)
  | (.error fault, situation) => (.returned, situation.note (.returnFailed ⟨"return", fault⟩))

/-- How a loop goes on, how long it waits between iterations, and whether it is to
have a machine of its own. -/
def plan (settings : Settings) (op : Op) (action : String) : Act σ ρ (LoopKind × Nat × Bool) := do
  let delay ←
    match ← Act.arg? op "delay" with
    | some value => Act.lift value.asCount
    | none => pure 0
  let fork ← Act.flag op "async"
  let kind ← Stage.loopKind settings op action
  return (kind, delay, fork)

/-- Whether the condition of a loop holds; only `while` has one, and a failure
counts as false. -/
def keepsOn (head : Instruction) (kind : LoopKind) (situation : Situation σ ρ) :
    Bool × Situation σ ρ :=
  match kind with
  | .whileTrue _ =>
    match situation.act (Stage.loopCondition (some head.alone)) with
    | (.ok holds, situation) => (holds, situation)
    | (.error fault, situation) =>
      (false, situation.note (.loopConditionFailed ⟨"while", fault⟩))
  | _ => (true, situation)

/-- The situation when a loop has had all its iterations. -/
def exhausted (kind : LoopKind) (situation : Situation σ ρ) : Situation σ ρ :=
  match kind with
  | .whileTrue _ => situation.note .loopLimit
  | _ => situation

/-- The situation before an iteration. -/
def enter (kind : LoopKind) (iteration : Nat) (situation : Situation σ ρ) : Situation σ ρ :=
  match kind.binding? iteration with
  | some (name, value) => situation.define name value
  | none => situation

variable (meanwhile : Meanwhile σ ρ)

/-- The situation when the next iteration is due: a loop with a delay waits before
every iteration but the first. -/
def rest (delay iteration : Nat) (situation : Situation σ ρ) : Situation σ ρ :=
  if 0 < iteration ∧ 0 < delay then situation.wait meanwhile delay else situation

/-- Runs the iterations of a loop from a given one on, for at most `fuel` of
them. -/
def repeated (head : Instruction) (kind : LoopKind) (delay : Nat)
    (body : Situation σ ρ → Result σ ρ) : (fuel : Nat) → (iteration : Nat) → Situation σ ρ →
    Result σ ρ
  | 0, _, _ => none
  | fuel + 1, iteration, situation =>
    if kind.allows iteration then
      match keepsOn head kind (rest meanwhile delay iteration situation) with
      | (false, situation) => some (.finished false, situation)
      | (true, situation) =>
        match body (enter kind iteration situation) with
        | some (.finished _, situation) | some (.continued, situation) =>
          repeated head kind delay body fuel (iteration + 1) situation
        | some (.broke, situation) => some (.finished false, situation)
        | other => other
    else some (.finished false, exhausted kind situation)

/-- Runs a loop. One that cannot be set up is skipped. -/
def loop (fuel : Nat) (head : Instruction) (action : String)
    (body : Situation σ ρ → Result σ ρ) (situation : Situation σ ρ) : Result σ ρ :=
  match situation.act (plan situation.around.ledger.settings head.alone action) with
  | (.error fault, situation) =>
    some (.finished false, situation.note (.loopSkipped ⟨action, fault⟩))
  | (.ok (_, _, true), _) => none
  | (.ok (kind, delay, false), situation) =>
    repeated meanwhile head kind delay body fuel 0 situation

variable [Host σ] (table : ActionTable σ ρ)

/-- Performs an action; a failed one is skipped. -/
def perform (head : Instruction) (action : String) (situation : Situation σ ρ) :
    Outcome × Situation σ ρ :=
  match situation.act (table.action action head.alone) with
  | (.ok .proceed, situation) => (.finished false, situation)
  | (.ok (.suspend ticks), situation) => (.finished false, situation.wait meanwhile ticks)
  | (.ok .stop, situation) => (.stopped, situation)
  | (.error fault, situation) =>
    (.finished false, situation.note (.actionFailed ⟨action, fault⟩))

/-- Runs children if a condition holds, and else lets a following alternative
run. A failure counts as false. -/
def guarded (head : Instruction) (action : String) (body : Situation σ ρ → Result σ ρ)
    (situation : Situation σ ρ) : Result σ ρ :=
  match situation.act (Stage.decision table head.alone action) with
  | (.ok true, situation) => group body situation
  | (.ok false, situation) => some (.finished true, situation)
  | (.error fault, situation) =>
    some (.finished true, situation.note (.conditionFailed ⟨action, fault⟩))

/-- Executes a node that has an action. -/
def execute (fuel : Nat) (inLoop armed : Bool) (head : Instruction) (action : String)
    (body : Bool → Situation σ ρ → Result σ ρ) (situation : Situation σ ρ) : Result σ ρ :=
  match head.category with
  | .event | .function | .bracket => some (.finished false, situation)
  | .condition => guarded table head action (body inLoop) situation
  | .alternative =>
    if armed then guarded table head action (body inLoop) situation
    else some (.finished false, situation)
  | .loop => loop meanwhile fuel head action (body true) situation
  | .call => none
  | .control =>
    match action with
    | "break" => some (exit inLoop .broke "break" situation)
    | "continue" => some (exit inLoop .continued "continue" situation)
    | "return" => some (leave head situation)
    | _ => some (perform meanwhile table head action situation)
  | .action | .assignment => some (perform meanwhile table head action situation)

/-- Executes a node, given what its children do. A plain alternative runs them if
it may, and a node without an action does nothing. -/
def instruction (fuel : Nat) (inLoop armed : Bool) (head : Instruction)
    (body : Bool → Situation σ ρ → Result σ ρ) (situation : Situation σ ρ) : Result σ ρ :=
  if Stage.isPlainElse head.alone then
    if armed then group (body inLoop) situation else some (.finished false, situation)
  else
    match head.action with
    | none => some (.finished false, situation)
    | some action => execute meanwhile table fuel inLoop armed head action body situation

mutual

/-- Runs a node and everything that follows it. -/
def chain (fuel : Nat) : Node → (inLoop armed : Bool) → Situation σ ρ → Result σ ρ
  | .mk head children next, inLoop, armed, situation =>
    andThen (instruction meanwhile table fuel inLoop armed head
      (fun inLoop => all fuel children inLoop false) situation) fun armed situation =>
        following fuel next inLoop armed situation

/-- Runs children, each with everything that follows it. -/
def all (fuel : Nat) : List Node → (inLoop armed : Bool) → Situation σ ρ → Result σ ρ
  | [], _, armed, situation => some (.finished armed, situation)
  | node :: rest, inLoop, armed, situation =>
    andThen (chain fuel node inLoop armed situation) fun armed situation =>
      all fuel rest inLoop armed situation

/-- Runs a successor, if there is one. -/
def following (fuel : Nat) : Option Node → (inLoop armed : Bool) → Situation σ ρ → Result σ ρ
  | none, _, armed, situation => some (.finished armed, situation)
  | some node, inLoop, armed, situation => chain fuel node inLoop armed situation

end

/-- Runs a program from its first variables to its end. -/
def program (fuel : Nat) (body : Option Node) (context : Context)
    (around : Surroundings σ ρ) : Option (Completion σ ρ) :=
  (following meanwhile table fuel body false false ⟨context, around, []⟩).map
    fun (outcome, situation) => situation.completion outcome

end Meaning

end GridScript
