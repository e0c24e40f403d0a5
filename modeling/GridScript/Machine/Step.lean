import GridScript.Machine.Node

/-!
# Stepping machines

A machine is stepped one node at a time. A step first looks for calls past their
deadline, which end the whole machine. Calls are pushed onto the stack and, when
they return, hand their value to the caller. When a step fails, every call under
way ends with it.
-/

namespace GridScript

/-- What a step of a machine came to. -/
inductive Step where
  /-- The machine has ended before. -/
  | idle
  /-- The machine can go on. -/
  | normal
  /-- The machine waits for a number of ticks. -/
  | suspend (ticks : Nat)
  /-- A loop goes on in a machine of its own. -/
  | fork (machine : Machine)
  /-- The machine ended, with a value if the program returned one. -/
  | terminate (result : Option Value)

/-- A machine after a step. -/
structure Stepped (σ ρ : Type) where
  /-- What the step came to, or why the machine failed. -/
  outcome : Except RunError Step
  /-- The machine. -/
  machine : Machine
  /-- What surrounds it. -/
  around : Surroundings σ ρ

namespace Machine

variable {σ ρ : Type} [Host σ]

/-- Ends a machine and its calls with an outcome. -/
def close (machine : Machine) (outcome : CallOutcome) (around : Surroundings σ ρ) :
    Machine × Surroundings σ ρ :=
  (machine.ended, around.releaseAll outcome machine.stack)

/-- A machine that fails with all its calls. -/
def failWith (machine : Machine) (error : RunError) (around : Surroundings σ ρ) : Stepped σ ρ :=
  let (machine, around) := machine.close .failure around
  ⟨.error error, machine, around⟩

/-- The activations outside of the outermost late call, that call, and whether
there is one; outermost first. -/
def splitLate (machine : Machine) (now : UInt64) : List Activation × List Activation :=
  machine.stack.reverse.span (!·.isLate now)

/-- The outermost call past its deadline. -/
def lateCall? (machine : Machine) (now : UInt64) : Option ActiveCall :=
  ((machine.splitLate now).2.head?.bind (·.call)).map (·.call)

/-- Ends a machine if one of its calls is past its deadline. The outermost such
call and all calls inside it have timed out, and those outside of it have
failed. -/
def checkDeadlines (machine : Machine) (around : Surroundings σ ρ) :
    Except LimitError Unit × Machine × Surroundings σ ρ :=
  let now := around.now
  match machine.lateCall? now with
  | none => (.ok (), machine, around)
  | some late =>
    let (outside, inside) := machine.splitLate now
    let around := around.note .callTimedOut
    let around := around.releaseAll .timeout inside.reverse
    let around := around.releaseAll .failure outside.reverse
    (.error (.timeout late.entry.definition.name late.timeLimitMs), machine.ended, around)

/-- The value a finished activation hands on: what the call returned, if it has
the declared kind. -/
def returned (call : ActiveCall) (value : Option Value) (around : Surroundings σ ρ) :
    Option Value × Surroundings σ ρ :=
  match value with
  | none => (none, around)
  | some value =>
    match value.coerce call.entry.definition.returns with
    | .ok value => (some value, around)
    | .error error => (none, around.note (.returnMismatch (.conversion error)))

/-- The caller with the returned value put into the variable that takes it. -/
def receive (caller : Activation) (name : Option String) (value : Option Value) : Activation :=
  match name, value with
  | some name, some value => { caller with context := caller.context.define name value }
  | _, _ => caller

/-- The innermost activation has nothing left to execute. -/
def finish (machine : Machine) (top : Activation) (callers : List Activation)
    (around : Surroundings σ ρ) : Stepped σ ρ :=
  let value := top.context.locals.get? Stage.returnName
  match top.call with
  | none => ⟨.ok (.terminate value), ⟨callers, some top.context.locals⟩, around⟩
  | some pending =>
    let (value, around) := returned pending.call value around
    let around := around.release pending.call .success
    match callers with
    | [] => ⟨.ok (.terminate value), ⟨[], some top.context.locals⟩, around⟩
    | caller :: outer =>
      let caller := receive caller pending.result value
      ⟨.ok .normal, { machine with stack := caller :: outer }, around⟩

/-- Pushes the call that the innermost activation asks for. -/
def call (machine : Machine) (context : Context) (request : CallRequest)
    (around : Surroundings σ ρ) : Stepped σ ρ :=
  match around.ledger.registry.lookup? request.function context.actor context.origin.world with
  | none => machine.failWith (.validation (.unknownFunction request.function)) around
  | some entry =>
    match entry.definition.bindArgs request.named request.positional with
    | .error error => machine.failWith (.validation error) (around.reject entry)
    | .ok locals =>
      match around.acquire entry context.actor with
      | (.error error, around) => machine.failWith (.limit error) around
      | (.ok accepted, around) =>
        let callee := Activation.start entry.script
          (.start context.actor context.origin locals) (some ⟨accepted, request.result⟩)
        ⟨.ok .normal, { machine with stack := callee :: machine.stack }, around⟩

variable [RandomSource ρ]

/-- Executes one node or one transition between nodes. -/
def advance (table : ActionTable σ ρ) (machine : Machine) (around : Surroundings σ ρ) :
    Stepped σ ρ :=
  match machine.stack with
  | [] => ⟨.ok .idle, machine, around⟩
  | top :: callers =>
    if top.frames.isEmpty then machine.finish top callers around
    else
      let (effect, stage) := Stage.advance table ⟨top, around⟩
      let machine := { machine with stack := stage.activation :: callers }
      match effect with
      | .normal => ⟨.ok .normal, machine, stage.around⟩
      | .suspend ticks => ⟨.ok (.suspend ticks), machine, stage.around⟩
      | .fork child => ⟨.ok (.fork child), machine, stage.around⟩
      | .stop =>
        let (machine, around) := machine.close .success stage.around
        ⟨.ok (.terminate none), machine, around⟩
      | .call request => machine.call stage.activation.context request stage.around

/-- Steps a machine. -/
def step (table : ActionTable σ ρ) (machine : Machine) (around : Surroundings σ ρ) :
    Stepped σ ρ :=
  match machine.stack with
  | [] => ⟨.ok .idle, machine, around⟩
  | _ =>
    match machine.checkDeadlines around with
    | (.error error, machine, around) => ⟨.error (.limit error), machine, around⟩
    | (.ok (), machine, around) => machine.advance table around

end Machine

end GridScript
