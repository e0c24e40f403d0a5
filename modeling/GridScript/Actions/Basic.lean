import GridScript.Host.Basic
import GridScript.Program.Script
import GridScript.Store.SortedMap

/-!
# Actions

An action is what a node does: it evaluates the parameters of the node, may read
and change the variables of the invocation, and may turn to the host. Variables,
host and random source are as an action left them also when it failed.
-/

namespace GridScript

/-- The variables of an invocation. -/
abbrev Locals := SortedMap String Value

/-- Requests to the innermost loop that have not been honoured yet. -/
structure LoopFlags where
  /-- The loop is to be left. -/
  breakRequested : Bool
  /-- The rest of the iteration is to be skipped. -/
  continueRequested : Bool
  deriving DecidableEq

/-- No requests. -/
def LoopFlags.none : LoopFlags :=
  ⟨false, false⟩

/-- What the nodes of one invocation share: a program or a single call. -/
structure Context where
  /-- Actor the invocation runs for. -/
  actor : Actor
  /-- Where it runs. -/
  origin : Place
  /-- Its variables. -/
  locals : Locals
  /-- Requests to its innermost loop. -/
  flags : LoopFlags

namespace Context

/-- The context of an invocation that starts with the given variables. -/
def start (actor : Actor) (origin : Place) (locals : Locals) : Context :=
  ⟨actor, origin, locals, .none⟩

/-- The context with a variable set. -/
def define (context : Context) (name : String) (value : Value) : Context :=
  { context with locals := context.locals.insert name value }

end Context

/-- Everything an action may touch. -/
structure Scene (σ ρ : Type) where
  /-- The invocation. -/
  context : Context
  /-- The host. -/
  host : σ
  /-- The random source. -/
  random : ρ

/-- A computation of an action: it may fail, but keeps what it did before. -/
abbrev Act (σ ρ : Type) :=
  ExceptT Fault (StateM (Scene σ ρ))

namespace Act

variable {σ ρ α : Type}

/-- The outcome of a computation that touches nothing. -/
def lift (result : Except Fault α) : Act σ ρ α :=
  fun scene => (result, scene)

/-- The invocation. -/
def context : Act σ ρ Context :=
  fun scene => (.ok scene.context, scene)

/-- The value of a variable. -/
def lookup? (name : String) : Act σ ρ (Option Value) :=
  fun scene => (.ok (scene.context.locals.get? name), scene)

/-- Sets a variable. -/
def define (name : String) (value : Value) : Act σ ρ Unit :=
  fun scene => (.ok (), { scene with context := scene.context.define name value })

/-- Removes a variable. -/
def erase (name : String) : Act σ ρ Unit :=
  fun scene =>
    let context := scene.context
    (.ok (), { scene with context := { context with locals := context.locals.erase name } })

/-- The value of a linked parameter. -/
def eval [RandomSource ρ] (arg : Arg) : Act σ ρ Value :=
  fun scene =>
    let (result, random) := (arg.eval scene.context.locals.get?).run scene.random
    (result, { scene with random })

/-- The value of a parameter, if the node has it. -/
def arg? [RandomSource ρ] (op : Op) (name : String) : Act σ ρ (Option Value) :=
  match op.args.get? name with
  | none => pure none
  | some arg => some <$> eval arg

/-- The value of a parameter the node must have. -/
def arg [RandomSource ρ] (op : Op) (name : String) : Act σ ρ Value := do
  match ← arg? op name with
  | some value => pure value
  | none => throw (.missingParameter name)

/-- The text of a parameter the node must have. -/
def textArg [RandomSource ρ] (op : Op) (name : String) : Act σ ρ String := do
  return (← arg op name).toText

/-- The truth value of a parameter, false if the node does not have it. -/
def flag [RandomSource ρ] (op : Op) (name : String) : Act σ ρ Bool := do
  match ← arg? op name with
  | some value => lift (Fault.ofConversion value.asBool)
  | none => pure false

/-- The values of linked parameters in their order, put under their names. -/
def evalAll [RandomSource ρ] (values : ArrivalMap String Value) :
    List (String × Arg) → Act σ ρ (ArrivalMap String Value)
  | [] => pure values
  | (name, arg) :: rest => do
    let value ← eval arg
    evalAll (values.insert name value) rest

/-- The values of all parameters of a node. -/
def args [RandomSource ρ] (op : Op) : Act σ ρ (ArrivalMap String Value) :=
  evalAll .empty op.args.entries

/-- The request for an action with all parameters of a node. -/
def request [RandomSource ρ] (op : Op) (action : String) : Act σ ρ ActionRequest := do
  let args ← args op
  let context ← context
  return ⟨context.actor, context.origin, action, args⟩

/-- Has the host perform an action. -/
def perform [Host σ] (request : ActionRequest) : Act σ ρ (Option Value) :=
  fun scene =>
    let (result, host) := Host.perform request scene.host
    (result, { scene with host })

/-- Has the host decide a condition. -/
def check [Host σ] (request : ActionRequest) : Act σ ρ Bool :=
  fun scene =>
    let (result, host) := Host.check request scene.host
    (result, { scene with host })

/-- Whether an actor is connected. -/
def isConnected [Host σ] (actor : Actor) : Act σ ρ Bool :=
  fun scene => (.ok (Host.isConnected scene.host actor), scene)

/-- Shows a text to the actor of the invocation. -/
def print [Host σ] (text : String) : Act σ ρ Unit :=
  fun scene => (.ok (), { scene with host := Host.print scene.context.actor text scene.host })

end Act

/-- What an action wants to happen next. -/
inductive Flow where
  /-- The next node. -/
  | proceed
  /-- The next node, after a number of ticks. -/
  | suspend (ticks : Nat)
  /-- The end of the run. -/
  | stop
  deriving DecidableEq

/-- A value read as a count. -/
def Value.asCount (value : Value) : Except Fault Nat :=
  match value.asNumber with
  | .error error => .error (.conversion error)
  | .ok content =>
    match content.toCount? with
    | some count => .ok count
    | none => .error (.invalidCount content)

end GridScript
