import GridScript.Compile.Cache
import GridScript.Machine.Step
import GridScript.Random.ChaCha
import GridScript.Store.SlotMap

/-!
# Engines

An engine owns all runs. A run executes until it ends or is suspended; a
suspended run is parked until the tick it is due. Every run that ends gives
exactly one report. Runs are addressed by keys that are not used again before
their slot was vacated 2 ^ 32 times, so until then a parked run that was stopped
in the meantime is simply not found when it comes due.

The steps of a run and the runs that were parked are counted in 64 bits, and
these numbers are taken not to reach 2 ^ 64. The number of the tick begins anew
after the last one.
-/

namespace GridScript

/-- The key of a run. -/
abbrev RunKey := SlotKey

/-- A run under way. -/
structure Run where
  /-- What it executes. -/
  machine : Machine
  /-- Actor it runs for. -/
  actor : Actor
  /-- Where it runs. -/
  origin : Place
  /-- Number of steps taken so far. -/
  steps : Nat
  /-- Whether it waits for a later tick. -/
  parked : Bool

/-- The final word on a run. -/
structure RunReport where
  /-- Key the run had. -/
  key : RunKey
  /-- Actor it ran for. -/
  actor : Actor
  /-- Where it ran. -/
  origin : Place
  /-- The state it ended in. -/
  state : RunState
  /-- The returned value, or why the run did not complete. -/
  result : Except RunError (Option Value)
  /-- The variables of the program when the run ended. -/
  locals : Locals
  /-- Number of steps it took. -/
  steps : Nat

/-- What starting a run came to. -/
inductive Execution where
  /-- The run ended. -/
  | finished (report : RunReport)
  /-- The run is parked; a later tick gives its report. -/
  | suspended (key : RunKey)

/-- The moment a parked run comes due: a tick and, within it, the order in which
runs were parked. -/
structure Due where
  /-- The tick. -/
  tick : UInt64
  /-- How many runs were parked before. -/
  sequence : Nat
  deriving DecidableEq

namespace Due

instance : Ord Due where
  compare := compareLex (compareOn tick) (compareOn sequence)

instance : Std.TransOrd Due :=
  inferInstanceAs (Std.TransCmp (compareLex (compareOn tick) (compareOn sequence)))

end Due

/-- What an engine notes about its runs. -/
inductive RunEvent where
  /-- A run was started. -/
  | started (key : RunKey)
  /-- A run executed a number of steps in a tick. -/
  | executed (key : RunKey) (tick : UInt64) (steps : Nat)
  /-- A run was parked until it comes due. -/
  | suspended (key : RunKey) (due : Due)
  /-- A parked run was taken up in a tick. -/
  | resumed (key : RunKey) (tick : UInt64)
  /-- A run ended. -/
  | ended (key : RunKey)
  deriving DecidableEq

/-- The run an event is about. -/
def RunEvent.key : RunEvent → RunKey
  | .started key | .executed key _ _ | .suspended key _ | .resumed key _ | .ended key => key

/-- All runs, and what they share. -/
structure Engine (σ ρ : Type) where
  /-- Host, random source, ledger and notices. -/
  around : Surroundings σ ρ
  /-- The known symbols. -/
  catalogue : Catalogue
  /-- How lines of code are laid out. -/
  layout : Layout
  /-- The actions programs perform themselves. -/
  actions : ActionTable σ ρ
  /-- Compiled programs. -/
  cache : ProgramCache
  /-- Where identities of nodes come from. -/
  ids : IdSource
  /-- The runs under way. -/
  runs : SlotMap Run
  /-- The parked runs by when they are due. -/
  sleeping : SortedMap Due RunKey
  /-- Runs that were split off and have not executed anything yet. -/
  ready : List RunKey
  /-- Reports of split-off runs that ended outside of a tick. -/
  pending : List RunReport
  /-- Number of the current tick, in 64 bits. -/
  tick : UInt64
  /-- How many runs have been parked. -/
  sequence : Nat
  /-- What happened to the runs, latest first. -/
  journal : List RunEvent

namespace Engine

variable {σ ρ : Type}

/-- An engine without runs. -/
def initial [Host σ] [RandomSource ρ] (host : σ) (random : ρ) (ledger : Ledger)
    (catalogue : Catalogue) (layout : Layout) : Engine σ ρ where
  around := ⟨host, random, ledger, #[]⟩
  catalogue := catalogue
  layout := layout
  actions := .standard
  cache := .empty
  ids := .initial
  runs := .empty
  sleeping := .empty
  ready := []
  pending := []
  tick := 0
  sequence := 0
  journal := []

/-- An engine without runs whose random numbers come from the seed in the
settings or else from the clock. -/
def seeded [Host σ] (host : σ) (ledger : Ledger) (catalogue : Catalogue) (layout : Layout) :
    Engine σ ChaCha.Source :=
  initial host (.ofSeed (ledger.settings.rngSeed.getD (Host.now host))) ledger catalogue layout

/-- The ledger. -/
def ledger (engine : Engine σ ρ) : Ledger :=
  engine.around.ledger

/-- The engine with its ledger changed. -/
def mapLedger (engine : Engine σ ρ) (change : Ledger → Ledger) : Engine σ ρ :=
  { engine with around := { engine.around with ledger := change engine.around.ledger } }

/-- Writes a notice down. -/
def note (engine : Engine σ ρ) (notice : Notice) : Engine σ ρ :=
  { engine with around := engine.around.note notice }

/-- Enters an event in the journal. -/
def record (engine : Engine σ ρ) (event : RunEvent) : Engine σ ρ :=
  { engine with journal := event :: engine.journal }

/-- The number of runs under way. -/
def activeRuns (engine : Engine σ ρ) : Nat :=
  engine.runs.count

/-- The state of a run under way. -/
def state? (engine : Engine σ ρ) (key : RunKey) : Option RunState :=
  (engine.runs.get? key).map fun run =>
    if run.parked then .suspended else run.machine.state

/-- Starts a run. -/
def spawn (engine : Engine σ ρ) (machine : Machine) (actor : Actor) (origin : Place) :
    RunKey × Engine σ ρ :=
  let (key, runs) := engine.runs.insert ⟨machine, actor, origin, 0, false⟩
  (key, { engine.mapLedger (·.startRun) with runs }.record (.started key))

/-- The report of a run that ends with a result. -/
def report (key : RunKey) (run : Run) (result : Except RunError (Option Value)) : RunReport where
  key := key
  actor := run.actor
  origin := run.origin
  state := .ofResult result
  result := result
  locals := run.machine.takeLocals.1
  steps := run.steps

/-- Ends a run. -/
def finish (engine : Engine σ ρ) (key : RunKey) (result : Except RunError (Option Value)) :
    Option RunReport × Engine σ ρ :=
  match engine.runs.get? key with
  | none => (none, engine)
  | some run =>
    let engine := { engine.mapLedger (·.endRun) with runs := engine.runs.erase key }
    let engine := engine.record (.ended key)
    let engine :=
      match result with
      | .ok _ => engine
      | .error error => engine.note (.runEnded error)
    (some (report key run result), engine)

/-- A run that is taken up again: it gives its suspension back. -/
def unpark (engine : Engine σ ρ) (key : RunKey) (run : Run) : Engine σ ρ :=
  { engine.mapLedger (·.resume run.actor) with
    runs := engine.runs.set key { run with parked := false } }

/-- Ends a run for a reason that lies outside of it. -/
def cancel [Host σ] (engine : Engine σ ρ) (key : RunKey) (reason : CancelReason) :
    Option RunReport × Engine σ ρ :=
  match engine.runs.get? key with
  | none => (none, engine)
  | some run =>
    let engine := if run.parked then engine.unpark key run else engine
    let (machine, around) := run.machine.close .cancelled engine.around
    let run := { run with machine, parked := false }
    { engine with around, runs := engine.runs.set key run }.finish key (.error (.cancelled reason))

/-- Ends several runs for one reason. -/
def cancelAll [Host σ] (engine : Engine σ ρ) (reason : CancelReason) :
    List RunKey → List RunReport × Engine σ ρ
  | [] => ([], engine)
  | key :: rest =>
    let (report, engine) := engine.cancel key reason
    let (reports, engine) := engine.cancelAll reason rest
    (report.toList ++ reports, engine)

/-- Stops a run. -/
def stop [Host σ] (engine : Engine σ ρ) (key : RunKey) : Option RunReport × Engine σ ρ :=
  engine.cancel key .stopped

/-- Stops the runs of an actor that left. -/
def disconnect [Host σ] (engine : Engine σ ρ) (actor : Actor) : List RunReport × Engine σ ρ :=
  engine.cancelAll (.disconnected actor) (engine.runs.keysWhere fun run => run.actor == actor)

/-- Stops all runs. -/
def shutdown [Host σ] (engine : Engine σ ρ) : List RunReport × Engine σ ρ :=
  let (reports, engine) := engine.cancelAll .shutdown (engine.runs.keysWhere fun _ => true)
  (reports, { engine with sleeping := .empty, ready := [] })

end Engine

end GridScript
