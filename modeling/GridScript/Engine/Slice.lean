import GridScript.Engine.Basic

/-!
# Slices

A run that is taken up executes a slice: it is stepped until it ends, is
suspended, or has used up the steps of one tick. Loops that are split off on the
way become runs of their own, which wait until the others have had their turn.

Runs that are split off may split off runs again, so there need not be an end to
it. What goes on until nothing is ready is therefore given a bound on the number
of slices, and has no result when that is too small.
-/

namespace GridScript

/-- How a slice ended. -/
inductive SliceEnd where
  /-- The run waits for a number of ticks. -/
  | parked (ticks : Nat)
  /-- The run ended. -/
  | done (result : Except RunError (Option Value))

/-- A machine after a slice. -/
structure Slice (σ ρ : Type) where
  /-- How the slice ended. -/
  ending : SliceEnd
  /-- The machine. -/
  machine : Machine
  /-- What surrounds it. -/
  around : Surroundings σ ρ
  /-- The machines that were split off, in order. -/
  forks : List Machine
  /-- Number of steps taken. -/
  steps : Nat

namespace Machine

variable {σ ρ : Type} [Host σ]

/-- A machine of an actor that wants to wait: it does if the actor may have
another suspended run, and fails otherwise. -/
def pause (machine : Machine) (actor : Actor) (ticks : Nat) (around : Surroundings σ ρ) :
    SliceEnd × Machine × Surroundings σ ρ :=
  let (claim, ledger) := around.ledger.suspend actor
  let around := { around with ledger }
  match claim with
  | .ok () => (.parked ticks, machine, around)
  | .error error =>
    let (machine, around) := machine.close .failure around
    (.done (.error (.limit error)), machine, around)

variable [RandomSource ρ]

/-- Steps a machine of an actor as long as it goes on, for at most `budget` steps
out of a total of `limit`. -/
def slice (table : ActionTable σ ρ) (actor : Actor) (limit : Nat) :
    (budget : Nat) → Machine → Surroundings σ ρ → List Machine → Slice σ ρ
  | 0, machine, around, forks =>
    let (machine, around) := machine.close .failure around
    ⟨.done (.error (.limit (.steps limit))), machine, around, forks, limit⟩
  | budget + 1, machine, around, forks =>
    let stepped := machine.step table around
    let machine := stepped.machine
    let around := stepped.around
    match stepped.outcome with
    | .ok .normal => slice table actor limit budget machine around forks
    | .ok (.fork child) => slice table actor limit budget machine around (forks ++ [child])
    | .ok .idle => ⟨.done (.ok none), machine, around, forks, limit - budget⟩
    | .ok (.terminate result) => ⟨.done (.ok result), machine, around, forks, limit - budget⟩
    | .ok (.suspend ticks) =>
      let (ending, machine, around) := machine.pause actor ticks around
      ⟨ending, machine, around, forks, limit - budget⟩
    | .error error => ⟨.done (.error error), machine, around, forks, limit - budget⟩

end Machine

/-- The run after a slice. -/
def Run.afterSlice {σ ρ : Type} (run : Run) (slice : Slice σ ρ) : Run :=
  { run with machine := slice.machine, steps := run.steps + slice.steps }

namespace Engine

variable {σ ρ : Type}

/-- Starts runs for machines that were split off; they wait for their first
slice. -/
def adopt (engine : Engine σ ρ) : List Machine → Engine σ ρ
  | [] => engine
  | machine :: rest =>
    match machine.context? with
    | none => engine.adopt rest
    | some context =>
      let (key, engine) := engine.spawn machine context.actor context.origin
      { engine with ready := engine.ready ++ [key] }.adopt rest

/-- The tick that lies a number of ticks ahead, at most the last one. -/
def dueTick (now : UInt64) (ticks : Nat) : UInt64 :=
  UInt64.ofNat (min (now.toNat + ticks) (UInt64.size - 1))

/-- Parks a run for a number of ticks. -/
def park (engine : Engine σ ρ) (key : RunKey) (run : Run) (ticks : Nat) : Engine σ ρ :=
  let due : Due := ⟨dueTick engine.tick ticks, engine.sequence⟩
  { engine with
    runs := engine.runs.set key { run with parked := true }
    sleeping := engine.sleeping.insert due key
    sequence := engine.sequence + 1 }.record (.suspended key due)

/-- The engine after a slice of a run, which is still among the others. -/
def afterSlice (engine : Engine σ ρ) (key : RunKey) (run : Run) (slice : Slice σ ρ) :
    Engine σ ρ :=
  let engine := { engine with
    around := slice.around
    runs := engine.runs.set key (run.afterSlice slice) }
  (engine.mapLedger (·.recordSteps run.origin slice.steps)).record
    (.executed key engine.tick slice.steps)

/-- What a slice of a run leads to: the runs it split off are started, and the
run is parked or ends. -/
def conclude (engine : Engine σ ρ) (key : RunKey) (run : Run) (slice : Slice σ ρ) :
    Option RunReport × Engine σ ρ :=
  let engine := engine.afterSlice key run slice
  match slice.ending with
  | .parked ticks =>
    (none, (engine.park key (run.afterSlice slice) ticks).adopt slice.forks)
  | .done result => (engine.adopt slice.forks).finish key result

variable [Host σ] [RandomSource ρ]

/-- The slice of a run. -/
def sliceOf (engine : Engine σ ρ) (run : Run) : Slice σ ρ :=
  let limit := engine.ledger.settings.maxStepsPerTick
  run.machine.slice engine.actions run.actor limit limit engine.around []

/-- Lets a run execute a slice; the report is given if it ended. -/
def runSlice (engine : Engine σ ρ) (key : RunKey) : Option RunReport × Engine σ ρ :=
  match engine.runs.get? key with
  | none => (none, engine)
  | some run => engine.conclude key run (engine.sliceOf run)

/-- Lets the runs that were split off execute their first slices until none is
left, for at most `fuel` slices. The reports are appended to the given ones. -/
def drain : (fuel : Nat) → Engine σ ρ → List RunReport → Option (List RunReport × Engine σ ρ)
  | 0, engine, reports => if engine.ready.isEmpty then some (reports, engine) else none
  | fuel + 1, engine, reports =>
    match engine.ready with
    | [] => some (reports, engine)
    | key :: rest =>
      let (report, engine) := { engine with ready := rest }.runSlice key
      drain fuel engine (reports ++ report.toList)

/-- Starts a run and lets it execute its first slice, and then those of the runs
it splits off. Their reports are kept for the next tick. -/
def start (fuel : Nat) (engine : Engine σ ρ) (machine : Machine) (actor : Actor) (origin : Place) :
    Option (Execution × Engine σ ρ) := do
  let (key, engine) := engine.spawn machine actor origin
  let (report, engine) := engine.runSlice key
  let (forked, engine) ← engine.drain fuel []
  let execution :=
    match report with
    | some report => .finished report
    | none => .suspended key
  return (execution, { engine with pending := engine.pending ++ forked })

end Engine

end GridScript
