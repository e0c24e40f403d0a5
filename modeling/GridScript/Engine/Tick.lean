import GridScript.Engine.Slice

/-!
# Ticks

In every tick the parked runs that are due are taken up in the order in which
they were parked, and then the runs that were split off in the tick. Before that,
parked runs with a call past its deadline fail, whether they are due or not.
-/

namespace GridScript.Engine

variable {σ ρ : Type} [Host σ]

/-- Fails a parked run if one of its calls is past its deadline. -/
def expire (engine : Engine σ ρ) (key : RunKey) : Option RunReport × Engine σ ρ :=
  match engine.runs.get? key with
  | none => (none, engine)
  | some run =>
    match run.machine.checkDeadlines engine.around with
    | (.ok (), _, _) => (none, engine)
    | (.error error, machine, around) =>
      ({ engine with around }.unpark key { run with machine }).finish key (.error (.limit error))

/-- Fails the runs among the given ones that have a call past its deadline. -/
def expireAll (engine : Engine σ ρ) : List RunKey → List RunReport × Engine σ ρ
  | [] => ([], engine)
  | key :: rest =>
    let (report, engine) := engine.expire key
    let (reports, engine) := engine.expireAll rest
    (report.toList ++ reports, engine)

/-- The parked run that comes first, if it is due. -/
def firstDue? (engine : Engine σ ρ) : Option (Due × RunKey) :=
  engine.sleeping.entries.head?.filter fun (due, _) => due.tick ≤ engine.tick

variable [RandomSource ρ]

/-- Takes up a run that is due: it executes a slice, or is cancelled if its actor
is not connected. A run that ended in the meantime is not found. -/
def takeUp (engine : Engine σ ρ) (key : RunKey) : Option RunReport × Engine σ ρ :=
  match engine.runs.get? key with
  | none => (none, engine)
  | some run =>
    let engine := engine.unpark key run
    if Host.isConnected engine.around.host run.actor then
      (engine.record (.resumed key engine.tick)).runSlice key
    else engine.cancel key (.disconnected run.actor)

/-- Takes up all runs that are due, for at most `fuel` of them. The reports are
appended to the given ones. -/
def resumeDue : (fuel : Nat) → Engine σ ρ → List RunReport → Option (List RunReport × Engine σ ρ)
  | 0, engine, reports => if engine.firstDue?.isNone then some (reports, engine) else none
  | fuel + 1, engine, reports =>
    match engine.firstDue? with
    | none => some (reports, engine)
    | some (due, key) =>
      let (report, engine) := { engine with sleeping := engine.sleeping.erase due }.takeUp key
      resumeDue fuel engine (reports ++ report.toList)

/-- Moves to the next tick. The reports of the runs that ended are given, those
that were pending first. -/
def nextTick (fuel : Nat) (engine : Engine σ ρ) : Option (List RunReport × Engine σ ρ) := do
  let pending := engine.pending
  let engine := { engine with tick := engine.tick + 1, pending := [] }
  let (expired, engine) := engine.expireAll (engine.runs.keysWhere (·.parked))
  let (reports, engine) ← engine.resumeDue fuel (pending ++ expired)
  engine.drain fuel reports

end GridScript.Engine
