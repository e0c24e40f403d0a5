import GridScript.Function.Registry
import GridScript.Run.Error
import GridScript.Settings

/-!
# The ledger

What is shared by everything that runs: the settings, the registered functions,
and the accounts of what is in use. Runs, calls and suspensions are claimed
before they start and given back when they end. A claim beyond a limit is
refused. Whatever is counted here has 64 bits and is taken not to reach 2 ^ 64.
-/

namespace GridScript

namespace Actor

/-- Actors are ordered by name. -/
instance : Ord Actor where
  compare := compareOn name

instance : Std.TransOrd Actor :=
  inferInstanceAs (Std.TransCmp (compareOn name))

end Actor

/-- Numbers that are kept for actors. -/
abbrev ActorCounts := SortedMap Actor Nat

namespace ActorCounts

/-- The number of an actor; without an entry it is zero. -/
def count (counts : ActorCounts) (actor : Actor) : Nat :=
  (counts.get? actor).getD 0

/-- The numbers with one more for an actor. -/
def add (counts : ActorCounts) (actor : Actor) : ActorCounts :=
  counts.insert actor (counts.count actor + 1)

/-- The numbers with an entry for an actor. -/
def touch (counts : ActorCounts) (actor : Actor) : ActorCounts :=
  counts.insert actor (counts.count actor)

/-- The numbers with one less for an actor that has an entry. An entry that
comes to zero is removed. -/
def remove (counts : ActorCounts) (actor : Actor) : ActorCounts :=
  match counts.get? actor with
  | none => counts
  | some count => if count ≤ 1 then counts.erase actor else counts.insert actor (count - 1)

/-- The numbers without the entry of an actor if that is zero. -/
def prune (counts : ActorCounts) (actor : Actor) : ActorCounts :=
  if counts.get? actor = some 0 then counts.erase actor else counts

end ActorCounts

/-- The work that programs of one origin did in ticks in which it was much. -/
structure Load where
  /-- Number of such ticks. -/
  samples : Nat
  /-- Greatest number of steps in one of them. -/
  maxSteps : Nat
  /-- Number of steps in all of them. -/
  totalSteps : Nat
  deriving DecidableEq

/-- The load after another tick with much work. -/
def Load.add (load : Load) (steps : Nat) : Load :=
  ⟨load.samples + 1, max load.maxSteps steps, load.totalSteps + steps⟩

/-- The accounts of everything that runs. -/
structure Ledger where
  /-- The limits. -/
  settings : Settings
  /-- The registered functions. -/
  registry : FunctionRegistry
  /-- Number of runs under way. -/
  activeRuns : Nat
  /-- Number of calls under way. -/
  activeCalls : Nat
  /-- Number of calls under way by actor. -/
  depths : ActorCounts
  /-- Number of suspended runs by actor. -/
  suspensions : ActorCounts
  /-- Heavy work by origin. -/
  loads : SortedMap Place Load

namespace Ledger

/-- A ledger with nothing in use. -/
def initial (settings : Settings) : Ledger :=
  ⟨settings, .empty, 0, 0, .empty, .empty, .empty⟩

/-- The ledger after everything was given up: no function is registered and
nothing counts as in use. Runs that are still alive give back what they hold as
usual when they end. -/
def shutdown (ledger : Ledger) : Ledger :=
  { initial ledger.settings with registry := ledger.registry.clear }

/-- The number of calls an actor has under way. -/
def callDepth (ledger : Ledger) (actor : Actor) : Nat :=
  ledger.depths.count actor

/-- The number of suspended runs of an actor. -/
def suspensionCount (ledger : Ledger) (actor : Actor) : Nat :=
  ledger.suspensions.count actor

/-- A run starts. -/
def startRun (ledger : Ledger) : Ledger :=
  { ledger with activeRuns := ledger.activeRuns + 1 }

/-- A run ends. -/
def endRun (ledger : Ledger) : Ledger :=
  { ledger with activeRuns := ledger.activeRuns - 1 }

/-- Claims a suspension for a run of an actor. -/
def suspend (ledger : Ledger) (actor : Actor) : Except LimitError Unit × Ledger :=
  let limit := ledger.settings.maxSuspensionsPerActor
  if limit ≤ ledger.suspensionCount actor then
    (.error (.suspensions actor limit),
      { ledger with suspensions := ledger.suspensions.touch actor })
  else (.ok (), { ledger with suspensions := ledger.suspensions.add actor })

/-- Gives a suspension back. -/
def resume (ledger : Ledger) (actor : Actor) : Ledger :=
  { ledger with suspensions := ledger.suspensions.remove actor }

/-- Claims a call of a function for an actor. The depth is looked at first, so a
call that is too deep does not touch the number of active calls. -/
def enterCall (ledger : Ledger) (actor : Actor) (maxDepth : Nat) (function : String) :
    Except LimitError Unit × Ledger :=
  let limit := ledger.settings.maxActiveCalls
  if maxDepth ≤ ledger.callDepth actor then
    (.error (.callDepth function maxDepth), { ledger with depths := ledger.depths.touch actor })
  else if limit ≤ ledger.activeCalls then
    (.error (.concurrency limit), { ledger with depths := ledger.depths.prune actor })
  else
    (.ok (), { ledger with
      activeCalls := ledger.activeCalls + 1
      depths := ledger.depths.add actor })

/-- Gives a call back. -/
def leaveCall (ledger : Ledger) (actor : Actor) : Ledger :=
  { ledger with
    activeCalls := ledger.activeCalls - 1
    depths := ledger.depths.remove actor }

/-- Notes how many steps a run took in one tick, if that is much. -/
def recordSteps (ledger : Ledger) (origin : Place) (steps : Nat) : Ledger :=
  if steps < ledger.settings.bottleneckSteps then ledger
  else
    let load := ((ledger.loads.get? origin).getD ⟨0, 0, 0⟩).add steps
    { ledger with loads := ledger.loads.insert origin load }

/-- The origins of heavy work, worst first and then in order. -/
def bottlenecks (ledger : Ledger) : List (Place × Load) :=
  ledger.loads.entries.mergeSort fun a b => decide (b.2.maxSteps ≤ a.2.maxSteps)

/-- The ledger with the statistics under a handle changed. -/
def updateTally (ledger : Ledger) (handle : Nat) (change : Tally → Tally) : Ledger :=
  { ledger with registry := ledger.registry.updateTally handle change }

end Ledger

end GridScript
