import GridScript.Json.Record
import GridScript.Json.Reader

/-!
# Settings

The limits programs run under. Settings are loaded from a document; fields that
are left out keep their defaults.
-/

namespace GridScript

/-- The limits programs run under. -/
structure Settings where
  /-- Call depth of functions that do not set their own. -/
  maxCallDepth : Nat
  /-- Greatest number of calls active at once, over all actors. -/
  maxActiveCalls : Nat
  /-- Greatest number of suspended runs of one actor. -/
  maxSuspensionsPerActor : Nat
  /-- Greatest number of nodes one run may execute in one tick. -/
  maxStepsPerTick : Nat
  /-- Time limit of functions that do not set their own, in milliseconds. -/
  callTimeoutMs : UInt64
  /-- Iteration limit of `while` loops that do not set their own. -/
  maxLoopIterations : Nat
  /-- Number of nodes in one tick from which on a run counts as a bottleneck. -/
  bottleneckSteps : Nat
  /-- Seed of the random numbers; without one the clock is used. -/
  rngSeed : Option UInt64
  deriving DecidableEq

namespace Settings

instance : Inhabited Settings := ⟨⟨32, 256, 64, 10000, 5000, 10000, 1000, none⟩⟩

/-- A count of 64 bits. -/
def count? (json : Json) : Option Nat :=
  json.asWord?.map UInt64.toNat

/-- Settings from a document. -/
def ofJson? (json : Json) : Option Settings := do
  let base : Settings := default
  match ← json.fields? ["max_call_depth", "max_active_calls", "max_suspensions_per_actor",
    "max_steps_per_tick", "call_timeout_ms", "max_loop_iterations", "bottleneck_steps",
    "rng_seed"] with
  | [depth, calls, suspensions, steps, timeout, iterations, bottleneck, seed] =>
    some
      { maxCallDepth := ← Json.defaulted? base.maxCallDepth count? depth
        maxActiveCalls := ← Json.defaulted? base.maxActiveCalls count? calls
        maxSuspensionsPerActor := ← Json.defaulted? base.maxSuspensionsPerActor count? suspensions
        maxStepsPerTick := ← Json.defaulted? base.maxStepsPerTick count? steps
        callTimeoutMs := ← Json.defaulted? base.callTimeoutMs Json.asWord? timeout
        maxLoopIterations := ← Json.defaulted? base.maxLoopIterations count? iterations
        bottleneckSteps := ← Json.defaulted? base.bottleneckSteps count? bottleneck
        rngSeed := ← Json.optional? Json.asWord? seed }
  | _ => none

/-- Settings from the text of a document. -/
def read? (text : String) : Option Settings :=
  (Json.readStored? text).bind ofJson?

end Settings

/-- A clock that only moves when told to, in milliseconds of 64 bits. -/
structure Clock where
  /-- The current time. -/
  now : UInt64
  deriving DecidableEq

/-- The clock moved forward. -/
def Clock.advance (clock : Clock) (ms : UInt64) : Clock :=
  ⟨clock.now + ms⟩

end GridScript
