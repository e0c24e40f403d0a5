/-!
# Call statistics

How often a function was called and how the calls ended. A call that entered the
body is counted once when it starts and once, under its outcome, when it ends; a
call that was refused is counted as a rejection and nowhere else. Calls are counted
in 64 bits, and the counts are taken not to reach 2 ^ 64.
-/

namespace GridScript

/-- How a call that entered the body ended. -/
inductive CallOutcome where
  /-- It returned, or the program stopped itself. -/
  | success
  /-- The run failed around it. -/
  | failure
  /-- It ran past its time limit. -/
  | timeout
  /-- The run was stopped from outside. -/
  | cancelled
  deriving DecidableEq

/-- Statistics of one function. -/
structure Tally where
  /-- Calls that entered the body. -/
  calls : Nat
  /-- Calls that ended well. -/
  successes : Nat
  /-- Calls that failed. -/
  failures : Nat
  /-- Calls that ran out of time. -/
  timeouts : Nat
  /-- Calls that were cancelled. -/
  cancellations : Nat
  /-- Calls that were refused. -/
  rejections : Nat
  /-- Sum of the durations of ended calls in milliseconds, in 64 bits. -/
  totalLatencyMs : UInt64
  deriving DecidableEq

namespace Tally

/-- The statistics of a function that was never called. -/
def zero : Tally :=
  ⟨0, 0, 0, 0, 0, 0, 0⟩

instance : Inhabited Tally := ⟨zero⟩

/-- A call enters the body. -/
def start (tally : Tally) : Tally :=
  { tally with calls := tally.calls + 1 }

/-- A call is refused. -/
def reject (tally : Tally) : Tally :=
  { tally with rejections := tally.rejections + 1 }

/-- A call that entered the body ends. -/
def finish (tally : Tally) (outcome : CallOutcome) (latencyMs : UInt64) : Tally :=
  let tally := { tally with totalLatencyMs := tally.totalLatencyMs + latencyMs }
  match outcome with
  | .success => { tally with successes := tally.successes + 1 }
  | .failure => { tally with failures := tally.failures + 1 }
  | .timeout => { tally with timeouts := tally.timeouts + 1 }
  | .cancelled => { tally with cancellations := tally.cancellations + 1 }

/-- The number of calls that have ended. -/
def completed (tally : Tally) : Nat :=
  tally.successes + tally.failures + tally.timeouts + tally.cancellations

/-- The mean duration of ended calls in milliseconds, zero if there are none. -/
def averageLatencyMs (tally : Tally) : Float :=
  if tally.completed = 0 then 0.0
  else tally.totalLatencyMs.toFloat / Float.ofNat tally.completed

/-- Ending a call moves the number of ended calls by one. -/
@[simp] theorem completed_finish (tally : Tally) (outcome : CallOutcome) (latencyMs : UInt64) :
    (tally.finish outcome latencyMs).completed = tally.completed + 1 := by
  cases outcome <;> simp only [finish, completed] <;> omega

/-- Ending a call starts none. -/
@[simp] theorem calls_finish (tally : Tally) (outcome : CallOutcome) (latencyMs : UInt64) :
    (tally.finish outcome latencyMs).calls = tally.calls := by
  cases outcome <;> rfl

end Tally

end GridScript
