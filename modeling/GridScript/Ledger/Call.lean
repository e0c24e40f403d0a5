import GridScript.Ledger.Basic

/-!
# Calls under way

A call that was accepted holds one unit of its actor's depth and one of the
number of active calls until it ends. Its outcome and duration are then written
into the statistics of the function.
-/

namespace GridScript

/-- A call under way. -/
structure ActiveCall where
  /-- The called function. -/
  entry : FunctionEntry
  /-- Actor the call runs for. -/
  actor : Actor
  /-- When the call started. -/
  startedMs : UInt64
  /-- Time limit in milliseconds. -/
  timeLimitMs : UInt64

namespace ActiveCall

/-- The last moment at which the call is not late, at most the end of time. -/
def deadlineMs (call : ActiveCall) : UInt64 :=
  UInt64.ofNat (min (call.startedMs.toNat + call.timeLimitMs.toNat) (UInt64.size - 1))

/-- Whether the call is past its deadline. -/
def isLate (call : ActiveCall) (now : UInt64) : Bool :=
  call.deadlineMs < now

/-- How long the call has taken; a clock that was set back counts as no time. -/
def latencyMs (call : ActiveCall) (now : UInt64) : UInt64 :=
  if now ≤ call.startedMs then 0 else now - call.startedMs

end ActiveCall

namespace Ledger

/-- Claims a call of a registered function for an actor. A refusal is counted in
the statistics of the function. -/
def acquire (ledger : Ledger) (entry : FunctionEntry) (actor : Actor) (now : UInt64) :
    Except LimitError ActiveCall × Ledger :=
  let maxDepth := (entry.definition.maxDepth.map UInt64.toNat).getD ledger.settings.maxCallDepth
  match ledger.enterCall actor maxDepth entry.definition.name with
  | (.error error, ledger) => (.error error, ledger.updateTally entry.handle Tally.reject)
  | (.ok (), ledger) =>
    let timeLimitMs := entry.definition.maxTimeMs.getD ledger.settings.callTimeoutMs
    (.ok ⟨entry, actor, now, timeLimitMs⟩, ledger.updateTally entry.handle Tally.start)

/-- Ends a call with an outcome. -/
def release (ledger : Ledger) (call : ActiveCall) (outcome : CallOutcome) (now : UInt64) :
    Ledger :=
  (ledger.updateTally call.entry.handle (·.finish outcome (call.latencyMs now))).leaveCall
    call.actor

end Ledger

end GridScript
