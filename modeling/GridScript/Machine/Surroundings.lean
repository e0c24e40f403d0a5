import GridScript.Machine.Basic
import GridScript.Run.Notice

/-!
# Surroundings

What machines share while they are stepped: the host, the random source, the
ledger, and the notices that were written down.
-/

namespace GridScript

/-- What machines share. -/
structure Surroundings (σ ρ : Type) where
  /-- The host. -/
  host : σ
  /-- The random source. -/
  random : ρ
  /-- The accounts of everything that runs. -/
  ledger : Ledger
  /-- The notices so far, in order. -/
  notices : Array Notice

namespace Surroundings

variable {σ ρ : Type}

/-- Writes a notice down. -/
def note (around : Surroundings σ ρ) (notice : Notice) : Surroundings σ ρ :=
  { around with notices := around.notices.push notice }

/-- The time. -/
def now [Host σ] (around : Surroundings σ ρ) : UInt64 :=
  Host.now around.host

/-- Claims a call of a registered function for an actor. -/
def acquire [Host σ] (around : Surroundings σ ρ) (entry : FunctionEntry) (actor : Actor) :
    Except LimitError ActiveCall × Surroundings σ ρ :=
  let (result, ledger) := around.ledger.acquire entry actor around.now
  let around := { around with ledger }
  match result with
  | .ok call => (.ok call, around)
  | .error error => (.error error, around.note (.callRejected error))

/-- Ends a call with an outcome. -/
def release [Host σ] (around : Surroundings σ ρ) (call : ActiveCall) (outcome : CallOutcome) :
    Surroundings σ ρ :=
  { around with ledger := around.ledger.release call outcome around.now }

/-- Ends the calls among some activations, the innermost first. -/
def releaseAll [Host σ] (around : Surroundings σ ρ) (outcome : CallOutcome) :
    List Activation → Surroundings σ ρ
  | [] => around
  | activation :: outer =>
    match activation.call with
    | some pending => (around.release pending.call outcome).releaseAll outcome outer
    | none => around.releaseAll outcome outer

/-- Counts a refused call in the statistics of a function. -/
def reject (around : Surroundings σ ρ) (entry : FunctionEntry) : Surroundings σ ρ :=
  { around with ledger := around.ledger.updateTally entry.handle Tally.reject }

end Surroundings

end GridScript
