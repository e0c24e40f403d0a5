import GridScript.Compile.Diagnostic
import GridScript.Function.Validation
import GridScript.Value.Fault

/-!
# Ends of runs

Why a run was refused or ended early, and the states a run passes through. The
fault of a single node never ends a run: only broken signatures, exhausted
limits and requests from outside do.
-/

namespace GridScript

/-- A limit that was reached. -/
inductive LimitError where
  /-- The actor has as many calls on the stack as the function allows. -/
  | callDepth (function : String) (limit : Nat)
  /-- As many calls as allowed are active over all actors. -/
  | concurrency (limit : Nat)
  /-- A call ran past its time limit. -/
  | timeout (function : String) (limitMs : UInt64)
  /-- The actor has as many suspended runs as allowed. -/
  | suspensions (actor : Actor) (limit : Nat)
  /-- The run executed as many nodes in one tick as allowed. -/
  | steps (limit : Nat)
  deriving DecidableEq

namespace LimitError

/-- What the error says. -/
def message : LimitError → String
  | .callDepth function limit =>
    function ++ ": call depth limit of " ++ toString limit ++ " exceeded"
  | .concurrency limit =>
    "too many active function calls (limit " ++ toString limit ++ "), try again later"
  | .timeout function limitMs =>
    function ++ ": exceeded time limit of " ++ toString limitMs.toNat ++ "ms"
  | .suspensions actor limit =>
    actor.name ++ " has too many suspended programs (limit " ++ toString limit ++ ")"
  | .steps limit => "program exceeded " ++ toString limit ++ " steps in a single tick"

/-- The short name of the error. -/
def code : LimitError → String
  | .callDepth _ _ => "CallDepth"
  | .concurrency _ => "Concurrency"
  | .timeout _ _ => "Timeout"
  | .suspensions _ _ => "Suspensions"
  | .steps _ => "Steps"

end LimitError

/-- Why a run was stopped from outside. -/
inductive CancelReason where
  /-- Someone asked for it. -/
  | stopped
  /-- The actor left. -/
  | disconnected (actor : Actor)
  /-- The engine was shut down. -/
  | shutdown
  deriving DecidableEq

namespace CancelReason

/-- What the reason says. -/
def message : CancelReason → String
  | .stopped => "stopped"
  | .disconnected actor => actor.name ++ " disconnected"
  | .shutdown => "engine shut down"

/-- The short name of the reason. -/
def code : CancelReason → String
  | .stopped => "Stopped"
  | .disconnected _ => "Disconnected"
  | .shutdown => "Shutdown"

end CancelReason

/-- Why a run did not start or did not complete. -/
inductive RunError where
  /-- The program does not compile. -/
  | compilation (error : CompileError)
  /-- A call does not fit its function. -/
  | validation (error : ValidationError)
  /-- A limit was reached. -/
  | limit (error : LimitError)
  /-- The run was stopped from outside. -/
  | cancelled (reason : CancelReason)
  deriving DecidableEq

namespace RunError

/-- What the error says. -/
def message : RunError → String
  | .compilation error => "compilation error: " ++ error.message
  | .validation error => "validation error: " ++ error.message
  | .limit error => "resource limit: " ++ error.message
  | .cancelled reason => "cancelled: " ++ reason.message

/-- The short name of the error, after that of its family. -/
def code : RunError → String
  | .compilation error => "Compilation." ++ error.code
  | .validation error => "Validation." ++ error.code
  | .limit error => "ResourceLimit." ++ error.code
  | .cancelled reason => "Cancelled." ++ reason.code

/-- Whether the same request could succeed later without any change. -/
def isRetryable : RunError → Bool
  | .limit (.concurrency _) => true
  | _ => false

end RunError

/-- The state of a run. -/
inductive RunState where
  /-- There is nothing to do. -/
  | idle
  /-- It executes nodes outside of any group. -/
  | running
  /-- It waits for a later tick. -/
  | suspended
  /-- It is inside a branch. -/
  | branching
  /-- It is inside a loop. -/
  | looping
  /-- It came to its end. -/
  | completed
  /-- It broke a rule or reached a limit. -/
  | failed
  /-- It was stopped from outside. -/
  | cancelled
  deriving DecidableEq

namespace RunState

/-- The name of a state. -/
def name : RunState → String
  | .idle => "Idle"
  | .running => "Running"
  | .suspended => "Suspended"
  | .branching => "Branching"
  | .looping => "Looping"
  | .completed => "Completed"
  | .failed => "Failed"
  | .cancelled => "Cancelled"

/-- Whether a run stays in the state for good. -/
def isTerminal : RunState → Bool
  | .completed | .failed | .cancelled => true
  | _ => false

/-- The state a run with the given result ends in. -/
def ofResult {α : Type} : Except RunError α → RunState
  | .ok _ => .completed
  | .error (.cancelled _) => .cancelled
  | .error _ => .failed

end RunState

end GridScript
