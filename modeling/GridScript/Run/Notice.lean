import GridScript.Run.Error

/-!
# Notices

Everything that goes wrong without stopping what is being done is written down
as a notice.
-/

namespace GridScript

/-- The fault of one node together with the action it was to perform. -/
structure NodeFailure where
  /-- The action. -/
  action : String
  /-- What went wrong. -/
  fault : Fault
  deriving DecidableEq

/-- What the failure says. -/
def NodeFailure.message (failure : NodeFailure) : String :=
  failure.action ++ ": " ++ failure.fault.message

/-- Something worth writing down. -/
inductive Notice where
  /-- Compiling left something out. -/
  | finding (error : CompileError)
  /-- An action failed and was skipped. -/
  | actionFailed (failure : NodeFailure)
  /-- A condition failed and counts as false. -/
  | conditionFailed (failure : NodeFailure)
  /-- A loop could not be set up and was skipped. -/
  | loopSkipped (failure : NodeFailure)
  /-- The condition of a loop failed and counts as false. -/
  | loopConditionFailed (failure : NodeFailure)
  /-- A loop was ended by its iteration limit. -/
  | loopLimit
  /-- A request to leave or continue a loop has no loop to act on. -/
  | strayExit (action : String)
  /-- The value to be returned could not be computed. -/
  | returnFailed (failure : NodeFailure)
  /-- The returned value does not have the declared kind. -/
  | returnMismatch (fault : Fault)
  /-- A call could not be prepared and was skipped. -/
  | callSkipped (failure : NodeFailure)
  /-- A call was refused by a limit. -/
  | callRejected (error : LimitError)
  /-- A call ran out of time. -/
  | callTimedOut
  /-- A run did not complete. -/
  | runEnded (error : RunError)
  deriving DecidableEq

/-- What the notice says. -/
def Notice.message : Notice → String
  | .finding error => error.message
  | .actionFailed failure => failure.message
  | .conditionFailed failure => "condition treated as false: " ++ failure.message
  | .loopSkipped failure => "loop skipped: " ++ failure.message
  | .loopConditionFailed failure => "loop condition treated as false: " ++ failure.message
  | .loopLimit => "while loop stopped at its iteration limit"
  | .strayExit action => "`" ++ action ++ "` outside of a loop has no effect"
  | .returnFailed failure => "return value dropped: " ++ failure.message
  | .returnMismatch fault => "return value dropped: " ++ fault.message
  | .callSkipped failure => "call skipped: " ++ failure.message
  | .callRejected error => "call rejected: " ++ error.message
  | .callTimedOut => "call timed out"
  | .runEnded error => "run ended: " ++ error.message

end GridScript
