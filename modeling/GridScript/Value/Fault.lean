import GridScript.Value.Kind

/-!
# Faults

Why a single node of a program could not do its work. A fault never ends a run
by itself: a failed action is skipped and a failed condition counts as false.
-/

namespace GridScript

/-- Why a node failed. -/
inductive Fault where
  /-- A variable has no value. -/
  | undefinedVariable (name : String)
  /-- A node lacks a parameter it needs. -/
  | missingParameter (name : String)
  /-- A value has the wrong kind. -/
  | conversion (error : ConversionError)
  /-- Two values have no order. -/
  | incomparable (left right : ValueKind)
  /-- A computation left the range of numbers. -/
  | number (error : NumberError)
  /-- A number is not a count. -/
  | invalidCount (value : Number)
  /-- A list is too short. -/
  | indexOutOfBounds (index length : Nat)
  /-- A function of formulas looks at an argument in a place beyond the last one. -/
  | missingArgument (place count : Nat)
  /-- A formula could not be read. -/
  | badFormula (formula reason : String)
  /-- A comparison operator is not known. -/
  | unknownOperator (operator : String)
  /-- Nothing performs the action. -/
  | unsupported (action : String)
  /-- The surroundings failed to perform the action. -/
  | host (reason : String)
  deriving DecidableEq

namespace Fault

/-- What the fault says. -/
def message : Fault → String
  | .undefinedVariable name => "undefined variable `" ++ name ++ "`"
  | .missingParameter name => "missing parameter `" ++ name ++ "`"
  | .conversion error => error.message
  | .incomparable left right => "cannot compare " ++ left.name ++ " with " ++ right.name
  | .number error => error.message
  | .invalidCount value => "`" ++ value.write Number.spelledOut ++ "` is not a valid count"
  | .indexOutOfBounds index length =>
    "index " ++ toString index ++ " is out of bounds for length " ++ toString length
  | .missingArgument place count =>
    "the len is " ++ toString count ++ " but the index is " ++ toString place
  | .badFormula formula reason => "bad formula `" ++ formula ++ "`: " ++ reason
  | .unknownOperator operator => "unknown operator `" ++ operator ++ "`"
  | .unsupported action => "unsupported action `" ++ action ++ "`"
  | .host reason => reason

/-- The short name of the fault. -/
def code : Fault → String
  | .undefinedVariable _ => "UndefinedVariable"
  | .missingParameter _ => "MissingParameter"
  | .conversion _ => "ConversionError"
  | .incomparable _ _ => "Incomparable"
  | .number _ => "NumberError"
  | .invalidCount _ => "InvalidCount"
  | .indexOutOfBounds _ _ => "IndexOutOfBounds"
  | .missingArgument _ _ => "MissingArgument"
  | .badFormula _ _ => "BadFormula"
  | .unknownOperator _ => "UnknownOperator"
  | .unsupported _ => "NotSupported"
  | .host _ => "Host"

/-- A failed conversion as a fault. -/
def ofConversion {α : Type} (result : Except ConversionError α) : Except Fault α :=
  result.mapError .conversion

/-- A number that could not be formed as a fault. -/
def ofNumber (x : Float) : Except Fault Number :=
  (Number.ofFloat x).mapError .number

end Fault

end GridScript
