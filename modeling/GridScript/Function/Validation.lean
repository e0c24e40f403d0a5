import GridScript.Value.Basic

/-!
# Validation errors

Why a function cannot be registered, or why a call does not fit its signature.
-/

namespace GridScript

/-- Why a definition or a call is refused. -/
inductive ValidationError where
  /-- The name of a function is not an identifier. -/
  | invalidName (name : String)
  /-- The name of a parameter is not an identifier. -/
  | invalidParameterName (name : String)
  /-- Two parameters have one name. -/
  | duplicateParameter (name : String)
  /-- An optional parameter has no default. -/
  | missingDefault (name : String)
  /-- A required parameter has a default. -/
  | requiredWithDefault (name : String)
  /-- A default does not have the declared kind. -/
  | defaultKind (name : String) (expected got : ValueKind)
  /-- A parameter is not declared in a readable way. -/
  | badParameterSpec (text : String)
  /-- The name is taken by a function of the same owner. -/
  | duplicateFunction (name : String)
  /-- The shared name is taken by a function of another owner. -/
  | sharedNameTaken (name : String) (owner : Actor)
  /-- The name is taken by a function of another owner. -/
  | ownedByOther (name : String) (owner : Actor)
  /-- A program does not define a function. -/
  | notAFunction
  /-- A program does not handle an event. -/
  | notAnEvent
  /-- No function of the name can be called. -/
  | unknownFunction (name : String)
  /-- An argument is missing. -/
  | missingArgument (function name : String)
  /-- An argument has no parameter. -/
  | unexpectedArgument (function name : String)
  /-- There are more arguments than parameters. -/
  | tooManyArguments (function : String) (expected got : Nat)
  /-- An argument does not have the declared kind. -/
  | argumentKind (function name : String) (expected got : ValueKind)
  deriving DecidableEq

namespace ValidationError

/-- What the error says. -/
def message : ValidationError → String
  | .invalidName name => "`" ++ name ++ "` is not a valid function name"
  | .invalidParameterName name => "`" ++ name ++ "` is not a valid parameter name"
  | .duplicateParameter name => "parameter `" ++ name ++ "` is declared more than once"
  | .missingDefault name => "optional parameter `" ++ name ++ "` needs a default value"
  | .requiredWithDefault name => "required parameter `" ++ name ++ "` cannot have a default value"
  | .defaultKind name expected got =>
    "default for `" ++ name ++ "` must be " ++ expected.name ++ ", got " ++ got.name
  | .badParameterSpec text => "bad parameter spec `" ++ text ++ "`"
  | .duplicateFunction name => "function `" ++ name ++ "` already exists"
  | .sharedNameTaken name owner =>
    "shared function `" ++ name ++ "` is already owned by " ++ owner.name
  | .ownedByOther name owner => "function `" ++ name ++ "` belongs to " ++ owner.name
  | .notAFunction => "program is not a function definition"
  | .notAnEvent => "program is not an event handler"
  | .unknownFunction name => "function `" ++ name ++ "` is not defined"
  | .missingArgument function name => function ++ ": missing required argument `" ++ name ++ "`"
  | .unexpectedArgument function name => function ++ ": unexpected argument `" ++ name ++ "`"
  | .tooManyArguments function expected got =>
    function ++ ": too many arguments (expected at most " ++ toString expected ++ ", got " ++
      toString got ++ ")"
  | .argumentKind function name expected got =>
    function ++ ": argument `" ++ name ++ "` must be " ++ expected.name ++ ", got " ++ got.name

/-- The short name of the error. -/
def code : ValidationError → String
  | .invalidName _ => "InvalidName"
  | .invalidParameterName _ => "InvalidParameterName"
  | .duplicateParameter _ => "DuplicateParameter"
  | .missingDefault _ => "MissingDefault"
  | .requiredWithDefault _ => "RequiredWithDefault"
  | .defaultKind _ _ _ => "DefaultKind"
  | .badParameterSpec _ => "BadParameterSpec"
  | .duplicateFunction _ => "DuplicateFunction"
  | .sharedNameTaken _ _ => "SharedNameTaken"
  | .ownedByOther _ _ => "OwnedByOther"
  | .notAFunction => "NotAFunction"
  | .notAnEvent => "NotAnEvent"
  | .unknownFunction _ => "UnknownFunction"
  | .missingArgument _ _ => "MissingArgument"
  | .unexpectedArgument _ _ => "UnexpectedArgument"
  | .tooManyArguments _ _ _ => "TooManyArguments"
  | .argumentKind _ _ _ _ => "ArgumentKind"

end ValidationError

end GridScript
