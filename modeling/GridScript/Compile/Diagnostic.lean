import GridScript.Program.Basic
import GridScript.Text.Quoted

/-!
# Diagnostics

What compiling has to say about a line of code. Most findings are warnings: the
piece is left out and the rest of the program is compiled all the same.
-/

namespace GridScript

/-- A finding about a line of code. -/
inductive CompileError where
  /-- A cell is empty. -/
  | noSymbol (position : Position)
  /-- The catalogue does not know a symbol. -/
  | unknownSymbol (symbol : String) (position : Position)
  /-- A symbol does not start programs. -/
  | notAnEntry (symbol : String) (position : Position)
  /-- A label does not choose an action. -/
  | unresolvedAction (symbol : String) (position : Position) (label : Option String)
  /-- The item in a slot cannot be read. -/
  | badSlot (position : Position) (slot : Nat) (reason : String)
  /-- A group starts without a node to belong to. -/
  | orphanOpen (position : Position)
  /-- A group ends that never started. -/
  | unmatchedClose (position : Position)
  /-- A group never ends. -/
  | unclosedOpen (position : Position)
  /-- A function has no name. -/
  | missingFunctionName (position : Position)
  /-- A parameter of a function cannot be read. -/
  | badParameterSpec (position : Position) (text : String)
  deriving DecidableEq

namespace CompileError

/-- What the finding says. -/
def message : CompileError → String
  | .noSymbol position => "no symbol at " ++ position.text
  | .unknownSymbol symbol position => "unknown symbol `" ++ symbol ++ "` at " ++ position.text
  | .notAnEntry symbol position =>
    "`" ++ symbol ++ "` at " ++ position.text ++ " does not start a program"
  | .unresolvedAction symbol position label =>
    "no action of `" ++ symbol ++ "` at " ++ position.text ++ " matches label " ++
      Text.quotedOption label
  | .badSlot position slot reason =>
    "slot " ++ toString slot ++ " of the container at " ++ position.text ++ ": " ++ reason
  | .orphanOpen position =>
    "opening bracket at " ++ position.text ++ " does not follow a condition or loop"
  | .unmatchedClose position =>
    "closing bracket at " ++ position.text ++ " has no opening bracket"
  | .unclosedOpen position => "opening bracket at " ++ position.text ++ " is never closed"
  | .missingFunctionName position =>
    "function header at " ++ position.text ++ " needs a name label"
  | .badParameterSpec position text =>
    "bad parameter `" ++ text ++ "` on function header at " ++ position.text

/-- The short name of the finding. -/
def code : CompileError → String
  | .noSymbol _ => "NoSymbol"
  | .unknownSymbol _ _ => "UnknownSymbol"
  | .notAnEntry _ _ => "NotAnEntry"
  | .unresolvedAction _ _ _ => "UnresolvedAction"
  | .badSlot _ _ _ => "BadSlot"
  | .orphanOpen _ => "OrphanOpen"
  | .unmatchedClose _ => "UnmatchedClose"
  | .unclosedOpen _ => "UnclosedOpen"
  | .missingFunctionName _ => "MissingFunctionName"
  | .badParameterSpec _ _ => "BadParameterSpec"

end CompileError

/-- How much a finding matters. -/
inductive Severity where
  /-- Something was left out of a program. -/
  | warning
  /-- A whole program was left out. -/
  | error
  deriving DecidableEq

/-- A finding and how much it matters. -/
structure Diagnostic where
  /-- How much it matters. -/
  severity : Severity
  /-- The finding. -/
  error : CompileError
  deriving DecidableEq

/-- What compiling a region gives. -/
structure CompileReport where
  /-- The programs, in scan order of their entries. -/
  programs : List Program
  /-- The findings, in the order they were made. -/
  diagnostics : List Diagnostic

end GridScript
