import GridScript.Value.Basic
import GridScript.Text.Quoted

/-!
# Formulas

A parameter that starts with an equals sign is a formula over the variables of
the run. Formulas have the usual arithmetic, comparison and logic operators,
lists, and a handful of functions.
-/

namespace GridScript

/-- An operator between two operands. -/
inductive BinaryOp where
  | add | sub | mul | div | mod | pow
  | eq | ne | lt | le | gt | ge
  | and | or
  deriving DecidableEq

/-- How an operator is written. -/
def BinaryOp.symbol : BinaryOp → String
  | .add => "+"
  | .sub => "-"
  | .mul => "*"
  | .div => "/"
  | .mod => "%"
  | .pow => "^"
  | .eq => "=="
  | .ne => "!="
  | .lt => "<"
  | .le => "<="
  | .gt => ">"
  | .ge => ">="
  | .and => "and"
  | .or => "or"

/-- An operator in front of its operand. -/
inductive UnaryOp where
  | neg | not
  deriving DecidableEq

/-- A function formulas can call. -/
inductive FormulaFunction where
  /-- A random number between two bounds. -/
  | random
  /-- The length of a list, map or text. -/
  | len
  /-- The least of several numbers. -/
  | min
  /-- The greatest of several numbers. -/
  | max
  /-- The absolute value. -/
  | abs
  /-- The greatest integer not above a number. -/
  | floor
  /-- The least integer not below a number. -/
  | ceil
  /-- The nearest integer, halves going away from zero. -/
  | round
  /-- The square root. -/
  | sqrt
  deriving DecidableEq

namespace FormulaFunction

/-- All functions. -/
def all : List FormulaFunction :=
  [.random, .len, .min, .max, .abs, .floor, .ceil, .round, .sqrt]

/-- The name of a function. -/
def name : FormulaFunction → String
  | .random => "random"
  | .len => "len"
  | .min => "min"
  | .max => "max"
  | .abs => "abs"
  | .floor => "floor"
  | .ceil => "ceil"
  | .round => "round"
  | .sqrt => "sqrt"

/-- The function of a name. -/
def ofName? (name : String) : Option FormulaFunction :=
  all.find? (·.name == name)

/-- Whether a function can be called with this many arguments. -/
def takes (function : FormulaFunction) (count : Nat) : Bool :=
  match function with
  | .random => count == 2
  | .min | .max => 1 ≤ count
  | _ => count == 1

/-- How many arguments a function expects, in words. -/
def expectation : FormulaFunction → String
  | .random => "2"
  | .min | .max => "1 or more"
  | _ => "1"

end FormulaFunction

/-- A formula. -/
inductive Formula where
  /-- A literal. -/
  | const (value : Value)
  /-- The value of a variable. -/
  | var (name : String)
  /-- A list of values. -/
  | list (items : List Formula)
  /-- An operator in front of its operand. -/
  | unary (op : UnaryOp) (operand : Formula)
  /-- An operator between its operands. -/
  | binary (op : BinaryOp) (left right : Formula)
  /-- A function call. -/
  | call (function : FormulaFunction) (arguments : List Formula)

instance : Inhabited Formula := ⟨.list []⟩

/-- Why a text is not a formula. -/
inductive FormulaError where
  /-- A character has no place in formulas. -/
  | unexpectedChar (c : Char) (offset : Nat)
  /-- A text is not closed. -/
  | unterminatedText (offset : Nat)
  /-- Digits and points do not form a number. -/
  | badNumber (text : String)
  /-- A token stands where it cannot. -/
  | unexpectedToken (found : String)
  /-- The formula stops too early. -/
  | unexpectedEnd
  /-- No function has the name. -/
  | unknownFunction (name : String)
  /-- A function is given the wrong number of arguments. -/
  | arity (function : FormulaFunction) (got : Nat)
  /-- There are too many tokens. -/
  | tooLong (limit : Nat)
  /-- Phrases are nested too deeply. -/
  | tooDeep (limit : Nat)
  deriving DecidableEq

namespace FormulaError

/-- What the error says. -/
def message : FormulaError → String
  | .unexpectedChar c offset => "unexpected character `" ++ c.toString ++ "` at " ++ toString offset
  | .unterminatedText offset => "unterminated string starting at " ++ toString offset
  | .badNumber text => "bad number `" ++ text ++ "`"
  | .unexpectedToken found => "unexpected `" ++ found ++ "`"
  | .unexpectedEnd => "unexpected end of formula"
  | .unknownFunction name => "unknown function `" ++ name ++ "`"
  | .arity function got =>
    function.name ++ " takes " ++ function.expectation ++ " arguments, got " ++ toString got
  | .tooLong limit => "formula is longer than " ++ toString limit ++ " tokens"
  | .tooDeep limit => "formula nests deeper than " ++ toString limit ++ " levels"

/-- The short name of the error. -/
def code : FormulaError → String
  | .unexpectedChar _ _ => "UnexpectedChar"
  | .unterminatedText _ => "UnterminatedString"
  | .badNumber _ => "BadNumber"
  | .unexpectedToken _ => "UnexpectedToken"
  | .unexpectedEnd => "UnexpectedEnd"
  | .unknownFunction _ => "UnknownFunction"
  | .arity _ _ => "Arity"
  | .tooLong _ => "TooLong"
  | .tooDeep _ => "TooDeep"

end FormulaError

end GridScript
