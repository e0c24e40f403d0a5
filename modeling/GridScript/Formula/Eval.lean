import GridScript.Formula.Basic
import GridScript.Number.Modulus
import GridScript.Random.Basic
import GridScript.Value.Compare

/-!
# Evaluating formulas

A formula is evaluated from left to right over the variables of the run. Random
numbers drawn before a fault stay drawn.
-/

namespace GridScript.Formula

/-- A computation that may draw random numbers and may fail. -/
abbrev Eval (ρ : Type) :=
  ExceptT Fault (StateM ρ)

/-- A random number. -/
def draw {ρ : Type} [RandomSource ρ] : Eval ρ Float :=
  fun state => let (x, state) := RandomSource.draw state; (.ok x, state)

/-- A float as a value, if it is a number. -/
def ofFloat (x : Float) : Except Fault Value :=
  (Fault.ofNumber x).map .number

/-- A value read as a float. -/
def floatOf (value : Value) : Except Fault Float :=
  (Fault.ofConversion value.asNumber).map Number.toFloat

/-- A value read as a truth value. -/
def boolOf (value : Value) : Except Fault Bool :=
  Fault.ofConversion value.asBool

/-- A sum of numbers where both sides are numeric, a concatenation otherwise. -/
def addValues (left right : Value) : Except Fault Value :=
  match left.asNumber, right.asNumber with
  | .ok a, .ok b => ofFloat (a.toFloat + b.toFloat)
  | _, _ =>
    match left, right with
    | .list a, .list b => .ok (.list (a ++ b))
    | _, _ => .ok (.text (left.toText ++ right.toText))

/-- A numeric operation on two values, the left one read first. -/
def arithmetic (operation : Float → Float → Float) (left right : Value) : Except Fault Value := do
  let a ← floatOf left
  let b ← floatOf right
  ofFloat (operation a b)

/-- An operator applied to two values. -/
def applyBinary (op : BinaryOp) (left right : Value) : Except Fault Value :=
  match op with
  | .add => addValues left right
  | .sub => arithmetic (· - ·) left right
  | .mul => arithmetic (· * ·) left right
  | .div => arithmetic (· / ·) left right
  | .mod => arithmetic modulus left right
  | .pow => arithmetic Float.pow left right
  | .eq => .ok (.bool (left.looselyEqual right))
  | .ne => .ok (.bool (!left.looselyEqual right))
  | .lt => (left.order right).map fun o => .bool o.isLT
  | .le => (left.order right).map fun o => .bool o.isLE
  | .gt => (left.order right).map fun o => .bool o.isGT
  | .ge => (left.order right).map fun o => .bool o.isGE
  | .and => do .ok (.bool ((← boolOf left) && (← boolOf right)))
  | .or => do .ok (.bool ((← boolOf left) || (← boolOf right)))

/-- A prefixed operator applied to a value. -/
def applyUnary (op : UnaryOp) (value : Value) : Except Fault Value :=
  match op with
  | .neg => do ofFloat (-(← floatOf value))
  | .not => do .ok (.bool !(← boolOf value))

/-- Whether a float has no fractional part. -/
def isWhole (x : Float) : Bool :=
  x.floor == x

/-- A random number between two bounds, given in either order: an integer, both
bounds included, when both bounds are integers. -/
def randomBetween {ρ : Type} [RandomSource ρ] (a b : Float) : Eval ρ Value := do
  let (low, high) := if a ≤ b then (a, b) else (b, a)
  let x ← draw
  if isWhole low && isWhole high then
    let pick := low + (x * (high - low + 1.0)).floor
    ExceptT.mk (pure (ofFloat (if pick < high then pick else high)))
  else ExceptT.mk (pure (ofFloat (low + x * (high - low))))

/-- The better of several numbers, where `prefers` tells when the second of two
replaces the first. -/
def best (prefers : Ordering → Bool) (found : Option Number) :
    List Value → Except Fault (Option Number)
  | [] => .ok found
  | value :: rest => do
    let number ← Fault.ofConversion value.asNumber
    let found :=
      match found with
      | none => number
      | some known => if prefers (known.order number) then number else known
    best prefers (some found) rest

/-- The best of the arguments, or of the items of a list that is the only one. -/
def bestOf (prefers : Ordering → Bool) (arguments : List Value) : Except Fault Value := do
  let values :=
    match arguments with
    | [.list items] => items
    | arguments => arguments
  match ← best prefers none values with
  | some number => .ok (.number number)
  | none => .error (.indexOutOfBounds 1 0)

/-- The length of a list, map or text. -/
def lengthOf : Value → Except Fault Value
  | .list items => ofFloat (Float.ofNat items.length)
  | .map entries => ofFloat (Float.ofNat entries.length)
  | value => ofFloat (Float.ofNat value.toText.length)

/-- A function of one number applied to a value. -/
def onNumber (function : Float → Float) (value : Value) : Except Fault Value := do
  ofFloat (function (← floatOf value))

/-- The argument in a place, counted from zero. -/
def argument (arguments : List Value) (place : Nat) : Except Fault Value :=
  match arguments[place]? with
  | some value => .ok value
  | none => .error (.missingArgument place arguments.length)

/-- A function applied to its arguments. -/
def apply {ρ : Type} [RandomSource ρ] (function : FormulaFunction) (arguments : List Value) :
    Eval ρ Value :=
  match function with
  | .random => do
    let a ← ExceptT.mk (pure (argument arguments 0 >>= floatOf))
    let b ← ExceptT.mk (pure (argument arguments 1 >>= floatOf))
    randomBetween a b
  | .min => ExceptT.mk (pure (bestOf (· == .gt) arguments))
  | .max => ExceptT.mk (pure (bestOf (· == .lt) arguments))
  | .len => ExceptT.mk (pure (argument arguments 0 >>= lengthOf))
  | .abs => ExceptT.mk (pure (argument arguments 0 >>= onNumber Float.abs))
  | .floor => ExceptT.mk (pure (argument arguments 0 >>= onNumber Float.floor))
  | .ceil => ExceptT.mk (pure (argument arguments 0 >>= onNumber Float.ceil))
  | .round => ExceptT.mk (pure (argument arguments 0 >>= onNumber Float.round))
  | .sqrt => ExceptT.mk (pure (argument arguments 0 >>= onNumber Float.sqrt))

mutual

/-- The value of a formula, where `lookup` gives the values of variables. -/
def eval {ρ : Type} [RandomSource ρ] (lookup : String → Option Value) : Formula → Eval ρ Value
  | .const value => pure value
  | .var name =>
    match lookup name with
    | some value => pure value
    | none => throw (.undefinedVariable name)
  | .list items => do pure (.list (← evalAll lookup items))
  | .unary op operand => do
    let value ← eval lookup operand
    ExceptT.mk (pure (applyUnary op value))
  | .binary .and left right => do
    let value ← eval lookup left
    if ← ExceptT.mk (pure (boolOf value)) then
      let value ← eval lookup right
      pure (.bool (← ExceptT.mk (pure (boolOf value))))
    else pure (.bool false)
  | .binary .or left right => do
    let value ← eval lookup left
    if ← ExceptT.mk (pure (boolOf value)) then pure (.bool true)
    else
      let value ← eval lookup right
      pure (.bool (← ExceptT.mk (pure (boolOf value))))
  | .binary op left right => do
    let leftValue ← eval lookup left
    let rightValue ← eval lookup right
    ExceptT.mk (pure (applyBinary op leftValue rightValue))
  | .call function arguments => do
    let values ← evalAll lookup arguments
    apply function values

/-- The values of several formulas, from left to right. -/
def evalAll {ρ : Type} [RandomSource ρ] (lookup : String → Option Value) :
    List Formula → Eval ρ (List Value)
  | [] => pure []
  | formula :: rest => do
    let value ← eval lookup formula
    let values ← evalAll lookup rest
    pure (value :: values)

end

end GridScript.Formula
