import GridScript.Actions.Basic
import GridScript.Text.Lowercase
import GridScript.Text.Quoted
import GridScript.Value.Compare

/-!
# The action table

The actions and conditions that programs perform themselves, by name. Whatever is
not in the table is left to the host. The standard table works on variables,
waits, stops, prints, and compares.
-/

namespace GridScript

/-- Actions and conditions by name. -/
structure ActionTable (σ ρ : Type) where
  /-- The actions. -/
  actions : SortedMap String (Op → Act σ ρ Flow)
  /-- The conditions. -/
  conditions : SortedMap String (Op → Act σ ρ Bool)

namespace Actions

variable {σ ρ : Type} [RandomSource ρ]

/-- Sets the variable `name` to `value`. -/
def set (op : Op) : Act σ ρ Flow := do
  let name ← Act.textArg op "name"
  let value ← Act.arg op "value"
  Act.define name value
  return .proceed

/-- Adds `amount`, or one, to the variable `name`, which starts at zero. -/
def add (op : Op) : Act σ ρ Flow := do
  let name ← Act.textArg op "name"
  let amount ←
    match ← Act.arg? op "amount" with
    | some value => Act.lift (Fault.ofConversion value.asNumber)
    | none => pure (Number.ofInt 1)
  let current ←
    match ← Act.lookup? name with
    | some value => Act.lift (Fault.ofConversion value.asNumber)
    | none => pure .zero
  let sum ← Act.lift (Fault.ofNumber (current.toFloat + amount.toFloat))
  Act.define name (.number sum)
  return .proceed

/-- Appends `value` to the list in the variable `name`, or makes a list of it. -/
def append (op : Op) : Act σ ρ Flow := do
  let name ← Act.textArg op "name"
  let value ← Act.arg op "value"
  match ← Act.lookup? name with
  | some (.list items) => Act.define name (.list (items ++ [value]))
  | some other => throw (.conversion (other.mismatch .list))
  | none => Act.define name (.list [value])
  return .proceed

/-- Puts `value` under `key` into the map in the variable `name`, or makes a map
of it. -/
def put (op : Op) : Act σ ρ Flow := do
  let name ← Act.textArg op "name"
  let key ← Act.textArg op "key"
  let value ← Act.arg op "value"
  match ← Act.lookup? name with
  | some (.map entries) => Act.define name (.map (Entries.insert key value entries))
  | some other => throw (.conversion (other.mismatch .map))
  | none => Act.define name (.map [(key, value)])
  return .proceed

/-- Removes the variable `name`. -/
def remove (op : Op) : Act σ ρ Flow := do
  let name ← Act.textArg op "name"
  Act.erase name
  return .proceed

/-- Shows `text` to the actor. -/
def log [Host σ] (op : Op) : Act σ ρ Flow := do
  let text ← Act.textArg op "text"
  Act.print text
  return .proceed

/-- Waits for a number of `ticks`, or one; waiting for none is no waiting. -/
def wait (op : Op) : Act σ ρ Flow := do
  let ticks ←
    match ← Act.arg? op "ticks" with
    | some value => Act.lift value.asCount
    | none => pure 1
  return if ticks = 0 then .proceed else .suspend ticks

/-- Ends the run. -/
def stop (_ : Op) : Act σ ρ Flow :=
  return .stop

/-- Whether one text stands somewhere in another. -/
def isWithin (part : List Char) : List Char → Bool
  | [] => part.isEmpty
  | c :: rest => part.isPrefixOf (c :: rest) || isWithin part rest

/-- Whether a list holds an equal value, a map the key, or a text the other text
in any case. -/
def contains (left right : Value) : Bool :=
  match left with
  | .list items => items.any (·.looselyEqual right)
  | .map entries => (Entries.find? right.toText entries).isSome
  | other => isWithin (Text.lower right.toText) (Text.lower other.toText)

/-- What a comparison operator says of two values. -/
def relate (operator : String) (left right : Value) : Except Fault Bool :=
  match Text.trim operator with
  | "==" | "=" | "eq" | "equals" => .ok (left.looselyEqual right)
  | "!=" | "<>" | "ne" => .ok !left.looselyEqual right
  | "<" | "lt" => (left.order right).map (·.isLT)
  | "<=" | "le" => (left.order right).map (·.isLE)
  | ">" | "gt" => (left.order right).map (·.isGT)
  | ">=" | "ge" => (left.order right).map (·.isGE)
  | "contains" => .ok (contains left right)
  | _ => .error (.unknownOperator operator)

/-- Compares `left` and `right` by the operator `op`. An operator that starts
with an equals sign and is not a formula is meant as it is written. -/
def compare (op : Op) : Act σ ρ Bool := do
  let left ← Act.arg op "left"
  let right ← Act.arg op "right"
  let operator ←
    match op.args.get? "op" with
    | none => pure "=="
    | some (.invalid source _) => pure source
    | some _ => Act.textArg op "op"
  Act.lift (relate operator left right)

/-- Whether `value` is empty. -/
def isEmpty (op : Op) : Act σ ρ Bool := do
  return (← Act.arg op "value").isEmpty

/-- Whether there is a variable `name`. -/
def isDefined (op : Op) : Act σ ρ Bool := do
  let name ← Act.textArg op "name"
  return (← Act.lookup? name).isSome

/-- Whether `value` is true. -/
def formula (op : Op) : Act σ ρ Bool := do
  let value ← Act.arg op "value"
  Act.lift (Fault.ofConversion value.asBool)

/-- Whether `actor` is connected. -/
def actorOnline [Host σ] (op : Op) : Act σ ρ Bool := do
  let value ← Act.arg op "actor"
  let actor ← Act.lift (Fault.ofConversion value.asActor)
  Act.isConnected actor

/-- Leaves an action to the host and stores its answer, if any, in the variable
that the parameter `result` names. -/
def byHost [Host σ] (action : String) (op : Op) : Act σ ρ Flow := do
  let request ← Act.request op action
  let answer ← Act.perform request
  match answer, request.args.get? "result" with
  | some value, some name => Act.define name.toText value
  | _, _ => pure ()
  return .proceed

/-- Leaves a condition to the host. -/
def byHostCondition [Host σ] (action : String) (op : Op) : Act σ ρ Bool := do
  let request ← Act.request op action
  Act.check request

end Actions

namespace ActionTable

variable {σ ρ : Type}

/-- A table with nothing in it. -/
def empty : ActionTable σ ρ :=
  ⟨.empty, .empty⟩

/-- The table with an action put in. -/
def setAction (table : ActionTable σ ρ) (name : String) (action : Op → Act σ ρ Flow) :
    ActionTable σ ρ :=
  { table with actions := table.actions.insert name action }

/-- The table with a condition put in. -/
def setCondition (table : ActionTable σ ρ) (name : String) (condition : Op → Act σ ρ Bool) :
    ActionTable σ ρ :=
  { table with conditions := table.conditions.insert name condition }

/-- The standard table. -/
def standard [Host σ] [RandomSource ρ] : ActionTable σ ρ where
  actions := .ofList [("set", Actions.set), ("add", Actions.add), ("append", Actions.append),
    ("put", Actions.put), ("remove", Actions.remove), ("log", Actions.log),
    ("wait", Actions.wait), ("stop", Actions.stop)]
  conditions := .ofList [("compare", Actions.compare), ("is_empty", Actions.isEmpty),
    ("exists", Actions.isDefined), ("formula", Actions.formula),
    ("actor_online", Actions.actorOnline)]

/-- What a name does: the action of the table, or a request to the host. -/
def action [Host σ] [RandomSource ρ] (table : ActionTable σ ρ) (name : String) :
    Op → Act σ ρ Flow :=
  (table.actions.get? name).getD (Actions.byHost name)

/-- What a name decides: the condition of the table, or a request to the host. -/
def condition [Host σ] [RandomSource ρ] (table : ActionTable σ ρ) (name : String) :
    Op → Act σ ρ Bool :=
  (table.conditions.get? name).getD (Actions.byHostCondition name)

/-- A line with all names of the table. -/
def text (table : ActionTable σ ρ) : String :=
  "ActionTable \x7b actions: " ++ Text.quotedList table.actions.keys ++ ", conditions: " ++
    Text.quotedList table.conditions.keys ++ " \x7d"

end ActionTable

end GridScript
