import GridScript.Function.Definition
import GridScript.Function.Tally
import GridScript.Program.Script

/-!
# The function registry

Functions are kept by tier, so that one name can stand for a private function of
every actor, for one shared function, for one function of every world and for one
global function. A call takes the most specific one it may use. Only the owner of
a function can replace or remove it.

Every registration has a handle of its own under which its statistics are kept. A
function that was replaced or removed while calls of it are under way therefore
still gets their outcomes.
-/

namespace GridScript

/-- The tiers of functions, the most specific first. -/
inductive Tier where
  /-- Functions of one actor. -/
  | ownerPrivate
  /-- Functions of several actors. -/
  | shared
  /-- Functions of one world. -/
  | world
  /-- Functions of everyone. -/
  | everyone
  deriving DecidableEq

/-- The place of a tier in the order of tiers. -/
def Tier.rank : Tier → Nat
  | .ownerPrivate => 0
  | .shared => 1
  | .world => 2
  | .everyone => 3

/-- The key a function is kept under. -/
structure TierKey where
  /-- Tier of the function. -/
  tier : Tier
  /-- The actor or world that the tier is divided by, or nothing. -/
  qualifier : String
  /-- Name of the function. -/
  name : String
  deriving DecidableEq

namespace TierKey

instance : Ord TierKey where
  compare := compareLex (compareOn (·.tier.rank))
    (compareLex (compareOn qualifier) (compareOn name))

instance : Std.TransOrd TierKey :=
  inferInstanceAs (Std.TransCmp (compareLex (compareOn (·.tier.rank))
    (compareLex (compareOn qualifier) (compareOn name))))

end TierKey

/-- The key of a function with the given name, scope and owner. -/
def FunctionScope.key (scope : FunctionScope) (owner : Actor) (name : String) : TierKey :=
  match scope with
  | .ownerPrivate => ⟨.ownerPrivate, owner.name, name⟩
  | .shared => ⟨.shared, "", name⟩
  | .world home => ⟨.world, home, name⟩
  | .everyone => ⟨.everyone, "", name⟩

/-- The key of a function. -/
def FunctionDefinition.key (definition : FunctionDefinition) : TierKey :=
  definition.scope.key definition.owner definition.name

/-- A registered function. -/
structure FunctionEntry where
  /-- Number of the registration. -/
  handle : Nat
  /-- The definition. -/
  definition : FunctionDefinition
  /-- The linked body. -/
  script : Script

/-- The registered functions and the statistics of all registrations. -/
structure FunctionRegistry where
  /-- The functions that can be called. -/
  functions : SortedMap TierKey FunctionEntry
  /-- Statistics by handle. -/
  tallies : Array Tally

namespace FunctionRegistry

/-- A registry that nothing was registered in. -/
def empty : FunctionRegistry :=
  ⟨.empty, #[]⟩

instance : Inhabited FunctionRegistry := ⟨empty⟩

/-- Why a valid definition cannot take the place of a registered one. -/
def conflict? (existing definition : FunctionDefinition) (replace : Bool) :
    Option ValidationError :=
  if existing.owner ≠ definition.owner then
    match existing.scope with
    | .shared => some (.sharedNameTaken definition.name existing.owner)
    | _ => some (.ownedByOther definition.name existing.owner)
  else if replace then none
  else some (.duplicateFunction definition.name)

/-- The entry of a definition that is registered next. -/
def newEntry (registry : FunctionRegistry) (definition : FunctionDefinition) : FunctionEntry where
  handle := registry.tallies.size
  definition := definition
  script := Script.ofBody definition.name definition.origin definition.body

/-- The registry with one more entry. -/
def add (registry : FunctionRegistry) (definition : FunctionDefinition) : FunctionRegistry where
  functions := registry.functions.insert definition.key (registry.newEntry definition)
  tallies := registry.tallies.push .zero

/-- Registers a function. Its name must be free in its tier, or be taken by a
function of the same owner that is to be replaced. -/
def register (registry : FunctionRegistry) (definition : FunctionDefinition) (replace : Bool) :
    Except ValidationError (FunctionEntry × FunctionRegistry) := do
  definition.validate
  match (registry.functions.get? definition.key).bind
      fun existing => conflict? existing.definition definition replace with
  | some error => .error error
  | none => .ok (registry.newEntry definition, registry.add definition)

/-- Removes a function of the given owner; the answer says whether there was
one. -/
def unregister (registry : FunctionRegistry) (name : String) (scope : FunctionScope)
    (owner : Actor) : Bool × FunctionRegistry :=
  let key := scope.key owner name
  match registry.functions.get? key with
  | some entry =>
    if entry.definition.owner = owner then
      (true, { registry with functions := registry.functions.erase key })
    else (false, registry)
  | none => (false, registry)

/-- The function a name stands for in a program of `caller` that runs in
`world`. -/
def lookup? (registry : FunctionRegistry) (name : String) (caller : Actor) (world : String) :
    Option FunctionEntry :=
  let shared := (registry.functions.get? ⟨.shared, "", name⟩).filter
    (·.definition.isSharedWith caller)
  (registry.functions.get? ⟨.ownerPrivate, caller.name, name⟩).or <|
    shared.or <|
      (registry.functions.get? ⟨.world, world, name⟩).or <|
        registry.functions.get? ⟨.everyone, "", name⟩

/-- The statistics under a handle. -/
def tally (registry : FunctionRegistry) (handle : Nat) : Tally :=
  registry.tallies.getD handle .zero

/-- The statistics kept for a name, scope and owner. -/
def stats? (registry : FunctionRegistry) (name : String) (scope : FunctionScope) (owner : Actor) :
    Option Tally :=
  (registry.functions.get? (scope.key owner name)).map fun entry => registry.tally entry.handle

/-- The registry with the statistics under a handle changed. -/
def updateTally (registry : FunctionRegistry) (handle : Nat) (change : Tally → Tally) :
    FunctionRegistry :=
  { registry with tallies := registry.tallies.modify handle change }

/-- The number of functions that can be called. -/
def size (registry : FunctionRegistry) : Nat :=
  registry.functions.size

/-- The registry without functions. Calls under way keep their statistics. -/
def clear (registry : FunctionRegistry) : FunctionRegistry :=
  { registry with functions := .empty }

/-- All definitions, by tier, then qualifier, then name. -/
def snapshot (registry : FunctionRegistry) : List FunctionDefinition :=
  registry.functions.entries.map (·.2.definition)

/-- Registers definitions one by one up to the first that is refused. -/
def registerAll (registry : FunctionRegistry) :
    List FunctionDefinition → Except ValidationError Unit × FunctionRegistry
  | [] => (.ok (), registry)
  | definition :: rest =>
    match registry.register definition false with
    | .ok (_, registry) => registry.registerAll rest
    | .error error => (.error error, registry)

/-- Puts the given definitions in the place of all functions. -/
def restore (registry : FunctionRegistry) (definitions : List FunctionDefinition) :
    Except ValidationError Unit × FunctionRegistry :=
  registry.clear.registerAll definitions

/-- Stored definitions. -/
def snapshotToJson (definitions : List FunctionDefinition) : Json :=
  .object [("functions", .array (definitions.map FunctionDefinition.toJson))]

/-- Definitions from stored ones. -/
def snapshotOfJson? (json : Json) : Option (List FunctionDefinition) := do
  match ← json.fields? ["functions"] with
  | [functions] => Json.required? (Json.asList? FunctionDefinition.ofJson?) functions
  | _ => none

end FunctionRegistry

end GridScript
