import GridScript.Engine.Slice

/-!
# Triggers

What makes an engine start runs: programs and functions that are executed
directly, and lines of code in a world that are compiled when an event happens
there.
-/

namespace GridScript.Engine

variable {σ ρ : Type}

/-- Replaces the catalogue if that is possible. Everything that was compiled with the old one is
given up. -/
def reloadCatalogue? (engine : Engine σ ρ) (catalogue : Catalogue) : Option (Engine σ ρ) :=
  (engine.catalogue.reload? catalogue).map fun catalogue =>
    { engine with catalogue, cache := .empty }

/-- What lines of code in a world are compiled with. -/
def workshop (engine : Engine σ ρ) (world : World) : Workshop :=
  ⟨world, engine.catalogue, engine.layout⟩

/-- Takes up what the cache gave: the cache and identities afterwards, and the
findings as notices. -/
def accept {α : Type} (engine : Engine σ ρ) (served : Served α) : Engine σ ρ :=
  served.findings.foldl (fun engine finding => engine.note (.finding finding))
    { engine with cache := served.cache, ids := served.ids }

/-- Registers a function from its compiled program. -/
def registerCompiled (engine : Engine σ ρ) (program : Program) (owner : Actor)
    (scope : FunctionScope) (replace : Bool) :
    Except ValidationError FunctionEntry × Engine σ ρ :=
  match FunctionDefinition.ofProgram program owner scope engine.ids with
  | .error error => (.error error, engine)
  | .ok (definition, ids) =>
    let engine := { engine with ids }
    match engine.ledger.registry.register definition replace with
    | .error error => (.error error, engine)
    | .ok (entry, registry) => (.ok entry, engine.mapLedger ({ · with registry }))

/-- Registers functions from several programs, one by one. -/
def registerPrograms (engine : Engine σ ρ) (owner : Actor) (scope : FunctionScope)
    (replace : Bool) : List Program → List (Except ValidationError FunctionEntry) × Engine σ ρ
  | [] => ([], engine)
  | program :: rest =>
    let (result, engine) := engine.registerCompiled program owner scope replace
    let (results, engine) := engine.registerPrograms owner scope replace rest
    (result :: results, engine)

/-- Whether a program defines a function. -/
def definesFunction (program : Program) : Bool :=
  match program.kind with
  | .function _ => true
  | .event _ => false

/-- Whether a program runs on an event, whatever the case of its letters. -/
def handles (event : String) (program : Program) : Bool :=
  match program.kind with
  | .event name => Text.sameFolded name event
  | .function _ => false

/-- Registers all functions that are defined in a region of a world. -/
def registerRegion (engine : Engine σ ρ) (world : World) (region : Region) (owner : Actor)
    (scope : FunctionScope) (replace : Bool) :
    List (Except ValidationError FunctionEntry) × Engine σ ρ :=
  let served := engine.cache.region (engine.workshop world) region engine.ids
  (engine.accept served).registerPrograms owner scope replace
    (served.value.programs.filter definesFunction)

variable [Host σ] [RandomSource ρ]

/-- Runs a program for an actor at an origin. -/
def execute (fuel : Nat) (engine : Engine σ ρ) (program : Program) (actor : Actor)
    (origin : Place) : Option (Execution × Engine σ ρ) :=
  engine.start fuel (.ofScript (.ofProgram program) (.start actor origin .empty)) actor origin

/-- Runs the function that a name stands for. Arguments and limits are checked
before anything runs. -/
def callFunction (fuel : Nat) (engine : Engine σ ρ) (name : String) (actor : Actor)
    (origin : Place) (args : ArrivalMap String Value) :
    Option (Except RunError Execution × Engine σ ρ) :=
  match engine.ledger.registry.lookup? name actor origin.world with
  | none => some (.error (.validation (.unknownFunction name)), engine)
  | some entry =>
    match entry.definition.bindArgs args [] with
    | .error error =>
      some (.error (.validation error), { engine with around := engine.around.reject entry })
    | .ok locals =>
      match engine.around.acquire entry actor with
      | (.error error, around) => some (.error (.limit error), { engine with around })
      | (.ok call, around) => do
        let machine := Machine.ofCall call (.start actor origin locals)
        let (execution, engine) ← { engine with around }.start fuel machine actor origin
        return (.ok execution, engine)

/-- Runs the line of code that starts at a cell, if it is to run on an event. -/
def fireLine (fuel : Nat) (engine : Engine σ ρ) (world : World) (entry : Position)
    (actor : Actor) : Option (Except RunError Execution × Engine σ ρ) :=
  let served := engine.cache.line (engine.workshop world) entry engine.ids
  let engine := engine.accept served
  match served.value with
  | .error error => some (.error (.compilation error), engine)
  | .ok program =>
    match program.kind with
    | .function _ => some (.error (.validation .notAnEvent), engine)
    | .event _ => do
      let (execution, engine) ← engine.execute fuel program actor program.origin
      return (.ok execution, engine)

/-- Runs several programs, each where it was compiled from. -/
def executeAll (fuel : Nat) (engine : Engine σ ρ) (actor : Actor) :
    List Program → Option (List Execution × Engine σ ρ)
  | [] => some ([], engine)
  | program :: rest => do
    let (execution, engine) ← engine.execute fuel program actor program.origin
    let (executions, engine) ← engine.executeAll fuel actor rest
    return (execution :: executions, engine)

/-- Runs all programs in a region of a world that run on an event, in scan
order. -/
def fireEvent (fuel : Nat) (engine : Engine σ ρ) (world : World) (region : Region)
    (event : String) (actor : Actor) : Option (List Execution × Engine σ ρ) :=
  let served := engine.cache.region (engine.workshop world) region engine.ids
  (engine.accept served).executeAll fuel actor (served.value.programs.filter (handles event))

end GridScript.Engine
