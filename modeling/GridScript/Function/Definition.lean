import GridScript.Function.Parameter
import GridScript.Program.Stored
import GridScript.Text.Label

/-!
# Function definitions

A function is a named body with a signature. Its scope says who may call it, and
it may set its own limits on call depth and time.
-/

namespace GridScript

/-- Who may call a function. -/
inductive FunctionScope where
  /-- Everyone. -/
  | everyone
  /-- Programs that run in the named world. -/
  | world (name : String)
  /-- The owner. -/
  | ownerPrivate
  /-- The owner and the actors it is shared with. -/
  | shared
  deriving DecidableEq

namespace FunctionScope

/-- A stored scope. -/
def toJson : FunctionScope → Json
  | .everyone => .object [("tier", .text "global")]
  | .world name => .object [("tier", .text "world"), ("world", .text name)]
  | .ownerPrivate => .object [("tier", .text "owner_private")]
  | .shared => .object [("tier", .text "shared")]

/-- A scope from a stored one. Only the scope of a world has a name to it. -/
def ofJson? (json : Json) : Option FunctionScope := do
  let tagged ← json.tagged? .direct "tier" "world" ["global", "world", "owner_private", "shared"]
  let nameless (scope : FunctionScope) : Option FunctionScope :=
    match tagged.data with
    | none | some .null => some scope
    | _ => none
  match tagged.name with
  | "global" => nameless .everyone
  | "world" => (tagged.data.bind Json.asText?).map .world
  | "owner_private" => nameless .ownerPrivate
  | "shared" => nameless .shared
  | _ => none

end FunctionScope

/-- A function. -/
structure FunctionDefinition where
  /-- Name of the function. -/
  name : String
  /-- Parameters in declaration order. -/
  params : List Parameter
  /-- Kind of the value it returns. -/
  returns : ValueKind
  /-- Actor the function belongs to. -/
  owner : Actor
  /-- Who may call it. -/
  scope : FunctionScope
  /-- Where it was compiled from. -/
  origin : Place
  /-- The nodes to run. -/
  body : Option Node
  /-- Call depth at which further calls are refused. -/
  maxDepth : Option UInt64
  /-- Time limit in milliseconds. -/
  maxTimeMs : Option UInt64
  /-- Actors a shared function may be called by, besides its owner. -/
  sharedWith : List Actor

namespace FunctionDefinition

/-- A definition without parameters, limits and origin. -/
def plain (name : String) (owner : Actor) (scope : FunctionScope) (body : Option Node) :
    FunctionDefinition :=
  ⟨name, [], .any, owner, scope, default, body, none, none, []⟩

/-- The definition a compiled function program stands for. The nodes of the body
get identities of their own. -/
def ofProgram (program : Program) (owner : Actor) (scope : FunctionScope) (ids : IdSource) :
    Except ValidationError (FunctionDefinition × IdSource) := do
  let name ←
    match program.kind with
    | .function name => .ok name
    | .event _ => .error .notAFunction
  let (body, ids) := Node.renewNext program.root.next ids
  let params ←
    match program.root.param? "params" with
    | some (.list items) => items.mapM fun item => Parameter.parse item.toText
    | _ => .ok []
  let returns := (program.root.param? "returns").bind fun value => ValueKind.parse? value.toText
  .ok ({ plain name owner scope body with
    origin := program.origin, params, returns := returns.getD .any }, ids)

/-- What is wrong with one parameter, given the names declared before it. -/
def parameterError? (earlier : List String) (param : Parameter) : Option ValidationError :=
  if !Text.isIdentifier param.name then some (.invalidParameterName param.name)
  else if earlier.contains param.name then some (.duplicateParameter param.name)
  else
    match param.required, param.fallback with
    | true, some _ => some (.requiredWithDefault param.name)
    | false, none => some (.missingDefault param.name)
    | false, some value =>
      if param.kind.accepts value.kind then none
      else some (.defaultKind param.name param.kind value.kind)
    | true, none => none

/-- The first thing that is wrong with a list of parameters. -/
def parametersError? (earlier : List String) : List Parameter → Option ValidationError
  | [] => none
  | param :: rest =>
    match parameterError? earlier param with
    | some error => some error
    | none => parametersError? (earlier ++ [param.name]) rest

/-- Whether a definition keeps the rules every registered function keeps. -/
def validate (definition : FunctionDefinition) : Except ValidationError Unit :=
  if !Text.isIdentifier definition.name then .error (.invalidName definition.name)
  else
    match parametersError? [] definition.params with
    | some error => .error error
    | none => .ok ()

/-- The value of one parameter: the given argument converted to the declared
kind, or the default. -/
def argumentFor (definition : FunctionDefinition) (param : Parameter) (given : Option Value) :
    Except ValidationError Value :=
  match given with
  | some value =>
    (value.coerce param.kind).mapError fun error =>
      .argumentKind definition.name param.name param.kind error.got
  | none =>
    match param.fallback with
    | some value =>
      if param.required then .error (.missingArgument definition.name param.name) else .ok value
    | none => .error (.missingArgument definition.name param.name)

/-- The variables a call starts with, built up from `locals`: each parameter
takes the next positional argument, or else the named one. -/
def bindParams (definition : FunctionDefinition) (named : ArrivalMap String Value)
    (locals : SortedMap String Value) :
    List Parameter → List Value → Except ValidationError (SortedMap String Value)
  | [], _ => .ok locals
  | param :: rest, positional => do
    let given := positional.head?.or (named.get? param.name)
    let value ← definition.argumentFor param given
    definition.bindParams named (locals.insert param.name value) rest positional.tail

/-- The variables a call with these arguments starts with. -/
def bindArgs (definition : FunctionDefinition) (named : ArrivalMap String Value)
    (positional : List Value) : Except ValidationError (SortedMap String Value) :=
  if definition.params.length < positional.length then
    .error (.tooManyArguments definition.name definition.params.length positional.length)
  else
    match named.keys.find? fun name => !definition.params.any (·.name == name) with
    | some name => .error (.unexpectedArgument definition.name name)
    | none => definition.bindParams named .empty definition.params positional

/-- Whether an actor may call a shared function. -/
def isSharedWith (definition : FunctionDefinition) (actor : Actor) : Bool :=
  definition.owner == actor || definition.sharedWith.contains actor

/-- A stored definition. -/
def toJson (definition : FunctionDefinition) : Json :=
  .object <| [("name", .text definition.name),
      ("params", .array (definition.params.map Parameter.toJson)),
      ("returns", definition.returns.toJson), ("owner", .text definition.owner.name),
      ("scope", definition.scope.toJson), ("origin", definition.origin.toJson),
      ("body", match definition.body with
        | some node => node.toJson
        | none => .null)] ++
    (match definition.maxDepth with
      | some depth => [("max_depth", .integer depth.toNat)]
      | none => []) ++
    (match definition.maxTimeMs with
      | some time => [("max_time_ms", .integer time.toNat)]
      | none => []) ++
    (if definition.sharedWith.isEmpty then []
      else [("shared_with", .array (definition.sharedWith.map fun actor => .text actor.name))])

/-- An actor from a stored one. -/
def actorOfJson? (json : Json) : Option Actor :=
  json.asText?.map (⟨·⟩)

/-- A definition from a stored one. -/
def ofJson? (json : Json) : Option FunctionDefinition := do
  match ← json.fields? ["name", "params", "returns", "owner", "scope", "origin", "body",
    "max_depth", "max_time_ms", "shared_with"] with
  | [name, params, returns, owner, scope, origin, body, depth, time, sharedWith] =>
    some
      { name := ← Json.required? Json.asText? name
        params := ← Json.defaulted? [] (Json.asList? Parameter.ofJson?) params
        returns := ← Json.defaulted? .any ValueKind.ofJson? returns
        owner := ← Json.required? actorOfJson? owner
        scope := ← Json.required? FunctionScope.ofJson? scope
        origin := ← Json.defaulted? default Place.ofJson? origin
        body := ← Json.optional? Node.ofJson? body
        maxDepth := ← Json.optional? Json.asWord? depth
        maxTimeMs := ← Json.optional? Json.asWord? time
        sharedWith := ← Json.defaulted? [] (Json.asList? actorOfJson?) sharedWith }
  | _ => none

end FunctionDefinition

end GridScript
