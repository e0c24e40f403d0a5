import GridScript.Function.Validation
import GridScript.Value.Convert
import GridScript.Value.Stored

/-!
# Parameters

The declared parameters of functions. A declaration is written as
`name:kind?=default`; the kind is `any` when it is left out, and a question mark
or a default makes the parameter optional.
-/

namespace GridScript

/-- A declared parameter. -/
structure Parameter where
  /-- Name of the parameter. -/
  name : String
  /-- Kind its argument must have. -/
  kind : ValueKind
  /-- Whether a call must give it. -/
  required : Bool
  /-- Value used when a call does not give it. -/
  fallback : Option Value
  deriving DecidableEq

namespace Parameter

/-- A text split at the first occurrence of a character. -/
def splitAtFirst? (c : Char) (cs : List Char) : Option (List Char × List Char) :=
  match cs.dropWhile (· != c) with
  | [] => none
  | _ :: after => some (cs.takeWhile (· != c), after)

/-- A text without a final question mark, if it has one. -/
def dropMark? (cs : List Char) : Option (List Char) :=
  match cs.reverse with
  | '?' :: rest => some rest.reverse
  | _ => none

/-- A declaration read from text. -/
def parse (text : String) : Except ValidationError Parameter := do
  let (front, fallback) :=
    match splitAtFirst? '=' text.toList with
    | some (front, fallback) => (Text.trimBoth front, some (Text.trimBoth fallback))
    | none => (Text.trimBoth text.toList, none)
  let (front, optional) :=
    match dropMark? front with
    | some front => (Text.trimBack front, true)
    | none => (front, fallback.isSome)
  let (name, kind) ←
    match splitAtFirst? ':' front with
    | some (name, kind) =>
      match ValueKind.parse? (String.ofList kind) with
      | some kind => .ok (String.ofList (Text.trimBoth name), kind)
      | none => .error (.badParameterSpec text)
    | none => .ok (String.ofList front, .any)
  if name.isEmpty then .error (.badParameterSpec text)
  let fallback ←
    match fallback with
    | none => .ok none
    | some content =>
      match (Value.text (String.ofList content)).coerce kind with
      | .ok value => .ok (some value)
      | .error error => .error (.defaultKind name kind error.got)
  .ok ⟨name, kind, !optional, fallback⟩

/-- A stored parameter. -/
def toJson (parameter : Parameter) : Json :=
  .object <| [("name", .text parameter.name), ("kind", parameter.kind.toJson),
      ("required", .bool parameter.required)] ++
    match parameter.fallback with
    | some value => [("default", value.toJson)]
    | none => []

/-- A parameter from a stored one. -/
def ofJson? (json : Json) : Option Parameter := do
  match ← json.fields? ["name", "kind", "required", "default"] with
  | [name, kind, required, fallback] =>
    some ⟨← Json.required? Json.asText? name, ← Json.required? ValueKind.ofJson? kind,
      ← Json.required? Json.asBool? required, ← Json.optional? Value.ofJson? fallback⟩
  | _ => none

end Parameter

end GridScript
