import GridScript.Store.ArrivalMap
import GridScript.Text.Quoted
import GridScript.Value.Basic
import GridScript.Value.Fault

/-!
# Hosts

A host is the world programs are embedded in: it knows the time and who is
connected, and it performs the actions that programs do not perform themselves.
Its state is handed to every request and taken back changed.
-/

namespace GridScript

/-- What a node asks of the host. -/
structure ActionRequest where
  /-- Actor the program runs for. -/
  actor : Actor
  /-- Where the program runs. -/
  origin : Place
  /-- The action. -/
  action : String
  /-- The evaluated parameters in their order. -/
  args : ArrivalMap String Value

/-- A line that describes a request. -/
def ActionRequest.text (request : ActionRequest) : String :=
  let args := request.args.entries.map fun (name, value) => name ++ "=" ++ value.toText
  request.actor.name ++ " " ++ request.action ++ " " ++ Text.quotedList args

/-- The world programs are embedded in, with states of type `σ`. -/
class Host (σ : Type) where
  /-- The time in milliseconds. -/
  now : σ → UInt64
  /-- Whether an actor is connected. -/
  isConnected : σ → Actor → Bool
  /-- Whether a world exists. -/
  worldExists : σ → String → Bool
  /-- Performs an action, which may give a value. -/
  perform : ActionRequest → σ → Except Fault (Option Value) × σ
  /-- Decides a condition. -/
  check : ActionRequest → σ → Except Fault Bool × σ
  /-- Shows a text to an actor. -/
  print : Actor → String → σ → σ

end GridScript
