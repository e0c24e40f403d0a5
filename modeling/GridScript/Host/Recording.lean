import GridScript.Host.Basic
import GridScript.Settings
import GridScript.Value.Convert

/-!
# The recording host

A host that writes down every request and answers a few actions and conditions
of its own. Actors can be taken offline and worlds can be lost.
-/

namespace GridScript

/-- A request that reached the host. -/
inductive HostEvent where
  /-- An action was to be performed. -/
  | perform (request : ActionRequest)
  /-- A request was described. -/
  | describe (text : String)
  /-- A condition was to be decided. -/
  | check (request : ActionRequest)
  /-- A text was shown. -/
  | print (actor : Actor) (text : String)

/-- A host that writes down every request. -/
structure RecordingHost where
  /-- The clock. -/
  clock : Clock
  /-- Actors that are not connected. -/
  offline : List Actor
  /-- Worlds that do not exist. -/
  missingWorlds : List String
  /-- The requests so far, in order. -/
  events : Array HostEvent

namespace RecordingHost

/-- A host that nothing was asked of yet. -/
def atTime (now : UInt64) : RecordingHost :=
  ⟨⟨now⟩, [], [], #[]⟩

/-- The host with one more event. -/
def record (host : RecordingHost) (event : HostEvent) : RecordingHost :=
  { host with events := host.events.push event }

/-- Whether an actor is connected. -/
def isOnline (host : RecordingHost) (actor : Actor) : Bool :=
  !host.offline.contains actor

/-- Whether a world exists. -/
def hasWorld (host : RecordingHost) (world : String) : Bool :=
  !host.missingWorlds.contains world

/-- The host with an actor taken offline. -/
def disconnect (host : RecordingHost) (actor : Actor) : RecordingHost :=
  if host.offline.contains actor then host else { host with offline := host.offline ++ [actor] }

/-- The count an argument stands for, or zero. -/
def countOf (value : Option Value) : UInt64 :=
  match value.map Value.asNumber with
  | some (.ok number) => UInt64.ofNat (number.toCount?.getD 0)
  | _ => 0

/-- What the host does for an action: `sleep` moves the clock, `kick` takes an
actor offline, `echo`, `roll` and `describe` answer, `explode` and `unsupported`
fail, and nothing else has an effect. -/
def perform (request : ActionRequest) (host : RecordingHost) :
    Except Fault (Option Value) × RecordingHost :=
  let host := host.record (.perform request)
  match request.action with
  | "explode" => (.error (.host "boom"), host)
  | "unsupported" => (.error (.unsupported request.action), host)
  | "roll" => (.ok (some (.number (Number.ofInt 4))), host)
  | "echo" => (.ok (request.args.get? "value"), host)
  | "describe" => (.ok none, host.record (.describe request.text))
  | "sleep" =>
    (.ok none, { host with clock := host.clock.advance (countOf (request.args.get? "ms")) })
  | "kick" =>
    match request.args.get? "actor" with
    | none => (.ok none, host)
    | some value =>
      match value.asActor with
      | .ok actor => (.ok none, host.disconnect actor)
      | .error error => (.error (.conversion error), host)
  | _ => (.ok none, host)

/-- What the host decides: `has_item` that an item is there, and `valid` that a
value still refers to something. -/
def decide (request : ActionRequest) (host : RecordingHost) : Except Fault Bool :=
  match request.action with
  | "has_item" =>
    match request.args.get? "item" with
    | some value => .ok !value.isEmpty
    | none => .ok false
  | "valid" =>
    match request.args.get? "value" with
    | some value => .ok (value.isValid host.isOnline host.hasWorld)
    | none => .ok false
  | action => .error (.unsupported action)

instance : Host RecordingHost where
  now host := host.clock.now
  isConnected := isOnline
  worldExists := hasWorld
  perform := perform
  check request host := (decide request host, host.record (.check request))
  print actor text host := host.record (.print actor text)

end RecordingHost

end GridScript
