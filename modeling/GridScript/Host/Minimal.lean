import GridScript.Host.Basic
import GridScript.Settings

/-!
# The minimal host

A host that has nothing but a clock: everyone is connected, actions have no
effect, and conditions cannot be decided.
-/

namespace GridScript

/-- A host without anything but a clock. -/
structure MinimalHost where
  /-- The clock. -/
  clock : Clock
  deriving DecidableEq

instance : Host MinimalHost where
  now host := host.clock.now
  isConnected _ _ := true
  worldExists _ _ := true
  perform _ host := (.ok none, host)
  check request host := (.error (.unsupported request.action), host)
  print _ _ host := host

end GridScript
