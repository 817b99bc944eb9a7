import SlotBroker.Quantity
import SlotBroker.Table

/-!
# Services

A service is what a pool of accounts gives access to. Its monthly cost is spread evenly over the
seconds of a month of thirty days; its stream cap bounds the slots of every credential issued for
it; its session limit is the longest time a session may hold a slot.
-/

namespace SlotBroker

/-- The name of a service in the catalog. -/
abbrev ServiceId := String

/-- The session limit of a service that states none, in seconds. -/
def defaultSessionLimit : UInt64 := 7200

/-- The seconds of the month that a monthly cost is spread over. -/
def secondsPerMonth : Float := 30.0 * 86400.0

/-- A service of the catalog. -/
structure Service where
  id : ServiceId
  /-- The name shown to people. -/
  name : String
  /-- What the accounts of the service cost a month. -/
  monthlyCost : Cents
  /-- The most streams a single account of the service may have open. -/
  streamCap : UInt32
  /-- The longest a session may run, in seconds. -/
  sessionLimit : UInt64 := defaultSessionLimit
  deriving Repr, DecidableEq

namespace Service

instance : Keyed Service := ⟨Service.id⟩

/-- The price of one second, in cents. -/
def costPerSecond (s : Service) : Float := s.monthlyCost.toFloat / secondsPerMonth

/-- The session limit in milliseconds, or the largest word where that does not fit. -/
def limitMillis (s : Service) : Millis := times s.sessionLimit 1000

end Service

end SlotBroker
