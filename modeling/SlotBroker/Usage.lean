import SlotBroker.Session

/-!
# The usage ledger and what is read off it

Each finished session leaves one record in the ledger, priced when it is written. Bills, revenue and
the summary are sums over the records of a user, of a service, or of everything since a time. The
sums run from the left, in ledger order.
-/

namespace SlotBroker

/-- What a finished session cost. -/
structure UsageRecord where
  id : String
  user : UserId
  service : ServiceId
  session : SessionId
  /-- How long the session ran, in seconds. -/
  duration : Float
  /-- What that costs, in cents. -/
  cost : Float
  recordedAt : Millis

namespace UsageRecord

/-- The record of a session as it stands at `now`, at the price of `service`. -/
def ofSession (id : String) (s : Session) (service : Service) (now : Millis) : UsageRecord where
  id := id
  user := s.user
  service := s.service
  session := s.id
  duration := s.duration now
  cost := s.duration now * service.costPerSecond
  recordedAt := now

/-- The record is a user's and lies in a window; both ends belong to the window. -/
def ofUserIn (user : UserId) (since til : Millis) (r : UsageRecord) : Bool :=
  r.user = user && since ≤ r.recordedAt && r.recordedAt ≤ til

/-- The record is a service's and is not older than `since`. -/
def ofServiceSince (service : ServiceId) (since : Millis) (r : UsageRecord) : Bool :=
  r.service = service && since ≤ r.recordedAt

end UsageRecord

/-- The summed seconds of some records. -/
def totalDuration (rs : List UsageRecord) : Float := total (rs.map (·.duration))

/-- The summed cost of some records, in cents. -/
def totalCost (rs : List UsageRecord) : Float := total (rs.map (·.cost))

/-- The share of a cost that has been billed, in percent; nothing of no cost. -/
def recoveryPercent (billed : Float) (cost : Cents) : Float :=
  if cost = 0 then 0.0 else billed / cost.toFloat * 100.0

/-- The span that a bill covers if no start is asked for: thirty days. -/
def defaultPeriod : Millis := 30 * 86400 * 1000

/-- What a user owes for a period. -/
structure Bill where
  user : UserId
  start : Millis
  finish : Millis
  records : List UsageRecord

namespace Bill

/-- The billed seconds. -/
def duration (b : Bill) : Float := totalDuration b.records

/-- The amount in cents. -/
def cost (b : Bill) : Float := totalCost b.records

/-- The amount in dollars. -/
def costInDollars (b : Bill) : Float := b.cost / 100.0

end Bill

/-- What has been billed for a service against its monthly cost. -/
structure Revenue where
  service : ServiceId
  monthlyCost : Cents
  records : List UsageRecord

namespace Revenue

/-- The billed cents. -/
def billed (r : Revenue) : Float := totalCost r.records

/-- The billed seconds. -/
def duration (r : Revenue) : Float := totalDuration r.records

/-- The share of the monthly cost that has been billed, in percent. -/
def recovery (r : Revenue) : Float := recoveryPercent r.billed r.monthlyCost

end Revenue

/-- What has been billed for all services against what they cost. -/
structure Summary where
  services : List Service
  records : List UsageRecord

namespace Summary

/-- What all services cost a month. -/
def monthlyCost (s : Summary) : Cents := (s.services.map (·.monthlyCost)).foldl (· + ·) 0

/-- The billed cents. -/
def billed (s : Summary) : Float := totalCost s.records

/-- The billed seconds. -/
def duration (s : Summary) : Float := totalDuration s.records

/-- The cost that has not been billed. -/
def loss (s : Summary) : Float := s.monthlyCost.toFloat - s.billed

/-- The share of the cost that has been billed, in percent. -/
def recovery (s : Summary) : Float := recoveryPercent s.billed s.monthlyCost

end Summary

end SlotBroker
