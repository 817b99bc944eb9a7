import SlotBroker.Program

/-!
# Billing

A finished session is written into the ledger at the price that its service has at that moment.
Bills, revenue and the summary are read off the ledger.
-/

namespace SlotBroker.Billing

/-- Writes the record of a session into the ledger. -/
def recordSession (session : Session) : Program (Except Failure UsageRecord) := do
  let some service ← Program.query (·.service? session.service)
    | return .error (.serviceNotFound session.service)
  let now ← Program.now
  let id ← Program.freshId Ident.longDigits
  let record := UsageRecord.ofSession id session service now
  Program.update (·.appendUsage record)
  Program.observe service.id record.duration
  return .ok record

/-- A user's bill. It covers the thirty days up to now where no period is given; both ends belong to
the period. -/
def userBill (user : UserId) (start? finish? : Option Millis) : Program Bill := do
  let now ← Program.now
  let finish := finish?.getD now
  let start := start?.getD (minus now defaultPeriod)
  let records ← Program.query (·.usageOfUser user start finish)
  return { user := user, start := start, finish := finish, records := records }

/-- What has been billed for a service, since the beginning where no time is given. -/
def serviceRevenue (service : ServiceId) (since? : Option Millis) :
    Program (Except Failure Revenue) := do
  let some definition ← Program.query (·.service? service)
    | return .error (.serviceNotFound service)
  let records ← Program.query (·.usageOfService service (since?.getD 0))
  return .ok { service := definition.id, monthlyCost := definition.monthlyCost, records := records }

/-- What has been billed for all services, since the beginning where no time is given. -/
def summary (since? : Option Millis) : Program Summary := do
  let services ← Program.query (·.services.entries)
  let records ← Program.query (·.usageSince (since?.getD 0))
  return { services := services, records := records }

end SlotBroker.Billing
