import SlotBroker.Http.Route
import SlotBroker.Text.Blank

/-!
# The public interface

Sessions are asked for and ended here, and capacity, bills and metrics are looked at.

* `GET /health`: how much the store holds
* `GET /metrics`: the exposition of the metrics
* `GET /services`, `GET /services/{id}`: capacity
* `GET /services/{id}/revenue?since=`: what has been billed for a service
* `POST /sessions`: asks for a session; 201 if it runs, 202 if it waits
* `GET /sessions/{id}`, `DELETE /sessions/{id}`: a session, and its end
* `GET /users/{id}/sessions?all=`: a user's running sessions, or all of them
* `GET /users/{id}/bill?start=&end=`: a user's bill
* `GET /billing/summary?since=`: what has been billed for everything
-/

namespace SlotBroker.Http.Public

open SlotBroker.Json

/-- How much the store holds. How long the server has been up, which is told besides, is left out: it
is no property of the platform. -/
def health : Action := fun _ _ => do
  let counts ← Handling.query (·.counts)
  return .ofJson 200 (record (("status", text "healthy") :: View.counts counts))

/-- The exposition of the metrics as they stand before this request is counted. -/
def metrics : Action := fun _ _ => do
  let lines ← Program.exposition
  return { status := 200
           contentType := some "text/plain; version=0.0.4; charset=utf-8"
           body := .metrics lines }

/-- How the slots of some services stand. -/
def statuses : List Service → Handling (List Json)
  | [] => return []
  | s :: rest => do
    let status ← Handling.ofFailing (Broker.serviceStatus s.id)
    return View.status status :: (← statuses rest)

/-- How the slots of all services stand. -/
def listServices : Action := fun _ _ => do
  let services ← Handling.query (·.services.entries)
  return .ofJson 200 (record [("services", list (← statuses services))])

/-- How the slots of a service stand. -/
def getService : Action := fun hole _ => do
  let id ← pathId hole
  let status ← Handling.ofFailing (Broker.serviceStatus id)
  return .ofJson 200 (View.status status)

/-- What has been billed for a service. -/
def getRevenue : Action := fun hole request => do
  let id ← pathId hole
  let since ← queryMillis "since" request
  let revenue ← Handling.ofFailing (Billing.serviceRevenue id since)
  return .ofJson 200 (View.revenue revenue)

/-- The view of a session with its place in the queue. -/
def placed (session : Session) : Program Json := do
  return View.placedSession session (← Broker.queuePosition session.id)

/-- Asks for a session. The user must not be blank; only then it is asked for the service. -/
def createSession : Action := fun _ request => do
  match ← bodyFields ["user_id", "service_id"] request with
  | [.text user, .text service] =>
    if Text.trim user = "" then throw (.invalid "user_id must not be empty")
    let session ← Handling.ofFailing (Broker.requestSession user service)
    let status := if session.state = .active then 201 else 202
    return .ofJson status (← placed session)
  | _ => throw (.unreadableBody .mismatched)

/-- A session with its place in the queue. -/
def getSession : Action := fun hole _ => do
  let id ← pathId hole
  let session ← Handling.ofFailing (Broker.session id)
  return .ofJson 200 (← placed session)

/-- Ends a session. The answer holds a usage record only if the session ran until now. -/
def endSession : Action := fun hole _ => do
  let id ← pathId hole
  let _ ← Handling.ofFailing (Broker.session id)
  let usage ← Broker.endSession id
  let session ← Handling.ofFailing (Broker.session id)
  return .ofJson 200
    (record [("session", View.session session), ("usage", optional View.usageRecord usage)])

/-- A user's sessions, the finished ones only if they are asked for. -/
def userSessions : Action := fun hole request => do
  let id ← pathId hole
  let all ← queryFlag "all" request
  let sessions ← Handling.query fun s => if all then s.sessionsOf id else s.activeSessionsOf id
  return .ofJson 200
    (record [("user_id", text id), ("sessions", list (sessions.map View.session))])

/-- A user's bill. -/
def userBill : Action := fun hole request => do
  let id ← pathId hole
  let start ← queryMillis "start" request
  let finish ← queryMillis "end" request
  let bill ← Billing.userBill id start finish
  return .ofJson 200 (View.bill bill)

/-- What has been billed for everything. -/
def getSummary : Action := fun _ request => do
  let since ← queryMillis "since" request
  let summary ← Billing.summary since
  return .ofJson 200 (View.summary summary)

/-- The public routes. -/
def routes : List Route :=
  [{ template := [.word "health"], actions := [(.get, health)] },
   { template := [.word "metrics"], actions := [(.get, metrics)] },
   { template := [.word "services"], actions := [(.get, listServices)] },
   { template := [.word "services", .hole], actions := [(.get, getService)] },
   { template := [.word "services", .hole, .word "revenue"], actions := [(.get, getRevenue)] },
   { template := [.word "sessions"], actions := [(.post, createSession)] },
   { template := [.word "sessions", .hole],
     actions := [(.get, getSession), (.delete, endSession)] },
   { template := [.word "users", .hole, .word "sessions"], actions := [(.get, userSessions)] },
   { template := [.word "users", .hole, .word "bill"], actions := [(.get, userBill)] },
   { template := [.word "billing", .word "summary"], actions := [(.get, getSummary)] }]

/-- The answer of the public interface. -/
def handle (request : Request) : Program Response := serve routes request

end SlotBroker.Http.Public
