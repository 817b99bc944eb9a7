import SlotBroker.Broker
import SlotBroker.Json.Value

/-!
# How things are shown

The JSON form of everything that answers hold. A credential is shown without its secret, a session
without its number.
-/

namespace SlotBroker.View

open Json

def service (s : Service) : Json :=
  record
    [("id", text s.id), ("name", text s.name), ("monthly_cost_cents", word s.monthlyCost),
     ("max_concurrent_streams", slots s.streamCap),
     ("max_session_duration_secs", word s.sessionLimit)]

def credential (c : Credential) : Json :=
  record
    [("id", text c.id), ("service_id", text c.service), ("identity", text c.identity),
     ("tier", text c.tier.label), ("max_streams", slots c.maxStreams),
     ("state", text c.state.label), ("active_sessions", slots c.active),
     ("last_checkout_ms", optional word c.lastCheckout)]

def user (u : User) : Json :=
  record [("id", text u.id), ("username", text u.username), ("created_at_ms", word u.createdAt)]

def session (s : Session) : Json :=
  record
    [("id", text s.id), ("user_id", text s.user), ("service_id", text s.service),
     ("credential_id", optional text s.credential), ("state", text s.state.label),
     ("queued_at_ms", word s.queuedAt), ("started_at_ms", optional word s.startedAt),
     ("ended_at_ms", optional word s.endedAt)]

/-- A session with its place in the queue. -/
def placedSession (s : Session) (position : Option Nat) : Json :=
  (session s).extend [("queue_position", optional whole position)]

def usageRecord (r : UsageRecord) : Json :=
  record
    [("id", text r.id), ("user_id", text r.user), ("service_id", text r.service),
     ("session_id", text r.session), ("duration_seconds", real r.duration),
     ("cost_cents", real r.cost), ("recorded_at_ms", word r.recordedAt)]

def status (s : Broker.Status) : Json :=
  record
    [("service_id", text s.service), ("name", text s.name),
     ("monthly_cost_cents", word s.monthlyCost), ("total_slots", slots s.totalSlots),
     ("used_slots", slots s.usedSlots), ("available_slots", slots s.availableSlots),
     ("queue_depth", whole s.queueDepth), ("credential_count", whole s.credentialCount)]

def revenue (r : Revenue) : Json :=
  record
    [("service_id", text r.service), ("monthly_cost_cents", word r.monthlyCost),
     ("total_billed_cents", real r.billed), ("total_usage_seconds", real r.duration),
     ("cost_recovery_pct", real r.recovery)]

def summary (s : Summary) : Json :=
  record
    [("total_monthly_cost_cents", word s.monthlyCost), ("total_billed_cents", real s.billed),
     ("operating_loss_cents", real s.loss), ("total_usage_seconds", real s.duration),
     ("service_count", whole s.services.length), ("cost_recovery_pct", real s.recovery)]

def bill (b : Bill) : Json :=
  record
    [("user_id", text b.user), ("period_start_ms", word b.start), ("period_end_ms", word b.finish),
     ("total_seconds", real b.duration), ("total_cost_cents", real b.cost),
     ("records", list (b.records.map usageRecord))]

def counts (c : Store.Counts) : List (String × Json) :=
  [("services", whole c.services), ("credentials", whole c.credentials),
   ("sessions", whole c.sessions), ("usage_records", whole c.usageRecords)]

/-- What went wrong: its kind and its text. -/
def fault (kind message : String) : Json :=
  record [("error", record [("type", text kind), ("message", text message)])]

end SlotBroker.View
