import SlotBroker.Billing
import SlotBroker.Vault

/-!
# The broker: who gets a slot, and when

A request gets a slot at once if some credential of the service has one, and waits in the queue if
not. A slot that is given back, by its user or by the sweep, goes to the head of the queue. Every
change of a session asks for the state that it starts from and is one atomic step, so of two who try
to end a session only one does, and a session that was cancelled a moment ago is not admitted.
-/

namespace SlotBroker.Broker

/-! ## The queue -/

/-- One round of draining a queue, with the number of sessions admitted so far: a slot is taken for
the head of the queue, and given back if the head no longer waits. It is the last round if nobody
waits or no slot can be had. -/
def drainRound (service : ServiceId) (admitted : Nat) : Program (Bool × Nat) := do
  let some head ← Program.query fun s => (s.queue service).head?
    | return (false, admitted)
  let candidates ← Program.query (·.available service)
  let some credential ← Vault.checkoutFirst candidates
    | return (false, admitted)
  let now ← Program.now
  let moved ← Program.onStore (·.applyEvent head.id (.start credential.id now))
  if moved.isSome then
    return (true, admitted + 1)
  else
    Vault.checkin credential.id
    return (true, admitted)

/-- The rounds that draining a queue can take undisturbed: one for each session that waits, and one
to see that it is done. -/
def drainLimit (service : ServiceId) (p : Platform) : Nat := p.store.queueDepth service + 1

/-- Gives free slots to the sessions in the queue of a service, the oldest first, and tells how many
were admitted. -/
def drainQueue (service : ServiceId) : Program Nat := do
  let admitted ← Program.repeatWhile (drainRound service) (drainLimit service) 0
  if 0 < admitted then
    Program.count (.admitted service) admitted
  return admitted

/-! ## Requests -/

/-- A new session, admitted if a slot can be had at once. Both times of an admitted session are
`now`. -/
def admitNew (session : Session) (now : Millis) : Program Session := do
  let some candidate ← Program.query (·.firstAvailable session.service)
    | return session
  match ← Vault.checkout candidate.id with
  | none => return session
  | some credential => return (session.apply (.start credential.id now)).getD session

/-- Asks for a slot of a service. The session comes back running or waiting. Since a slot may have
become free between the look for one and the session's place in the queue, the queue is drained once
the session is in it. -/
def requestSession (user : UserId) (service : ServiceId) : Program (Except Failure Session) := do
  let some _ ← Program.query (·.service? service)
    | return .error (.serviceNotFound service)
  let now ← Program.now
  let id ← Program.freshId Ident.longDigits
  let session ← admitNew { id := id, user := user, service := service, queuedAt := now } now
  let stored ← Program.onStore (·.addSession session)
  let settled ←
    if stored.state = .queued then do
      let _ ← drainQueue service
      Program.query fun s => (s.session? stored.id).getD stored
    else
      pure stored
  Program.count (.requested service settled.state.label) 1
  return .ok settled

/-! ## Ends -/

/-- Gives the session's slot back and bills it. There is no record if its service is gone. -/
def releaseAndBill (session : Session) : Program (Option UsageRecord) := do
  if let some credential := session.credential then
    Vault.checkin credential
  match ← Billing.recordSession session with
  | .ok record => return some record
  | .error _ => return none

/-- Ends a session. One that ran is billed, and its slot goes to the queue; one that waited is
cancelled; any other stays as it is. -/
def endSession (id : SessionId) : Program (Option UsageRecord) := do
  let now ← Program.now
  match ← Program.onStore (·.applyEvent id (.finish now)) with
  | some (.active, session) =>
    let record ← releaseAndBill session
    let _ ← drainQueue session.service
    return record
  | _ => return none

/-! ## The sweep -/

/-- Expires the overdue ones of some sessions, as far as they still run, and gives their ids. -/
def expireSessions (limit now : Millis) : List Session → Program (List SessionId)
  | [] => return []
  | x :: rest => do
    if x.overdue limit now then
      match ← Program.onStore (·.applyEvent x.id (.expire now)) with
      | some (_, session) =>
        let _ ← releaseAndBill session
        return session.id :: (← expireSessions limit now rest)
      | none => expireSessions limit now rest
    else
      expireSessions limit now rest

/-- Expires the overdue sessions that hold slots of some credentials, one credential after the
other. -/
def expireHolding (limit now : Millis) : List Credential → Program (List SessionId)
  | [] => return []
  | c :: rest => do
    let held ← Program.query (·.sessionsHolding c.id)
    let here ← expireSessions limit now held
    return here ++ (← expireHolding limit now rest)

/-- Expires the overdue sessions of a service, as of one reading of the clock. -/
def expireOverdue (service : Service) : Program (List SessionId) := do
  let now ← Program.now
  let credentials ← Program.query (·.credentialsOf service.id)
  expireHolding service.limitMillis now credentials

/-- Expires the overdue sessions of some services. The queue of a service is drained once all its
overdue sessions are out. -/
def sweepServices : List Service → Program (List SessionId)
  | [] => return []
  | service :: rest => do
    let expired ← expireOverdue service
    if expired.isEmpty then
      sweepServices rest
    else
      Program.count (.expired service.id) expired.length
      let _ ← drainQueue service.id
      return expired ++ (← sweepServices rest)

/-- Expires every session that has run past the limit of its service, and gives their ids. -/
def enforceLimits : Program (List SessionId) := do
  sweepServices (← Program.query (·.services.entries))

/-- One sweep: the expired sessions are counted. -/
def sweepCycle : Program (List SessionId) := do
  let expired ← enforceLimits
  Program.count .swept expired.length
  return expired

/-! ## Views -/

/-- The place of a session in the queue of its service, from zero; none if it does not wait. -/
def queuePosition (id : SessionId) : Program (Option Nat) := do
  let some session ← Program.query (·.session? id)
    | return none
  if session.state = .queued then
    let queue ← Program.query (·.queue session.service)
    return queue.findIdx? fun x => x.id = id
  else
    return none

/-- How the slots of a service stand. -/
structure Status where
  service : ServiceId
  name : String
  monthlyCost : Cents
  /-- The slots of the credentials that are not disabled. -/
  totalSlots : UInt32
  /-- The slots that are held, also of disabled credentials. -/
  usedSlots : UInt32
  queueDepth : Nat
  credentialCount : Nat
  deriving Repr, DecidableEq

/-- The slots left, none where more are held than there are. -/
def Status.availableSlots (s : Status) : UInt32 := fewer s.totalSlots s.usedSlots

/-- How the slots of a service stand now. -/
def serviceStatus (service : ServiceId) : Program (Except Failure Status) := do
  let some definition ← Program.query (·.service? service)
    | return .error (.serviceNotFound service)
  let credentials ← Program.query (·.credentialsOf service)
  let depth ← Program.query (·.queueDepth service)
  return .ok
    { service := definition.id
      name := definition.name
      monthlyCost := definition.monthlyCost
      totalSlots :=
        ((credentials.filter fun c => c.state != .disabled).map (·.maxStreams)).foldl (· + ·) 0
      usedSlots := (credentials.map (·.active)).foldl (· + ·) 0
      queueDepth := depth
      credentialCount := credentials.length }

/-- A stored session. -/
def session (id : SessionId) : Program (Except Failure Session) := do
  match ← Program.query (·.session? id) with
  | some x => return .ok x
  | none => return .error (.sessionNotFound id)

end SlotBroker.Broker
