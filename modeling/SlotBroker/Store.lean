import SlotBroker.Failure
import SlotBroker.Usage

/-!
# The store

Everything the broker knows: services, credentials, users, sessions and the ledger. Each operation
here is one atomic step on the whole of it. Services, credentials and users keep the order of their
first insertion. Sessions get a number when they are stored; lists of sessions are sorted by the
time of asking and then by that number.

Results:
* `mem_sessionsMatching`: a list of sessions holds exactly the stored ones that match.
* `queueDepth_eq_length`: the depth of a queue is the length of its list.
* `checkout_eq_some_iff`: a checkout succeeds exactly if the credential exists and has capacity.
-/

namespace SlotBroker

/-- A person who asks for sessions. -/
structure User where
  id : UserId
  username : String
  createdAt : Millis
  deriving Repr, DecidableEq

instance : Keyed User := ⟨User.id⟩

/-- The contents of the store. -/
structure Store where
  services : Table Service := .empty
  credentials : Table Credential := .empty
  users : Table User := .empty
  sessions : Table Session := .empty
  /-- The number that the last stored session got. -/
  sequence : UInt64 := 0
  /-- All usage records, oldest first. -/
  ledger : List UsageRecord := []

instance : Inhabited Store := ⟨{}⟩

namespace Store

/-! ## Services -/

/-- Stores a service; one with the same id gives way in its place. -/
def addService (s : Store) (service : Service) : Store :=
  { s with services := s.services.insert service }

def service? (s : Store) (id : ServiceId) : Option Service := s.services.find? id

/-! ## Credentials -/

/-- Stores a credential; one with the same id gives way in its place. -/
def addCredential (s : Store) (c : Credential) : Store :=
  { s with credentials := s.credentials.insert c }

def credential? (s : Store) (id : CredentialId) : Option Credential := s.credentials.find? id

/-- The credentials of a service in order of issue. -/
def credentialsOf (s : Store) (service : ServiceId) : List Credential :=
  s.credentials.entries.filter fun c => c.service = service

/-- The credentials of a service that have capacity, in order of issue. -/
def available (s : Store) (service : ServiceId) : List Credential :=
  s.credentials.entries.filter fun c => c.service = service && c.hasCapacity

/-- The first credential of a service that has capacity. -/
def firstAvailable (s : Store) (service : ServiceId) : Option Credential :=
  s.credentials.entries.find? fun c => c.service = service && c.hasCapacity

/-- Takes a slot of a credential if it has one to spare, and gives the credential as it then is. -/
def checkout (s : Store) (id : CredentialId) (now : Millis) : Option Credential × Store :=
  match s.credential? id with
  | none => (none, s)
  | some c =>
    if c.hasCapacity then (some (c.occupy now), s.addCredential (c.occupy now)) else (none, s)

/-- Gives a slot of a credential back. An unknown credential is left unknown. -/
def checkin (s : Store) (id : CredentialId) : Store :=
  match s.credential? id with
  | none => s
  | some c => s.addCredential c.release

/-- Disables a credential and tells whether it exists. -/
def disable (s : Store) (id : CredentialId) : Bool × Store :=
  match s.credential? id with
  | none => (false, s)
  | some c => (true, s.addCredential c.disable)

/-- Puts a credential under another sealed secret and tells whether it exists. -/
def rotate (s : Store) (id : CredentialId) (sealedSecret : String) : Bool × Store :=
  match s.credential? id with
  | none => (false, s)
  | some c => (true, s.addCredential (c.rotate sealedSecret))

/-! ## Users -/

/-- Stores a user; one with the same id gives way in its place. -/
def addUser (s : Store) (u : User) : Store := { s with users := s.users.insert u }

def user? (s : Store) (id : UserId) : Option User := s.users.find? id

def userNamed? (s : Store) (username : String) : Option User :=
  s.users.entries.find? fun u => u.username = username

/-! ## Sessions -/

/-- Stores a session under the next number and gives it with that number. -/
def addSession (s : Store) (x : Session) : Session × Store :=
  let stored := { x with sequence := s.sequence + 1 }
  (stored, { s with sessions := s.sessions.insert stored, sequence := s.sequence + 1 })

def session? (s : Store) (id : SessionId) : Option Session := s.sessions.find? id

/-- Lets an event happen to a stored session. Gives the state before and the session after it, none
where the session is unknown or ignores the event. -/
def applyEvent (s : Store) (id : SessionId) (e : Session.Event) :
    Option (Session.State × Session) × Store :=
  match s.session? id with
  | none => (none, s)
  | some x =>
    match x.apply e with
    | none => (none, s)
    | some y => (some (x.state, y), { s with sessions := s.sessions.insert y })

/-- The stored sessions that match, sorted by the time of asking and then by number. -/
def sessionsMatching (s : Store) (p : Session → Bool) : List Session :=
  (s.sessions.entries.filter p).mergeSort Session.before

/-- The sessions that hold a slot of a credential. -/
def sessionsHolding (s : Store) (credential : CredentialId) : List Session :=
  s.sessionsMatching fun x => x.holds credential

/-- A user's running sessions. -/
def activeSessionsOf (s : Store) (user : UserId) : List Session :=
  s.sessionsMatching fun x => x.state = .active && x.user = user

/-- A user's sessions, whatever became of them. -/
def sessionsOf (s : Store) (user : UserId) : List Session :=
  s.sessionsMatching fun x => x.user = user

/-- The queue of a service, the head first. -/
def queue (s : Store) (service : ServiceId) : List Session :=
  s.sessionsMatching fun x => x.waitsFor service

/-- The number of sessions in the queue of a service. -/
def queueDepth (s : Store) (service : ServiceId) : Nat :=
  s.sessions.entries.countP fun x => x.waitsFor service

/-! ## The ledger -/

/-- Writes a record at the end of the ledger. -/
def appendUsage (s : Store) (r : UsageRecord) : Store := { s with ledger := s.ledger ++ [r] }

/-- A user's records in a window that includes both its ends. -/
def usageOfUser (s : Store) (user : UserId) (since til : Millis) : List UsageRecord :=
  s.ledger.filter (UsageRecord.ofUserIn user since til)

/-- A service's records that are not older than `since`. -/
def usageOfService (s : Store) (service : ServiceId) (since : Millis) : List UsageRecord :=
  s.ledger.filter (UsageRecord.ofServiceSince service since)

/-- All records that are not older than `since`. -/
def usageSince (s : Store) (since : Millis) : List UsageRecord :=
  s.ledger.filter fun r => since ≤ r.recordedAt

/-! ## Counts -/

/-- How much the store holds. -/
structure Counts where
  services : Nat
  credentials : Nat
  sessions : Nat
  usageRecords : Nat
  deriving Repr, DecidableEq

/-- Counts what the store holds. -/
def counts (s : Store) : Counts where
  services := s.services.size
  credentials := s.credentials.size
  sessions := s.sessions.size
  usageRecords := s.ledger.length

/-! ## First laws -/

theorem mem_sessionsMatching {s : Store} {p : Session → Bool} {x : Session} :
    x ∈ s.sessionsMatching p ↔ x ∈ s.sessions.entries ∧ p x = true := by
  simp [sessionsMatching, List.mem_filter]

theorem queueDepth_eq_length (s : Store) (service : ServiceId) :
    s.queueDepth service = (s.queue service).length := by
  simp [queueDepth, queue, sessionsMatching, List.countP_eq_length_filter]

/-- **A checkout succeeds exactly if the credential exists and has capacity.** -/
theorem checkout_eq_some_iff {s : Store} {id : CredentialId} {now : Millis} {d : Credential} :
    (s.checkout id now).1 = some d ↔
      ∃ c, s.credential? id = some c ∧ c.hasCapacity = true ∧ d = c.occupy now := by
  unfold checkout
  cases s.credential? id with
  | none => simp
  | some c =>
    by_cases h : c.hasCapacity = true
    · simp only [h, if_true, Option.some.injEq, exists_eq_left', true_and]
      exact eq_comm
    · simp [h]

end Store

end SlotBroker
