import SlotBroker.Credential
import SlotBroker.Service

/-!
# Sessions

A session is one user's claim on a slot of a service. It waits in the queue, runs on a credential's
slot, and ends once: by its user or by running past the limit. An event that does not fit the state
is ignored, so a session that has ended stays as it is.

Results:
* `State.next_eq_none_of_terminal`: a terminal state ignores every event.
* `state_apply`, `fixed_apply`: an applied event moves the state as `State.next` says and leaves who
  asked, for what, when and in which place of the queue.
* `overdue_limitMillis_iff`: words that stop at their ends never decide whether a session is
  overdue.
-/

namespace SlotBroker

/-- The name of a session. -/
abbrev SessionId := String

/-- The name of a user. -/
abbrev UserId := String

namespace Session

/-- Where a session stands. -/
inductive State where
  | queued
  | active
  /-- Ended by its user, or cancelled while it waited. -/
  | ended
  /-- Ended for running past the limit of its service. -/
  | expired
  deriving Repr, DecidableEq

/-- What can happen to a session. -/
inductive Event where
  /-- The session gets a slot of a credential. -/
  | start (credential : CredentialId) (time : Millis)
  | finish (time : Millis)
  | expire (time : Millis)
  deriving Repr, DecidableEq

namespace State

/-- The name of the state. -/
def label : State → String
  | queued => "queued"
  | active => "active"
  | ended => "ended"
  | expired => "expired"

/-- The state of a given name. -/
def ofLabel? : String → Option State
  | "queued" => some queued
  | "active" => some active
  | "ended" => some ended
  | "expired" => some expired
  | _ => none

/-- Nothing happens to the session any more. -/
def isTerminal : State → Bool
  | ended | expired => true
  | queued | active => false

/-- The state after an event, none where the event does not fit. -/
def next : State → Event → Option State
  | queued, .start .. => some active
  | queued, .finish _ => some ended
  | active, .finish _ => some ended
  | active, .expire _ => some expired
  | _, _ => none

theorem next_eq_none_of_terminal {s : State} (h : s.isTerminal = true) (e : Event) :
    s.next e = none := by
  cases s <;> cases e <;> simp_all [isTerminal, next]

end State

end Session

/-- One user's claim on a slot of a service. -/
structure Session where
  id : SessionId
  user : UserId
  service : ServiceId
  /-- The credential whose slot the session runs on, or ran on. -/
  credential : Option CredentialId := none
  state : Session.State := .queued
  queuedAt : Millis
  startedAt : Option Millis := none
  endedAt : Option Millis := none
  /-- The session's number in the order of storing, zero before it is stored. -/
  sequence : UInt64 := 0
  deriving Repr, DecidableEq

namespace Session

instance : Keyed Session := ⟨Session.id⟩

/-- The session after an event, none where the event is ignored. Only a session that ran gets an end
time: a cancelled one keeps none. -/
def apply (s : Session) (e : Event) : Option Session :=
  (s.state.next e).map fun state =>
    match e with
    | .start credential time =>
      { s with state := state, credential := some credential, startedAt := some time }
    | .finish time | .expire time =>
      { s with state := state, endedAt := if s.state = .active then some time else s.endedAt }

/-- How long the session ran, up to `now` if it still runs: none at all before it started, and none
where the clock went back. -/
def ranFor (s : Session) (now : Millis) : Millis :=
  match s.startedAt with
  | none => 0
  | some started => minus (s.endedAt.getD now) started

/-- How long the session ran, in seconds. -/
def duration (s : Session) (now : Millis) : Float :=
  match s.startedAt with
  | none => 0.0
  | some _ => seconds (s.ranFor now)

/-- The session runs and has run for longer than `limit`. -/
def overdue (s : Session) (limit now : Millis) : Bool :=
  match s.startedAt with
  | none => false
  | some started => limit < minus now started

/-- The session is in the queue of a service. -/
def waitsFor (s : Session) (service : ServiceId) : Bool := s.state = .queued && s.service = service

/-- The session holds a slot of a credential. -/
def holds (s : Session) (credential : CredentialId) : Bool :=
  s.state = .active && s.credential = some credential

/-- The order in which sessions wait: by time of asking, then by order of storing. -/
def before (a b : Session) : Bool :=
  a.queuedAt < b.queuedAt || (a.queuedAt = b.queuedAt && a.sequence ≤ b.sequence)

/-- **A session is overdue exactly when it has run for longer than the limit of its service**, both
taken as numbers without end. -/
theorem overdue_limitMillis_iff {s : Session} {definition : Service} {now : Millis} :
    s.overdue definition.limitMillis now = true ↔ ∃ first, s.startedAt = some first ∧
      first.toNat + 1000 * definition.sessionLimit.toNat < now.toNat := by
  unfold overdue Service.limitMillis
  cases s.startedAt with
  | none => simp
  | some first =>
    have bound := now.toNat_lt
    rw [decide_eq_true_iff, UInt64.lt_iff_toNat_lt, toNat_times, toNat_minus]
    simp only [Option.some.injEq, exists_eq_left', UInt64.size, UInt64.reduceToNat]
    omega

theorem state_apply {s t : Session} {e : Event} (h : s.apply e = some t) :
    s.state.next e = some t.state := by
  simp only [apply, Option.map_eq_some_iff] at h
  obtain ⟨state, hs, rfl⟩ := h
  cases e <;> exact hs

theorem fixed_apply {s t : Session} {e : Event} (h : s.apply e = some t) :
    t.id = s.id ∧ t.user = s.user ∧ t.service = s.service ∧ t.queuedAt = s.queuedAt ∧
      t.sequence = s.sequence := by
  simp only [apply, Option.map_eq_some_iff] at h
  obtain ⟨state, -, rfl⟩ := h
  cases e <;> exact ⟨rfl, rfl, rfl, rfl, rfl⟩

end Session

end SlotBroker
