import Mathlib.Algebra.Group.Pi.Basic
import SlotBroker.Proofs.Counters

/-!
# What the metrics show and what the store calls for

Five series tell of sessions: those asked for, by the state that they came back in, those admitted
from the queue, those that ran past their limit, of each service and in all, and the durations of
those that were billed. `Store.Calls` says which values they must have by what is stored,
`Metrics.Shows` which they have. The broker stores first and counts later, so on the way some counts
are owed: `Tallied owed w` says that with them the metrics show what the store calls for.

Results:
* `Store.Calls.granted`, `Store.Calls.finished`, `Store.Calls.expired`, ...: what the store calls
  for after each change of a session.
* `Tallied.drainQueue`, `Tallied.expireSessions`, ...: what each part of the broker owes after it.
* **`Tallied.requestSession`**, **`Tallied.endSession`**, **`Tallied.sweepCycle`**: an operation
  that nobody interferes with leaves nothing owed.
-/

namespace SlotBroker

/-- A number on one counter, and nothing on the others. -/
def Counter.times (c : Counter) (k : Nat) : Counter → Nat := fun c' => if c = c' then k else 0

theorem Counter.times_add (c : Counter) (j k : Nat) : c.times (j + k) = c.times j + c.times k := by
  funext c'
  simp only [times, Pi.add_apply]
  split <;> rfl

theorem Counter.times_zero (c : Counter) : c.times 0 = 0 := by
  funext c'
  exact ite_self 0

/-- The counts that expired sessions of a service call for. -/
def Counter.overruns (a : ServiceId) (k : Nat) : Counter → Nat :=
  Counter.times (.expired a) k + Counter.times .swept k

theorem Counter.overruns_add (a : ServiceId) (j k : Nat) :
    overruns a (j + k) = overruns a j + overruns a k := by
  rw [overruns, overruns, overruns, times_add, times_add, add_add_add_comm]

theorem Counter.overruns_zero (a : ServiceId) : overruns a 0 = 0 := by
  rw [overruns, times_zero, times_zero, add_zero]

/-! ## What the store calls for -/

namespace Session

/-- The session is of a service. -/
def isOf (a : ServiceId) (x : Session) : Bool := x.service = a

/-- The session is of a service and has started. -/
def began (a : ServiceId) (x : Session) : Bool := x.service = a && x.startedAt.isSome

/-- The session has run past its limit. -/
def isExpired (x : Session) : Bool := x.state = .expired

/-- The session is of a service and has run past its limit. -/
def overran (a : ServiceId) (x : Session) : Bool := x.service = a && x.isExpired

/-- The session is of a service, and has started and ended. -/
def completed (a : ServiceId) (x : Session) : Bool :=
  x.service = a && (x.startedAt.isSome && x.state.isTerminal)

end Session

namespace Store

/-- The number of stored sessions of a kind. -/
def census (s : Store) (p : Session → Bool) : Nat := s.sessions.entries.countP p

/-- The values that the counters must have, by what is stored; and as many bills must be written as
sessions have run to their ends. -/
structure Calls (s : Store) (n : Counter → Nat) : Prop where
  requests : ∀ a, n (.requested a "active") + n (.requested a "queued") = s.census (·.isOf a)
  starts : ∀ a, n (.requested a "active") + n (.admitted a) = s.census (·.began a)
  expiries : ∀ a, n (.expired a) = s.census (·.overran a)
  sweeps : n .swept = s.census (·.isExpired)
  bills : ∀ a, s.ledger.countP (·.service = a) = s.census (·.completed a)

variable {s t : Store} {n : Counter → Nat}

/-- What a session that is put into its place adds to a count, and what the one before it took. -/
theorem census_insert {y : Session} (ht : t.sessions = s.sessions.insert y) (p : Session → Bool) :
    t.census p + ((s.session? y.id).elim 0 fun x => (p x).toNat) = s.census p + (p y).toNat := by
  rw [census, ht]
  exact countP_placeIn p y s.sessions.entries

theorem Calls.of_eq (h : s.Calls n) (sessions : t.sessions = s.sessions)
    (ledger : t.ledger = s.ledger) : t.Calls n := by
  have same : t.census = s.census := by
    unfold census
    rw [sessions]
  refine ⟨?_, ?_, ?_, ?_, ?_⟩ <;> simp only [same, ledger]
  exacts [h.requests, h.starts, h.expiries, h.sweeps, h.bills]

/-- A session takes the place of another version of it, or is new. -/
theorem Calls.put (h : s.Calls n) {y : Session} {old : Option Session} {d : Counter → Nat}
    (sessions : t.sessions = s.sessions.insert y) (prior : s.session? y.id = old)
    (requests : ∀ a, d (.requested a "active") + d (.requested a "queued") +
      (old.elim 0 fun x => (x.isOf a).toNat) = (y.isOf a).toNat)
    (starts : ∀ a, d (.requested a "active") + d (.admitted a) +
      (old.elim 0 fun x => (x.began a).toNat) = (y.began a).toNat)
    (expiries : ∀ a, d (.expired a) + (old.elim 0 fun x => (x.overran a).toNat) =
      (y.overran a).toNat)
    (sweeps : d .swept + (old.elim 0 fun x => x.isExpired.toNat) = y.isExpired.toNat)
    (bills : ∀ a, t.ledger.countP (·.service = a) + (old.elim 0 fun x => (x.completed a).toNat) =
      s.ledger.countP (·.service = a) + (y.completed a).toNat) : t.Calls (n + d) := by
  have count := census_insert sessions
  rw [prior] at count
  refine ⟨fun a => ?_, fun a => ?_, fun a => ?_, ?_, fun a => ?_⟩
  · have before := h.requests a
    have here := requests a
    have both := count (·.isOf a)
    simp only [Pi.add_apply]
    omega
  · have before := h.starts a
    have here := starts a
    have both := count (·.began a)
    simp only [Pi.add_apply]
    omega
  · have before := h.expiries a
    have here := expiries a
    have both := count (·.overran a)
    simp only [Pi.add_apply]
    omega
  · have before := h.sweeps
    have both := count (·.isExpired)
    simp only [Pi.add_apply]
    omega
  · have before := h.bills a
    have here := bills a
    have both := count (·.completed a)
    omega

theorem toNat_decide (p : Prop) [Decidable p] : (decide p).toNat = if p then 1 else 0 := by
  by_cases h : p <;> simp [h]

/-- A session that waits is given a slot. -/
theorem Calls.granted (h : s.Calls n) {x : Session} {c : CredentialId} {time : Millis}
    (found : s.session? x.id = some x) (waits : x.state = .queued) (blank : x.startedAt = none)
    (sessions : t.sessions = s.sessions.insert (x.started c time)) (ledger : t.ledger = s.ledger) :
    t.Calls (n + Counter.times (.admitted x.service) 1) := by
  refine h.put sessions found (fun a => ?_) (fun a => ?_) (fun a => ?_) ?_ fun a => ?_ <;>
    simp [Counter.times, Session.isOf, Session.began, Session.overran, Session.isExpired,
      Session.completed, Session.started, Session.State.isTerminal, waits, blank, ledger]
  · rfl
  · exact (toNat_decide (x.service = a)).symm

/-- A running session ends, and is billed. -/
theorem Calls.finished (h : s.Calls n) {x : Session} {time : Millis} {r : UsageRecord}
    (found : s.session? x.id = some x) (runs : x.state = .active)
    (started : x.startedAt.isSome = true)
    (sessions : t.sessions = s.sessions.insert { x with state := .ended, endedAt := some time })
    (ledger : t.ledger = s.ledger ++ [r]) (asks : r.service = x.service) : t.Calls n := by
  refine h.put (d := 0) sessions found (fun a => ?_) (fun a => ?_) (fun a => ?_) ?_ fun a => ?_ <;>
    simp [Session.isOf, Session.began, Session.overran, Session.isExpired,
      Session.completed, Session.State.isTerminal, runs, started, ledger, asks, toNat_decide,
      List.countP_cons]

/-- A running session runs past its limit, and is billed. -/
theorem Calls.expired (h : s.Calls n) {x : Session} {time : Millis} {r : UsageRecord}
    (found : s.session? x.id = some x) (runs : x.state = .active)
    (started : x.startedAt.isSome = true)
    (sessions : t.sessions = s.sessions.insert { x with state := .expired, endedAt := some time })
    (ledger : t.ledger = s.ledger ++ [r]) (asks : r.service = x.service) :
    t.Calls (n + Counter.overruns x.service 1) := by
  refine h.put sessions found (fun a => ?_) (fun a => ?_) (fun a => ?_) ?_ fun a => ?_ <;>
    simp [Counter.overruns, Counter.times, Session.isOf, Session.began, Session.overran,
      Session.isExpired, Session.completed, Session.State.isTerminal, runs, started, ledger, asks,
      toNat_decide, List.countP_cons]

/-- A session that waits is cancelled. -/
theorem Calls.cancelled (h : s.Calls n) {x : Session}
    (found : s.session? x.id = some x) (waits : x.state = .queued) (blank : x.startedAt = none)
    (sessions : t.sessions = s.sessions.insert { x with state := .ended })
    (ledger : t.ledger = s.ledger) : t.Calls n := by
  refine h.put (d := 0) sessions found (fun a => ?_) (fun a => ?_) (fun a => ?_) ?_ fun a => ?_ <;>
    simp [Session.isOf, Session.began, Session.overran, Session.isExpired, Session.completed,
      Session.State.isTerminal, waits, blank, ledger, toNat_decide]

/-- A new session runs at once. -/
theorem Calls.placed (h : s.Calls n) {x : Session} (new : s.session? x.id = none)
    (runs : x.state = .active) (started : x.startedAt.isSome = true)
    (sessions : t.sessions = s.sessions.insert x) (ledger : t.ledger = s.ledger) :
    t.Calls (n + Counter.times (.requested x.service "active") 1) := by
  refine h.put sessions new (fun a => ?_) (fun a => ?_) (fun a => ?_) ?_ fun a => ?_ <;>
    simp [Counter.times, Session.isOf, Session.began, Session.overran, Session.isExpired,
      Session.completed, Session.State.isTerminal, runs, started, ledger, toNat_decide]

/-- A new session waits. -/
theorem Calls.queued (h : s.Calls n) {x : Session} (new : s.session? x.id = none)
    (waits : x.state = .queued) (blank : x.startedAt = none)
    (sessions : t.sessions = s.sessions.insert x) (ledger : t.ledger = s.ledger) :
    t.Calls (n + Counter.times (.requested x.service "queued") 1) := by
  refine h.put sessions new (fun a => ?_) (fun a => ?_) (fun a => ?_) ?_ fun a => ?_ <;>
    simp [Counter.times, Session.isOf, Session.began, Session.overran, Session.isExpired,
      Session.completed, waits, blank, ledger, toNat_decide]

end Store

/-! ## What the metrics show -/

namespace Metrics

/-- The metrics are recorded, show some values, and know of no outcome of a request but that the
session runs or waits. -/
structure Shows (m : Metrics) (n : Counter → Nat) : Prop where
  recording : m.recording = true
  value : ∀ c, m.value c = UInt64.ofNat (n c)
  labels : ∀ a outcome, (m.counters.lookup (.requested a outcome)).isSome = true →
    outcome = "active" ∨ outcome = "queued"

/-- A request is only counted with the state of its session, running or waiting. -/
def Labelled : Counter → Prop
  | .requested _ outcome => outcome = "active" ∨ outcome = "queued"
  | _ => True

variable {m : Metrics} {n : Counter → Nat}

theorem Shows.increment (h : m.Shows n) {c : Counter} (label : Labelled c) (k : Nat) :
    (m.increment c (UInt64.ofNat k)).Shows (n + c.times k) where
  recording := by
    rw [Metrics.increment, if_pos h.recording]
    exact h.recording
  value c' := by
    rw [value_increment h.recording, Pi.add_apply, Counter.times]
    by_cases same : c = c'
    · rw [if_pos same.symm, if_pos same, h.value, same, UInt64.ofNat_add]
    · rw [if_neg fun e => same e.symm, if_neg same, h.value]
      rfl
  labels a outcome touched := by
    rw [Metrics.increment, if_pos h.recording] at touched
    rw [lookup_upsert] at touched
    split at touched
    · rename_i same
      rw [← same] at label
      exact label
    · exact h.labels a outcome touched

theorem Shows.observe (h : m.Shows n) (a : ServiceId) (seconds : Float) :
    (m.observe a seconds).Shows n := by
  rw [Metrics.observe, if_pos h.recording]
  exact ⟨h.recording, h.value, h.labels⟩

/-- The number of durations recorded for a service. -/
def billed (m : Metrics) (a : ServiceId) : Nat := (m.durationsOf a).count

theorem billed_increment (m : Metrics) (c : Counter) (k : UInt64) :
    (m.increment c k).billed = m.billed := by
  unfold billed durationsOf increment
  split <;> rfl

theorem billed_observe (recording : m.recording = true) (a b : ServiceId) (seconds : Float) :
    (m.observe a seconds).billed b = m.billed b + if a = b then 1 else 0 := by
  rw [billed, durationsOf, observe, if_pos recording, lookup_upsert]
  split
  · rename_i same
    rw [if_pos same.symm, billed, durationsOf, same]
    simp [Histogram.record, Histogram.count]
  · rename_i other
    rw [if_neg fun e => other e.symm]
    rfl

end Metrics

/-! ## Counts that are owed -/

/-- With the counts that are owed the metrics show what the store calls for, and as many durations
as there are bills. -/
structure Tallied (owed : Counter → Nat) (w : World) : Prop where
  coherent : w.store.Coherent
  counters : ∃ n, w.platform.metrics.Shows n ∧ w.store.Calls (n + owed)
  durations : ∀ a, w.platform.metrics.billed a = w.store.ledger.countP (·.service = a)

namespace Tallied

variable {owed d : Counter → Nat} {w v : World} {a : ServiceId}

theorem of_platform (h : Tallied owed w) (same : v.platform = w.platform) : Tallied owed v := by
  refine ⟨?_, ?_, ?_⟩ <;> simp only [World.store, same]
  exacts [h.coherent, h.counters, h.durations]

/-- The store changes and calls for more. -/
theorem change (h : Tallied owed w) (metrics : v.platform.metrics = w.platform.metrics)
    (coherent : v.store.Coherent) (ledger : v.store.ledger = w.store.ledger)
    (calls : ∀ n, w.store.Calls n → v.store.Calls (n + d)) : Tallied (owed + d) v where
  coherent := coherent
  counters := by
    obtain ⟨n, shows, called⟩ := h.counters
    refine ⟨n, metrics ▸ shows, ?_⟩
    rw [← add_assoc]
    exact calls _ called
  durations b := by
    rw [metrics, ledger]
    exact h.durations b

/-- The store changes in what does not call for anything. -/
theorem still (h : Tallied owed w) (metrics : v.platform.metrics = w.platform.metrics)
    (coherent : v.store.Coherent) (sessions : v.store.sessions = w.store.sessions)
    (ledger : v.store.ledger = w.store.ledger) : Tallied owed v := by
  have changed := h.change (d := 0) metrics coherent ledger fun n called =>
    called.of_eq sessions ledger
  rwa [add_zero] at changed

/-- What is counted is owed no more. -/
theorem count {c : Counter} {k : Nat} (h : Tallied (owed + c.times k) w)
    (label : Metrics.Labelled c) : Tallied owed ((Program.count c k).run w).2 where
  coherent := h.coherent
  counters := by
    obtain ⟨n, shows, called⟩ := h.counters
    refine ⟨n + c.times k, shows.increment label k, ?_⟩
    rw [add_assoc, add_comm (c.times k)]
    exact called
  durations b := by
    rw [Program.run_count]
    exact (congrFun (Metrics.billed_increment ..) b).trans (h.durations b)

/-! ## Draining -/

/-- A waiting session has not started. -/
theorem startedAt_of_queued (h : Tallied owed w) {id : SessionId} {x : Session}
    (stored : w.store.session? id = some x) (waits : x.state = .queued) : x.startedAt = none := by
  have shaped := h.coherent.shaped stored
  rw [Session.Shaped, waits] at shaped
  exact shaped.2.1

/-- A running session has started. -/
theorem startedAt_of_active (h : Tallied owed w) {id : SessionId} {x : Session}
    (stored : w.store.session? id = some x) (runs : x.state = .active) :
    x.startedAt.isSome = true := by
  have shaped := h.coherent.shaped stored
  rw [Session.Shaped, runs] at shaped
  exact shaped.2.1

/-- A round owes the count of the session that it admits. -/
theorem drainRound {k : Nat} (h : Tallied (owed + Counter.times (.admitted a) k) w) :
    let r := (Broker.drainRound a k).run w
    Tallied (owed + Counter.times (.admitted a) r.1.2) r.2 := by
  by_cases none : w.store.queue a = [] ∨ w.store.available a = []
  · rw [run_drainRound_of_none none]
    exact h
  · obtain ⟨hqueue, havailable⟩ := not_or.1 none
    obtain ⟨x, head⟩ := Option.isSome_iff_exists.1 (List.isSome_head?.2 hqueue)
    obtain ⟨c, spare⟩ := Option.isSome_iff_exists.1 (List.isSome_head?.2 havailable)
    obtain ⟨stored, waits, rfl⟩ := Store.mem_queue.1 (List.mem_of_head? head)
    have step : Reclaim ⟨w, some x.service, []⟩ ⟨_, some x.service, []⟩ := .grant head spare
    rw [run_drainRound_of_spare head spare]
    dsimp only
    rw [Counter.times_add, ← add_assoc]
    exact h.change rfl (step.keeps h.coherent).2 rfl fun n called =>
      called.granted stored waits (h.startedAt_of_queued stored waits) rfl rfl

theorem rounds {n k : Nat} (h : Tallied (owed + Counter.times (.admitted a) k) w) :
    let r := SlotBroker.rounds (fun k w => (Broker.drainRound a k).run w) n k w
    Tallied (owed + Counter.times (.admitted a) r.1) r.2 := by
  induction n generalizing k w with
  | zero => exact h
  | succ n ih =>
    have once := h.drainRound
    rw [SlotBroker.rounds]
    dsimp only at once ⊢
    split
    · exact ih once
    · exact once

/-- **A drained queue** owes nothing: who was admitted has been counted. -/
theorem drainQueue (h : Tallied owed w) : Tallied owed ((Broker.drainQueue a).run w).2 := by
  have start : Tallied (owed + Counter.times (.admitted a) 0) w := by
    rwa [Counter.times_zero, add_zero]
  have drained := start.rounds (n := Broker.drainLimit a w.platform)
  unfold Broker.drainQueue
  simp only [Program.bind_eq, Program.pure_eq]
  rw [Program.run_bind, Program.run_repeatWhile]
  generalize SlotBroker.rounds _ _ _ _ = r at drained ⊢
  dsimp only at drained ⊢
  split
  · rw [Program.run_bind]
    exact drained.count trivial
  · rename_i none
    rwa [Nat.eq_zero_of_not_pos none, Counter.times_zero, add_zero] at drained

/-! ## Bills -/

/-- Billing a session records one duration. -/
theorem metrics_run_recordSession {y : Session} {definition : Service}
    (known : w.store.service? y.service = some definition) : ∃ seconds,
    ((Billing.recordSession y).run w).2.platform.metrics =
      w.platform.metrics.observe y.service seconds := by
  have named : definition.id = y.service := Table.find?_key known
  unfold Billing.recordSession
  simp only [Program.bind_eq, Program.pure_eq]
  rw [Program.run_bind, Program.run_query, known, ← named]
  exact ⟨_, rfl⟩

theorem metrics_run_releaseAndBill {y : Session} {definition : Service}
    (known : w.store.service? y.service = some definition) : ∃ seconds,
    ((Broker.releaseAndBill y).run w).2.platform.metrics =
      w.platform.metrics.observe y.service seconds := by
  -- what is done with the record leaves the metrics alone
  have bill : ∀ {u : World} (k : Except Failure UsageRecord → Program (Option UsageRecord)),
      u.store.service? y.service = some definition → (∀ r, ∃ b, k r = .done b) → ∃ seconds,
        (((Billing.recordSession y).bind k).run u).2.platform.metrics =
          u.platform.metrics.observe y.service seconds := by
    intro u k known last
    obtain ⟨seconds, recorded⟩ := metrics_run_recordSession known
    obtain ⟨b, hb⟩ := last ((Billing.recordSession y).run u).1
    refine ⟨seconds, ?_⟩
    rw [Program.run_bind, hb, Program.run_done, recorded]
  unfold Broker.releaseAndBill
  cases y.credential with
  | none =>
    refine bill _ known fun r => ?_
    cases r <;> exact ⟨_, rfl⟩
  | some c =>
    refine bill (u := w.withStore (w.store.checkin c)) _ ?_ fun r => ?_
    · rw [World.store_withStore, Store.service?, Store.services_checkin]
      exact known
    · cases r <;> exact ⟨_, rfl⟩

/-- **A running session leaves its slot**, and is billed. -/
theorem vacate (h : Tallied owed w) {x y : Session} {e : Session.Event} {u : World}
    (found : w.store.session? x.id = some x) (runs : x.state = .active)
    (moved : x.apply e = some y)
    (metrics : u.platform.metrics = w.platform.metrics)
    (store : u.store = { w.store with sessions := w.store.sessions.insert y })
    (calls : ∀ (n : Counter → Nat) (t : Store) (r : UsageRecord),
      t.sessions = w.store.sessions.insert y → t.ledger = w.store.ledger ++ [r] →
      r.service = x.service → w.store.Calls n → t.Calls (n + d)) :
    Tallied (owed + d) ((Broker.releaseAndBill y).run u).2 ∧
      w.store.Grows ((Broker.releaseAndBill y).run u).2.store := by
  have asks : y.service = x.service := (Session.fixed_apply moved).2.2.1
  obtain ⟨definition, known⟩ := Option.isSome_iff_exists.1 (h.coherent.registered found)
  have known' : u.store.service? y.service = some definition := by
    rw [store, asks]
    exact known
  obtain ⟨seconds, observed⟩ := metrics_run_releaseAndBill known'
  obtain ⟨v, run, -, result⟩ := run_releaseAndBill known'
  rw [run] at observed ⊢
  have result : v.store = w.store.vacate y (u.bill y definition) := by
    rw [result, store]
    rfl
  obtain ⟨n, shows, called⟩ := h.counters
  refine ⟨⟨?_, ⟨n, ?_, ?_⟩, fun b => ?_⟩, ?_⟩
  · rw [result]
    exact h.coherent.vacate found runs moved _
  · rw [observed, metrics]
    exact shows.observe _ _
  · rw [← add_assoc]
    refine calls _ _ (u.bill y definition) ?_ ?_ asks called
    · rw [result, Store.sessions_vacate]
    · rw [result, Store.ledger_vacate]
  · rw [observed, metrics, Metrics.billed_observe shows.recording, h.durations, result,
      Store.ledger_vacate, List.countP_append]
    simp [World.bill, UsageRecord.ofSession]
  · rw [result]
    exact Store.grows_vacate found moved _

/-- **An end** owes nothing: a session that ran is billed and the queue drained, one that waited is
cancelled. -/
theorem endSession (h : Tallied owed w) (id : SessionId) :
    Tallied owed ((Broker.endSession id).run w).2 := by
  rcases w.store.applyEvent_cases id (.finish (w.time 0)) with ignored | ⟨x, y, found, moved, -⟩
  · rw [run_endSession_of_ignored ignored]
    exact h.of_platform rfl
  · have found' := Store.session?_self found
    cases state : x.state with
    | queued =>
      rw [run_endSession_of_queued found state moved]
      have cancelled := Session.eq_cancelled_of_apply state moved
      have coherent := h.coherent.of_apply found moved fun c time he => by cases he
      have changed := h.change (d := 0)
        (v := (w.tick 1).withStore { w.store with sessions := w.store.sessions.insert y }) rfl
        coherent rfl fun n called =>
          called.cancelled found' state (h.startedAt_of_queued found state)
            (by rw [← cancelled]; rfl) rfl
      rwa [add_zero] at changed
    | active =>
      rw [Course.run_endSession found state moved]
      have ended := Session.eq_ended_of_apply state moved
      have left := h.vacate (d := 0)
        (u := (w.tick 1).withStore { w.store with sessions := w.store.sessions.insert y })
        found' state moved rfl rfl fun n t r sessions ledger asks called =>
          called.finished found' state (h.startedAt_of_active found state) (ended ▸ sessions)
            ledger asks
      rw [add_zero] at left
      exact left.1.drainQueue
    | ended | expired =>
      have := Session.isTerminal_eq_false_of_apply moved
      rw [state] at this
      cases this

/-! ## The sweep -/

/-- The expiry of some sessions of a service owes the counts of those that expired. -/
theorem expireSessions (limit now : Millis) (xs : List Session) (h : Tallied owed w)
    (asks : ∀ x ∈ xs, ∃ z, w.store.session? x.id = some z ∧ z.service = a) :
    let r := (Broker.expireSessions limit now xs).run w
    Tallied (owed + Counter.overruns a r.1.length) r.2 ∧ w.store.Grows r.2.store := by
  induction xs generalizing owed w with
  | nil =>
    have none : Tallied (owed + Counter.overruns a 0) w := by
      rwa [Counter.overruns_zero, add_zero]
    exact ⟨none, .refl _⟩
  | cons x rest ih =>
    obtain ⟨z, found, rfl⟩ := asks x List.mem_cons_self
    have asks' := fun x hx => asks x (List.mem_cons_of_mem _ hx)
    by_cases expires : x.overdue limit now = true ∧ (z.apply (.expire now)).isSome = true
    · obtain ⟨late, some⟩ := expires
      obtain ⟨y, moved⟩ := Option.isSome_iff_exists.1 some
      have runs := Session.active_of_expire moved
      have expired := Session.eq_expired_of_apply moved
      have found' := Store.session?_self found
      obtain ⟨left, grows⟩ := h.vacate
        (u := w.withStore { w.store with sessions := w.store.sessions.insert y }) found' runs moved
        rfl rfl fun n t r sessions ledger asks called =>
          called.expired found' runs (h.startedAt_of_active found runs) (expired ▸ sessions) ledger
            asks
      rw [run_expireSessions_of_expired late found moved]
      obtain ⟨others, grows'⟩ := ih left fun x hx => by
        obtain ⟨v, hv, same⟩ := asks' x hx
        obtain ⟨v', hv', leads⟩ := grows.sessions hv
        exact ⟨v', hv', leads.fixed.2.2.1.trans same⟩
      refine ⟨?_, grows.trans grows'⟩
      dsimp only
      rw [List.length_cons, add_comm _ 1, Counter.overruns_add, ← add_assoc]
      exact others
    · rw [run_expireSessions_of_kept fun late => ⟨z, found, by simpa [late] using expires⟩]
      exact ih h asks'

theorem expireHolding {limit now : Millis} (cs : List Credential) (h : Tallied owed w)
    (asks : ∀ c ∈ cs, ∃ d, w.store.credential? c.id = some d ∧ d.service = a) :
    let r := (Broker.expireHolding limit now cs).run w
    Tallied (owed + Counter.overruns a r.1.length) r.2 := by
  induction cs generalizing owed w with
  | nil =>
    have none : Tallied (owed + Counter.overruns a 0) w := by
      rwa [Counter.overruns_zero, add_zero]
    exact none
  | cons c rest ih =>
    have held : ∀ x ∈ w.store.sessionsHolding c.id,
        ∃ z, w.store.session? x.id = some z ∧ z.service = a := by
      intro x hx
      obtain ⟨mem, holds⟩ := Store.mem_sessionsMatching.1 hx
      simp only [Session.holds, Bool.and_eq_true, decide_eq_true_eq] at holds
      have stored : w.store.session? x.id = some x := Store.session?_eq_some_iff.2 ⟨mem, rfl⟩
      obtain ⟨d, hd, bound⟩ := h.coherent.bound stored holds.2
      obtain ⟨d', hd', same⟩ := asks c List.mem_cons_self
      obtain rfl := Option.some.inj (hd.symm.trans hd')
      exact ⟨x, stored, bound.symm.trans same⟩
    obtain ⟨here, grows⟩ := h.expireSessions limit now _ held
    rw [Broker.expireHolding]
    simp only [Program.bind_eq, Program.pure_eq]
    rw [Program.run_bind, Program.run_query]
    dsimp only
    rw [Program.run_bind, Program.run_bind]
    have others := ih here fun d hd => by
      obtain ⟨e, he, same⟩ := asks d (List.mem_cons_of_mem _ hd)
      obtain ⟨e', he', same'⟩ := grows.credentials he
      exact ⟨e', he', same'.trans same⟩
    dsimp only at others ⊢
    rw [Program.run_done, List.length_append, Counter.overruns_add, ← add_assoc]
    exact others

theorem expireOverdue (definition : Service) (h : Tallied owed w) :
    let r := (Broker.expireOverdue definition).run w
    Tallied (owed + Counter.overruns definition.id r.1.length) r.2 := by
  unfold Broker.expireOverdue
  simp only [Program.bind_eq]
  rw [Program.run_bind, Program.run_now]
  dsimp only
  rw [Program.run_bind, Program.run_query]
  have ticked : Tallied owed (w.tick 1) := h.of_platform rfl
  refine ticked.expireHolding _ fun c hc => ?_
  obtain ⟨mem, asks⟩ := List.mem_filter.1 hc
  exact ⟨c, Store.credential?_eq_some_iff.2 ⟨mem, rfl⟩, of_decide_eq_true asks⟩

/-- The sweep of some services owes nothing but the count of all that it has expired. -/
theorem sweepServices (services : List Service) (h : Tallied owed w) :
    let r := (Broker.sweepServices services).run w
    Tallied (owed + Counter.times .swept r.1.length) r.2 := by
  induction services generalizing owed w with
  | nil =>
    have none : Tallied (owed + Counter.times .swept 0) w := by
      rwa [Counter.times_zero, add_zero]
    exact none
  | cons definition rest ih =>
    have expired := h.expireOverdue definition
    rw [Broker.sweepServices]
    simp only [Program.bind_eq, Program.pure_eq]
    rw [Program.run_bind]
    generalize (Broker.expireOverdue definition).run w = r at expired ⊢
    dsimp only at expired ⊢
    split
    · rename_i none
      rw [List.isEmpty_iff.1 none, List.length_nil, Counter.overruns_zero, add_zero] at expired
      exact ih expired
    · rw [Counter.overruns, add_comm (Counter.times _ _), ← add_assoc] at expired
      rw [Program.run_bind, Program.run_bind, Program.run_bind]
      have others := ih ((expired.count trivial).drainQueue (a := definition.id))
      dsimp only at others ⊢
      rw [Program.run_done, List.length_append, Counter.times_add, ← add_assoc]
      exact others

/-- **A sweep** owes nothing. -/
theorem sweepCycle (h : Tallied owed w) : Tallied owed (Broker.sweepCycle.run w).2 := by
  unfold Broker.sweepCycle Broker.enforceLimits
  simp only [Program.bind_eq, Program.pure_eq]
  rw [Program.run_bind, Program.run_bind, Program.run_bind, Program.run_query]
  have swept := h.sweepServices w.platform.store.services.entries
  dsimp only at swept ⊢
  exact swept.count trivial

/-! ## Requests -/

/-- A session that starts at once is stored as it runs, and then it is counted. -/
theorem requestSession_of_spare {user : UserId} {definition : Service} {c : Credential}
    (h : Tallied owed w) (known : w.store.service? a = some definition)
    (fresh : w.store.session? (Ident.hex Ident.longDigits w.supply.draw.1) = none)
    (spare : (w.store.available a).head? = some c) :
    Tallied owed ((Broker.requestSession user a).run w).2 := by
  have course : Course w ((Broker.requestSession user a).run w).2 := .requestSession fresh
  have coherent := (course.keeps h.coherent).2
  let store := w.store.addCredential (c.occupy (w.time 1))
  let session := (w.asking user a).started c.id (w.time 0)
  rw [run_requestSession_eq_of_spare user known spare] at coherent ⊢
  have placed : Tallied (owed + Counter.times (.requested a "active") 1)
      { platform := { w.platform with store := (store.addSession session).2 }
        supply := w.supply.readClock.2.draw.2.readClock.2 } :=
    h.change rfl coherent rfl fun n called =>
      called.placed (x := (store.addSession session).1) fresh rfl rfl rfl rfl
  exact placed.count (.inl rfl)

/-- A session that joins the queue is not admitted by the drain that follows, since there is no
slot. -/
theorem requestSession_of_full {user : UserId} {definition : Service} (h : Tallied owed w)
    (known : w.store.service? a = some definition)
    (fresh : w.store.session? (Ident.hex Ident.longDigits w.supply.draw.1) = none)
    (full : w.store.available a = []) :
    Tallied owed ((Broker.requestSession user a).run w).2 := by
  have course : Course w ((Broker.requestSession user a).run w).2 := .requestSession fresh
  have coherent := (course.keeps h.coherent).2
  let session := w.asking user a
  rw [run_requestSession_eq_of_full user known full] at coherent ⊢
  have queued : Tallied (owed + Counter.times (.requested a "queued") 1)
      { platform := { w.platform with store := (w.store.addSession session).2 }
        supply := w.supply.readClock.2.draw.2 } :=
    h.change rfl coherent rfl fun n called =>
      called.queued (x := (w.store.addSession session).1) fresh rfl rfl rfl rfl
  exact queued.count (.inr rfl)

/-- **A request** owes nothing: its session is counted as it came back. -/
theorem requestSession {user : UserId} {service : ServiceId} (h : Tallied owed w)
    (fresh : w.store.session? (Ident.hex Ident.longDigits w.supply.draw.1) = none) :
    Tallied owed ((Broker.requestSession user service).run w).2 := by
  cases known : w.store.service? service with
  | none =>
    rw [run_requestSession_of_unknown user known]
    exact h
  | some definition =>
    cases spare : (w.store.available service).head? with
    | some c => exact h.requestSession_of_spare known fresh spare
    | none => exact h.requestSession_of_full known fresh (List.head?_eq_none_iff.1 spare)

/-! ## Credentials and users -/

theorem storeCredential {key : Codec.Key} {service : ServiceId} {identity secret : String}
    {tier : Tier} (h : Tallied owed w)
    (fresh : w.store.credential? (Ident.hex Ident.shortDigits w.supply.draw.1) = none) :
    Tallied owed ((Vault.storeCredential key service identity secret tier).run w).2 := by
  have course : Course w ((Vault.storeCredential key service identity secret tier).run w).2 :=
    .storeCredential fresh
  have coherent := (course.keeps h.coherent).2
  cases known : w.store.service? service with
  | none =>
    rw [run_storeCredential_of_unknown key identity secret tier known]
    exact h
  | some definition =>
    rw [run_storeCredential key identity secret tier known] at coherent ⊢
    exact h.still rfl coherent rfl rfl

theorem disable (h : Tallied owed w) (id : CredentialId) :
    Tallied owed ((Vault.disable id).run w).2 := by
  have coherent := ((Course.disable id w).keeps h.coherent).2
  refine h.still rfl coherent ?_ ?_ <;>
    rcases w.store.disable_cases id with unknown | ⟨c, -, disabled⟩
  · exact congrArg (fun r => r.2.sessions) unknown
  · exact congrArg (fun r => r.2.sessions) disabled
  · exact congrArg (fun r => r.2.ledger) unknown
  · exact congrArg (fun r => r.2.ledger) disabled

theorem rotate (h : Tallied owed w) (key : Codec.Key) (id : CredentialId) (secret : String) :
    Tallied owed ((Vault.rotate key id secret).run w).2 := by
  have coherent := ((Course.rotate key id secret w).keeps h.coherent).2
  refine h.still rfl coherent ?_ ?_ <;>
    rcases w.store.rotate_cases id (key.conceal secret) with unknown | ⟨c, -, rotated⟩
  · exact congrArg (fun r => r.2.sessions) unknown
  · exact congrArg (fun r => r.2.sessions) rotated
  · exact congrArg (fun r => r.2.ledger) unknown
  · exact congrArg (fun r => r.2.ledger) rotated

theorem register (h : Tallied owed w) (username : String) :
    Tallied owed ((Accounts.register username).run w).2 := by
  have coherent := ((Course.register username w).keeps h.coherent).2
  unfold Accounts.register at coherent ⊢
  simp only [Program.bind_eq, Program.pure_eq] at coherent ⊢
  rw [Program.run_bind, Program.run_query] at coherent ⊢
  cases found : w.platform.store.userNamed? username with
  | some user => exact h
  | none =>
    rw [found] at coherent
    exact h.still rfl coherent rfl rfl

end Tallied

end SlotBroker
