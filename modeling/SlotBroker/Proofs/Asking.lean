import SlotBroker.Proofs.Draining

/-!
# What a request for a session does, to the letter

A request looks for a credential with a slot and then checks one out; it stores its session, and
drains the queue if the session has to wait. Nobody interferes here, so the checkout finds what the
look saw, and the drain finds no slot for the same reason for which it is made. No store is ruled
out, be it reachable or not.

Results:
* `requestSession_cases`: the two ways of a request that is granted.
* **`requestSession_exact`**: so a request stores one session, which runs exactly if a credential of
  the service has a slot; then it has taken a slot of the first one, and otherwise nothing else.
-/

namespace SlotBroker

/-- A request that is granted has started its session on the first slot, or put it into the
queue. -/
theorem requestSession_cases {w v : World} {user : UserId} {service : ServiceId} {x : Session}
    (run : (Broker.requestSession user service).run w = (.ok x, v)) :
    (∃ c, (w.store.available service).head? = some c ∧
      let stored := (w.store.addCredential (c.occupy (w.time 1))).addSession
        ((w.asking user service).started c.id (w.time 0))
      x = stored.1 ∧ v.store = stored.2) ∨
    w.store.available service = [] ∧
      let stored := w.store.addSession (w.asking user service)
      x = stored.1 ∧ v.store = stored.2 := by
  cases known : w.store.service? service with
  | none =>
    rw [run_requestSession_of_unknown user known] at run
    cases run
  | some definition =>
    cases spare : (w.store.available service).head? with
    | some c =>
      obtain ⟨u, run', store⟩ := run_requestSession_of_spare user known spare
      obtain ⟨ok, rfl⟩ := Prod.mk.inj (run'.symm.trans run)
      exact .inl ⟨c, rfl, (Except.ok.inj ok).symm, store⟩
    | none =>
      have full := List.head?_eq_none_iff.1 spare
      obtain ⟨u, run', store⟩ := run_requestSession_of_full user known full
      obtain ⟨ok, rfl⟩ := Prod.mk.inj (run'.symm.trans run)
      exact .inr ⟨full, (Except.ok.inj ok).symm, store⟩

/-! ## What is left -/

/-- A session has been stored, and besides credentials nothing else has been changed. -/
structure Entered (w v : World) (user : UserId) (service : ServiceId) (x : Session) : Prop where
  drawn : x.id = (w.asking user service).id
  asker : x.user = user
  asked : x.service = service
  queuedAt : x.queuedAt = w.time 0
  endedAt : x.endedAt = none
  /-- It has the next number. -/
  number : x.sequence = w.store.sequence + 1
  counter : v.store.sequence = x.sequence
  /-- It is stored as it came back, behind all others, which are as they were. -/
  sessions : v.store.sessions.entries = w.store.sessions.entries ++ [x]
  services : v.store.services = w.store.services
  users : v.store.users = w.store.users
  ledger : v.store.ledger = w.store.ledger
  providers : v.platform.providers = w.platform.providers
  metrics : v.platform.metrics =
    w.platform.metrics.increment (.requested service x.state.label) 1

/-- The session runs on a slot of a credential that stands behind some and before others. -/
structure Seated (w v : World) (x : Session) (before : List Credential) (c : Credential)
    (after : List Credential) : Prop where
  credential : x.credential = some c.id
  startedAt : x.startedAt = some (w.time 0)
  serves : c.service = x.service
  capacity : c.hasCapacity = true
  issued : w.store.credentials.entries = before ++ c :: after
  /-- No credential of the service that was issued earlier has a slot. -/
  first : ∀ d ∈ before, d.service = x.service → d.hasCapacity = false
  /-- This one credential changes. The clock is read a second time for it. -/
  taken : v.store.credentials.entries =
    before ++
      { c with active := c.active + 1, state := .checkedOut, lastCheckout := some (w.time 1) } ::
        after
  /-- The count of held slots does not go around, nor past the cap. -/
  counted : (c.active + 1).toNat = c.active.toNat + 1
  capped : c.active + 1 ≤ c.maxStreams
  supply : v.supply = w.supply.readClock.2.draw.2.readClock.2

/-- The session waits, no credential has changed, and draining the queue changes nothing more. -/
structure Joined (w v : World) (x : Session) : Prop where
  state : x.state = .queued
  credential : x.credential = none
  startedAt : x.startedAt = none
  credentials : v.store.credentials = w.store.credentials
  drain : ∀ u : World, u.store = v.store → (Broker.drainQueue x.service).run u = (0, u)
  supply : v.supply = w.supply.readClock.2.draw.2

/-- **A request, to the letter.** Whatever the store is, if the id that is drawn is not in use: a
request for a service that is not registered is refused, and nothing has changed. Any other comes
back with the session that it has stored, and all other sessions, the services, the users and the
ledger are as they were. The session runs exactly if some credential of the service has a slot. Then
it runs on the first of these in order of issue, which has one slot fewer and is the only one that
has changed. Otherwise it waits. If no stored session has a higher number than the counter, and the
counter does not go around, then the session has the highest number of all. -/
theorem requestSession_exact (w : World) (user : UserId) (service : ServiceId)
    (fresh : w.store.session? (w.asking user service).id = none)
    (counted : ∀ y ∈ w.store.sessions.entries, y.sequence ≤ w.store.sequence) :
    let r := (Broker.requestSession user service).run w
    (w.store.service? service = none → r = (.error (.serviceNotFound service), w)) ∧
    ∀ definition, w.store.service? service = some definition → ∃ x, r.1 = .ok x ∧
      r.2.store.session? x.id = some x ∧ Entered w r.2 user service x ∧
      (w.store.sequence.toNat + 1 < UInt64.size →
        ∀ y ∈ w.store.sessions.entries, y.sequence < x.sequence) ∧
      (x.state = .active ↔
        ∃ c ∈ w.store.credentials.entries, c.service = service ∧ c.hasCapacity = true) ∧
      (x.state = .active → ∃ before c after, Seated w r.2 x before c after) ∧
      (x.state ≠ .active → Joined w r.2 x) := by
  intro r
  refine ⟨fun unknown => run_requestSession_of_unknown user unknown, fun definition known => ?_⟩
  have above : w.store.sequence.toNat + 1 < UInt64.size → ∀ y ∈ w.store.sessions.entries,
      y.sequence < w.store.sequence + 1 := by
    intro room y hy
    have atMost := UInt64.le_iff_toNat_le.1 (counted y hy)
    rw [UInt64.lt_iff_toNat_lt, UInt64.toNat_add, UInt64.toNat_one, Nat.mod_eq_of_lt room]
    omega
  cases spare : (w.store.available service).head? with
  | none =>
    have full : w.store.available service = [] := List.head?_eq_none_iff.1 spare
    have run : r = _ := run_requestSession_eq_of_full user known full
    rw [run]
    refine ⟨_, rfl, (Table.find?_insert _ _ _).trans (if_pos rfl),
      ⟨rfl, rfl, rfl, rfl, rfl, rfl, rfl, Store.entries_addSession fresh, rfl, rfl,
        rfl, rfl, rfl⟩, above,
      iff_of_false nofun ?_, nofun,
      fun _ => ⟨rfl, rfl, rfl, rfl, fun u same => run_drainQueue_of_none ?_, rfl⟩⟩
    · rintro ⟨c, issued, serves, capacity⟩
      have among : c ∈ w.store.available service :=
        Store.mem_available.2 ⟨Table.find?_of_mem issued, serves, capacity⟩
      rw [full] at among
      cases among
    · rw [same]
      exact full
  | some c =>
    obtain ⟨stored, serves, capacity⟩ := Store.mem_available.1 (List.mem_of_head? spare)
    obtain ⟨more, within⟩ := Credential.active_occupy (w.time 1) capacity
    obtain ⟨-, before, after, issued, full⟩ := List.find?_eq_some_iff_append.1
      ((firstAvailable_eq w.store service).trans spare)
    have run : r = _ := run_requestSession_eq_of_spare user known spare
    rw [run]
    refine ⟨_, rfl, (Table.find?_insert _ _ _).trans (if_pos rfl),
      ⟨rfl, rfl, rfl, rfl, rfl, rfl, rfl, Store.entries_addSession fresh, rfl, rfl,
        rfl, rfl, rfl⟩, above,
      iff_of_true rfl ⟨c, (Store.credential?_eq_some_iff.1 stored).1, serves, capacity⟩,
      fun _ => ⟨before, c, after, rfl, rfl, serves, capacity, issued, fun d hd here => ?_, ?_, more,
        within, rfl⟩, fun idle => absurd rfl idle⟩
    · have none := full d hd
      rw [Bool.not_eq_true', Bool.and_eq_false_iff] at none
      exact none.resolve_left fun other => of_decide_eq_false other here
    · have distinct := w.store.credentials.nodup
      rw [issued, List.map_append, List.map_cons, List.nodup_append] at distinct
      change placeIn (c.occupy (w.time 1)) w.store.credentials.entries = _
      rw [issued]
      exact placeIn_append_cons (fun z hz => distinct.2.2 _ (List.mem_map_of_mem hz) _
        List.mem_cons_self) rfl

/-- A store that no commands lead to: sessions wait beside free slots, and some credentials hold
more slots than they have or hold them in vain. There is a service without credentials. -/
def outOfTurn : World :=
  neverReached.withStore
    { neverReached.store with
      services := (Table.empty.insert oneSlot).insert { oneSlot with id := "news" }
      sequence := 9 }

/-- Who asks for films gets the slot that others wait for, and who asks for news waits. -/
theorem requestSession_exact_outOfTurn :
    (∃ x before c after, ((Broker.requestSession "gil" "films").run outOfTurn).1 = .ok x ∧
      Seated outOfTurn ((Broker.requestSession "gil" "films").run outOfTurn).2 x before c after ∧
      x.sequence = 10 ∧ ∀ y ∈ outOfTurn.store.sessions.entries, y.sequence < x.sequence) ∧
    ∃ x, ((Broker.requestSession "gil" "news").run outOfTurn).1 = .ok x ∧
      Joined outOfTurn ((Broker.requestSession "gil" "news").run outOfTurn).2 x := by
  have fresh : outOfTurn.store.session? "0000000000000000" = none := by decide +kernel
  have counted : ∀ y ∈ outOfTurn.store.sessions.entries,
      y.sequence ≤ outOfTurn.store.sequence := by decide +kernel
  obtain ⟨x, run, -, entered, highest, runs, seated, -⟩ :=
    (requestSession_exact outOfTurn "gil" "films" fresh counted).2 oneSlot rfl
  obtain ⟨y, run', -, -, -, waits, -, joined⟩ :=
    (requestSession_exact outOfTurn "gil" "news" fresh counted).2 { oneSlot with id := "news" } rfl
  obtain ⟨before, c, after, seat⟩ := seated (runs.2 (by decide +kernel))
  exact ⟨⟨x, before, c, after, run, seat, entered.number, highest (by decide +kernel)⟩, y, run',
    joined (mt waits.1 (by decide +kernel))⟩

end SlotBroker
