import SlotBroker.Proofs.Headroom
import SlotBroker.Proofs.Parts

/-!
# What draining a queue does, to the letter

Draining looks at the queue and at the credentials anew in every round. What comes of it can be read
off the store at the beginning: the queue and the spare slots, one credential after the other in
order of issue, are paired off until either is used up. `World.placements` lists the pairs with the
times at which the rounds read the clock. No store is ruled out here, be it reachable or not, but
for those where two sessions tie.

Results:
* `placements_of_spare`: a round carries out the first placement and leaves the others as they are.
* `exists_drains`, `Drains.eq_placements`: rounds are made until no placement is left.
* `Drains.repeats`, `run_drainQueue`: the loop comes to its end by itself, and the bound that it
  names is never what stops it.
* `Drains.drained`: the placements are carried out, and nothing else is changed.
* **`drainQueue_exact`**: so draining admits as many as wait, or as there are slots if these are
  fewer, the oldest first, to the first free slots.
-/

namespace SlotBroker

/-! ## Loops without a bound -/

/-- Rounds of `body` are made until one says that it was the last, and nothing else stops them.
There are `n` of them then, and `r` is what they come to. -/
inductive Program.Repeats {σ : Type} (body : σ → Program (Bool × σ)) :
    Nat → σ → World → σ × World → Prop
  | last {s t : σ} {w v : World} (round : (body s).run w = ((false, t), v)) :
    Repeats body 1 s w (t, v)
  | again {n : Nat} {s t : σ} {w v : World} {r : σ × World}
    (round : (body s).run w = ((true, t), v)) (rest : Repeats body n t v r) :
    Repeats body (n + 1) s w r

/-- Where the rounds end by themselves, no bound that allows for them changes anything. -/
theorem Program.Repeats.rounds_eq {σ : Type} {body : σ → Program (Bool × σ)} {n : Nat} {s : σ}
    {w : World} {r : σ × World} (h : Repeats body n s w r) {limit : Nat} (enough : n ≤ limit) :
    rounds (fun s w => (body s).run w) limit s w = r := by
  induction h generalizing limit with
  | last round =>
    obtain ⟨limit, rfl⟩ := Nat.exists_eq_add_of_le' enough
    rw [rounds, round]
    rfl
  | again round _ ih =>
    obtain ⟨limit, rfl⟩ := Nat.exists_eq_add_of_le' (Nat.le_trans (Nat.le_add_left 1 _) enough)
    rw [rounds, round, if_pos rfl]
    exact ih (Nat.le_of_succ_le_succ enough)

/-! ## Placements -/

/-- A session's start on a slot of a credential. -/
structure Placement where
  session : Session
  credential : CredentialId
  /-- When the slot is checked out. -/
  taken : Millis
  /-- When the session starts on it. -/
  began : Millis
  deriving Repr, DecidableEq

/-- The credential after slots have been checked out at some times, one after the other. -/
def Credential.occupyEach (c : Credential) (times : List Millis) : Credential :=
  match times.getLast? with
  | none => c
  | some last =>
    { c with
      active := c.active + UInt32.ofNat times.length
      state := .checkedOut
      lastCheckout := some last }

theorem Credential.occupyEach_cons (c : Credential) (time : Millis) (times : List Millis) :
    c.occupyEach (time :: times) = (c.occupy time).occupyEach times := by
  cases last : times.getLast? with
  | none =>
    obtain rfl := List.getLast?_eq_none_iff.1 last
    rfl
  | some t =>
    have count : c.active + UInt32.ofNat (times.length + 1) =
        c.active + 1 + UInt32.ofNat times.length := by
      rw [Nat.add_comm, UInt32.ofNat_add, ← UInt32.add_assoc]
      rfl
    simp only [occupyEach, List.getLast?_cons, last, Option.getD_some, List.length_cons, count,
      occupy]

/-- A record that gives way to one of its key gives way in its place. -/
theorem placeIn_append_cons {α : Type} [Keyed α] {v x : α} {xs ys : List α}
    (before : ∀ z ∈ xs, Keyed.key z ≠ Keyed.key v) (here : Keyed.key x = Keyed.key v) :
    placeIn v (xs ++ x :: ys) = xs ++ v :: ys := by
  induction xs with
  | nil => exact if_pos here
  | cons z zs ih =>
    rw [List.cons_append, placeIn, if_neg (before z List.mem_cons_self),
      ih fun z' hz => before z' (List.mem_cons_of_mem z hz), List.cons_append]

namespace Store

variable {s : Store} {service : ServiceId} {h : Session} {c : Credential}

/-- The spare slots of a service, one credential after the other in order of issue: the name of each
credential as often as it has slots to spare. -/
def freeSlots (s : Store) (service : ServiceId) : List CredentialId :=
  (s.credentialsOf service).flatMap fun c => List.replicate c.spareSlots.toNat c.id

theorem length_freeSlots (s : Store) (service : ServiceId) :
    (s.freeSlots service).length = s.spareSlots service := by
  simp only [freeSlots, List.length_flatMap, List.length_replicate]
  rfl

theorem credentialsOf_addCredential (s : Store) {c d : Credential}
    (known : s.credential? c.id = some d) (serves : d.service = c.service) (a : ServiceId) :
    (s.addCredential c).credentialsOf a =
      if c.service = a then placeIn c (s.credentialsOf a) else s.credentialsOf a := by
  have part := congrArg Part.credentials (part_addCredential (s := s) (c := c) (fun e he => by
    rw [← Option.some.inj (known.symm.trans he), serves]) a)
  refine part.trans ?_
  split <;> rfl

/-- **The first spare slot is the one of the first credential that has any**; when it is taken, all
others are as spare as they were. -/
theorem freeSlots_occupy (spare : (s.available service).head? = some c) (taken : Millis) :
    s.freeSlots service = c.id :: (s.addCredential (c.occupy taken)).freeSlots service := by
  obtain ⟨known, serves, capacity⟩ := mem_available.1 (List.mem_of_head? spare)
  rw [available_eq_filter, List.head?_filter] at spare
  obtain ⟨-, xs, ys, split, full⟩ := List.find?_eq_some_iff_append.1 spare
  have distinct : ((s.credentialsOf service).map Keyed.key).Nodup :=
    s.credentials.nodup.sublist (List.filter_sublist.map _)
  rw [split, List.map_append, List.map_cons, List.nodup_append] at distinct
  have apart : ∀ x ∈ xs, Keyed.key x ≠ Keyed.key (c.occupy taken) := fun x hx =>
    distinct.2.2 _ (List.mem_map_of_mem hx) _ List.mem_cons_self
  have none : xs.flatMap (fun c => List.replicate c.spareSlots.toNat c.id) = [] :=
    List.flatMap_eq_nil_iff.2 fun x hx => by
      have := full x hx
      rw [Bool.not_eq_true', ← Bool.not_eq_true, Credential.hasCapacity_iff_spareSlots] at this
      rw [Nat.eq_zero_of_not_pos this, List.replicate_zero]
  unfold freeSlots
  rw [s.credentialsOf_addCredential (c := c.occupy taken) known rfl,
    if_pos (show (c.occupy taken).service = service from serves), split,
    placeIn_append_cons (x := c) apart rfl, List.flatMap_append, List.flatMap_append, none,
    List.flatMap_cons, List.flatMap_cons, ← Credential.spareSlots_occupy capacity taken,
    List.replicate_succ]
  rfl

/-- When the head of a queue has started, the others wait on. -/
theorem Apart.queue_grant (apart : s.Apart) (head : (s.queue service).head? = some h)
    (taken began : Millis) :
    (s.grant h c taken began).Apart ∧
      s.queue service = h :: (s.grant h c taken began).queue service := by
  obtain ⟨stored, waits, -⟩ := mem_queue.1 (List.mem_of_head? head)
  have apart' : (s.grant h c taken began).Apart :=
    Apart.insert (s := s.addCredential (c.occupy taken)) (x := h) apart stored rfl
  exact ⟨apart', apart'.queue_of_head head (y := h.started c.id began) nofun fun id =>
    Table.find?_insert _ _ _⟩

/-- The queues of other services stay as they are. -/
theorem Apart.queue_grant_of_ne {a : ServiceId} (apart : s.Apart)
    (head : (s.queue service).head? = some h) (other : a ≠ service) (taken began : Millis) :
    (s.grant h c taken began).queue a = s.queue a := by
  obtain ⟨stored, -, asks⟩ := mem_queue.1 (List.mem_of_head? head)
  refine (apart.queue_grant head taken began).1.queue_of_elsewhere stored
    (y := h.started c.id began) nofun (fun id => Table.find?_insert _ _ _) fun mem => other ?_
  exact (mem_queue.1 mem).2.2.symm.trans asks

end Store

namespace World

/-- Who waits for a service, the oldest first, each with a slot, the first first, for as long as
there are both. The clock is read for each twice, for the slot and for the session. -/
def placements (w : World) (service : ServiceId) : List Placement :=
  ((w.store.queue service).zip (w.store.freeSlots service)).mapIdx fun i p =>
    ⟨p.1, p.2, w.time (2 * i), w.time (2 * i + 1)⟩

/-- The world after a session has started on a slot. -/
def seat (w : World) (h : Session) (c : Credential) : World :=
  (w.tick 2).withStore (w.store.grant h c (w.time 0) (w.time 1))

variable {w : World} {service : ServiceId} {h : Session} {c : Credential}

theorem length_placements (w : World) (service : ServiceId) :
    (w.placements service).length =
      min (w.store.queue service).length (w.store.spareSlots service) := by
  rw [placements, List.length_mapIdx, List.length_zip, Store.length_freeSlots]

theorem placements_of_none
    (none : w.store.queue service = [] ∨ w.store.available service = []) :
    w.placements service = [] := by
  refine List.eq_nil_of_length_eq_zero ((w.length_placements service).trans ?_)
  rcases none with nobody | full
  · rw [nobody, List.length_nil, Nat.zero_min]
  · rw [Store.spareSlots_eq_zero_iff.2 full, Nat.min_zero]

/-- **A round carries out the first placement** and leaves the others as they are. -/
theorem placements_of_spare (apart : w.store.Apart)
    (head : (w.store.queue service).head? = some h)
    (spare : (w.store.available service).head? = some c) :
    w.placements service =
      ⟨h, c.id, w.time 0, w.time 1⟩ :: (w.seat h c).placements service := by
  have later : ∀ k, (w.seat h c).time k = w.time (k + 2) := fun k =>
    congrArg w.supply.reading (by change _ + 2 + k = _; omega)
  have slots : (w.seat h c).store.freeSlots service =
      (w.store.addCredential (c.occupy (w.time 0))).freeSlots service := rfl
  unfold placements
  rw [(apart.queue_grant (c := c) head (w.time 0) (w.time 1)).2,
    Store.freeSlots_occupy spare (w.time 0), List.zip_cons_cons, List.mapIdx_cons, slots]
  simp only [later, Nat.mul_add, Nat.mul_one, Nat.add_right_comm _ 2 1]
  rfl

end World

/-! ## Rounds -/

/-- Seats are given out one by one: each round takes the head of the queue and the first slot, and
the last one finds that there is no such pair any more. -/
inductive Drains (service : ServiceId) : World → List Placement → World → Prop
  | done {w : World}
    (none : w.store.queue service = [] ∨ w.store.available service = []) : Drains service w [] w
  | grant {w v : World} {h : Session} {c : Credential} {ps : List Placement}
    (head : (w.store.queue service).head? = some h)
    (spare : (w.store.available service).head? = some c)
    (rest : Drains service (w.seat h c) ps v) :
    Drains service w (⟨h, c.id, w.time 0, w.time 1⟩ :: ps) v

section Rounds

variable {service : ServiceId} {w v : World} {ps : List Placement}

/-- **The rounds come to an end**: each makes the queue shorter. -/
theorem exists_drains (service : ServiceId) (w : World) : ∃ ps v, Drains service w ps v := by
  by_cases none : w.store.queue service = [] ∨ w.store.available service = []
  · exact ⟨[], w, .done none⟩
  · obtain ⟨hqueue, havailable⟩ := not_or.1 none
    obtain ⟨h, head⟩ := Option.isSome_iff_exists.1 (List.isSome_head?.2 hqueue)
    obtain ⟨c, spare⟩ := Option.isSome_iff_exists.1 (List.isSome_head?.2 havailable)
    have shorter := queueDepth_grant (c := c) (t := w.time 0) (u := w.time 1) head
    obtain ⟨ps, v, rest⟩ := exists_drains service (w.seat h c)
    exact ⟨_, v, .grant head spare rest⟩
termination_by w.store.queueDepth service
decreasing_by
  rw [World.seat, World.store_withStore]
  omega

namespace Drains

/-- What the rounds carry out are the placements. -/
theorem eq_placements (h : Drains service w ps v) (apart : w.store.Apart) :
    ps = w.placements service := by
  induction h with
  | done none => exact (World.placements_of_none none).symm
  | @grant w _ h c _ head spare _ ih =>
    rw [World.placements_of_spare apart head spare,
      ← ih (apart.queue_grant (c := c) head (w.time 0) (w.time 1)).1]

theorem length_le (h : Drains service w ps v) : ps.length ≤ w.store.queueDepth service := by
  induction h with
  | done => exact Nat.zero_le _
  | @grant w _ h c ps head _ _ ih =>
    have shorter := queueDepth_grant (c := c) (t := w.time 0) (u := w.time 1) head
    rw [World.seat, World.store_withStore] at ih
    rw [List.length_cons]
    omega

theorem none_left (h : Drains service w ps v) :
    v.store.queue service = [] ∨ v.store.available service = [] := by
  induction h with
  | done none => exact none
  | grant _ _ _ ih => exact ih

/-- **The loop ends by itself**, one round after the last placement. -/
theorem repeats (h : Drains service w ps v) (n : Nat) :
    Program.Repeats (Broker.drainRound service) (ps.length + 1) n w (n + ps.length, v) := by
  induction h generalizing n with
  | done none => exact .last (run_drainRound_of_none none)
  | @grant w v x c ps head spare _ ih =>
    have rest := ih (n + 1)
    rw [Nat.add_right_comm, Nat.add_assoc] at rest
    exact .again (run_drainRound_of_spare head spare) rest

end Drains

/-- Draining counts the placements and carries them out. -/
theorem run_drainQueue (h : Drains service w ps v) :
    ((Broker.drainQueue service).run w).1 = ps.length ∧
      ((Broker.drainQueue service).run w).2.store = v.store := by
  have looped := (h.repeats 0).rounds_eq (Nat.succ_le_succ h.length_le)
  refine ⟨?_, by rw [store_run_drainQueue, looped]⟩
  unfold Broker.drainQueue
  simp only [Program.bind_eq, Program.pure_eq]
  rw [Program.run_bind, Program.run_repeatWhile]
  rw [show Broker.drainLimit service w.platform = w.store.queueDepth service + 1 from rfl, looped,
    Nat.zero_add]
  split
  · rfl
  · rfl

/-- When the slots of a credential are taken for some placements. -/
def takes (ps : List Placement) (id : CredentialId) : List Millis :=
  (ps.filter fun p => p.credential = id).map (·.taken)

/-- Placements have been carried out from the one store to the other, and nothing else has been
changed. -/
structure Drained (s : Store) (ps : List Placement) (t : Store) : Prop where
  /-- Each session runs on its slot, and waited before. -/
  placed : ∀ p ∈ ps, s.session? p.session.id = some p.session ∧ p.session.state = .queued ∧
    t.session? p.session.id = some
      { p.session with
        state := .active, credential := some p.credential, startedAt := some p.began }
  others : ∀ id, (∀ p ∈ ps, p.session.id ≠ id) → t.session? id = s.session? id
  /-- A credential on which nobody has been placed is as it was. -/
  credential : ∀ id,
    t.credential? id = (s.credential? id).map fun c => c.occupyEach (takes ps id)
  /-- The count of held slots does not go around. -/
  active : ∀ {id c}, s.credential? id = some c →
    (c.occupyEach (takes ps id)).active.toNat = c.active.toNat + (takes ps id).length
  sessionKeys : t.sessions.keys = s.sessions.keys
  credentialKeys : t.credentials.keys = s.credentials.keys
  services : t.services = s.services
  users : t.users = s.users
  ledger : t.ledger = s.ledger
  sequence : t.sequence = s.sequence

theorem Drained.nil (s : Store) : Drained s [] s where
  placed _ hp := nomatch hp
  others _ _ := rfl
  credential id := by
    cases s.credential? id <;> rfl
  active _ := rfl
  sessionKeys := rfl
  credentialKeys := rfl
  services := rfl
  users := rfl
  ledger := rfl
  sequence := rfl

theorem takes_cons (p : Placement) (ps : List Placement) (id : CredentialId) :
    takes (p :: ps) id = if p.credential = id then p.taken :: takes ps id else takes ps id := by
  by_cases h : p.credential = id <;> simp [takes, h]

/-- A session starts on a slot, and then the other placements are carried out. -/
theorem Drained.cons {s t : Store} {ps : List Placement} {service : ServiceId} {h : Session}
    {c : Credential} {taken began : Millis} (head : (s.queue service).head? = some h)
    (spare : (s.available service).head? = some c)
    (rest : Drained (s.grant h c taken began) ps t) :
    Drained s (⟨h, c.id, taken, began⟩ :: ps) t := by
  obtain ⟨stored, waits, -⟩ := Store.mem_queue.1 (List.mem_of_head? head)
  obtain ⟨known, -, capacity⟩ := Store.mem_available.1 (List.mem_of_head? spare)
  have there : ∀ id, (s.grant h c taken began).session? id =
      if h.id = id then some (h.started c.id began) else s.session? id := fun id =>
    Table.find?_insert _ _ _
  have held : ∀ id, (s.grant h c taken began).credential? id =
      if c.id = id then some (c.occupy taken) else s.credential? id := fun id =>
    Table.find?_insert _ _ _
  -- who is placed later waits still, so it is somebody else
  have apart : ∀ p ∈ ps, h.id ≠ p.session.id := fun p hp same => by
    obtain ⟨waiting, queued, -⟩ := rest.placed p hp
    rw [there, if_pos same] at waiting
    rw [← Option.some.inj waiting] at queued
    cases queued
  refine ⟨fun p hp => ?_, fun id hid => ?_, fun id => ?_, fun {id d} hd => ?_, ?_, ?_,
    rest.services, rest.users, rest.ledger, rest.sequence⟩
  · rcases List.mem_cons.1 hp with rfl | hp
    · refine ⟨stored, waits, ?_⟩
      rw [rest.others h.id fun p hp same => apart p hp same.symm, there, if_pos rfl]
      rfl
    · obtain ⟨waiting, queued, runs⟩ := rest.placed p hp
      rw [there, if_neg (apart p hp)] at waiting
      exact ⟨waiting, queued, runs⟩
  · rw [rest.others id fun p hp => hid p (List.mem_cons_of_mem _ hp), there,
      if_neg (hid _ List.mem_cons_self)]
  · rw [rest.credential, held, takes_cons]
    by_cases same : c.id = id
    · subst same
      rw [if_pos rfl, if_pos rfl, known, Option.map_some, Option.map_some,
        Credential.occupyEach_cons]
    · rw [if_neg same, if_neg same]
  · rw [takes_cons]
    by_cases same : c.id = id
    · subst same
      obtain rfl := Option.some.inj (known.symm.trans hd)
      have more := (Credential.active_occupy taken capacity).1
      have others := @rest.active c.id (c.occupy taken) (by rw [held, if_pos rfl])
      rw [if_pos rfl, Credential.occupyEach_cons, others, more, List.length_cons]
      omega
    · rw [if_neg same]
      exact rest.active (by rw [held, if_neg same]; exact hd)
  · rw [rest.sessionKeys]
    exact (Table.keys_insert _ _).trans
      (if_pos (List.mem_map.2 ⟨h, (Store.session?_eq_some_iff.1 stored).1, rfl⟩))
  · rw [rest.credentialKeys]
    exact (Table.keys_insert _ _).trans
      (if_pos (List.mem_map.2 ⟨c, (Store.credential?_eq_some_iff.1 known).1, rfl⟩))

/-- **The placements are carried out**, and nothing else is changed. -/
theorem Drains.drained (h : Drains service w ps v) : Drained w.store ps v.store := by
  induction h with
  | done => exact .nil _
  | grant head spare _ ih => exact .cons head spare ih

/-- **Draining, to the letter.** Whatever the store is, if no two sessions have the same number then
draining a queue comes to an end by itself, after as many rounds as it admits sessions and one more.
It admits the first of those who wait, as many as there are or as there are spare slots if these are
fewer, and places each on the first slot left. Nothing else is changed, and in the end nobody waits
or no slot is left. -/
theorem drainQueue_exact (apart : w.store.Apart) (service : ServiceId) :
    let r := (Broker.drainQueue service).run w
    let ps := w.placements service
    ((w.store.queue service).Pairwise Session.Precedes ∧ ∀ x, x ∈ w.store.queue service ↔
      w.store.session? x.id = some x ∧ x.state = .queued ∧ x.service = service) ∧
    ps.length = min (w.store.queue service).length (w.store.spareSlots service) ∧
    r.1 = ps.length ∧
    (∃ v, Program.Repeats (Broker.drainRound service) (ps.length + 1) 0 w (ps.length, v) ∧
      r.2.store = v.store) ∧
    Drained w.store ps r.2.store ∧
    (r.2.store.queue service = [] ∨ r.2.store.available service = []) := by
  obtain ⟨ps, v, drains⟩ := exists_drains service w
  obtain ⟨count, store⟩ := run_drainQueue drains
  have rounds := drains.repeats 0
  rw [Nat.zero_add] at rounds
  obtain rfl := drains.eq_placements apart
  refine ⟨⟨apart.queue_precedes service, fun x => Store.mem_queue⟩, w.length_placements service,
    count, ⟨v, rounds, store⟩, ?_, ?_⟩
  · rw [store]
    exact drains.drained
  · rw [store]
    exact drains.none_left

end Rounds

/-- A store that no commands lead to. A credential is disabled with slots left, one holds more slots
than it has, one is free but counts a session, and no service is registered. -/
def neverReached : World where
  platform.store :=
    { credentials :=
        [credential "gone" "films" .disabled 2 1, credential "one" "films" .available 1 0,
          credential "other" "tunes" .available 4 0, credential "over" "films" .checkedOut 3 5,
          credential "some" "films" .available 4 1].foldl .insert .empty
      sessions :=
        [waiting "ann" "films" 7 9, waiting "bob" "films" 7 4, waiting "cy" "films" 3 8,
          waiting "dee" "tunes" 1 1, waiting "eve" "films" 9 2, waiting "flo" "films" 9 3].foldl
          .insert .empty }
  supply := { reading := fun n => UInt64.ofNat (100 + n), word := UInt64.ofNat }
where
  credential (id : CredentialId) (service : ServiceId) (state : CredentialState)
      (maxStreams active : UInt32) : Credential :=
    { id, service, identity := id, sealedSecret := "", tier := .premium, maxStreams, state, active,
      lastCheckout := none }
  waiting (id : SessionId) (service : ServiceId) (queuedAt : Millis) (sequence : UInt64) :
      Session :=
    { id, user := id, service, queuedAt, sequence }

/-- Four of five who wait are admitted, the first to the only slot of the one credential and the
others to the slots of the other. -/
theorem drainQueue_exact_neverReached :
    let r := (Broker.drainQueue "films").run neverReached
    neverReached.store.Apart ∧ r.1 = 4 ∧
      (neverReached.placements "films").map (fun p => (p.session.id, p.credential, p.began)) =
        [("cy", "one", 101), ("bob", "some", 103), ("ann", "some", 105), ("eve", "some", 107)] ∧
      Drained neverReached.store (neverReached.placements "films") r.2.store := by
  have apart : neverReached.store.Apart := by
    unfold Store.Apart
    decide
  have four : (neverReached.placements "films").length = 4 := by cbv
  obtain ⟨-, -, count, -, drained, -⟩ := drainQueue_exact apart "films"
  exact ⟨apart, count.trans four, by cbv, drained⟩

end SlotBroker
