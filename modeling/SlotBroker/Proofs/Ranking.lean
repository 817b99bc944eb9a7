import SlotBroker.Proofs.Asked
import SlotBroker.Proofs.Asking
import SlotBroker.Proofs.Isolation
import SlotBroker.Proofs.Timeline

/-!
# Places in the queue

The list of a queue, its depth and the place of one session are three views of one unordered table,
each computed anew whenever it is asked for. They agree because no two sessions have the same
number: the list is then the only one in order, and a place in it is the number of those before.

Operations change the list in three ways. A session that is ended while it waits is taken out, those
that are let in are dropped from the head, and a new one is put at the end; the latter only where no
clock has gone back. What becomes of the places is read off the list.

Results:
* `World.place_eq_some_iff`: the place that a session is shown is where it stands in a list.
* `World.ranked`: a queue lists those who wait, and their places are all numbers below its depth.
* `World.Moves.of_queues`: places move as the lists do.
* `moves_endSession`, `letsIn_drainQueue`, `Reclaims.letsIn`, `place_requestSession`: how the places
  move when a session is cancelled, when a queue is drained, when slots are reclaimed, and when a
  session is asked for.
* `Http.shows_handle`: the answers that show a session show its place.
* **`queue_positions_rank`**: so places are a ranking without gaps that moves with the queue.
-/

namespace SlotBroker

/-! ## Places -/

namespace World

/-- The place in the queue of its service that a session is shown. -/
def place (w : World) (id : SessionId) : Option Nat := ((Broker.queuePosition id).run w).1

/-- Who waits for a service. -/
def waiting (w : World) (service : ServiceId) : Set SessionId :=
  {id | ∃ x, w.store.session? id = some x ∧ x.state = .queued ∧ x.service = service}

variable {w v : World} {service : ServiceId} {x y : Session} {id : SessionId} {i : Nat}

theorem place_of_store_eq (same : v.store = w.store) (id : SessionId) :
    v.place id = w.place id := by
  rw [place, place, run_queuePosition, run_queuePosition, same]

/-- Where a session stands in the queue of its service, there it is shown to stand. -/
theorem place_of_getElem? (here : (w.store.queue service)[i]? = some x) :
    w.place x.id = some i := by
  obtain ⟨stored, waits, rfl⟩ := Store.mem_queue.1 (List.mem_of_getElem? here)
  obtain ⟨below, own⟩ := List.getElem?_eq_some_iff.1 here
  rw [place, run_queuePosition, stored, Option.bind_some, if_pos waits,
    List.findIdx?_eq_some_iff_getElem]
  refine ⟨below, decide_eq_true (congrArg Session.id own), fun j before same => ?_⟩
  -- nobody else has this id, and nobody stands at two places
  have there := Store.mem_queue.1 (List.getElem_mem (before.trans below))
  rw [of_decide_eq_true same, stored] at there
  have twice := (Option.some.inj there.1).symm.trans own.symm
  exact absurd ((w.store.queue_nodup _).getElem_inj_iff.1 twice) (Nat.ne_of_lt before)

/-- **The place that a session is shown is where it stands in a queue.** -/
theorem place_eq_some_iff : w.place id = some i ↔
    ∃ service x, (w.store.queue service)[i]? = some x ∧ x.id = id := by
  constructor
  · intro shown
    rw [place, run_queuePosition] at shown
    obtain ⟨x, found, shown⟩ := Option.bind_eq_some_iff.1 shown
    split at shown
    · obtain ⟨below, own, -⟩ := List.findIdx?_eq_some_iff_getElem.1 shown
      exact ⟨x.service, _, List.getElem?_eq_getElem below, of_decide_eq_true own⟩
    · cases shown
  · rintro ⟨service, x, here, rfl⟩
    exact place_of_getElem? here

theorem exists_place_of_mem (mem : x ∈ w.store.queue service) :
    ∃ i, (w.store.queue service)[i]? = some x ∧ w.place x.id = some i := by
  obtain ⟨i, here⟩ := List.mem_iff_getElem?.1 mem
  exact ⟨i, here, place_of_getElem? here⟩

theorem mem_waiting : id ∈ w.waiting service ↔ ∃ x ∈ w.store.queue service, x.id = id := by
  constructor
  · rintro ⟨x, found, waits, asks⟩
    obtain rfl := (Store.session?_eq_some_iff.1 found).2
    exact ⟨x, Store.mem_queue.2 ⟨found, waits, asks⟩, rfl⟩
  · rintro ⟨x, mem, rfl⟩
    exact ⟨x, Store.mem_queue.1 mem⟩

/-- **A session has a place exactly if it waits.** -/
theorem isSome_place_iff (w : World) (id : SessionId) :
    (w.place id).isSome = true ↔ ∃ x, w.store.session? id = some x ∧ x.state = .queued := by
  rw [Option.isSome_iff_exists]
  constructor
  · rintro ⟨i, shown⟩
    obtain ⟨service, x, here, rfl⟩ := place_eq_some_iff.1 shown
    obtain ⟨found, waits, -⟩ := Store.mem_queue.1 (List.mem_of_getElem? here)
    exact ⟨x, found, waits⟩
  · rintro ⟨x, found, waits⟩
    obtain ⟨y, mem, rfl⟩ := mem_waiting.1 ⟨x, found, waits, rfl⟩
    obtain ⟨i, -, shown⟩ := exists_place_of_mem mem
    exact ⟨i, shown⟩

end World

/-! ## The ranking -/

theorem Session.Precedes.asymm {a b : Session} (h : a.Precedes b) : ¬ b.Precedes a := by
  simp only [Precedes, UInt64.lt_iff_toNat_lt, ← UInt64.toNat_inj] at h ⊢
  omega

/-- In a list where everybody precedes all behind, as many precede one as stand before it. -/
theorem countP_precedes {xs : List Session} (ordered : xs.Pairwise Session.Precedes) {i : Nat}
    {x : Session} (here : xs[i]? = some x) : xs.countP (fun y => decide (y.Precedes x)) = i := by
  induction xs generalizing i with
  | nil => cases here
  | cons a rest ih =>
    obtain ⟨ahead, ordered⟩ := List.pairwise_cons.1 ordered
    cases i with
    | zero =>
      obtain rfl := Option.some.inj here
      refine List.countP_eq_zero.2 fun y hy precedes => ?_
      have precedes := of_decide_eq_true precedes
      rcases List.mem_cons.1 hy with rfl | hy
      · exact precedes.asymm precedes
      · exact (ahead y hy).asymm precedes
    | succ i =>
      have before := ahead x (List.mem_of_getElem? here)
      rw [List.countP_cons, ih ordered here, if_pos (decide_eq_true before)]

/-- The queue of a service ranks those who wait for it. -/
structure World.Ranked (w : World) (service : ServiceId) : Prop where
  /-- Everybody who waits is listed. -/
  listed : ∀ x, x ∈ w.store.queue service ↔
    x ∈ w.store.sessions.entries ∧ x.state = .queued ∧ x.service = service
  once : (w.store.queue service).Nodup
  /-- Everybody has asked before those behind, or at the same time and was stored before them. -/
  ordered : (w.store.queue service).Pairwise Session.Precedes
  /-- The order in which the sessions are kept does not matter. -/
  steady : ∀ t : Store, t.sessions.entries.Perm w.store.sessions.entries →
    t.queue service = w.store.queue service
  depth : w.store.queueDepth service = (w.store.queue service).length
  /-- Every place below the depth is that of one who waits, and of one only. -/
  places : Set.BijOn w.place (w.waiting service) (some '' Set.Iio (w.store.queueDepth service))
  /-- A place is the number of those who wait and come before. -/
  rank : ∀ x ∈ w.store.queue service, w.place x.id =
    some (w.store.sessions.entries.countP fun y => y.waitsFor service && decide (y.Precedes x))

/-- **Where no two sessions have the same number, every queue is a ranking.** -/
theorem World.ranked {w : World} (apart : w.store.Apart) (service : ServiceId) :
    w.Ranked service where
  listed x := by
    rw [Store.queue, Store.mem_sessionsMatching, Session.waitsFor, Bool.and_eq_true,
      decide_eq_true_iff, decide_eq_true_iff]
  once := w.store.queue_nodup service
  ordered := apart.queue_precedes service
  steady t same := by
    refine (apart.queue_eq (t.queue_sorted service) (t.queue_nodup service) fun x => ?_).symm
    rw [Store.queue, Store.queue, Store.mem_sessionsMatching, Store.mem_sessionsMatching,
      same.mem_iff]
  depth := w.store.queueDepth_eq_length service
  places := by
    rw [w.store.queueDepth_eq_length service]
    refine ⟨fun id waits => ?_, fun a ha b hb same => ?_, ?_⟩
    · obtain ⟨x, mem, rfl⟩ := mem_waiting.1 waits
      obtain ⟨i, here, shown⟩ := exists_place_of_mem mem
      exact ⟨i, (List.getElem?_eq_some_iff.1 here).1, shown.symm⟩
    · obtain ⟨x, mem, rfl⟩ := mem_waiting.1 ha
      obtain ⟨y, mem', rfl⟩ := mem_waiting.1 hb
      obtain ⟨i, here, shown⟩ := exists_place_of_mem mem
      obtain ⟨j, here', shown'⟩ := exists_place_of_mem mem'
      obtain rfl := Option.some.inj (shown.symm.trans (same.trans shown'))
      exact congrArg Session.id (Option.some.inj (here.symm.trans here'))
    · rintro _ ⟨i, below, rfl⟩
      have here := List.getElem?_eq_getElem (Set.mem_Iio.1 below)
      exact ⟨_, mem_waiting.2 ⟨_, List.mem_of_getElem? here, rfl⟩, place_of_getElem? here⟩
  rank x mem := by
    obtain ⟨i, here, shown⟩ := exists_place_of_mem mem
    have ahead := countP_precedes (apart.queue_precedes service) here
    rw [Store.queue, Store.sessionsMatching, (List.mergeSort_perm _ _).countP_eq,
      List.countP_filter] at ahead
    rw [shown, ← ahead]
    exact congrArg some (List.countP_congr fun y _ => by rw [Bool.and_comm])

/-! ## Moves -/

/-- Where the places of a queue move when the session at place `i` leaves it. -/
def vacating (i j : Nat) : Option Nat :=
  if j < i then some j else if j = i then none else some (j - 1)

/-- Where the places of a queue move when the first `k` sessions are let in. -/
def admitting (k j : Nat) : Option Nat := if j < k then none else some (j - k)

/-- Places move in the queue of one service only. -/
def onlyIn (service : ServiceId) (move : Nat → Option Nat) (a : ServiceId) : Nat → Option Nat :=
  if a = service then move else some

/-- From the one world to the other, places have moved, those of each service in one way; nobody has
a new one. -/
structure World.Moves (w v : World) (move : ServiceId → Nat → Option Nat) : Prop where
  within : ∀ a, ∀ id ∈ w.waiting a, v.place id = (w.place id).bind (move a)
  without : ∀ id, w.place id = none → v.place id = none

section Moves

variable {w v : World} {service : ServiceId} {move : ServiceId → Nat → Option Nat}
  {x y : Session} {i j k : Nat}

/-- **Places move as the queues do.** -/
theorem World.Moves.of_queues
    (queues : ∀ a i x, (v.store.queue a)[i]? = some x ↔
      ∃ j, (w.store.queue a)[j]? = some x ∧ move a j = some i) : w.Moves v move := by
  have stood : ∀ {a i x}, (v.store.queue a)[i]? = some x → ∃ j, w.place x.id = some j ∧
      x ∈ w.store.queue a ∧ move a j = some i := fun here => by
    obtain ⟨j, there, moved⟩ := (queues _ _ _).1 here
    exact ⟨j, place_of_getElem? there, List.mem_of_getElem? there, moved⟩
  constructor
  · intro a id waits
    obtain ⟨x, mem, rfl⟩ := mem_waiting.1 waits
    obtain ⟨j, there, shown⟩ := exists_place_of_mem mem
    obtain ⟨found, -, asks⟩ := Store.mem_queue.1 mem
    ext i
    rw [shown, Option.bind_some, place_eq_some_iff]
    constructor
    · rintro ⟨b, y, here, same⟩
      obtain ⟨j', shown', mem', moved⟩ := stood here
      -- of those whose id the session has, only the session itself is stored
      obtain ⟨found', -, asks'⟩ := Store.mem_queue.1 mem'
      rw [same, found] at found'
      obtain rfl := Option.some.inj found'
      obtain rfl := Option.some.inj (shown.symm.trans shown')
      obtain rfl : a = b := asks.symm.trans asks'
      exact moved
    · exact fun moved => ⟨a, x, (queues _ _ _).2 ⟨j, there, moved⟩, rfl⟩
  · intro id nowhere
    refine Option.eq_none_iff_forall_ne_some.2 fun i shown => ?_
    obtain ⟨a, x, here, rfl⟩ := place_eq_some_iff.1 shown
    obtain ⟨j, before, -⟩ := stood here
    cases nowhere.symm.trans before

theorem getElem?_drop_iff {xs : List Session} : (xs.drop k)[i]? = some x ↔
    ∃ j, xs[j]? = some x ∧ admitting k j = some i := by
  rw [List.getElem?_drop]
  unfold admitting
  constructor
  · intro here
    refine ⟨k + i, here, ?_⟩
    rw [if_neg (by omega)]
    exact congrArg some (Nat.add_sub_cancel_left ..)
  · rintro ⟨j, there, moved⟩
    split at moved
    · cases moved
    · obtain rfl := Option.some.inj moved
      rwa [Nat.add_sub_cancel' (by omega)]

theorem getElem?_eraseIdx_iff {xs : List Session} : (xs.eraseIdx k)[i]? = some x ↔
    ∃ j, xs[j]? = some x ∧ vacating k j = some i := by
  rw [List.getElem?_eraseIdx]
  unfold vacating
  constructor
  · intro here
    split at here
    · exact ⟨i, here, if_pos ‹_›⟩
    · refine ⟨i + 1, here, ?_⟩
      rw [if_neg (by omega), if_neg (by omega)]
      rfl
  · rintro ⟨j, there, moved⟩
    split at moved
    · obtain rfl := Option.some.inj moved
      rwa [if_pos ‹_›]
    · split at moved
      · cases moved
      · obtain rfl := Option.some.inj moved
        rw [if_neg (by omega), Nat.sub_add_cancel (by omega)]
        exact there

end Moves

/-! ## Leaving the queue -/

/-- Of a list without repetitions, all but one session are what is left without its place. -/
theorem filter_ne_eq_eraseIdx {xs : List Session} (nodup : xs.Nodup) {i : Nat} {x : Session}
    (here : xs[i]? = some x) : (xs.filter fun z => z ≠ x) = xs.eraseIdx i := by
  induction xs generalizing i with
  | nil => cases here
  | cons a rest ih =>
    obtain ⟨new, nodup⟩ := List.nodup_cons.1 nodup
    cases i with
    | zero =>
      obtain rfl := Option.some.inj here
      rw [List.filter_cons_of_neg (by simp), List.eraseIdx_cons_zero, List.filter_eq_self]
      exact fun z hz => decide_eq_true fun same => new (same ▸ hz)
    | succ i =>
      have apart : a ≠ x := fun same => new (same ▸ List.mem_of_getElem? here)
      rw [List.filter_cons, if_pos (decide_eq_true apart), List.eraseIdx_cons_succ, ih nodup here]

/-- **When a waiting session is ended, those behind it move up by one.** -/
theorem moves_endSession {w : World} {id : SessionId} {x : Session} {i : Nat}
    (apart : w.store.Apart) (found : w.store.session? id = some x) (shown : w.place id = some i) :
    w.Moves ((Broker.endSession id).run w).2 (onlyIn x.service (vacating i)) := by
  obtain ⟨a, z, here, rfl⟩ := World.place_eq_some_iff.1 shown
  obtain ⟨stored, waits, rfl⟩ := Store.mem_queue.1 (List.mem_of_getElem? here)
  obtain rfl := Option.some.inj (stored.symm.trans found)
  obtain ⟨y, moved⟩ : ∃ y, z.apply (.finish (w.time 0)) = some y := by
    simp [Session.apply, waits, Session.State.next]
  obtain ⟨hid, -, -, -, number⟩ := Session.fixed_apply moved
  have away := Session.state_ne_queued_of_apply moved
  have apart' : Store.Apart { w.store with sessions := w.store.sessions.insert y } :=
    apart.insert (Store.session?_id_of_apply found moved) number
  have there : ∀ k, Store.session? { w.store with sessions := w.store.sessions.insert y } k =
      if z.id = k then some y else w.store.session? k := fun k => by
    rw [← hid]
    exact Table.find?_insert _ _ _
  rw [run_endSession_of_queued found waits moved]
  refine .of_queues fun a i x => ?_
  rw [World.store_withStore]
  unfold onlyIn
  split
  · subst a
    rw [apart'.queue_of_moved found away there,
      filter_ne_eq_eraseIdx (w.store.queue_nodup _) here]
    exact getElem?_eraseIdx_iff
  · rename_i other
    rw [apart'.queue_of_elsewhere found away there fun mem =>
      other (Store.mem_queue.1 mem).2.2.symm]
    simp only [Option.some.injEq, exists_eq_right]

/-! ## Letting in -/

/-- From the one store to the other, each queue has lost a number of sessions at its head, and those
have been started. -/
structure Store.LetsIn (s t : Store) (k : ServiceId → Nat) : Prop where
  queue : ∀ a, t.queue a = (s.queue a).drop (k a)
  started : ∀ a, ∀ x ∈ (s.queue a).take (k a), ∃ y, t.session? x.id = some y ∧
    y.startedAt.isSome = true

/-- **When sessions are let in, the others move up by as many.** -/
theorem Store.LetsIn.moves {w v : World} {k : ServiceId → Nat} (h : w.store.LetsIn v.store k) :
    w.Moves v fun a => admitting (k a) :=
  .of_queues fun a i x => by
    rw [h.queue a]
    exact getElem?_drop_iff

theorem Drains.queue {service : ServiceId} {w v : World} {ps : List Placement}
    (h : Drains service w ps v) (apart : w.store.Apart) :
    w.store.queue service = ps.map (·.session) ++ v.store.queue service ∧
      ∀ a, a ≠ service → v.store.queue a = w.store.queue a := by
  induction h with
  | done => exact ⟨rfl, fun _ _ => rfl⟩
  | @grant w _ h c _ head _ _ ih =>
    obtain ⟨apart', first⟩ := apart.queue_grant (c := c) head (w.time 0) (w.time 1)
    obtain ⟨rest, others⟩ := ih apart'
    refine ⟨first.trans (congrArg (List.cons h) rest), fun a other => ?_⟩
    exact (others a other).trans (apart.queue_grant_of_ne head other _ _)

/-- **Draining lets in as many as it says, of the one service only.** -/
theorem letsIn_drainQueue {w : World} (apart : w.store.Apart) (service : ServiceId) :
    let r := (Broker.drainQueue service).run w
    w.store.LetsIn r.2.store fun a => if a = service then r.1 else 0 := by
  obtain ⟨ps, v, drains⟩ := exists_drains service w
  obtain ⟨count, store⟩ := run_drainQueue drains
  obtain ⟨front, others⟩ := drains.queue apart
  dsimp only
  rw [count, store]
  refine ⟨fun a => ?_, fun a x taken => ?_⟩
  · split
    · subst a
      rw [front, List.drop_left' (List.length_map ..)]
    · rw [others a ‹_›, List.drop_zero]
  · split at taken
    · subst a
      rw [front, List.take_left' (List.length_map ..)] at taken
      obtain ⟨p, hp, rfl⟩ := List.mem_map.1 taken
      exact ⟨_, (drains.drained.placed p hp).2.2, rfl⟩
    · rw [List.take_zero] at taken
      cases taken

theorem Session.Leads.isSome_startedAt {x y : Session} (h : x.Leads y)
    (began : x.startedAt.isSome = true) : y.startedAt.isSome = true := by
  induction h with
  | refl => exact began
  | tail _ step ih =>
    obtain ⟨e, moved⟩ := step
    obtain ⟨state, -, rfl⟩ := Option.map_eq_some_iff.1 moved
    cases e with
    | start => rfl
    | finish | expire => exact ih

section LettingIn

variable {s t u : Store} {k l : ServiceId → Nat} {p q : Stage}

theorem Store.LetsIn.of_queue_eq (same : ∀ a, t.queue a = s.queue a) : s.LetsIn t fun _ => 0 where
  queue a := by rw [same, List.drop_zero]
  started a x taken := by
    rw [List.take_zero] at taken
    cases taken

theorem Store.LetsIn.trans (h : s.LetsIn t k) (h' : t.LetsIn u l) (grows : t.Grows u) :
    s.LetsIn u fun a => k a + l a where
  queue a := by rw [h'.queue, h.queue, List.drop_drop]
  started a x taken := by
    rw [List.take_add, List.mem_append, ← h.queue] at taken
    rcases taken with early | late
    · obtain ⟨y, stored, began⟩ := h.started a x early
      obtain ⟨z, there, leads⟩ := grows.sessions stored
      exact ⟨z, there, leads.isSome_startedAt began⟩
    · exact h'.started a x late

/-- The head of one queue is let in, or nobody is. -/
theorem Reclaim.letsIn (h : Reclaim p q) (numbered : p.store.Numbered) :
    ∃ k, p.store.LetsIn q.store k := by
  have apart := (h.numbered numbered).apart
  cases h with
  | rest same => exact ⟨_, .of_queue_eq fun a => by rw [Stage.store, same]⟩
  | @vacate _ _ _ _ x y _ _ _ _ found runs _ _ moved _ _ _ _ result =>
    refine ⟨_, .of_queue_eq fun a => apart.queue_of_elsewhere found
      (Session.state_ne_queued_of_apply moved) (fun id => ?_) fun mem => ?_⟩
    · rw [Stage.store, result, Store.session?_vacate, (Session.fixed_apply moved).1]
    · cases runs.symm.trans (Store.mem_queue.1 mem).2.1
  | @grant w service _ h c head =>
    have first := (numbered.apart.queue_grant (c := c) head (w.time 0) (w.time 1)).2
    refine ⟨fun a => if a = service then 1 else 0, fun a => ?_, fun a x taken => ?_⟩
    · split
      · subst a
        exact (congrArg (List.drop 1) first).symm
      · exact numbered.apart.queue_grant_of_ne head ‹_› _ _
    · split at taken
      · subst a
        rw [first] at taken
        obtain rfl := List.mem_singleton.1 taken
        exact ⟨x.started c.id (w.time 1), (Table.find?_insert _ _ _).trans (if_pos rfl), rfl⟩
      · cases taken
  | drained => exact ⟨_, .of_queue_eq fun _ => rfl⟩

/-- **While slots are reclaimed, the queues only lose their heads**, who are let in. -/
theorem Reclaims.letsIn (h : Reclaims p q) (coherent : p.store.Coherent)
    (numbered : p.store.Numbered) : ∃ k, p.store.LetsIn q.store k := by
  induction h with
  | refl => exact ⟨_, .of_queue_eq fun _ => rfl⟩
  | tail steps step ih =>
    obtain ⟨k, before⟩ := ih
    obtain ⟨l, here⟩ := step.letsIn (Reclaims.numbered steps numbered)
    exact ⟨_, before.trans here (step.keeps (Reclaims.keeps steps coherent).2).1⟩

/-- The end of a session that does not wait lets some in. -/
theorem letsIn_endSession {w : World} {id : SessionId} (coherent : w.store.Coherent)
    (numbered : w.store.Numbered) (nowhere : w.place id = none) :
    ∃ k, w.store.LetsIn ((Broker.endSession id).run w).2.store k := by
  rcases w.store.applyEvent_cases id (.finish (w.time 0)) with ignored | ⟨x, y, found, moved, -⟩
  · rw [run_endSession_of_ignored ignored]
    exact ⟨_, .of_queue_eq fun _ => rfl⟩
  · have runs : x.state = .active := by
      cases state : x.state with
      | queued =>
        have waits := (w.isSome_place_iff id).2 ⟨x, found, state⟩
        rw [nowhere] at waits
        cases waits
      | active => rfl
      | ended | expired =>
        have goes := Session.isTerminal_eq_false_of_apply moved
        rw [state] at goes
        cases goes
    obtain ⟨definition, known⟩ := Option.isSome_iff_exists.1 (coherent.registered found)
    obtain rfl : x.id = id := (Store.session?_eq_some_iff.1 found).2
    have steps : Reclaims ⟨w, none, []⟩ _ := reclaims_endSession found runs known moved
    exact steps.letsIn coherent numbered

/-- So does a sweep. -/
theorem letsIn_enforceLimits {w : World} (coherent : w.store.Coherent)
    (numbered : w.store.Numbered) :
    ∃ k, w.store.LetsIn (Broker.enforceLimits.run w).2.store k := by
  obtain ⟨_, -, -, steps⟩ := (sweeps_enforceLimits [] coherent).reclaims
  exact steps.letsIn coherent numbered

end LettingIn

/-! ## Joining the queue -/

namespace Store

variable {s : Store} {x : Session} {a : ServiceId}

/-- A session that is stored and does not wait for a service leaves its queue as it is. -/
theorem queue_addSession_of_aside (fresh : s.session? x.id = none)
    (aside : x.waitsFor a = false) : (s.addSession x).2.queue a = s.queue a := by
  have aside : (s.addSession x).1.waitsFor a = false := aside
  rw [queue, sessionsMatching, entries_addSession fresh, List.filter_append,
    List.filter_singleton, aside]
  simp [queue, sessionsMatching]

/-- **A session that is stored last stands last in its queue.** -/
theorem queue_addSession (apart : s.Apart) (fresh : s.session? x.id = none)
    (waits : x.waitsFor a = true) (below : ∀ y ∈ s.sessions.entries, y.sequence < s.sequence + 1)
    (later : ∀ y ∈ s.queue a, y.queuedAt ≤ x.queuedAt) :
    (s.addSession x).2.queue a = s.queue a ++ [(s.addSession x).1] := by
  have entries := entries_addSession fresh
  have apart' : (s.addSession x).2.Apart := by
    unfold Apart
    rw [entries, List.map_append, List.map_singleton, List.nodup_append]
    refine ⟨apart, List.nodup_singleton _, fun n hn m hm => ?_⟩
    obtain ⟨y, hy, rfl⟩ := List.mem_map.1 hn
    rw [List.mem_singleton.1 hm]
    exact UInt64.ne_of_lt (below y hy)
  refine apart'.queue_eq (List.pairwise_append.2 ⟨s.queue_sorted a, List.pairwise_singleton _ _,
    fun y hy z hz => ?_⟩) (List.nodup_append.2 ⟨s.queue_nodup a, List.nodup_singleton _,
      fun y hy z hz same => ?_⟩) fun z => ?_
  · rw [List.mem_singleton.1 hz, Session.before_iff]
    rcases UInt64.lt_or_eq_of_le (later y hy) with earlier | same
    · exact .inl earlier
    · exact .inr ⟨same, UInt64.le_of_lt (below y (mem_sessionsMatching.1 hy).1)⟩
  · rw [same, List.mem_singleton.1 hz] at hy
    cases fresh.symm.trans (mem_queue.1 hy).1
  · have waits : (s.addSession x).1.waitsFor a = true := waits
    rw [List.mem_append, List.mem_singleton, queue, queue, mem_sessionsMatching,
      mem_sessionsMatching, entries, List.mem_append, List.mem_singleton, or_and_right]
    refine or_congr_right (and_iff_left_of_imp fun same => ?_)
    rw [same]
    exact waits

/-- If the counter does not go around, the next number is above all others. -/
theorem Numbered.below (h : s.Numbered) (room : s.sessions.size + 1 < UInt64.size) :
    ∀ y ∈ s.sessions.entries, y.sequence < s.sequence + 1 := by
  intro y hy
  have number : y.sequence ∈ s.sessions.entries.map (·.sequence) := List.mem_map_of_mem hy
  rw [h.inOrder] at number
  obtain ⟨n, hn, number⟩ := List.mem_map.1 number
  rw [List.mem_range] at hn
  rw [← number, h.last, UInt64.lt_iff_toNat_lt, UInt64.toNat_add, UInt64.toNat_ofNat',
    UInt64.toNat_ofNat', UInt64.toNat_one]
  simp only [UInt64.size] at room
  omega

end Store

/-- Who was stored before keeps the place when a session is put at the end of queues. -/
theorem World.place_of_joined {w v : World} {x : Session} {id : SessionId}
    (queues : ∀ a, v.store.queue a = w.store.queue a ∨ v.store.queue a = w.store.queue a ++ [x])
    (other : id ≠ x.id) : v.place id = w.place id := by
  ext i
  rw [place_eq_some_iff, place_eq_some_iff]
  refine exists_congr fun a => exists_congr fun y => and_congr_left fun own => ?_
  rcases queues a with same | joined
  · rw [same]
  · rw [joined, List.getElem?_append]
    split
    · exact Iff.rfl
    · rename_i beyond
      rw [List.getElem?_eq_none (Nat.not_lt.1 beyond)]
      refine iff_of_false (fun last => other ?_) nofun
      rw [List.mem_singleton.1 (List.mem_of_getElem? last)] at own
      exact own.symm

/-- **A request that has to wait is placed behind all others**, if nobody in its queue has asked
later and no stored session has a higher number; all others keep their places. -/
theorem place_requestSession {w v : World} {user : UserId} {service : ServiceId} {x : Session}
    (apart : w.store.Apart) (fresh : w.store.session? (w.asking user service).id = none)
    (below : ∀ y ∈ w.store.sessions.entries, y.sequence < w.store.sequence + 1)
    (later : ∀ y ∈ w.store.queue service, y.queuedAt ≤ w.time 0)
    (run : (Broker.requestSession user service).run w = (.ok x, v)) :
    (x.state = .queued → v.place x.id = some (w.store.queueDepth service)) ∧
      ∀ id, id ≠ x.id → v.place id = w.place id := by
  rcases requestSession_cases run with ⟨c, -, rfl, store⟩ | ⟨-, rfl, store⟩
  · refine ⟨nofun, fun id => World.place_of_joined fun a => .inl ?_⟩
    rw [store]
    exact Store.queue_addSession_of_aside (s := w.store.addCredential (c.occupy (w.time 1))) fresh
      rfl
  · have joined : v.store.queue service =
        w.store.queue service ++ [(w.store.addSession (w.asking user service)).1] := by
      rw [store]
      exact Store.queue_addSession apart fresh
        (Bool.and_eq_true_iff.2 ⟨rfl, decide_eq_true rfl⟩) below later
    have last : (v.store.queue service)[w.store.queueDepth service]? =
        some (w.store.addSession (w.asking user service)).1 := by
      rw [joined, w.store.queueDepth_eq_length, List.getElem?_concat_length]
    refine ⟨fun _ => World.place_of_getElem? last, fun id => World.place_of_joined fun a => ?_⟩
    by_cases here : a = service
    · subst a
      exact .inr joined
    · rw [store]
      exact .inl (Store.queue_addSession_of_aside fresh
        (Bool.and_eq_false_iff.2 (.inr (decide_eq_false (Ne.symm here)))))

/-! ## What is shown of a session -/

namespace Http

/-- A field of the record that an answer carries. -/
def Response.field? (r : Response) (name : String) : Option Json :=
  match r.body with
  | .json (.record fields) => fields.lookup name
  | _ => none

/-- The request is for a look at a session. -/
def Request.LooksAtSession (request : Request) : Prop :=
  request.method = "GET" ∧ ∃ piece, pathPieces? request.path = some ["sessions", piece]

/-- The answer shows a stored session with its place. -/
structure ShowsSession (r : Response) (w : World) (x : Session) : Prop where
  stored : w.store.session? x.id = some x
  id : r.field? "id" = some (.text x.id)
  state : r.field? "state" = some (.text x.state.label)
  position : r.field? "queue_position" = some (.optional .whole (w.place x.id))

section Shown

variable {r : Response} {w v : World} {x : Session} {request : Request} {hole : String}

theorem ShowsSession.of_placed (stored : w.store.session? x.id = some x) (status : Nat) :
    ShowsSession (.ofJson status (View.placedSession x (w.place x.id))) w x :=
  ⟨stored, rfl, rfl, rfl⟩

theorem ShowsSession.of_store_eq (h : ShowsSession r w x) (same : v.store = w.store) :
    ShowsSession r v x := by
  obtain ⟨stored, id, state, position⟩ := h
  refine ⟨?_, id, state, ?_⟩
  · rw [same]
    exact stored
  · rw [World.place_of_store_eq same]
    exact position

/-- **A place is shown exactly if the session is shown to wait.** -/
theorem ShowsSession.position_iff (h : ShowsSession r w x) :
    r.field? "queue_position" ≠ some .null ↔ r.field? "state" = some (.text "queued") := by
  have label : x.state.label = "queued" ↔ x.state = .queued := by
    cases x.state <;> decide
  have waits := w.isSome_place_iff x.id
  simp only [h.stored, Option.some.injEq, exists_eq_left'] at waits
  rw [h.position, h.state, Option.some.injEq, Json.text.injEq, label, ← waits]
  cases w.place x.id with
  | none => exact iff_of_false (fun shown => shown rfl) nofun
  | some i => exact iff_of_true nofun rfl

theorem run_placed (x : Session) (w : World) :
    (Public.placed x).run w = (View.placedSession x (w.place x.id), w) := by
  unfold Public.placed
  rw [Program.bind_eq, Program.run_bind, looks_queuePosition x.id w]
  rfl

/-- A session that is asked for comes back as it is stored. -/
theorem stored_requestSession {user : UserId} {service : ServiceId}
    (run : (Broker.requestSession user service).run w = (.ok x, v)) :
    v.store.session? x.id = some x := by
  rcases requestSession_cases run with ⟨c, -, rfl, store⟩ | ⟨-, rfl, store⟩ <;>
    rw [store] <;> exact (Table.find?_insert _ _ _).trans (if_pos rfl)

theorem shows_createSession
    (out : (Public.createSession hole request).outcome w = (.ok r, v)) :
    ∃ x, ShowsSession r v x := by
  unfold Public.createSession at out
  rcases outcome_bodyFields ["user_id", "service_id"] request w with
    ⟨values, -, read⟩ | ⟨-, e, refused⟩
  · rw [Handling.outcome_bind_of_ok read] at out
    split at out
    · rename_i user service
      split at out
      · cases out
      · rcases run : (Broker.requestSession user service).run w with ⟨e | x, u⟩
        · rw [Handling.outcome_bind_of_error (e := .failed e) (v := u)
            (by rw [Handling.outcome_ofFailing, run]; rfl)] at out
          cases out
        · rw [Handling.outcome_bind_of_ok (a := x) (v := u)
            (by rw [Handling.outcome_ofFailing, run]; rfl), Handling.outcome_bind_of_ok
            (Handling.outcome_lift _ _), run_placed] at out
          obtain ⟨ok, rfl⟩ := Prod.mk.inj out
          obtain rfl := Except.ok.inj ok
          exact ⟨x, .of_placed (stored_requestSession run) _⟩
    · cases out
  · rw [Handling.outcome_bind_of_error refused] at out
    cases out

theorem outcome_getSession {id : SessionId} (named : Text.percentDecoded? hole = some id)
    (found : w.store.session? id = some x) (request : Request) :
    (Public.getSession hole request).outcome w =
      (.ok (.ofJson 200 (View.placedSession x (w.place x.id))), w) := by
  have look := Handling.outcome_ofFailing (Broker.session id) w
  rw [run_session, found] at look
  unfold Public.getSession pathId
  rw [named]
  dsimp only
  rw [Handling.outcome_bind_of_ok (Handling.outcome_pure id w), Handling.outcome_bind_of_ok look,
    Handling.outcome_bind_of_ok (Handling.outcome_lift _ _), run_placed, Handling.outcome_pure]

theorem shows_getSession (out : (Public.getSession hole request).outcome w = (.ok r, v)) :
    ∃ x, ShowsSession r v x := by
  cases named : Text.percentDecoded? hole with
  | none =>
    unfold Public.getSession pathId at out
    rw [named] at out
    cases out
  | some id =>
    cases found : w.store.session? id with
    | none =>
      have look := Handling.outcome_ofFailing (Broker.session id) w
      rw [run_session, found] at look
      unfold Public.getSession pathId at out
      rw [named] at out
      dsimp only at out
      rw [Handling.outcome_bind_of_ok (Handling.outcome_pure id w),
        Handling.outcome_bind_of_error look] at out
      cases out
    | some x =>
      rw [outcome_getSession named found] at out
      obtain ⟨ok, rfl⟩ := Prod.mk.inj out
      obtain rfl := Except.ok.inj ok
      exact ⟨x, .of_placed (Store.session?_self found) 200⟩

theorem sought_sessions (path : pathPieces? request.path = some ["sessions"]) :
    sought Public.routes request =
      some ({ template := Public.sessionsTemplate,
              actions := [(.post, Public.createSession)] }, "") := by
  rw [sought, path]
  rfl

theorem sought_session {piece : String} (path : pathPieces? request.path = some ["sessions", piece])
    (named : piece ≠ "") : sought Public.routes request =
      some ({ template := [.word "sessions", .hole],
              actions := [(.get, Public.getSession), (.delete, Public.endSession)] }, piece) := by
  have matched : matchPieces [.word "sessions", .hole] ["sessions", piece] = some [piece] := by
    rw [matchPieces, if_pos rfl, matchPieces, if_neg named]
  -- the templates before it do not match
  have skip : findRoute? ["sessions", piece] Public.routes =
      findRoute? ["sessions", piece] (Public.routes.drop 6) := rfl
  rw [sought, path, Option.bind_some, skip, Public.routes]
  simp only [List.drop_succ_cons, List.drop_zero, findRoute?, matched, List.headD_cons]

theorem sought_session_empty (path : pathPieces? request.path = some ["sessions", ""]) :
    sought Public.routes request = none := by
  rw [sought, path]
  rfl

/-- What an action shows where it is not refused, the answer shows. -/
theorem shows_serve {routes : List Route} {route : Route} {m : Method} {action : Action}
    (found : sought routes request = some (route, hole))
    (named : Method.ofName? request.method = some m)
    (serves : route.actions.lookup m = some action) (head : request.method ≠ "HEAD")
    (shows : ∀ {r v}, (action hole request).outcome w = (.ok r, v) → ∃ x, ShowsSession r v x)
    (accepted : ((serve routes request).run w).1.status < 400) :
    ∃ x, ShowsSession ((serve routes request).run w).1 ((serve routes request).run w).2 x := by
  have sent : ∀ r, sent request r = r := fun r => if_neg head
  rw [run_serve_of_action found named serves] at accepted ⊢
  dsimp only at accepted ⊢
  rw [sent] at accepted ⊢
  rcases out : (action hole request).outcome w with ⟨e | r, v⟩
  · rw [out] at accepted
    have refused := e.le_status
    rw [← e.status_response request] at refused
    exact absurd accepted (Nat.not_lt.2 refused)
  · obtain ⟨x, shown⟩ := shows out
    exact ⟨x, shown.of_store_eq rfl⟩

/-- **An accepted request for a session, or for a look at one, shows it with its place.** -/
theorem shows_handle (asks : request.AsksSession ∨ request.LooksAtSession) (w : World)
    (accepted : ((Public.handle request).run w).1.status < 400) :
    ∃ x, ShowsSession ((Public.handle request).run w).1 ((Public.handle request).run w).2 x := by
  rcases asks with ⟨post, path⟩ | ⟨get, piece, path⟩
  · exact shows_serve (sought_sessions path) (by rw [post]; rfl) rfl (by rw [post]; decide)
      shows_createSession accepted
  · by_cases named : piece = ""
    · subst named
      rw [Public.handle, run_serve_of_unknown (sought_session_empty path)] at accepted
      exact absurd accepted (by decide : ¬ 404 < 400)
    · exact shows_serve (sought_session path named) (by rw [get]; rfl) rfl (by rw [get]; decide)
        shows_getSession accepted

end Shown

end Http

/-! ## The ranking and its moves -/

section Runs

variable {key : Codec.Key} {w : World} {past : List Moment}

/-- Between any two commands nobody has asked later than now, where no reading goes back. -/
theorem Orderly.asked_before (h : Orderly key w past)
    (forward : ∀ m n, m ≤ n → w.supply.reading m ≤ w.supply.reading n) :
    ∀ y ∈ w.store.sessions.entries, y.queuedAt ≤ w.time 0 := by
  intro y hy
  have timely : Timely (w.supply.read + 1) w :=
    h.timely (fun m n le _ => forward m n le) (Nat.le_succ _)
  exact (timely.stamped (Store.session?_eq_some_iff.2 ⟨hy, rfl⟩)).asked _ (Nat.le_refl _)
    (Nat.lt_succ_self _)

end Runs

/-- **Places are a ranking without gaps, and move with the queue.** Wherever no two sessions have
the same number, each queue lists those who wait once, in the order of asking, its depth is their
number, and their places are all numbers below it: the place of each is the number of those before.
Only who waits has a place. When a waiting session is ended, those behind move up by one, and when
the queue is drained, all who are left move up by the number of those let in; nobody else moves.
Where operations do not overlap, the end of any other session and the sweep too only let in the
heads of queues; and where moreover no reading of the clock goes back and the counter of the numbers
does not go around, a request that has to wait is placed behind all others, who keep their places.
Whenever a session is asked for or looked at, its answer shows a place exactly if it shows that the
session waits. -/
theorem queue_positions_rank (w : World) :
    (w.store.Apart →
      (∀ service, w.Ranked service) ∧
      (∀ id, (w.place id).isSome = true ↔ ∃ x, w.store.session? id = some x ∧ x.state = .queued) ∧
      (∀ id x i, w.store.session? id = some x → w.place id = some i →
        w.Moves ((Broker.endSession id).run w).2 (onlyIn x.service (vacating i))) ∧
      ∀ service, let r := (Broker.drainQueue service).run w
        let k a := if a = service then r.1 else 0
        w.store.LetsIn r.2.store k ∧ w.Moves r.2 fun a => admitting (k a)) ∧
    (∀ key past, Orderly key w past →
      (∀ v, (v = (Broker.enforceLimits.run w).2 ∨
          ∃ id, w.place id = none ∧ v = ((Broker.endSession id).run w).2) →
        ∃ k, w.store.LetsIn v.store k ∧ w.Moves v fun a => admitting (k a)) ∧
      ((∀ m n, m ≤ n → w.supply.reading m ≤ w.supply.reading n) →
        w.store.sessions.size + 1 < UInt64.size →
        ∀ user service x v, w.store.session? (w.asking user service).id = none →
          (Broker.requestSession user service).run w = (.ok x, v) →
          (x.state = .queued → v.place x.id = some (w.store.queueDepth service)) ∧
          ∀ id, id ≠ x.id → v.place id = w.place id)) ∧
    ∀ request : Http.Request, request.AsksSession ∨ request.LooksAtSession →
      let r := (Http.Public.handle request).run w
      r.1.status < 400 → ∃ x, Http.ShowsSession r.1 r.2 x ∧
        (r.1.field? "queue_position" ≠ some .null ↔
          r.1.field? "state" = some (.text "queued")) := by
  refine ⟨fun apart => ⟨World.ranked apart, w.isSome_place_iff, fun id x i found shown =>
    moves_endSession apart found shown, fun service => ?_⟩, fun key past h => ⟨?_, ?_⟩,
    fun request asks => ?_⟩
  · have lets := letsIn_drainQueue apart service
    exact ⟨lets, lets.moves⟩
  · rintro v (rfl | ⟨id, nowhere, rfl⟩)
    · obtain ⟨k, lets⟩ := letsIn_enforceLimits h.coherent h.numbered
      exact ⟨k, lets, lets.moves⟩
    · obtain ⟨k, lets⟩ := letsIn_endSession h.coherent h.numbered nowhere
      exact ⟨k, lets, lets.moves⟩
  · intro forward room user service x v fresh run
    have earlier := h.asked_before forward
    exact place_requestSession h.numbered.apart fresh (h.numbered.below room)
      (fun y waits => earlier y (Store.mem_sessionsMatching.1 waits).1) run
  · intro r accepted
    obtain ⟨x, shown⟩ := Http.shows_handle asks w accepted
    exact ⟨x, shown, shown.position_iff⟩

/-- Two sessions wait for a service without credentials. -/
def twoWait : World × List Moment :=
  Command.after
    [.define oneSlot, .call (.request "ann" "films"), .call (.request "bob" "films")]

/-- The look at the second of them. -/
def lookAtSecond : Http.Request := { method := "GET", target := "/sessions/0000000000000001" }

/-- When the first of the two is ended the second moves up, and a third one would stand behind them.
In the other store the last one is first when the four before it are let in. -/
theorem queue_positions_rank_twoWait :
    ((Broker.endSession "0000000000000000").run twoWait.1).2.place "0000000000000001" = some 0 ∧
    (∃ x v, (Broker.requestSession "cy" "films").run twoWait.1 = (.ok x, v) ∧
      v.place x.id = some 2 ∧ v.place "0000000000000001" = some 1) ∧
    (∃ k, twoWait.1.store.LetsIn (Broker.enforceLimits.run twoWait.1).2.store k) ∧
    ((Http.Public.handle lookAtSecond).run twoWait.1).1.field? "queue_position" ≠ some .null ∧
    ((Broker.drainQueue "films").run neverReached).1 = 4 ∧
    ((Broker.drainQueue "films").run neverReached).2.place "flo" = some 0 := by
  have reached : Orderly Scene.plainKey twoWait.1 twoWait.2 := orderly_after _
  obtain ⟨static, runs, shown⟩ := queue_positions_rank twoWait.1
  obtain ⟨ranked, -, cancelled, -⟩ := static reached.numbered.apart
  obtain ⟨lets, joined⟩ := runs _ _ reached
  let ann : Session :=
    { id := "0000000000000000", user := "ann", service := "films", queuedAt := 0, sequence := 1 }
  let bob : Session :=
    { id := "0000000000000001", user := "bob", service := "films", queuedAt := 0, sequence := 2 }
  have entries : twoWait.1.store.sessions.entries = [ann, bob] := by cbv
  have first : twoWait.1.store.session? "0000000000000000" = some ann := by cbv
  have second : twoWait.1.store.session? "0000000000000001" = some bob := by cbv
  have front := (ranked "films").rank ann (Store.mem_queue.2 ⟨first, rfl, rfl⟩)
  have behind := (ranked "films").rank bob (Store.mem_queue.2 ⟨second, rfl, rfl⟩)
  rw [entries] at front behind
  refine ⟨?_, ?_, ?_, ?_, ?_⟩
  · have moves := cancelled _ ann 0 first front
    exact (moves.within "films" _ ⟨bob, second, rfl, rfl⟩).trans (congrArg (Option.bind · _) behind)
  · have known : twoWait.1.store.service? "films" = some oneSlot := by cbv
    have full : twoWait.1.store.available "films" = [] := by cbv
    have depth : twoWait.1.store.queueDepth "films" = 2 := by rw [Store.queueDepth, entries]; rfl
    have run := run_requestSession_eq_of_full "cy" known full
    have forward : ∀ m n, m ≤ n →
        twoWait.1.supply.reading m ≤ twoWait.1.supply.reading n := fun m n _ => by
      rw [twoWait, Command.reading_after]
      exact UInt64.le_refl 0
    have room : twoWait.1.store.sessions.size + 1 < UInt64.size := by
      rw [Table.size, entries]
      decide
    obtain ⟨last, others⟩ := joined forward room _ _ _ _ (by cbv) run
    have drawn : (twoWait.1.asking "cy" "films").id = "0000000000000002" := by cbv
    refine ⟨_, _, run, (last rfl).trans (congrArg some depth), (others _ ?_).trans behind⟩
    change _ ≠ (twoWait.1.asking "cy" "films").id
    rw [drawn]
    decide
  · obtain ⟨k, admits, -⟩ := lets _ (.inl rfl)
    exact ⟨k, admits⟩
  · have path : Http.pathPieces? lookAtSecond.path = some ["sessions", "0000000000000001"] := by cbv
    have look := Http.run_serve_of_action (w := twoWait.1)
      (Http.sought_session path (by decide)) rfl rfl
    rw [Http.outcome_getSession (by cbv) second] at look
    obtain ⟨x, -, places⟩ := shown lookAtSecond (.inr ⟨rfl, _, path⟩)
      (by rw [Http.Public.handle, look]; exact (by decide : 200 < 400))
    refine places.2 ?_
    rw [Http.Public.handle, look]
    rfl
  · have apart : neverReached.store.Apart := by
      unfold Store.Apart
      decide
    obtain ⟨ps, v, drains⟩ := exists_drains "films" neverReached
    have count := (run_drainQueue drains).1
    rw [drains.eq_placements apart] at count
    have four : (neverReached.placements "films").length = 4 := by cbv
    have flo : neverReached.store.session? "flo" =
        some (neverReached.waiting "flo" "films" 9 3) := by cbv
    have behind : neverReached.place "flo" = some 4 := by cbv
    obtain ⟨-, -, -, drained⟩ := (queue_positions_rank neverReached).1 apart
    have moves := (drained "films").2.within "films" "flo" ⟨_, flo, rfl, rfl⟩
    rw [behind, count.trans four] at moves
    exact ⟨count.trans four, moves⟩

end SlotBroker
