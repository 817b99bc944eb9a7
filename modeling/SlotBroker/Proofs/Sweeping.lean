import SlotBroker.Proofs.Draining
import SlotBroker.Proofs.Reclaiming

/-!
# What the sweep does, to the letter

The sweep goes through the services of the catalog, through the credentials of each in order of
issue, and through the sessions that hold slots of each in the order of the queue. It changes the
tables that it goes through while it does so. But expiring a session changes what runs on its own
credential only, and draining a queue changes what runs on the credentials of its own service, all
of which have been dealt with by then. So the sweep finds what it would have found at the beginning.

Results:
* `Store.Beside`: what is done to some credentials leaves what runs on the others as it is.
* `run_expireSessions`, `run_expireHolding`, `run_sweepServices`: the ids that each part of the
  sweep gives, read off the store at its beginning.
* `Coherent.pairwise_due`, `Coherent.nodup_due`, `Coherent.mem_due`: they come in order, each once,
  and are those of the overdue sessions.
* **`sweep_exact`**: the sweep expires the overdue sessions and no others, gives their ids in order,
  and finds nothing to do when it is made again at the same time.
-/

namespace SlotBroker

/-! ## What is left alone -/

namespace Store

variable {s t u : Store} {cs : List CredentialId}

/-- The names of the credentials and of their services. -/
def issued (s : Store) : List (CredentialId × ServiceId) :=
  s.credentials.entries.map fun c => (c.id, c.service)

/-- The names of the credentials of a service, in order of issue. -/
def issuedFor (s : Store) (service : ServiceId) : List CredentialId :=
  (s.credentialsOf service).map (·.id)

/-- Something has been done to some credentials and to what runs on them. On all others the same
sessions run, and no credential has come or gone. -/
structure Beside (s : Store) (cs : List CredentialId) (t : Store) : Prop where
  issued : t.issued = s.issued
  running : ∀ c ∉ cs, t.sessionsHolding c = s.sessionsHolding c

theorem Beside.refl (s : Store) (cs : List CredentialId) : s.Beside cs s := ⟨rfl, fun _ _ => rfl⟩

theorem Beside.trans (h : s.Beside cs t) (h' : t.Beside cs u) : s.Beside cs u :=
  ⟨h'.issued.trans h.issued, fun c hc => (h'.running c hc).trans (h.running c hc)⟩

theorem Beside.mono {cs' : List CredentialId} (h : s.Beside cs t) (all : cs ⊆ cs') :
    s.Beside cs' t :=
  ⟨h.issued, fun c hc => h.running c fun mem => hc (all mem)⟩

theorem issuedFor_eq (s : Store) (service : ServiceId) :
    s.issuedFor service = (s.issued.filter fun p => p.2 = service).map (·.1) := by
  rw [issued, List.filter_map, List.map_map]
  rfl

theorem Beside.issuedFor (h : s.Beside cs t) (service : ServiceId) :
    t.issuedFor service = s.issuedFor service := by
  rw [issuedFor_eq, issuedFor_eq, h.issued]

/-- Nothing happens to credentials and sessions. -/
theorem Beside.of_eq (credentials : t.credentials = s.credentials)
    (sessions : t.sessions = s.sessions) (cs : List CredentialId) : s.Beside cs t := by
  refine ⟨?_, fun c _ => ?_⟩
  · rw [Store.issued, credentials]
    rfl
  · rw [sessionsHolding, sessionsMatching, sessions]
    rfl

/-- A credential gives way to one of its name and service. -/
theorem issued_addCredential {c d : Credential} (known : s.credential? d.id = some c)
    (serves : d.service = c.service) : (s.addCredential d).issued = s.issued :=
  map_placeIn _ (v := d) known (by rw [serves, (credential?_eq_some_iff.1 known).2])

theorem issued_checkin (s : Store) (id : CredentialId) : (s.checkin id).issued = s.issued := by
  unfold checkin
  cases known : s.credential? id with
  | none => rfl
  | some c => exact issued_addCredential (credential?_of_id_eq known c.id_release) rfl

/-- On a credential that a session holds neither before nor after something happens to it, the same
sessions run. -/
theorem sessionsHolding_insert {x y : Session} {c : CredentialId}
    (found : s.session? y.id = some x) (before : x.holds c = false) (after : y.holds c = false) :
    sessionsHolding { s with sessions := s.sessions.insert y } c = s.sessionsHolding c := by
  have kept := filter_placeIn (fun z : Session => z.holds c) y s.sessions.entries fun z hz key => by
    have same : z = x := Option.some.inj ((session?_eq_some_iff.2 ⟨hz, key⟩).symm.trans found)
    rw [after, ← before, same]
  rw [after, if_neg (by decide)] at kept
  exact congrArg (·.mergeSort Session.before) kept

end Store

/-- A session that holds a slot of one credential holds none of another. -/
theorem Session.holds_of_ne {x : Session} {c d : CredentialId} (holds : x.holds c = true)
    (apart : d ≠ c) : x.holds d = false := by
  simp only [Session.holds, Bool.and_eq_true, decide_eq_true_eq] at holds
  simp [Session.holds, holds, apart.symm]

/-- Draining a queue leaves what runs on the credentials of other services as it is. -/
theorem Drains.beside {service : ServiceId} {w v : World} {ps : List Placement}
    (h : Drains service w ps v) : w.store.Beside (w.store.issuedFor service) v.store := by
  induction h with
  | done => exact .refl _ _
  | @grant w v x c ps head spare _ ih =>
    obtain ⟨stored, waits, -⟩ := Store.mem_queue.1 (List.mem_of_head? head)
    obtain ⟨known, serves, -⟩ := Store.mem_available.1 (List.mem_of_head? spare)
    have here : w.store.Beside (w.store.issuedFor service) (w.seat x c).store := by
      refine ⟨Store.issued_addCredential (d := c.occupy (w.time 0)) known rfl, fun d hd => ?_⟩
      have mine : c.id ∈ w.store.issuedFor service := List.mem_map_of_mem <|
        List.mem_filter.2 ⟨(Store.credential?_eq_some_iff.1 known).1, decide_eq_true serves⟩
      have apart : d ≠ c.id := fun same => hd (same ▸ mine)
      refine Store.sessionsHolding_insert
        (s := w.store.addCredential (c.occupy (w.time 0))) stored ?_ ?_
      · simp [Session.holds, waits]
      · exact Session.holds_of_ne (c := c.id) (by simp [Session.holds, Session.started]) apart
    rw [here.issuedFor] at ih
    exact here.trans ih

/-! ## Parts of the sweep -/

section Parts

variable {w : World} {now : Millis}

/-- **The overdue ones of some sessions that hold slots of a credential** are expired. -/
theorem run_expireSessions {c : CredentialId} (limit : Millis) {xs : List Session}
    (held : ∀ x ∈ xs, w.store.session? x.id = some x ∧ x.holds c = true)
    (distinct : (xs.map (·.id)).Nodup) :
    let r := (Broker.expireSessions limit now xs).run w
    r.1 = (xs.filter (·.overdue limit now)).map (·.id) ∧ w.store.Beside [c] r.2.store := by
  induction xs generalizing w with
  | nil => exact ⟨rfl, .refl _ _⟩
  | cons x rest ih =>
    obtain ⟨found, holds⟩ := held x List.mem_cons_self
    obtain ⟨apart, distinct'⟩ := List.nodup_cons.1 distinct
    by_cases late : x.overdue limit now = true
    · have runs : x.state = .active := by
        simp only [Session.holds, Bool.and_eq_true, decide_eq_true_eq] at holds
        exact holds.1
      obtain ⟨y, moved⟩ := Session.apply_expire runs now
      have same : y.id = x.id := (Session.fixed_apply moved).1
      have there := Store.session?_id_of_apply found moved
      have first : (x :: rest).filter (·.overdue limit now) =
          x :: rest.filter (·.overdue limit now) := List.filter_cons_of_pos late
      rw [run_expireSessions_of_expired late found moved, first, List.map_cons]
      obtain ⟨ledger, store⟩ := store_run_releaseAndBill y
        (w.withStore { w.store with sessions := w.store.sessions.insert y })
      rw [World.store_withStore] at store
      generalize ((Broker.releaseAndBill y).run _).2 = v at store ⊢
      have sessions : v.store.sessions = w.store.sessions.insert y := by
        rw [store]
        exact Store.sessions_giveBack _ y
      have here : w.store.Beside [c] v.store := by
        refine ⟨?_, fun d hd => ?_⟩
        · rw [store]
          change Store.issued (Store.giveBack _ y) = _
          unfold Store.giveBack
          cases y.credential with
          | none => rfl
          | some k => exact Store.issued_checkin _ k
        · have expired := Session.eq_expired_of_apply moved
          refine Eq.trans ?_ (Store.sessionsHolding_insert there
            (Session.holds_of_ne holds fun same => hd (List.mem_singleton.2 same))
            (by rw [expired]; simp [Session.holds]))
          rw [Store.sessionsHolding, Store.sessionsMatching, sessions]
          rfl
      obtain ⟨ids, beside⟩ := ih (w := v) (fun z hz => by
        obtain ⟨stored, holds'⟩ := held z (List.mem_cons_of_mem x hz)
        refine ⟨?_, holds'⟩
        rw [Store.session?, sessions, Table.find?_insert, if_neg fun e => apart ?_]
        · exact stored
        · exact List.mem_map.2 ⟨z, hz, e.symm.trans same⟩) distinct'
      exact ⟨congrArg₂ List.cons same ids, here.trans beside⟩
    · have none : (x :: rest).filter (·.overdue limit now) = rest.filter (·.overdue limit now) :=
        List.filter_cons_of_neg late
      rw [run_expireSessions_of_kept fun overdue => absurd overdue late, none]
      exact ih (fun z hz => held z (List.mem_cons_of_mem x hz)) distinct'

/-- The overdue sessions that hold slots of a credential, in the order of the queue. -/
def Store.dueOn (s : Store) (limit now : Millis) (c : CredentialId) : List Session :=
  (s.sessionsHolding c).filter (·.overdue limit now)

theorem Store.Beside.dueOn {s t : Store} {cs : List CredentialId} (h : s.Beside cs t)
    (limit now : Millis) {c : CredentialId} (apart : c ∉ cs) :
    t.dueOn limit now c = s.dueOn limit now c := by
  rw [Store.dueOn, h.running c apart]
  rfl

/-- **The overdue sessions that hold slots of some credentials** are expired, one credential after
the other. -/
theorem run_expireHolding (limit : Millis) {cs : List Credential}
    (distinct : (cs.map (·.id)).Nodup) :
    let r := (Broker.expireHolding limit now cs).run w
    r.1 = ((cs.map (·.id)).flatMap (w.store.dueOn limit now)).map (·.id) ∧
      w.store.Beside (cs.map (·.id)) r.2.store := by
  induction cs generalizing w with
  | nil => exact ⟨rfl, .refl _ _⟩
  | cons c rest ih =>
    obtain ⟨apart, distinct'⟩ := List.nodup_cons.1 distinct
    rw [Broker.expireHolding]
    simp only [Program.bind_eq, Program.pure_eq]
    rw [Program.run_bind, Program.run_query]
    dsimp only
    rw [Program.run_bind, Program.run_bind]
    have held : ∀ x ∈ w.store.sessionsHolding c.id,
        w.store.session? x.id = some x ∧ x.holds c.id = true := fun x hx => by
      obtain ⟨stored, holds⟩ := Store.mem_sessionsMatching.1 hx
      exact ⟨Store.session?_eq_some_iff.2 ⟨stored, rfl⟩, holds⟩
    have once : ((w.store.sessionsHolding c.id).map (·.id)).Nodup :=
      ((List.mergeSort_perm _ _).map _).nodup_iff.2
        (w.store.sessions.nodup.sublist (List.filter_sublist.map _))
    obtain ⟨ids, here⟩ : _ ∧ w.store.Beside [c.id] ((Broker.expireSessions limit now
        (w.store.sessionsHolding c.id)).run w).2.store := run_expireSessions limit held once
    generalize (Broker.expireSessions limit now _).run w = r at ids here ⊢
    obtain ⟨ids', beside⟩ := ih (w := r.2) distinct'
    have later : (rest.map (·.id)).flatMap (r.2.store.dueOn limit now) =
        (rest.map (·.id)).flatMap (w.store.dueOn limit now) :=
      List.flatMap_congr fun d hd => here.dueOn limit now fun mem =>
        apart (show c.id ∈ _ from List.mem_singleton.1 mem ▸ hd)
    refine ⟨?_, (here.mono (by simp)).trans (beside.mono (List.subset_cons_self _ _))⟩
    rw [List.map_cons, List.flatMap_cons, List.map_append, ← later, ← ids']
    exact congrArg (· ++ _) ids

/-- **The overdue sessions of a service** are expired, as of the time of the look at it. -/
theorem run_expireOverdue (definition : Service) :
    let r := (Broker.expireOverdue definition).run w
    r.1 = ((w.store.issuedFor definition.id).flatMap
        (w.store.dueOn definition.limitMillis (w.time 0))).map (·.id) ∧
      w.store.Beside (w.store.issuedFor definition.id) r.2.store := by
  unfold Broker.expireOverdue
  simp only [Program.bind_eq]
  rw [Program.run_bind, Program.run_now]
  dsimp only
  rw [Program.run_bind, Program.run_query]
  exact run_expireHolding (w := w.tick 1) definition.limitMillis
    (w.store.credentials.nodup.sublist (List.filter_sublist.map _))

/-- The overdue sessions of a service, one credential after the other. -/
def Store.dueOf (s : Store) (now : Millis) (definition : Service) : List Session :=
  (s.issuedFor definition.id).flatMap (s.dueOn definition.limitMillis now)

/-- No credential is issued for two services. -/
theorem Store.service_of_issuedFor {s : Store} {a b : ServiceId} {c : CredentialId}
    (ha : c ∈ s.issuedFor a) (hb : c ∈ s.issuedFor b) : a = b := by
  obtain ⟨d, hd, rfl⟩ := List.mem_map.1 ha
  obtain ⟨e, he, same⟩ := List.mem_map.1 hb
  obtain ⟨stored, serves⟩ := List.mem_filter.1 hd
  obtain ⟨stored', serves'⟩ := List.mem_filter.1 he
  have known : s.credentials.find? d.id = some d := Table.find?_of_mem stored
  have known' : s.credentials.find? e.id = some e := Table.find?_of_mem stored'
  rw [same, known] at known'
  obtain rfl := Option.some.inj known'
  exact (of_decide_eq_true serves).symm.trans (of_decide_eq_true serves')

/-- The queue of a service is drained if anybody has been expired there. -/
theorem beside_drainExpired {cs : List CredentialId} {definition : Service}
    {r : List SessionId × World} (rest : Program (List SessionId))
    (beside : w.store.Beside cs r.2.store) (all : w.store.issuedFor definition.id ⊆ cs) : ∃ v,
    w.store.Beside cs v.store ∧ r.2.Passes v ∧
      (if r.1.isEmpty = true then rest
        else (Program.count (.expired definition.id) r.1.length).bind fun _ =>
          (Broker.drainQueue definition.id).bind fun _ =>
            rest.bind fun more => .done (r.1 ++ more)).run r.2 =
        (r.1 ++ (rest.run v).1, (rest.run v).2) := by
  split
  · rename_i none
    exact ⟨r.2, beside, .refl _, by rw [List.isEmpty_iff.1 none, List.nil_append]⟩
  · let counted := ((Program.count (.expired definition.id) r.1.length).run r.2).2
    obtain ⟨ps, v, drains⟩ := exists_drains definition.id counted
    refine ⟨((Broker.drainQueue definition.id).run counted).2, ?_, ?_, ?_⟩
    · have drained := drains.beside
      rw [(run_drainQueue drains).2]
      refine beside.trans (drained.mono fun c hc => all ?_)
      rwa [← beside.issuedFor]
    · have passes := (Broker.drainQueue definition.id).passes_run counted
      exact ⟨passes.reading, passes.read⟩
    · rw [Program.run_bind, Program.run_bind, Program.run_bind]
      rfl

/-- **The overdue sessions of some services** are expired, one service after the other. -/
theorem run_sweepServices {definitions : List Service}
    (distinct : (definitions.map (·.id)).Nodup)
    (still : ∀ n, w.supply.read ≤ n → w.supply.reading n = now) :
    ((Broker.sweepServices definitions).run w).1 =
      (definitions.flatMap (w.store.dueOf now)).map (·.id) := by
  induction definitions generalizing w with
  | nil => rfl
  | cons d rest ih =>
    obtain ⟨apart, distinct'⟩ := List.nodup_cons.1 distinct
    rw [Broker.sweepServices]
    simp only [Program.bind_eq, Program.pure_eq]
    rw [Program.run_bind]
    obtain ⟨ids, beside⟩ := run_expireOverdue (w := w) d
    have passes := (Broker.expireOverdue d).passes_run w
    rw [show w.time 0 = now from still _ (Nat.le_refl _)] at ids
    generalize (Broker.expireOverdue d).run w = r at ids beside passes ⊢
    obtain ⟨v, beside', passes', run⟩ := beside_drainExpired (Broker.sweepServices rest) beside
      (List.Subset.refl _)
    have later : rest.flatMap (v.store.dueOf now) = rest.flatMap (w.store.dueOf now) := by
      refine List.flatMap_congr fun e he => ?_
      unfold Store.dueOf
      rw [beside'.issuedFor]
      refine List.flatMap_congr fun c hc => beside'.dueOn _ _ fun mem => apart ?_
      exact List.mem_map.2 ⟨e, he, Store.service_of_issuedFor hc mem⟩
    rw [run, List.flatMap_cons, List.map_append, ← later, ids]
    refine congrArg (_ ++ ·) (ih (w := v) distinct' fun n since => ?_)
    have passed := passes.trans passes'
    rw [passed.reading]
    exact still n (Nat.le_trans passed.read since)

end Parts

/-! ## The order of the sweep -/

/-- The place of a key in a table. -/
def Table.place {α : Type} [Keyed α] (t : Table α) (k : String) : Nat := t.keys.idxOf k

theorem Table.pairwise_place {α : Type} [Keyed α] (t : Table α) :
    t.entries.Pairwise fun x y => t.place (Keyed.key x) < t.place (Keyed.key y) := by
  have here : ∀ {n : Nat} (bound : n < t.entries.length),
      t.place (Keyed.key t.entries[n]) = n := fun {n} bound => by
    have bound' : n < (t.entries.map Keyed.key).length := by rwa [List.length_map]
    rw [← List.getElem_map Keyed.key]
    exact t.nodup.idxOf_getElem n bound'
  refine List.pairwise_iff_getElem.2 fun m n hm hn lt => ?_
  rwa [here hm, here hn]

namespace Store

/-- The one session comes before the other in a sweep: its service is further ahead in the catalog;
or the service is the same, but its credential has been issued earlier; or that is the same as well,
but it precedes the other in the order in which sessions wait. -/
def SweptBefore (s : Store) (x y : Session) : Prop :=
  s.services.place x.service < s.services.place y.service ∨
    x.service = y.service ∧ ∃ c d, x.credential = some c ∧ y.credential = some d ∧
      (s.credentials.place c < s.credentials.place d ∨ c = d ∧ x.Precedes y)

theorem SweptBefore.ne {s : Store} {x y : Session} (h : s.SweptBefore x y) : x ≠ y := by
  rintro rfl
  rcases h with before | ⟨-, c, d, bound, bound', before | ⟨-, earlier | ⟨-, earlier⟩⟩⟩
  · exact Nat.lt_irrefl _ before
  · obtain rfl := Option.some.inj (bound.symm.trans bound')
    exact Nat.lt_irrefl _ before
  · exact UInt64.lt_irrefl _ earlier
  · exact UInt64.lt_irrefl _ earlier

/-- The overdue sessions of all services, as the sweep comes by them. -/
def due (s : Store) (now : Millis) : List Session := s.services.entries.flatMap (s.dueOf now)

variable {s : Store} {now limit : Millis} {c : CredentialId} {x : Session}

theorem mem_dueOn : x ∈ s.dueOn limit now c ↔ s.session? x.id = some x ∧ x.state = .active ∧
    x.credential = some c ∧ x.overdue limit now = true := by
  simp only [dueOn, sessionsHolding, List.mem_filter, mem_sessionsMatching, Session.holds,
    Bool.and_eq_true, decide_eq_true_eq, session?_eq_some_iff, and_true, and_assoc]

theorem mem_issuedFor {service : ServiceId} : c ∈ s.issuedFor service ↔
    ∃ d, s.credential? c = some d ∧ d.service = service := by
  simp only [issuedFor, credentialsOf, List.mem_map, List.mem_filter, decide_eq_true_eq,
    credential?_eq_some_iff]
  exact exists_congr fun _ => ⟨fun h => ⟨⟨h.1.1, h.2⟩, h.1.2⟩, fun h => ⟨⟨h.1.1, h.2⟩, h.1.2⟩⟩

theorem pairwise_place_issuedFor (s : Store) (service : ServiceId) :
    (s.issuedFor service).Pairwise fun c d => s.credentials.place c < s.credentials.place d :=
  List.pairwise_map.2 (s.credentials.pairwise_place.sublist List.filter_sublist)

/-- A session is one of the service that its credential has been issued for. -/
theorem Coherent.service_of_mem_dueOn (h : s.Coherent) {service : ServiceId}
    (mine : c ∈ s.issuedFor service) (hx : x ∈ s.dueOn limit now c) : x.service = service := by
  obtain ⟨stored, -, bound, -⟩ := mem_dueOn.1 hx
  obtain ⟨d, known, serves⟩ := mem_issuedFor.1 mine
  obtain ⟨d', known', serves'⟩ := h.bound stored bound
  rw [known] at known'
  rw [← serves', ← Option.some.inj known', serves]

theorem Coherent.service_of_mem_dueOf (h : s.Coherent) {definition : Service}
    (hx : x ∈ s.dueOf now definition) : x.service = definition.id := by
  obtain ⟨c, mine, hc⟩ := List.mem_flatMap.1 hx
  exact h.service_of_mem_dueOn mine hc

/-- **The sweep comes by every overdue session**, and by no other. -/
theorem Coherent.mem_due (h : s.Coherent) : x ∈ s.due now ↔ x ∈ s.overdueAt now := by
  rw [mem_overdueAt, due, List.mem_flatMap]
  constructor
  · rintro ⟨definition, registered, hx⟩
    have asks := h.service_of_mem_dueOf hx
    obtain ⟨c, -, hc⟩ := List.mem_flatMap.1 hx
    obtain ⟨stored, runs, -, late⟩ := mem_dueOn.1 hc
    exact ⟨stored, runs, definition, asks ▸ Table.find?_of_mem registered, late⟩
  · rintro ⟨stored, runs, definition, known, late⟩
    obtain ⟨registered, asks⟩ := Table.find?_eq_some_iff.1 known
    have shaped := h.shaped stored
    simp only [Session.Shaped, runs] at shaped
    obtain ⟨c, bound⟩ := Option.isSome_iff_exists.1 shaped.1
    obtain ⟨d, issued, serves⟩ := h.bound stored bound
    exact ⟨definition, registered, List.mem_flatMap.2 ⟨c,
      mem_issuedFor.2 ⟨d, issued, serves.trans asks.symm⟩, mem_dueOn.2 ⟨stored, runs, bound, late⟩⟩⟩

/-- **The sweep comes by the overdue sessions in order.** -/
theorem Coherent.pairwise_due (h : s.Coherent) (apart : s.Apart) :
    (s.due now).Pairwise s.SweptBefore := by
  refine List.pairwise_flatMap.2 ⟨fun definition _ => List.pairwise_flatMap.2 ⟨fun c hc => ?_, ?_⟩,
    s.services.pairwise_place.imp fun {a b} before x hx y hy => .inl ?_⟩
  · refine ((apart.sessionsMatching_precedes _).filter _).imp_of_mem fun {x y} hx hy precedes => ?_
    exact .inr ⟨(h.service_of_mem_dueOn hc hx).trans (h.service_of_mem_dueOn hc hy).symm, c, c,
      (mem_dueOn.1 hx).2.2.1, (mem_dueOn.1 hy).2.2.1, .inr ⟨rfl, precedes⟩⟩
  · refine (s.pairwise_place_issuedFor definition.id).imp_of_mem
      fun {c d} hc hd before x hx y hy => ?_
    exact .inr ⟨(h.service_of_mem_dueOn hc hx).trans (h.service_of_mem_dueOn hd hy).symm, c, d,
      (mem_dueOn.1 hx).2.2.1, (mem_dueOn.1 hy).2.2.1, .inl before⟩
  · rw [h.service_of_mem_dueOf hx, h.service_of_mem_dueOf hy]
    exact before

/-- The sweep comes by nobody twice. -/
theorem Coherent.nodup_due (h : s.Coherent) (apart : s.Apart) :
    ((s.due now).map (·.id)).Nodup := by
  have stored : ∀ {x}, x ∈ s.due now → s.session? x.id = some x := fun hx =>
    (mem_overdueAt.1 (h.mem_due.1 hx)).1
  -- of a stored id there is one session
  refine List.Nodup.map_on (fun x hx y hy same => ?_) ((h.pairwise_due apart).imp SweptBefore.ne)
  exact Option.some.inj ((stored hx).symm.trans (same ▸ stored hy))

end Store

/-! ## The sweep -/

/-- The session runs, and has run for longer than its service allows. All of it is taken as
integers, so it matters neither how long the limit is nor whether the clock has gone back. -/
def Store.LateAt (s : Store) (now : Millis) (x : Session) : Prop :=
  x.state = .active ∧ ∃ definition first, s.service? x.service = some definition ∧
    x.startedAt = some first ∧
    1000 * (definition.sessionLimit.toNat : Int) < (now.toNat : Int) - (first.toNat : Int)

theorem Store.mem_overdueAt_iff {s : Store} {now : Millis} {x : Session} :
    x ∈ s.overdueAt now ↔ s.session? x.id = some x ∧ s.LateAt now x := by
  rw [mem_overdueAt, LateAt]
  refine and_congr_right fun _ => and_congr_right fun _ => exists_congr fun definition => ?_
  rw [Session.overdue_limitMillis_iff]
  constructor
  · rintro ⟨known, first, started, late⟩
    exact ⟨first, known, started, by omega⟩
  · rintro ⟨first, known, started, late⟩
    exact ⟨known, first, started, by omega⟩

/-- When all that were overdue have left, nobody is. -/
theorem Reclaimed.overdueAt_eq_nil {s t : Store} {now : Millis} {xs : List Session}
    (h : Reclaimed s now xs .expired t) (all : ∀ x, x ∈ xs ↔ x ∈ s.overdueAt now) :
    t.overdueAt now = [] := by
  refine List.eq_nil_iff_forall_not_mem.2 fun x hx => ?_
  obtain ⟨stored, runs, definition, known, late⟩ := Store.mem_overdueAt.1 hx
  cases before : s.session? x.id with
  | none => cases (h.unknown before).symm.trans stored
  | some x₀ =>
    by_cases left : ∃ y ∈ xs, y.id = x.id
    · -- who has left does not run
      obtain ⟨y, hy, same⟩ := left
      have there := h.left y hy
      rw [same, stored] at there
      rw [Option.some.inj there] at runs
      cases runs
    · have after := h.session?_eq before fun y hy same => left ⟨y, hy, same⟩
      split at after
      · -- who has started does so now
        obtain ⟨-, c, there⟩ := after
        rw [stored] at there
        rw [Option.some.inj there] at late
        obtain ⟨first, began, bound⟩ := Session.overdue_limitMillis_iff.1 late
        obtain rfl : now = first := Option.some.inj began
        omega
      · -- everybody else would have been overdue before
        rw [stored] at after
        rw [← Option.some.inj after] at before
        refine left ⟨x, (all x).2 (Store.mem_overdueAt.2 ⟨before, runs, definition, ?_, late⟩), rfl⟩
        rw [Store.service?, ← h.services]
        exact known

/-- Where nobody has left, nothing has happened to the store. -/
theorem Reclaims.store_of_left_nil {w : World} {q : Stage} (h : Reclaims ⟨w, none, []⟩ q)
    (left : q.left = []) : q.owed = none ∧ q.store = w.store := by
  induction h with
  | refl => exact ⟨rfl, rfl⟩
  | tail _ step ih =>
    cases step with
    | rest same =>
      obtain ⟨owed, store⟩ := ih left
      exact ⟨owed, same.trans store⟩
    | vacate => exact absurd left (List.append_ne_nil_of_right_ne_nil _ (List.cons_ne_nil _ _))
    | grant | drained => cases (ih left).1

section Runs

variable {w : World} {now : Millis}

/-- The sweep at one time. -/
theorem Standing.sweep (h : Standing w now) :
    let r := Broker.enforceLimits.run w
    r.1 = (w.store.due now).map (·.id) ∧
      Reclaimed w.store now (w.store.due now) .expired r.2.store ∧ Standing r.2 now := by
  have distinct : (w.store.due now).Nodup :=
    (h.coherent.pairwise_due h.numbered.apart).imp Store.SweptBefore.ne
  have overdue : ∀ x, x ∈ w.store.due now ↔ x ∈ w.store.overdueAt now := fun x =>
    h.coherent.mem_due
  obtain ⟨gone, steps, same⟩ := reclaims_sweep h distinct overdue
  refine ⟨?_, steps.reclaimed h (fun x hx => ?_) same, steps.standing h⟩
  · unfold Broker.enforceLimits
    rw [Program.bind_eq, Program.run_bind, Program.run_query]
    exact run_sweepServices w.store.services.nodup h.still
  · obtain ⟨stored, runs, -⟩ := Store.mem_overdueAt.1 ((overdue x).1 hx)
    exact ⟨stored, runs⟩

/-- A sweep of a store where nobody is overdue. -/
theorem Standing.sweep_of_none (h : Standing w now) (none : w.store.overdueAt now = []) :
    (Broker.enforceLimits.run w).1 = [] ∧ (Broker.enforceLimits.run w).2.store = w.store := by
  have due : w.store.due now = [] := List.eq_nil_iff_forall_not_mem.2 fun x hx => by
    rw [h.coherent.mem_due, none] at hx
    cases hx
  obtain ⟨gone, steps, same⟩ := reclaims_sweep h List.nodup_nil fun x : Session => by rw [none]
  obtain rfl := List.perm_nil.1 same
  refine ⟨?_, (steps.store_of_left_nil rfl).2⟩
  rw [h.sweep.1, due, List.map_nil]

variable {key : Codec.Key} {past : List Moment}

/-- **The sweep, to the letter.** Let the clock show one time while the sweep is made. Then it gives
the ids of the running sessions that have run past the limit of their service, each once and in
order: by the place of the service in the catalog, then by that of the credential, then as in the
queue. These expire as of that time, on disabled credentials as well, and all others that run go on.
Nobody is overdue then, and a sweep that is made again at the same time does nothing. -/
theorem sweep_exact (h : Orderly key w past)
    (still : ∀ n, w.supply.read ≤ n → n < (Broker.enforceLimits.run w).2.supply.read →
      w.supply.reading n = now) :
    let r := Broker.enforceLimits.run w
    ∃ xs : List Session, r.1 = xs.map (·.id) ∧ r.1.Nodup ∧ xs.Pairwise w.store.SweptBefore ∧
      (∀ x, x ∈ xs ↔ w.store.session? x.id = some x ∧ w.store.LateAt now x) ∧
      (∀ x ∈ xs, r.2.store.session? x.id =
        some { x with state := .expired, endedAt := some now }) ∧
      (∀ x, w.store.session? x.id = some x → x.state = .active → x ∉ xs →
        r.2.store.session? x.id = some x) ∧
      (∀ x, r.2.store.session? x.id = some x → ¬ r.2.store.LateAt now x) ∧
      ∀ v : World, v.store = r.2.store →
        (∀ n, v.supply.read ≤ n → n < (Broker.enforceLimits.run v).2.supply.read →
          v.supply.reading n = now) →
        (Broker.enforceLimits.run v).1 = [] ∧ (Broker.enforceLimits.run v).2.store = v.store := by
  obtain ⟨u, same, still', ids, result⟩ := Program.exists_still _ still
  have standing : Standing u now :=
    ⟨same ▸ h.coherent, same ▸ h.numbered, same ▸ h.settled, fun n _ => still' n⟩
  obtain ⟨swept, reclaimed, after⟩ := standing.sweep
  rw [ids, same] at swept
  rw [result, same] at reclaimed
  have due : ∀ x, x ∈ w.store.due now ↔ x ∈ w.store.overdueAt now := fun x => h.coherent.mem_due
  have none := reclaimed.overdueAt_eq_nil due
  refine ⟨w.store.due now, swept, swept ▸ h.coherent.nodup_due h.numbered.apart,
    h.coherent.pairwise_due h.numbered.apart, fun x => (due x).trans Store.mem_overdueAt_iff,
    reclaimed.left, fun x stored runs apart => ?_, fun x stored late => ?_,
    fun v store quiet => ?_⟩
  · refine reclaimed.kept stored (fun y hy id => apart ?_) (Store.not_mem_take_queue runs)
    have stored' := (Store.mem_overdueAt.1 ((due y).1 hy)).1
    rw [id, stored] at stored'
    exact Option.some.inj stored' ▸ hy
  · have mem := Store.mem_overdueAt_iff.2 ⟨stored, late⟩
    rw [none] at mem
    cases mem
  · obtain ⟨u', same', still'', ids', result'⟩ := Program.exists_still _ quiet
    have all : u'.store = (Broker.enforceLimits.run u).2.store :=
      same'.trans (store.trans result.symm)
    have standing' : Standing u' now :=
      ⟨all ▸ after.coherent, all ▸ after.numbered, all ▸ after.settled, fun n _ => still'' n⟩
    obtain ⟨nobody, nothing⟩ := standing'.sweep_of_none (by rw [same', store]; exact none)
    exact ⟨ids'.symm.trans nobody, result'.symm.trans (nothing.trans same')⟩

end Runs

/-- Two services are used, each by one session; one of the credentials is disabled; and nobody has
left until hours later. -/
def leftOvernight : World × List Moment :=
  [Command.define { oneSlot with id := "tunes", name := "Tunes" }, .define oneSlot,
    .call (.issue "films" "house" "secret" .basic), .call (.issue "tunes" "flat" "secret" .basic),
    .call (.request "ann" "films"), .call (.request "bob" "tunes"),
    .call (.disable "000000000000")].foldl
    (Command.play Scene.plainKey)
    ({ platform := {}
       supply := { reading := fun n => if n < 4 then 0 else 7200001, word := UInt64.ofNat } }, [])

/-- Both are expired, in the order of the catalog; the sweep that follows expires nobody. -/
theorem sweep_exact_leftOvernight :
    let r := Broker.enforceLimits.run leftOvernight.1
    r.1 = ["0000000000000003", "0000000000000002"] ∧
      (∀ x, r.2.store.session? x.id = some x → ¬ r.2.store.LateAt 7200001 x) ∧
      (Broker.enforceLimits.run r.2).1 = [] ∧
      (Broker.enforceLimits.run r.2).2.store = r.2.store := by
  have reached : Orderly Scene.plainKey leftOvernight.1 leftOvernight.2 := .play (.start _ rfl) _
  have read : leftOvernight.1.supply.read = 4 := by decide +kernel
  have still : ∀ n, leftOvernight.1.supply.read ≤ n →
      leftOvernight.1.supply.reading n = 7200001 := by
    intro n since
    rw [read] at since
    refine (congrFun (Command.reading_play Scene.plainKey _ _) n).trans (if_neg ?_)
    exact Nat.not_lt.2 since
  have passes := Broker.enforceLimits.passes_run leftOvernight.1
  obtain ⟨xs, -, -, -, -, -, -, none, again⟩ := sweep_exact reached fun n since _ => still n since
  obtain ⟨nobody, nothing⟩ := again _ rfl fun n since _ => by
    rw [passes.reading]
    exact still n (Nat.le_trans passes.read since)
  exact ⟨by decide +kernel, none, nobody, nothing⟩

end SlotBroker
