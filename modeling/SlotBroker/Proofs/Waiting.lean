import SlotBroker.Proofs.Books

/-!
# Nobody waits beside a free slot

Whoever frees a slot and whoever joins a queue drains the queue afterwards. Both act on what they
saw some steps before, so a slot can be missed by one call; the duty to look once more is then with
another. Only the issue of a credential is followed by no drain, so a session can be left waiting
beside a slot of a credential that is younger than itself.

Results:
* `AddedAfter.issued`: a credential with a slot for an older session was issued while it waited.
* `Move.tended`: a step frees a slot for a waiting session only with the duty to offer it, or by
  issuing a credential, and no duty is dropped while there is something to offer.
* `Books.tended`: each waiting session that a credential has a slot for is younger than the
  credential, or some call has yet to offer the slot.
* **`no_waiter_stranded`**: when no call is in flight, a session only waits beside a free slot if
  the slot's credential was issued while it waited; so where none was, nobody does.
-/

namespace SlotBroker

/-- The credential was added to the store when the session was in it. -/
def AddedAfter (past : List Moment) (c : CredentialId) (q : SessionId) : Prop :=
  ∃ m ∈ past, m.before.credential? c = none ∧ (m.after.credential? c).isSome = true ∧
    (m.before.session? q).isSome = true

/-- The step issues a credential of the service. -/
def Moment.Issues (m : Moment) (service : ServiceId) : Prop :=
  ∃ c, m.before.credential? c.id = none ∧ m.after.credential? c.id = some c ∧ c.service = service

namespace Store

/-- The session waits, and a credential of its service has a slot for it. -/
structure Spare (s : Store) (q : Session) (c : Credential) : Prop where
  session : s.session? q.id = some q
  waits : q.state = .queued
  credential : s.credential? c.id = some c
  capacity : c.hasCapacity = true
  service : c.service = q.service

namespace Spare

variable {s : Store} {q : Session} {c : Credential}

theorem of_mem {service : ServiceId} (hq : q ∈ s.queue service) (hc : c ∈ s.available service) :
    s.Spare q c := by
  obtain ⟨stored, waits, asks⟩ := Store.mem_queue.1 hq
  obtain ⟨known, serves, capacity⟩ := Store.mem_available.1 hc
  exact ⟨stored, waits, known, capacity, serves.trans asks.symm⟩

theorem mem_queue (h : s.Spare q c) : q ∈ s.queue q.service :=
  Store.mem_queue.2 ⟨h.session, h.waits, rfl⟩

theorem mem_available (h : s.Spare q c) : c ∈ s.available q.service :=
  Store.mem_available.2 ⟨h.credential, h.service, h.capacity⟩

/-- The slot is one of the credential that is stored, or was there before. -/
theorem of_addCredential {d : Credential} (h : (s.addCredential d).Spare q c) :
    c = d ∨ s.Spare q c := by
  obtain ⟨stored, waits, known, capacity, service⟩ := h
  rw [credential?_addCredential] at known
  split at known
  · exact .inl (Option.some.inj known).symm
  · exact .inr ⟨stored, waits, known, capacity, service⟩

/-- The session that waits is the new one, or waited before. -/
theorem of_addSession {x : Session} (h : (s.addSession x).2.Spare q c) :
    q = { x with sequence := s.sequence + 1 } ∨ s.Spare q c := by
  obtain ⟨stored, waits, known, capacity, service⟩ := h
  rw [session?_addSession] at stored
  split at stored
  · exact .inl (Option.some.inj stored).symm
  · exact .inr ⟨stored, waits, known, capacity, service⟩

/-- An event never puts a session into the queue. -/
theorem of_apply {x y : Session} {e : Session.Event} (moved : x.apply e = some y)
    (h : Spare { s with sessions := s.sessions.insert y } q c) : s.Spare q c := by
  obtain ⟨stored, waits, known, capacity, service⟩ := h
  rw [session?_insert] at stored
  split at stored
  · obtain rfl := Option.some.inj stored
    exact absurd waits (Session.state_ne_queued_of_apply moved)
  · exact ⟨stored, waits, known, capacity, service⟩

end Spare

end Store

theorem AddedAfter.mono {past : List Moment} {c : CredentialId} {q : SessionId}
    (h : AddedAfter past c q) (m : Moment) : AddedAfter (m :: past) c q :=
  h.imp fun _ => .imp_left (List.mem_cons_of_mem m)

/-- A credential that has a slot for an older session was issued while the session waited. -/
theorem AddedAfter.issued {past : List Moment} {t : Store} {q : Session} {c : Credential}
    (h : AddedAfter past c.id q.id) (spare : t.Spare q c)
    (evolves : ∀ m ∈ past, m.before.Evolves m.after ∧ m.after.Evolves t) :
    ∃ m ∈ past, m.Issues q.service ∧ q ∈ m.before.queue q.service := by
  obtain ⟨m, hm, unknown, added, stored⟩ := h
  obtain ⟨before, after⟩ := evolves m hm
  obtain ⟨d, hd⟩ := Option.isSome_iff_exists.1 added
  obtain ⟨x, hx⟩ := Option.isSome_iff_exists.1 stored
  refine ⟨m, hm, ?_, ?_⟩
  · obtain ⟨e, he, hes⟩ := after.credentials hd
    obtain rfl := Option.some.inj (spare.credential.symm.trans he)
    have hid := (Store.credential?_eq_some_iff.1 hd).2
    exact ⟨d, hid ▸ unknown, hid ▸ hd, hes.symm.trans spare.service⟩
  · obtain ⟨y, hy, leads⟩ := (before.trans after).sessions hx
    obtain rfl := Option.some.inj (spare.session.symm.trans hy)
    obtain rfl := leads.eq_of_queued spare.waits
    exact Store.mem_queue.2 ⟨hx, spare.waits, rfl⟩

namespace Move

variable {d : Deed} {s t : Store} {g g' : Stake} {q : Session} {c : Credential}

/-- **No duty is dropped.** If there is a slot for a waiting session after a step, the call is bound
to offer it, or the step has issued its credential, or there was a slot before and the call is bound
to offer it if it was so before. -/
theorem tended (h : Move d s g t g') (fresh : ∀ id, g.id = some id → s.Unused id)
    (spare : t.Spare q c) :
    g'.duty.Covers q.service c.id ∨
    s.session? q.id = some q ∧ s.credential? c.id = none ∨
    ∃ b, b.id = c.id ∧ s.Spare q b ∧
      (g.duty.Covers q.service c.id → g'.duty.Covers q.service c.id) := by
  -- the slot was free before
  have still : s.Spare q c → (g.duty.Covers q.service c.id → g'.duty.Covers q.service c.id) →
      ∃ b, b.id = c.id ∧ s.Spare q b ∧
        (g.duty.Covers q.service c.id → g'.duty.Covers q.service c.id) :=
    fun before keeps => ⟨c, rfl, before, keeps⟩
  cases h with
  | look => exact .inr (.inr (still spare fun h => h))
  | billed | registered =>
    obtain ⟨stored, waits, known, capacity, service⟩ := spare
    exact .inr (.inr (still ⟨stored, waits, known, capacity, service⟩ fun h => h))
  | @emptied _ _ service' duty empty =>
    refine .inr (.inr (still spare fun covers => ?_))
    rw [duty] at covers
    have waits := spare.mem_queue
    rw [← covers, empty] at waits
    cases waits
  | @surveyed _ _ service' duty =>
    refine .inr (.inr (still spare fun covers => ?_))
    rw [duty] at covers
    have free := spare.mem_available
    rw [← covers] at free
    exact (Duty.covers_tries ..).2 ⟨covers, List.mem_map.2 ⟨c, free, rfl⟩⟩
  | @refused _ _ a now full =>
    refine .inr (.inr (still spare fun covers => covers.pass ?_))
    rintro rfl
    have capacity := spare.capacity
    rw [full c spare.credential] at capacity
    cases capacity
  | @taken _ _ a now x known capacity =>
    rcases spare.of_addCredential with rfl | before
    · have known' : s.credential? x.id = some x := by
        rw [(Store.credential?_eq_some_iff.1 known).2, known]
      exact .inr (.inr ⟨x, rfl, ⟨spare.session, spare.waits, known', capacity, spare.service⟩,
        fun covers => covers.renew⟩)
    · exact .inr (.inr (still before fun covers => covers.renew))
  | @returned _ _ a x known held duty =>
    rcases spare.of_addCredential with rfl | before
    · refine .inl ?_
      rw [duty]
      exact spare.service
    · exact .inr (.inr (still before fun covers => covers))
  | @queued _ _ x _ _ _ _ _ duty =>
    rcases spare.of_addSession with rfl | before
    · exact .inl rfl
    · refine .inr (.inr (still before fun covers => ?_))
      rw [duty] at covers
      exact covers.elim
  | placed _ runs =>
    rcases spare.of_addSession with rfl | before
    · cases runs.symm.trans spare.waits
    · exact .inr (.inr (still before fun covers => covers))
  | started _ hy => exact .inr (.inr (still (spare.of_apply hy) fun covers => covers))
  | cancelled _ _ hy => exact .inr (.inr (still (spare.of_apply hy) fun covers => covers))
  | @left _ _ id e x y _ _ hy _ _ duty =>
    refine .inr (.inr (still (spare.of_apply hy) fun covers => ?_))
    rcases duty with duty | duty
    · rw [duty] at covers
      exact covers.elim
    · rw [duty] at covers
      exact (Session.fixed_apply hy).2.2.1.trans covers
  | @issued _ _ x hid =>
    rcases spare.of_addCredential with rfl | before
    · exact .inr (.inl ⟨spare.session, (fresh _ hid).2⟩)
    · exact .inr (.inr (still before fun covers => covers))
  | @amended _ _ _ x y _ _ known same _ _ cap =>
    rcases spare.of_addCredential with rfl | before
    · have hid := (Store.credential?_eq_some_iff.1 known).2
      refine .inr (.inr ⟨x, hid, ⟨spare.session, spare.waits, hid ▸ known, cap spare.capacity, ?_⟩,
        fun h => h⟩)
      exact same ▸ spare.service
    · exact .inr (.inr (still before fun covers => covers))

end Move

/-- **Somebody has yet to offer the slot**, or its credential is younger than who waits. -/
theorem Books.tended {s : Store} {gs : List Stake} {drawn : List String} {past : List Moment}
    (h : Books s gs drawn past) {q : Session} {c : Credential} (spare : s.Spare q c) :
    AddedAfter past c.id q.id ∨ ∃ g ∈ gs, g.duty.Covers q.service c.id := by
  induction h generalizing c with
  | start s bare =>
    have := spare.session
    rw [bare] at this
    cases this
  | call _ ih =>
    refine (ih spare).imp_right fun ⟨g, hg, covers⟩ => ?_
    exact ⟨g, List.mem_append_left _ hg, covers⟩
  | @draw s gs₁ gs₂ g _ past id _ _ ih =>
    refine (ih spare).imp (·.mono _) ?_
    rintro ⟨k, hk, covers⟩
    rcases Stake.mem_middle.1 hk with rfl | hk
    · exact ⟨_, Stake.mem_middle.2 (.inl rfl), covers⟩
    · exact ⟨k, Stake.mem_middle.2 (.inr hk), covers⟩
  | @move s t gs₁ gs₂ g g' _ past d hb hm ih =>
    rcases hm.tended hb.sound.unused spare with covers | ⟨hq, hnone⟩ | ⟨b, hid, before, keeps⟩
    · exact .inr ⟨g', Stake.mem_middle.2 (.inl rfl), covers⟩
    · refine .inl ⟨_, List.mem_cons_self, hnone, ?_, ?_⟩
      · exact Option.isSome_of_eq_some spare.credential
      · exact Option.isSome_of_eq_some hq
    · rw [← hid] at keeps ⊢
      refine (ih before).imp (·.mono _) ?_
      rintro ⟨k, hk, covers⟩
      rcases Stake.mem_middle.1 hk with rfl | hk
      · exact ⟨g', Stake.mem_middle.2 (.inl rfl), keeps covers⟩
      · exact ⟨k, Stake.mem_middle.2 (.inr hk), covers⟩

/-- **Nobody waits beside a free slot** when no call is in flight, unless its credential was issued
while he waited, whatever the order of steps. -/
theorem no_waiter_stranded {key : Codec.Key} {σ : Scene} (h : σ.Reachable key) (quiet : σ.Quiet)
    (service : ServiceId) :
    (∀ q ∈ σ.store.queue service, ∀ c ∈ σ.store.available service,
      AddedAfter σ.past c.id q.id) ∧
    ((∀ m ∈ σ.past, m.Issues service → m.before.queue service = []) →
      σ.store.queue service = [] ∨ σ.store.available service = []) := by
  obtain ⟨gs, hb, hk⟩ := h.books
  have younger : ∀ q ∈ σ.store.queue service, ∀ c ∈ σ.store.available service,
      AddedAfter σ.past c.id q.id := by
    intro q hq c hc
    rcases hb.tended (.of_mem hq hc) with added | ⟨g, hg, covers⟩
    · exact added
    · rw [(quiet.settles hk g hg).2] at covers
      exact covers.elim
  refine ⟨younger, fun spared => ?_⟩
  by_cases hnil : σ.store.queue service = []
  · exact .inl hnil
  · obtain ⟨q, hq⟩ := List.exists_mem_of_ne_nil _ hnil
    refine .inr (List.eq_nil_iff_forall_not_mem.2 fun c hc => ?_)
    obtain ⟨m, hm, issues, waited⟩ := (younger q hq c hc).issued (.of_mem hq hc) fun m hm =>
      (hb.past_grows m hm).imp Store.Grows.toEvolves Store.Grows.toEvolves
    rw [(Store.mem_queue.1 hq).2.2] at issues waited
    rw [spared m hm issues] at waited
    cases waited

/-- A user asks for a session while there is no credential, and one is issued when he waits. -/
def issuedLate : Scene :=
  .after ([Scene.Choice.call (.request "ann" "films")] ++
    (List.range 12).map (fun n => Scene.Choice.turn 0 5 (.ofNat (10 + n))) ++
    [Scene.Choice.call (.issue "films" "house" "secret" .basic), Scene.Choice.turn 1 0 0,
      Scene.Choice.turn 1 0 7, Scene.Choice.turn 1 0 0])

theorem no_waiter_stranded_issuedLate :
    ∃ q ∈ issuedLate.store.queue "films", ∃ c ∈ issuedLate.store.available "films",
      AddedAfter issuedLate.past c.id q.id := by
  have quiet : issuedLate.Quiet := Scene.quiet_of_all_isDone (by decide +kernel)
  have depth : issuedLate.store.queueDepth "films" = 1 := by decide +kernel
  have free : (issuedLate.store.available "films").length = 1 := by decide +kernel
  rw [Store.queueDepth_eq_length] at depth
  obtain ⟨q, hq⟩ := List.length_pos_iff_exists_mem.1 (depth ▸ Nat.one_pos)
  obtain ⟨c, hc⟩ := List.length_pos_iff_exists_mem.1 (free ▸ Nat.one_pos)
  exact ⟨q, hq, c, hc,
    (no_waiter_stranded (Scene.reachable_after _) quiet "films").1 q hq c hc⟩

end SlotBroker
