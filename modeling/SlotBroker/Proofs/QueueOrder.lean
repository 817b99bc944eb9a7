import Mathlib
import SlotBroker.Proofs.Orderly

/-!
# The order of the queue

Sessions wait by the time of asking, and those that asked at the same time by the number that they
got when they were stored. The counter of these numbers is a machine word and may wrap around.
Before a number is given out twice, though, all ids are in use: `Store.Numbered` ties the one to the
other. So no two sessions tie, and the head of a queue strictly precedes everybody behind it.

Results:
* `Apart.queue_eq`: where no two sessions have the same number, a queue is the only list in order of
  those who wait.
* **`Apart.queue_precedes`**: there everybody in a queue precedes all behind.
* `Numbered.apart`: no two stored sessions have the same number.
* `Numbered.of_apply`, `Numbered.addSession`: what is done to sessions keeps the numbers apart.
* **`Orderly.numbered`**: so they are apart between any two commands.
-/

namespace SlotBroker

/-! ## Precedence -/

namespace Session

variable {a b : Session}

/-- The session asked earlier, or at the same time and was stored earlier. -/
def Precedes (a b : Session) : Prop :=
  a.queuedAt < b.queuedAt ∨ a.queuedAt = b.queuedAt ∧ a.sequence < b.sequence

instance (a b : Session) : Decidable (a.Precedes b) := inferInstanceAs (Decidable (_ ∨ _))

theorem before_iff :
    a.before b = true ↔
      a.queuedAt < b.queuedAt ∨ a.queuedAt = b.queuedAt ∧ a.sequence ≤ b.sequence := by
  simp only [before, Bool.or_eq_true, Bool.and_eq_true, decide_eq_true_eq]

theorem before_trans (a b c : Session) (hab : a.before b = true) (hbc : b.before c = true) :
    a.before c = true := by
  simp only [before_iff, UInt64.lt_iff_toNat_lt, UInt64.le_iff_toNat_le, ← UInt64.toNat_inj] at *
  omega

theorem before_total (a b : Session) : (a.before b || b.before a) = true := by
  simp only [Bool.or_eq_true, before_iff, UInt64.lt_iff_toNat_lt, UInt64.le_iff_toNat_le,
    ← UInt64.toNat_inj]
  omega

/-- Where no two have the same number, the order of the queue is strict. -/
theorem precedes_of_before (h : a.before b = true) (apart : a.sequence ≠ b.sequence) :
    a.Precedes b := by
  rcases before_iff.1 h with earlier | ⟨same, le⟩
  · exact .inl earlier
  · exact .inr ⟨same, UInt64.lt_of_le_of_ne le apart⟩

end Session

/-! ## Lists under their keys -/

/-! ## Queues in order -/

namespace Store

variable {s t : Store}

/-- No two stored sessions have the same number. -/
def Apart (s : Store) : Prop := (s.sessions.entries.map (·.sequence)).Nodup

/-- A session that gives way to one of its number leaves the numbers apart. -/
theorem Apart.insert (h : s.Apart) {x y : Session} (found : s.session? y.id = some x)
    (same : y.sequence = x.sequence) : Store.Apart { s with sessions := s.sessions.insert y } := by
  have numbers : ((placeIn y s.sessions.entries).map (·.sequence)).Nodup := by
    rw [map_placeIn (·.sequence) (v := y) found same]
    exact h
  exact numbers

theorem sessionsMatching_sorted (s : Store) (p : Session → Bool) :
    (s.sessionsMatching p).Pairwise fun x y => x.before y = true :=
  List.pairwise_mergeSort Session.before_trans Session.before_total _

theorem sessionsMatching_nodup (s : Store) (p : Session → Bool) : (s.sessionsMatching p).Nodup :=
  (List.mergeSort_perm _ _).nodup_iff.2 ((List.Nodup.of_map _ s.sessions.nodup).filter _)

theorem queue_sorted (s : Store) (service : ServiceId) :
    (s.queue service).Pairwise fun x y => x.before y = true :=
  s.sessionsMatching_sorted _

theorem queue_nodup (s : Store) (service : ServiceId) : (s.queue service).Nodup :=
  s.sessionsMatching_nodup _

/-- **A queue is the only list in order of those who wait.** -/
theorem Apart.queue_eq (h : s.Apart) {service : ServiceId} {xs : List Session}
    (sorted : xs.Pairwise fun x y => x.before y = true) (nodup : xs.Nodup)
    (mem : ∀ x, x ∈ s.queue service ↔ x ∈ xs) : s.queue service = xs := by
  refine List.Perm.eq_of_pairwise (fun a b ha hb hab hba => ?_) (s.queue_sorted service) sorted
    ((List.perm_ext_iff_of_nodup (s.queue_nodup service) nodup).2 mem)
  have stored := (mem_sessionsMatching.1 ha).1
  have stored' := (mem_sessionsMatching.1 ((mem b).2 hb)).1
  refine List.inj_on_of_nodup_map h stored stored' ?_
  simp only [Session.before_iff, UInt64.lt_iff_toNat_lt, UInt64.le_iff_toNat_le,
    ← UInt64.toNat_inj] at *
  omega

/-- A session that does not wait any more is missing from its queue, and else nothing changes. -/
theorem Apart.queue_of_moved (h : t.Apart) {x y : Session}
    (found : s.session? x.id = some x) (away : y.state ≠ .queued)
    (there : ∀ id, t.session? id = if x.id = id then some y else s.session? id)
    (service : ServiceId) : t.queue service = (s.queue service).filter fun z => z ≠ x := by
  refine h.queue_eq ((s.queue_sorted service).filter _) ((s.queue_nodup service).filter _)
    fun z => ?_
  rw [List.mem_filter, decide_eq_true_iff, mem_queue, mem_queue, there]
  by_cases same : x.id = z.id
  · rw [if_pos same, ← same, found]
    constructor
    · rintro ⟨e, waits, -⟩
      rw [← Option.some.inj e] at waits
      exact absurd waits away
    · rintro ⟨⟨e, -, -⟩, apart⟩
      exact absurd (Option.some.inj e).symm apart
  · rw [if_neg same]
    exact (and_iff_left fun e => same (congrArg Session.id e).symm).symm

/-- A queue in which the session does not stand that moves stays as it is. -/
theorem Apart.queue_of_elsewhere (h : t.Apart) {x y : Session} {service : ServiceId}
    (found : s.session? x.id = some x) (away : y.state ≠ .queued)
    (there : ∀ id, t.session? id = if x.id = id then some y else s.session? id)
    (elsewhere : x ∉ s.queue service) : t.queue service = s.queue service := by
  rw [h.queue_of_moved found away there, List.filter_eq_self]
  exact fun z hz => decide_eq_true fun same => elsewhere (same ▸ hz)

/-- When the head of a queue does not wait any more, the others are what is left of it. -/
theorem Apart.queue_of_head (h : t.Apart) {x y : Session} {service : ServiceId}
    (head : (s.queue service).head? = some x) (away : y.state ≠ .queued)
    (there : ∀ id, t.session? id = if x.id = id then some y else s.session? id) :
    s.queue service = x :: t.queue service := by
  obtain ⟨found, -, -⟩ := mem_queue.1 (List.mem_of_head? head)
  obtain ⟨rest, split⟩ := List.head?_eq_some_iff.1 head
  have distinct := s.queue_nodup service
  rw [split] at distinct
  have others : rest.filter (fun z => z ≠ x) = rest := List.filter_eq_self.2 fun z hz =>
    decide_eq_true fun same : z = x => (List.nodup_cons.1 distinct).1 (same ▸ hz)
  rw [h.queue_of_moved found away there, split, List.filter_cons_of_neg (by simp), others]

/-- Sessions in the order of the queue precede those behind them. -/
theorem Apart.sessionsMatching_precedes (h : s.Apart) (p : Session → Bool) :
    (s.sessionsMatching p).Pairwise Session.Precedes := by
  refine ((s.sessionsMatching_sorted p).and (s.sessionsMatching_nodup p)).imp_of_mem
    fun {a b} ha hb hab => Session.precedes_of_before hab.1 fun same => hab.2 ?_
  exact List.inj_on_of_nodup_map h (mem_sessionsMatching.1 ha).1 (mem_sessionsMatching.1 hb).1 same

/-- **Everybody in a queue precedes all behind.** -/
theorem Apart.queue_precedes (h : s.Apart) (service : ServiceId) :
    (s.queue service).Pairwise Session.Precedes :=
  h.sessionsMatching_precedes _

/-- The head of a queue precedes everybody else in it. -/
theorem Apart.precedes_of_head (h : s.Apart) {service : ServiceId} {a b : Session}
    (head : (s.queue service).head? = some a) (hb : b ∈ s.queue service) (apart : b ≠ a) :
    a.Precedes b := by
  have precedes := h.queue_precedes service
  obtain ⟨rest, hrest⟩ := List.head?_eq_some_iff.1 head
  rw [hrest] at precedes hb
  exact List.rel_of_pairwise_cons precedes ((List.mem_cons.1 hb).resolve_left apart)

end Store

/-! ## Numbers -/

namespace Store

/-- The stored sessions are numbered in the order of storing, and their ids are those of words. -/
structure Numbered (s : Store) : Prop where
  last : s.sequence = UInt64.ofNat s.sessions.size
  inOrder : s.sessions.entries.map (·.sequence) =
    (List.range s.sessions.size).map fun n => UInt64.ofNat (n + 1)
  named : ∀ x ∈ s.sessions.entries, ∃ word, x.id = Ident.hex Ident.longDigits word

variable {s t : Store}

theorem Numbered.of_eq (h : s.Numbered) (sessions : t.sessions = s.sessions)
    (sequence : t.sequence = s.sequence) : t.Numbered := by
  obtain ⟨last, inOrder, named⟩ := h
  exact ⟨by rw [sequence, sessions, last], by rw [sessions, inOrder], by rw [sessions]; exact named⟩

/-- The ids of words. -/
def idsOfWords : Finset SessionId :=
  (Finset.range (2 ^ 64)).image fun n => Ident.hex Ident.longDigits (UInt64.ofNat n)

theorem mem_idsOfWords (word : UInt64) : Ident.hex Ident.longDigits word ∈ idsOfWords := by
  refine Finset.mem_image.2 ⟨word.toNat, Finset.mem_range.2 word.toNat_lt, ?_⟩
  rw [UInt64.ofNat_toNat]

theorem card_idsOfWords_le : idsOfWords.card ≤ 2 ^ 64 :=
  Finset.card_image_le.trans (Finset.card_range _).le

theorem size_eq_card (s : Store) : s.sessions.size = s.sessions.keys.toFinset.card := by
  rw [Table.keys, List.toFinset_card_of_nodup s.sessions.nodup, List.length_map, Table.size]

theorem Numbered.ids_subset (h : s.Numbered) : s.sessions.keys.toFinset ⊆ idsOfWords := by
  intro id hid
  obtain ⟨x, hx, rfl⟩ := List.mem_map.1 (List.mem_toFinset.1 hid)
  obtain ⟨word, hword⟩ := h.named x hx
  rw [show Keyed.key x = _ from hword]
  exact mem_idsOfWords word

/-- There are no more sessions than words. -/
theorem Numbered.size_le (h : s.Numbered) : s.sessions.size ≤ 2 ^ 64 := by
  rw [size_eq_card]
  exact (Finset.card_le_card h.ids_subset).trans card_idsOfWords_le

/-- There are fewer sessions than words if the id of some word is not in use. -/
theorem Numbered.size_lt (h : s.Numbered) {word : UInt64}
    (unused : s.session? (Ident.hex Ident.longDigits word) = none) :
    s.sessions.size < 2 ^ 64 := by
  have apart : s.sessions.keys.toFinset ⊂ idsOfWords := by
    refine (Finset.ssubset_iff_of_subset h.ids_subset).2 ⟨_, mem_idsOfWords word, fun used => ?_⟩
    obtain ⟨x, hx, same⟩ := List.mem_map.1 (List.mem_toFinset.1 used)
    cases unused.symm.trans (session?_eq_some_iff.2 ⟨hx, same⟩)
  rw [size_eq_card]
  exact (Finset.card_lt_card apart).trans_le card_idsOfWords_le

/-- **No two sessions have the same number.** -/
theorem Numbered.apart (h : s.Numbered) : s.Apart := by
  unfold Apart
  rw [h.inOrder]
  refine List.Nodup.map_on (fun n hn m hm e => ?_) List.nodup_range
  have bound := h.size_le
  rw [List.mem_range] at hn hm
  have e' := congrArg UInt64.toNat e
  rw [UInt64.toNat_ofNat', UInt64.toNat_ofNat'] at e'
  omega

/-- An event leaves a session its number. -/
theorem Numbered.of_apply (h : s.Numbered) {id : SessionId} {x y : Session} {e : Session.Event}
    (found : s.session? id = some x) (moved : x.apply e = some y) :
    Store.Numbered { s with sessions := s.sessions.insert y } := by
  have place := session?_id_of_apply found moved
  have sequences := map_placeIn (·.sequence) (v := y) place (Session.fixed_apply moved).2.2.2.2
  have keys := map_placeIn Keyed.key (v := y) place (Session.fixed_apply moved).1
  have size : (s.sessions.insert y).size = s.sessions.size := by
    have := congrArg List.length keys
    rwa [List.length_map, List.length_map] at this
  refine ⟨h.last.trans (congrArg UInt64.ofNat size.symm), ?_, fun z hz => ?_⟩
  · dsimp only
    rw [size]
    exact sequences.trans h.inOrder
  · have : z.id ∈ (placeIn y s.sessions.entries).map Keyed.key := List.mem_map.2 ⟨z, hz, rfl⟩
    rw [keys] at this
    obtain ⟨x', hx', same⟩ := List.mem_map.1 this
    obtain ⟨word, hword⟩ := h.named x' hx'
    exact ⟨word, same.symm.trans hword⟩

theorem entries_addSession {x : Session} (fresh : s.session? x.id = none) :
    (s.addSession x).2.sessions.entries = s.sessions.entries ++ [(s.addSession x).1] :=
  placeIn_of_new fresh

/-- A session that is stored gets the next number. -/
theorem Numbered.addSession (h : s.Numbered) {x : Session} {word : UInt64}
    (fresh : s.session? x.id = none) (named : x.id = Ident.hex Ident.longDigits word) :
    (s.addSession x).2.Numbered := by
  have entries : (s.addSession x).2.sessions.entries =
      s.sessions.entries ++ [{ x with sequence := s.sequence + 1 }] := entries_addSession fresh
  have size : (s.addSession x).2.sessions.size = s.sessions.size + 1 := by
    rw [Table.size, entries, List.length_append, List.length_singleton, Table.size]
  have next : s.sequence + 1 = UInt64.ofNat (s.sessions.size + 1) := by
    rw [h.last, UInt64.ofNat_add]
    rfl
  refine ⟨next.trans (congrArg UInt64.ofNat size.symm), ?_, fun z hz => ?_⟩
  · rw [entries, size, List.range_succ, List.map_append, List.map_append, h.inOrder,
      List.map_singleton, List.map_singleton, next]
  · rw [entries, List.mem_append, List.mem_singleton] at hz
    rcases hz with hz | rfl
    · exact h.named z hz
    · exact ⟨word, named⟩

end Store

/-! ## What commands keep -/

theorem Reclaim.numbered {p q : Stage} (h : Reclaim p q) (numbered : p.store.Numbered) :
    q.store.Numbered := by
  cases h with
  | rest same =>
    unfold Stage.store
    rwa [same]
  | vacate found _ _ _ moved _ _ _ _ result =>
    unfold Stage.store
    rw [result]
    exact (numbered.of_apply found moved).of_eq (Store.sessions_vacate _ _ _)
      (Store.sequence_vacate _ _ _)
  | @grant w service _ h c head =>
    obtain ⟨stored, waits, -⟩ := Store.mem_queue.1 (List.mem_of_head? head)
    have occupied : (w.store.addCredential (c.occupy (w.time 0))).Numbered := numbered.of_eq rfl rfl
    have found : (w.store.addCredential (c.occupy (w.time 0))).session? h.id = some h := stored
    exact occupied.of_apply found (Session.apply_start waits c.id (w.time 1))
  | drained => exact numbered

theorem Reclaims.numbered {p q : Stage} (h : Reclaims p q) (numbered : p.store.Numbered) :
    q.store.Numbered := by
  induction h with
  | refl => exact numbered
  | tail _ step ih => exact step.numbered ih

theorem Course.numbered {w v : World} (h : Course w v) (numbered : w.store.Numbered) :
    v.store.Numbered := by
  cases h with
  | reclaimed steps => exact steps.numbered numbered
  | queued _ fresh named _ _ _ _ _ result =>
    rw [result]
    exact numbered.addSession fresh named
  | @placed _ c _ _ _ fresh named _ _ _ _ _ _ _ result =>
    rw [result]
    have occupied : (w.store.addCredential (c.occupy (w.time 1))).Numbered := numbered.of_eq rfl rfl
    exact occupied.addSession fresh named
  | cancelled _ found _ moved result =>
    rw [result]
    exact numbered.of_apply found moved
  | issued _ _ _ result | amended _ _ _ _ _ _ result | registered _ result =>
    rw [result]
    exact numbered.of_eq rfl rfl

theorem Command.numbered (key : Codec.Key) (c : Command) {w : World} (fresh : c.Fresh w)
    (coherent : w.store.Coherent) (numbered : w.store.Numbered) : (c.run key w).store.Numbered := by
  cases c with
  | define service => exact numbered.of_eq rfl rfl
  | call op => exact (op.course key fresh coherent).numbered numbered

theorem Store.Numbered.of_bare {s : Store} (bare : s = { services := s.services }) :
    s.Numbered := by
  have empty : s.sessions = .empty := by rw [bare]
  refine ⟨?_, ?_, fun x hx => ?_⟩
  · rw [bare]
    rfl
  · rw [empty]
    rfl
  · rw [empty] at hx
    cases hx

/-- **The numbers are apart** between any two commands. -/
theorem Orderly.numbered {key : Codec.Key} {w : World} {past : List Moment}
    (h : Orderly key w past) : w.store.Numbered := by
  induction h with
  | start w bare => exact .of_bare bare
  | next c h fresh ih => exact c.numbered key fresh h.coherent ih

end SlotBroker
