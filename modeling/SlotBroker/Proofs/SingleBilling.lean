import Mathlib
import SlotBroker.Proofs.Books

/-!
# Every session that ran is billed once

The step that ends or expires a running session hands its bill to the call that took the step, and
to no other; the call writes the record some steps later. The bills in hand and the records in the
ledger together are one for each session that has left its slot, and none for any other.

Results:
* `Move.settlement`: a step makes as many bills and records of a session as it makes sessions that
  have left their slots.
* `Books.billed`: what the ledger and the bills in hand say is true of the stored sessions.
* **`billed_once`**: in every reachable scene each record bills a session that has run to its end,
  no session has two, and at most one call for the end of a session knows of a record; when no call
  is in flight, just the sessions that have left their slots have one.
-/

namespace SlotBroker

/-- The session has run, and runs no more. -/
def Session.ran (x : Session) : Bool := x.state.isTerminal && x.startedAt.isSome

/-- The record is the session's, and counts and prices the time that it ran. -/
structure UsageRecord.Bills (r : UsageRecord) (x : Session) (definition : Service) : Prop where
  session : r.session = x.id
  user : r.user = x.user
  service : r.service = x.service
  duration : ∃ first last, x.startedAt = some first ∧ x.endedAt = some last ∧
    r.duration = seconds (minus last first)
  cost : r.cost = r.duration * definition.costPerSecond

theorem UsageRecord.bills_ofSession {x : Session} (complete : x.Complete) (id : String)
    (service : Service) (now : Millis) : (ofSession id x service now).Bills x service := by
  obtain ⟨-, hstart, hend⟩ := complete
  obtain ⟨first, hfirst⟩ := Option.isSome_iff_exists.1 hstart
  obtain ⟨last, hlast⟩ := Option.isSome_iff_exists.1 hend
  refine ⟨rfl, rfl, rfl, ⟨first, last, hfirst, hlast, ?_⟩, rfl⟩
  simp only [ofSession, Session.duration, Session.ranFor, hfirst, hlast, Option.getD_some]

/-! ## Bills and records -/

namespace Store

variable {s t : Store}

/-- The number of records of a session. -/
def recordsOf (s : Store) (id : SessionId) : Nat := s.ledger.countP fun r => r.session = id

/-- The session is stored and has left its slot. -/
def ranOf (s : Store) (id : SessionId) : Bool := (s.session? id).elim false Session.ran

theorem ranOf_insert {t : Store} {y : Session} (ht : t.sessions = s.sessions.insert y)
    (id : SessionId) : t.ranOf id = if y.id = id then y.ran else s.ranOf id := by
  rw [ranOf, session?, ht, Table.find?_insert]
  change (if y.id = id then some y else _).elim false Session.ran = _
  split <;> rfl

/-- Storing a session that has run just if it had run before makes no difference. -/
theorem ranOf_insert_of_eq {t : Store} {y : Session} (ht : t.sessions = s.sessions.insert y)
    (same : y.ran = s.ranOf y.id) (id : SessionId) : t.ranOf id = s.ranOf id := by
  rw [ranOf_insert ht]
  split
  · rename_i hid
    rw [same, hid]
  · rfl

end Store

/-- The bills of a session that a stake shows. -/
def Stake.bills (g : Stake) (id : SessionId) : Nat := (g.bill.elim false (·.id = id)).toNat

namespace Move

variable {d : Deed} {s t : Store} {g g' : Stake}

/-- **A step settles what it does**: each session that it makes leave its slot is a bill in the
hands of the call, and each record that it writes was one. -/
theorem settlement (h : Move d s g t g') (coherent : s.Coherent)
    (fresh : ∀ id, g.id = some id → s.Unused id) (id : SessionId) :
    t.recordsOf id + g'.bills id + (s.ranOf id).toNat =
      s.recordsOf id + g.bills id + (t.ranOf id).toNat := by
  have ranOf_found : ∀ {i x}, s.session? i = some x → s.ranOf i = x.ran := by
    intro i x hx
    rw [Store.ranOf, hx]
    rfl
  have ranOf_new : ∀ {x : Session}, g.id = some x.id → s.ranOf x.id = false := by
    intro x hx
    rw [Store.ranOf, (fresh _ hx).1]
    rfl
  cases h with
  | look | emptied | surveyed | refused | taken | returned | issued | amended | registered => rfl
  | @queued _ _ x hid waits =>
    have same := Store.ranOf_insert_of_eq (s := s) (t := (s.addSession x).2) rfl
      (by rw [ranOf_new hid, Session.ran, waits]; rfl) id
    rw [same]
    rfl
  | @placed _ _ x _ _ hid runs =>
    have same := Store.ranOf_insert_of_eq (s := s) (t := (s.addSession x).2) rfl
      (by rw [ranOf_new hid, Session.ran, runs]; rfl) id
    rw [same]
    rfl
  | @started _ _ i x y c time _ found moved =>
    have hid : y.id = i :=
      (Session.fixed_apply moved).1.trans (Store.session?_eq_some_iff.1 found).2
    have hx : x.state.isTerminal = false := Session.isTerminal_eq_false_of_apply moved
    have hy : y.state = .active := by rw [(Session.eq_started_of_apply moved).2, Session.started]
    have same := Store.ranOf_insert_of_eq (s := s)
      (t := { s with sessions := s.sessions.insert y }) rfl
      (by rw [hid, ranOf_found found, Session.ran, Session.ran, hx, hy]; rfl) id
    rw [same]
    rfl
  | @cancelled _ _ i x y time found waits moved =>
    have hid : y.id = i :=
      (Session.fixed_apply moved).1.trans (Store.session?_eq_some_iff.1 found).2
    have hx := coherent.shaped found
    simp only [Session.Shaped, waits] at hx
    have hy : y.startedAt = x.startedAt := by
      simp only [Session.apply, Option.map_eq_some_iff] at moved
      obtain ⟨state, -, rfl⟩ := moved
      rfl
    have same := Store.ranOf_insert_of_eq (s := s)
      (t := { s with sessions := s.sessions.insert y }) rfl
      (by rw [hid, ranOf_found found, Session.ran, Session.ran, hy, hx.2.1]; simp) id
    rw [same]
    rfl
  | @left _ _ i e x y found runs moved empty settled =>
    have hid : y.id = i :=
      (Session.fixed_apply moved).1.trans (Store.session?_eq_some_iff.1 found).2
    have hx : s.ranOf i = false := by
      rw [ranOf_found found, Session.ran, runs]
      rfl
    have hy : y.ran = true := by
      rw [Session.ran, Session.isTerminal_of_apply_active moved runs, Bool.true_and]
      exact (Session.Complete.of_apply (coherent.shaped found) runs moved).1.2.1
    rw [Store.ranOf_insert (s := s) (t := { s with sessions := s.sessions.insert y }) rfl, hid]
    simp only [Stake.bills, settled, Option.elim_some, Option.elim_none, hid]
    by_cases h : i = id
    · subst h
      simp [hx, hy, Store.recordsOf]
    · simp [h, Store.recordsOf]
  | @billed _ _ y r service now pending written =>
    have hr : r.session = y.id := by
      rw [written]
      rfl
    have records : (s.appendUsage r).recordsOf id =
        s.recordsOf id + (decide (y.id = id)).toNat := by
      rw [Store.recordsOf, Store.appendUsage, List.countP_append, List.countP_singleton, hr]
      by_cases h : y.id = id <;> simp [h, Store.recordsOf]
    rw [records]
    simp only [Stake.bills, pending, Option.elim_some, Option.elim_none]
    change _ + (s.ranOf id).toNat = _ + (s.ranOf id).toNat
    simp

end Move

/-! ## What the books say of bills -/

/-- What the ledger, the bills in hand and the ends made say is true of the stored sessions. -/
structure Billed (s : Store) (gs : List Stake) : Prop where
  /-- A session that is to be billed has run to its end. -/
  pending : ∀ g ∈ gs, ∀ y, g.bill = some y →
    s.session? y.id = some y ∧ y.state.isTerminal = true ∧ y.Complete
  /-- Each record bills a stored session that has run to its end. -/
  written : ∀ r ∈ s.ledger, ∃ x definition, s.session? r.session = some x ∧
    x.state.isTerminal = true ∧ x.Complete ∧ s.service? x.service = some definition ∧
    r.Bills x definition
  /-- The records and the bills in hand are those of the sessions that have left their slots. -/
  balance : ∀ id, s.recordsOf id + (gs.map (·.bills id)).sum = (s.ranOf id).toNat
  /-- A session that a call has ended is ended. -/
  ended : ∀ g ∈ gs, ∀ id, g.ended = some id → ∃ x, s.session? id = some x ∧ x.state = .ended
  /-- No session has been ended twice. -/
  once : gs.Pairwise (Stake.Apart Stake.ended)

namespace Billed

variable {s t : Store} {gs gs₁ gs₂ : List Stake} {g g' : Stake}

theorem sum_bills (id : SessionId) : ((gs₁ ++ g :: gs₂).map (·.bills id)).sum =
    g.bills id + ((gs₁ ++ gs₂).map (·.bills id)).sum := by
  simp only [List.map_append, List.map_cons, List.sum_append, List.sum_cons]
  omega

theorem of_bare (bare : s = { services := s.services }) : Billed s [] where
  pending g hg := nomatch hg
  written r hr := by
    rw [bare] at hr
    cases hr
  balance id := by
    rw [bare]
    rfl
  ended g hg := nomatch hg
  once := .nil

theorem call (h : Billed s gs) : Billed s (gs ++ [({} : Stake)]) where
  pending g hg y hy := by
    rcases List.mem_append.1 hg with hg | hg
    · exact h.pending g hg y hy
    · rw [List.mem_singleton.1 hg] at hy
      cases hy
  written := h.written
  balance id := by
    rw [← h.balance, List.map_append, List.sum_append]
    rfl
  ended g hg id hid := by
    rcases List.mem_append.1 hg with hg | hg
    · exact h.ended g hg id hid
    · rw [List.mem_singleton.1 hg] at hid
      cases hid
  once := Stake.pairwise_apart_concat h.once rfl

/-- An id in hand makes no difference. -/
theorem draw {id : String} (h : Billed s (gs₁ ++ g :: gs₂)) :
    Billed s (gs₁ ++ { g with id := some id } :: gs₂) where
  pending k hk y hy := by
    rcases Stake.mem_middle.1 hk with rfl | hk
    · exact h.pending g (Stake.mem_middle.2 (.inl rfl)) y hy
    · exact h.pending k (Stake.mem_middle.2 (.inr hk)) y hy
  written := h.written
  balance i := by
    rw [← h.balance, sum_bills, sum_bills]
    rfl
  ended k hk i hi := by
    rcases Stake.mem_middle.1 hk with rfl | hk
    · exact h.ended g (Stake.mem_middle.2 (.inl rfl)) i hi
    · exact h.ended k (Stake.mem_middle.2 (.inr hk)) i hi
  once := by
    obtain ⟨apart, rest⟩ := Stake.pairwise_apart_middle.1 h.once
    exact Stake.pairwise_apart_middle.2 ⟨apart, rest⟩

end Billed

namespace Move

variable {d : Deed} {s t : Store} {g g' : Stake}

/-- A bill that a step leaves in hand was in hand before, or is of the session that the step has
ended. -/
theorem pending (h : Move d s g t g') (coherent : s.Coherent) {y : Session}
    (hy : g'.bill = some y) :
    g.bill = some y ∨ t.session? y.id = some y ∧ y.state.isTerminal = true ∧ y.Complete := by
  cases h with
  | left found runs moved =>
    obtain rfl := Option.some.inj hy
    refine .inr ⟨?_, Session.isTerminal_of_apply_active moved runs,
      (Session.Complete.of_apply (coherent.shaped found) runs moved).1⟩
    rw [Store.session?_insert, if_pos rfl]
  | billed => cases hy
  | look | emptied | surveyed | refused | taken | returned | queued | placed | started | cancelled
  | issued | amended | registered => exact .inl hy

/-- A record that a step leaves in the ledger was there before, or its bill was in hand. -/
theorem written (h : Move d s g t g') {r : UsageRecord} (hr : r ∈ t.ledger) :
    r ∈ s.ledger ∨ ∃ y definition now, g.bill = some y ∧ s.service? y.service = some definition ∧
      r = UsageRecord.ofSession r.id y definition now := by
  cases h with
  | @billed _ _ y r' definition now pending written priced =>
    rcases List.mem_append.1 hr with hr | hr
    · exact .inl hr
    · obtain rfl := List.mem_singleton.1 hr
      exact .inr ⟨y, definition, now, pending, priced, written⟩
  | look | emptied | surveyed | refused | taken | returned | queued | placed | started | cancelled
  | left | issued | amended | registered => exact .inl hr

/-- A session that a call has ended it had ended before, or it ran before the step and has ended by
it. -/
theorem ended (h : Move d s g t g') {id : SessionId} (hid : g'.ended = some id) :
    g.ended = some id ∨ ∃ x y, s.session? id = some x ∧ x.state = .active ∧
      t.session? id = some y ∧ y.state = .ended := by
  cases h with
  | @left _ _ i e x y found runs moved =>
    cases e with
    | finish time =>
      obtain rfl := Option.some.inj hid
      have hy := Session.state_apply moved
      rw [runs] at hy
      refine .inr ⟨x, y, found, runs, ?_, (Option.some.inj hy).symm⟩
      rw [Store.session?_insert, (Session.fixed_apply moved).1,
        if_pos (Store.session?_eq_some_iff.1 found).2]
    | start | expire => exact .inl hid
  | look | emptied | surveyed | refused | taken | returned | queued | placed | started | cancelled
  | billed | issued | amended | registered => exact .inl hid

end Move

namespace Billed

variable {s t : Store} {gs gs₁ gs₂ : List Stake} {g g' : Stake} {drawn : List String}

theorem move {d : Deed} (h : Billed s (gs₁ ++ g :: gs₂)) (sound : Sound s (gs₁ ++ g :: gs₂) drawn)
    (hm : Move d s g t g') : Billed t (gs₁ ++ g' :: gs₂) := by
  have hgrow := hm.grows sound.unused
  have self : g ∈ gs₁ ++ g :: gs₂ := Stake.mem_middle.2 (.inl rfl)
  have stays : ∀ {id x}, s.session? id = some x → x.state = .ended → t.session? id = some x :=
    fun hx hend => hgrow.session?_of_terminal hx (by rw [hend]; rfl)
  refine ⟨fun k hk y hy => ?_, fun r hr => ?_, fun id => ?_, fun k hk id hid => ?_, ?_⟩
  · have old : ∀ k ∈ gs₁ ++ g :: gs₂, k.bill = some y →
        t.session? y.id = some y ∧ y.state.isTerminal = true ∧ y.Complete := by
      intro k hk hy
      obtain ⟨hstored, hend, hcomplete⟩ := h.pending k hk y hy
      exact ⟨hgrow.session?_of_terminal hstored hend, hend, hcomplete⟩
    rcases Stake.mem_middle.1 hk with rfl | hk
    · exact (hm.pending sound.coherent hy).elim (old g self) id
    · exact old k (Stake.mem_middle.2 (.inr hk)) hy
  · rcases hm.written hr with hr | ⟨y, definition, now, hbill, hserv, hofSession⟩
    · obtain ⟨x, definition, hx, hend, hcomplete, hserv, hbills⟩ := h.written r hr
      refine ⟨x, definition, hgrow.session?_of_terminal hx hend, hend, hcomplete, ?_, hbills⟩
      rwa [Store.service?, hgrow.services]
    · obtain ⟨hstored, hend, hcomplete⟩ := h.pending g self y hbill
      have hbills := UsageRecord.bills_ofSession hcomplete r.id definition now
      rw [← hofSession] at hbills
      refine ⟨y, definition, ?_, hend, hcomplete, ?_, hbills⟩
      · rw [hbills.session]
        exact hgrow.session?_of_terminal hstored hend
      · rwa [Store.service?, hgrow.services]
  · have before := h.balance id
    have step := hm.settlement sound.coherent sound.unused id
    rw [sum_bills] at before ⊢
    omega
  · have old : ∀ k ∈ gs₁ ++ g :: gs₂, k.ended = some id →
        ∃ x, t.session? id = some x ∧ x.state = .ended := by
      intro k hk hid
      obtain ⟨x, hx, hend⟩ := h.ended k hk id hid
      exact ⟨x, stays hx hend, hend⟩
    rcases Stake.mem_middle.1 hk with rfl | hk
    · rcases hm.ended hid with hid | ⟨-, y, -, -, hy, hend⟩
      · exact old g self hid
      · exact ⟨y, hy, hend⟩
    · exact old k (Stake.mem_middle.2 (.inr hk)) hid
  · obtain ⟨apart, rest⟩ := Stake.pairwise_apart_middle.1 h.once
    refine Stake.pairwise_apart_middle.2 ⟨fun k hk id hid hk' => ?_, rest⟩
    rcases hm.ended hid with hid | ⟨x, -, hx, hrun, -⟩
    · exact apart k hk id hid hk'
    · -- the session still ran, so no other call had ended it
      obtain ⟨z, hz, hend⟩ := h.ended k (Stake.mem_middle.2 (.inr hk)) id hk'
      rw [hx] at hz
      obtain rfl := Option.some.inj hz
      rw [hrun] at hend
      cases hend

end Billed

/-- **What the books say of bills is so.** -/
theorem Books.billed {s : Store} {gs : List Stake} {drawn : List String} {past : List Moment}
    (h : Books s gs drawn past) : Billed s gs := by
  induction h with
  | start s bare => exact .of_bare bare
  | call _ ih => exact ih.call
  | draw _ _ ih => exact ih.draw
  | move hb hm ih => exact ih.move hb.sound hm

/-! ## The ledger -/

/-- The call is one for the end of a session, and it came back with a record. -/
def Call.HasRecord (c : Call) (id : SessionId) : Prop :=
  c.operation = .finish id ∧ ∃ r, c.rest = .done (.record (some r))

theorem Call.HasRecord.ended {s : Store} {c : Call} {g : Stake} {id : SessionId}
    (h : c.HasRecord id) (keeps : c.Keeps s g) : g.ended = some id := by
  obtain ⟨hop, r, hrest⟩ := h
  unfold Call.Keeps at keeps
  rw [hrest] at keeps
  exact (keeps s (.refl s)).2.2 id r hop rfl

theorem Store.ranOf_eq_true_iff {s : Store} {id : SessionId} : s.ranOf id = true ↔
    ∃ x, s.session? id = some x ∧ x.state.isTerminal = true ∧ x.startedAt.isSome = true := by
  unfold Store.ranOf
  cases s.session? id with
  | none => simp
  | some x => simp [Session.ran]

/-- **Every session that ran is billed once**, whatever the order of steps. -/
theorem billed_once {key : Codec.Key} {σ : Scene} (h : σ.Reachable key) :
    (σ.store.ledger.map (·.session)).Nodup ∧
    (∀ r ∈ σ.store.ledger, ∃ x definition, σ.store.session? r.session = some x ∧
      x.state.isTerminal = true ∧ x.startedAt.isSome = true ∧
      σ.store.service? x.service = some definition ∧ r.Bills x definition) ∧
    (σ.Quiet → ∀ id, id ∈ σ.store.ledger.map (·.session) ↔
      ∃ x, σ.store.session? id = some x ∧ x.state.isTerminal = true ∧ x.startedAt.isSome = true) ∧
    (∀ (id : SessionId) (i j : Nat) (c d : Call), σ.calls[i]? = some c → σ.calls[j]? = some d →
      c.HasRecord id → d.HasRecord id → i = j) ∧
    (∀ id x, σ.store.session? id = some x → x.state = .expired →
      ∀ c ∈ σ.calls, ¬ c.HasRecord id) := by
  obtain ⟨gs, hb, hk⟩ := h.books
  have billed := hb.billed
  have count : ∀ id, (σ.store.ledger.map (·.session)).count id = σ.store.recordsOf id := by
    intro id
    rw [List.count_eq_countP, List.countP_map, Store.recordsOf]
    rfl
  have endedOf : ∀ {i : Nat} {c : Call} {id : SessionId}, σ.calls[i]? = some c →
      c.HasRecord id → ∃ g, gs[i]? = some g ∧ g.ended = some id := by
    intro i c id hi hc
    obtain ⟨g, hg, keeps⟩ := Scene.keeps_of_getElem? hk hi
    exact ⟨g, hg, hc.ended keeps⟩
  refine ⟨List.nodup_iff_count.2 fun id => ?_, fun r hr => ?_, fun quiet id => ?_,
    fun id i j c d hi hj hc hd => ?_, fun id x hx hexpired c hc hrecord => ?_⟩
  · have := billed.balance id
    have bound := Bool.toNat_le (σ.store.ranOf id)
    rw [count]
    omega
  · obtain ⟨x, definition, hx, hend, hcomplete, hserv, hbills⟩ := billed.written r hr
    exact ⟨x, definition, hx, hend, hcomplete.2.1, hserv, hbills⟩
  · have none : (gs.map (·.bills id)).sum = 0 := by
      refine List.sum_eq_zero fun n hn => ?_
      obtain ⟨g, hg, rfl⟩ := List.mem_map.1 hn
      rw [Stake.bills, (quiet.settles hk g hg).1.2]
      rfl
    have balance := billed.balance id
    rw [none, Nat.add_zero] at balance
    rw [← Store.ranOf_eq_true_iff, ← List.count_pos_iff, count, balance]
    cases σ.store.ranOf id <;> simp
  · obtain ⟨g, hg, hgid⟩ := endedOf hi hc
    obtain ⟨k, hk, hkid⟩ := endedOf hj hd
    obtain ⟨hilt, rfl⟩ := List.getElem?_eq_some_iff.1 hg
    obtain ⟨hjlt, rfl⟩ := List.getElem?_eq_some_iff.1 hk
    have apart := List.pairwise_iff_getElem.1 billed.once
    rcases Nat.lt_trichotomy i j with hlt | heq | hgt
    · exact absurd hkid (apart i j hilt hjlt hlt id hgid)
    · exact heq
    · exact absurd hgid (apart j i hjlt hilt hgt id hkid)
  · obtain ⟨i, hi⟩ := List.getElem?_of_mem hc
    obtain ⟨g, hg, hgid⟩ := endedOf hi hrecord
    obtain ⟨y, hy, hended⟩ := billed.ended g (List.mem_of_getElem? hg) id hgid
    obtain rfl := Option.some.inj (hx.symm.trans hy)
    rw [hexpired] at hended
    cases hended

/-- A user has a session; two calls for its end come in, and each takes its turn after the other
until both are done. -/
def endedTwice : Scene :=
  .after ([Scene.Choice.call (.issue "films" "house" "secret" .basic), Scene.Choice.turn 0 0 0,
      Scene.Choice.turn 0 0 7, Scene.Choice.turn 0 0 0,
      Scene.Choice.call (.request "ann" "films")] ++
    (List.range 8).map (fun n => Scene.Choice.turn 1 5 (.ofNat (10 + n))) ++
    [Scene.Choice.call (.finish "000000000000000c"),
      Scene.Choice.call (.finish "000000000000000c")] ++
    (List.range 12).flatMap fun n =>
      [Scene.Choice.turn 2 9 (.ofNat (20 + n)), Scene.Choice.turn 3 9 (.ofNat (40 + n))])

theorem billed_once_endedTwice :
    endedTwice.store.ledger.map (·.session) = ["000000000000000c"] ∧
      ∃ x, endedTwice.store.session? "000000000000000c" = some x ∧ x.state.isTerminal = true ∧
        x.startedAt.isSome = true := by
  have quiet : endedTwice.Quiet := Scene.quiet_of_all_isDone (by decide +kernel)
  have ledger : endedTwice.store.ledger.map (·.session) = ["000000000000000c"] := by decide +kernel
  have ran := (billed_once (Scene.reachable_after _)).2.2.1 quiet "000000000000000c"
  exact ⟨ledger, ran.1 (ledger ▸ List.mem_singleton.2 rfl)⟩

end SlotBroker
