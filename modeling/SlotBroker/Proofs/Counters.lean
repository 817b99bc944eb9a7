import SlotBroker.Proofs.Occupancy
import SlotBroker.Proofs.Orderly

/-!
# The counters between commands

Where operations do not overlap, nobody holds a slot but the running sessions. So between any two
commands the counter of every credential is the number of sessions that run on it, and no counter is
above its cap.

Results:
* `Store.Settled.grant`, `Store.Settled.vacate`: a slot that a session gets or leaves is counted.
* **`Orderly.settled`**: between any two commands the counters show the running sessions.
-/

namespace SlotBroker

namespace Store

variable {s t : Store}

/-! ## Slots taken and given back -/

theorem occupancy_occupy {c : Credential} (known : s.credential? c.id = some c)
    (capacity : c.hasCapacity = true) (taken : Millis) (id : CredentialId) :
    (s.addCredential (c.occupy taken)).occupancy id =
      s.occupancy id + if c.id = id then 1 else 0 := by
  rw [occupancy_addCredential, c.id_occupy]
  split
  · rename_i same
    rw [(Credential.active_occupy taken capacity).1, occupancy, ← same, known, Option.elim_some]
  · rfl

theorem occupancy_giveBack (s : Store) (x : Session) (id : CredentialId) :
    (s.giveBack x).occupancy id = s.occupancy id - if x.credential = some id then 1 else 0 := by
  rw [occupancy, credential?_giveBack, occupancy]
  split
  · cases s.credential? id with
    | none => rfl
    | some c => exact toNat_fewer c.active 1
  · rfl

/-! ## Settled counters -/

/-- The counters show the running sessions, and are within their caps. -/
structure Settled (s : Store) : Prop where
  balanced : ∀ c, s.occupancy c = s.holders c
  capped : ∀ {id c}, s.credential? id = some c → c.active ≤ c.maxStreams

theorem Settled.of_eq (h : s.Settled) (credentials : t.credentials = s.credentials)
    (sessions : t.sessions = s.sessions) : t.Settled where
  balanced c := by
    unfold occupancy credential? holders
    rw [credentials, sessions]
    exact h.balanced c
  capped known := h.capped (by rwa [credential?, credentials] at known)

theorem Settled.active_eq (h : s.Settled) {id : CredentialId} {c : Credential}
    (known : s.credential? id = some c) : c.active.toNat = s.holders id := by
  rw [← h.balanced, occupancy, known, Option.elim_some]

/-- A slot that a session starts on is counted. -/
theorem Settled.occupy (h : s.Settled) {c : Credential} (known : s.credential? c.id = some c)
    (capacity : c.hasCapacity = true) (taken : Millis)
    (credentials : t.credentials = (s.addCredential (c.occupy taken)).credentials)
    (holders : ∀ id, t.holders id = s.holders id + if c.id = id then 1 else 0) : t.Settled where
  balanced id := by
    have counted := occupancy_occupy known capacity taken id
    unfold occupancy credential? at counted ⊢
    rw [credentials, counted, holders, ← h.balanced]
    rfl
  capped {id d} hd := by
    rw [credential?, credentials] at hd
    replace hd := (credential?_addCredential (s := s) (c.occupy taken) id).symm.trans hd
    split at hd
    · obtain rfl := Option.some.inj hd
      exact (Credential.active_occupy taken capacity).2
    · exact h.capped hd

theorem Settled.grant (h : s.Settled) {x : Session} {c : Credential}
    (stored : s.session? x.id = some x) (waits : x.state = .queued)
    (known : s.credential? c.id = some c) (capacity : c.hasCapacity = true)
    (taken started : Millis) : (s.grant x c taken started).Settled := by
  refine h.occupy known capacity taken rfl fun id => ?_
  have hold := Move.holders_of_found stored (Session.apply_start waits c.id started) id
  rw [Move.toNat_holds, Move.toNat_holds, waits, if_neg (by simp)] at hold
  simp only [Session.started, true_and, Option.some.injEq] at hold
  exact hold

/-- A slot that a session leaves is counted off. -/
theorem Settled.vacate (h : s.Settled) {id : SessionId} {x y : Session} {e : Session.Event}
    (coherent : s.Coherent) (found : s.session? id = some x) (runs : x.state = .active)
    (moved : x.apply e = some y) (r : UsageRecord) : (s.vacate y r).Settled where
  balanced c := by
    have hold := Move.holders_of_found found moved c
    obtain ⟨-, bound⟩ := Session.Complete.of_apply (coherent.shaped found) runs moved
    have ended : y.state ≠ .active := fun hy => by
      have := Session.isTerminal_of_apply_active moved runs
      rw [hy] at this
      cases this
    rw [Move.toNat_holds, Move.toNat_holds, runs, if_neg (c := y.state = .active ∧ _) fun h =>
      ended h.1, ← bound] at hold
    have counted := occupancy_giveBack { s with sessions := s.sessions.insert y } y c
    have balanced : Store.occupancy { s with sessions := s.sessions.insert y } c = s.holders c :=
      h.balanced c
    have left : (s.vacate y r).holders c =
        Store.holders { s with sessions := s.sessions.insert y } c := by
      rw [holders, sessions_vacate]
      rfl
    refine (show (s.vacate y r).occupancy c = _ from counted).trans ?_
    rw [balanced, left]
    simp only [true_and] at hold
    omega
  capped {id c} known := by
    replace known :=
      (credential?_giveBack { s with sessions := s.sessions.insert y } y id).symm.trans known
    split at known
    · obtain ⟨d, hd, rfl⟩ := Option.map_eq_some_iff.1 known
      have before := h.capped (show s.credential? id = some d from hd)
      refine UInt32.le_trans (b := d.active) (UInt32.le_iff_toNat_le.2 ?_) before
      rw [Credential.release, toNat_fewer]
      exact Nat.sub_le _ _
    · exact h.capped known

theorem Settled.of_apply (h : s.Settled) {id : SessionId} {x y : Session} {e : Session.Event}
    (found : s.session? id = some x) (moved : x.apply e = some y)
    (same : ∀ c, (x.holds c).toNat = (y.holds c).toNat) :
    Settled { s with sessions := s.sessions.insert y } where
  balanced c := by
    have hold := Move.holders_of_found found moved c
    rw [same] at hold
    exact (h.balanced c).trans (Nat.add_right_cancel hold).symm
  capped known := h.capped known

/-- A credential takes its place whose slots are held as before. -/
theorem Settled.addCredential (h : s.Settled) {c : Credential}
    (same : c.active.toNat = s.occupancy c.id) (cap : c.active ≤ c.maxStreams) :
    (s.addCredential c).Settled where
  balanced id := by
    rw [occupancy_addCredential]
    split
    · rename_i hid
      rw [same, hid]
      exact h.balanced id
    · exact h.balanced id
  capped {id d} hd := by
    rw [credential?_addCredential] at hd
    split at hd
    · rwa [← Option.some.inj hd]
    · exact h.capped hd

end Store

/-! ## What commands keep -/

theorem Reclaim.settled {p q : Stage} (h : Reclaim p q) (coherent : p.store.Coherent)
    (settled : p.store.Settled) : q.store.Settled := by
  cases h with
  | rest same =>
    unfold Stage.store
    rwa [same]
  | vacate found runs _ _ moved _ _ _ _ result =>
    unfold Stage.store
    rw [result]
    exact settled.vacate coherent found runs moved _
  | grant head spare =>
    obtain ⟨stored, waits, -⟩ := Store.mem_queue.1 (List.mem_of_head? head)
    obtain ⟨known, -, capacity⟩ := Store.mem_available.1 (List.mem_of_head? spare)
    exact settled.grant stored waits known capacity _ _
  | drained => exact settled

theorem Reclaims.settled {p q : Stage} (h : Reclaims p q) (coherent : p.store.Coherent)
    (settled : p.store.Settled) : q.store.Settled := by
  induction h with
  | refl => exact settled
  | tail steps step ih => exact step.settled (Reclaims.keeps steps coherent).2 ih

theorem Course.settled {w v : World} (h : Course w v) (coherent : w.store.Coherent)
    (settled : w.store.Settled) : v.store.Settled := by
  cases h with
  | reclaimed steps => exact steps.settled coherent settled
  | queued _ fresh _ waits _ _ _ _ result =>
    rw [result]
    refine ⟨fun c => (settled.balanced c).trans ?_, settled.capped⟩
    rw [Move.holders_of_new fresh, Move.toNat_holds, waits, if_neg (by simp)]
    rfl
  | @placed x c _ _ _ fresh _ runs _ _ _ _ bound spare result =>
    rw [result]
    obtain ⟨known, -, capacity⟩ := Store.mem_available.1 (List.mem_of_head? spare)
    have new : (w.store.addCredential (c.occupy (w.time 1))).session? x.id = none := fresh
    refine settled.occupy known capacity (w.time 1) rfl fun id => ?_
    rw [Move.holders_of_new new, Move.toNat_holds, runs, bound]
    simp only [true_and, Option.some.injEq]
    rfl
  | @cancelled x y _ found waits moved result =>
    rw [result]
    refine settled.of_apply found moved fun c => ?_
    have ended := Session.state_apply moved
    rw [waits] at ended
    rw [Move.toNat_holds, Move.toNat_holds, waits, ← Option.some.inj ended, if_neg (by simp),
      if_neg (by simp)]
  | issued _ fresh idle result =>
    rw [result]
    refine settled.addCredential ?_ (idle ▸ UInt32.zero_le)
    rw [idle, Store.occupancy, fresh]
    rfl
  | amended _ known _ active cap _ result =>
    rw [result]
    refine settled.addCredential ?_ ?_
    · rw [active, Store.occupancy, known, Option.elim_some]
    · rw [active, cap]
      exact settled.capped known
  | registered _ result =>
    rw [result]
    exact settled.of_eq rfl rfl

/-- **Between any two commands the counters show the running sessions.** -/
theorem Orderly.settled {key : Codec.Key} {w : World} {past : List Moment}
    (h : Orderly key w past) : w.store.Settled := by
  induction h with
  | start w bare =>
    rw [bare]
    exact ⟨fun _ => rfl, fun known => nomatch known⟩
  | next c h fresh ih =>
    cases c with
    | define service => exact ih.of_eq rfl rfl
    | call op => exact (op.course key fresh h.coherent).settled h.coherent ih

end SlotBroker
