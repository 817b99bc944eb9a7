import Mathlib
import SlotBroker.Proofs.Books

/-!
# No slot is lost and none is made up

The counter of a credential is raised and lowered in other steps than those that start and end
sessions. In between the slot is in the hands of a call. `Scene.slotsInFlight` reads off the steps
that the calls have taken how many slots of a credential are in hand: a checkout and the end of a
running session put one into the hands of the call, the start of a session and a checkin take one
out of them.

Results:
* `Move.shift`: a step shifts at most one slot of a credential, and a slot that leaves one place
  arrives at another.
* `Books.balance`: the counter is the number of running sessions plus the slots in hand.
* `Books.slotsInHand_eq`: what the steps of a call say is what its stake says.
* `Scene.Reachable.slotsInHand_of_done`: a call that is finished has no slot in hand.
* **`slots_conserved`**: in every reachable scene the counter of a credential is the number of its
  running sessions plus its slots in flight, and at most its cap; no checkin finds it at zero; and
  when no call is in flight the counters and the status of a service show the running sessions.
-/

namespace SlotBroker

/-! ## Counting records -/

/-- Where kinds exclude each other, what is counted kind by kind is counted once. -/
theorem sum_countP {ι α : Type} (p : ι → α → Bool) {is : List ι}
    (apart : is.Pairwise fun i j => ∀ x, p i x = true → p j x = false) (xs : List α) :
    (is.map fun i => xs.countP (p i)).sum = xs.countP fun x => is.any (p · x) := by
  induction apart with
  | nil => simp
  | @cons i is hi _ ih =>
    rw [List.map_cons, List.sum_cons, ih]
    clear ih
    induction xs with
    | nil => rfl
    | cons x xs ih =>
      simp only [List.countP_cons, List.any_cons] at ih ⊢
      cases hx : p i x
      · simp only [Bool.false_or, Bool.false_eq_true, if_false]
        omega
      · have others : is.any (p · x) = false :=
          List.any_eq_false.2 fun j hj => by simp [hi j hj x hx]
        simp only [others, Bool.or_false, Bool.false_eq_true, if_true, if_false]
        omega

/-- Sessions that are counted only under their own credential are counted once. -/
theorem sum_countP_credential {p : CredentialId → Session → Bool}
    (own : ∀ {c x}, p c x = true → x.credential = some c) {cs : List Credential}
    (distinct : (cs.map Keyed.key).Nodup) (xs : List Session) :
    (cs.map fun c => xs.countP (p c.id)).sum = xs.countP fun x => cs.any (p ·.id x) := by
  refine sum_countP (fun (c : Credential) (x : Session) => p c.id x) ?_ xs
  refine (List.pairwise_map.1 distinct).imp fun {c d} different x hx => ?_
  rw [Bool.eq_false_iff]
  exact fun hd => different (Option.some.inj ((own hx).symm.trans (own hd)))

namespace Store

/-- The slots of a credential that are held, going by its counter. -/
def occupancy (s : Store) (c : CredentialId) : Nat := (s.credential? c).elim 0 (·.active.toNat)

/-- The number of running sessions that are bound to a credential. -/
def holders (s : Store) (c : CredentialId) : Nat := s.sessions.entries.countP (·.holds c)

/-- The number of running sessions of a service. -/
def running (s : Store) (service : ServiceId) : Nat :=
  s.sessions.entries.countP fun x => x.state = .active && x.service = service

variable {s : Store}

theorem occupancy_addCredential (x : Credential) (c : CredentialId) :
    (s.addCredential x).occupancy c = if x.id = c then x.active.toNat else s.occupancy c := by
  rw [occupancy, credential?_addCredential]
  split <;> rfl

theorem holders_insert {t : Store} {y : Session} (c : CredentialId)
    (ht : t.sessions = s.sessions.insert y) :
    t.holders c + ((s.session? y.id).elim 0 fun x => (x.holds c).toNat) =
      s.holders c + (y.holds c).toNat := by
  rw [holders, ht]
  exact countP_placeIn (fun x : Session => x.holds c) y s.sessions.entries

/-- The running sessions of a service are those bound to one of its credentials. -/
theorem Coherent.running_eq (h : s.Coherent) (service : ServiceId) :
    s.running service = ((s.credentialsOf service).map fun c => s.holders c.id).sum := by
  have distinct : ((s.credentialsOf service).map Keyed.key).Nodup :=
    List.Nodup.sublist (List.Sublist.map _ List.filter_sublist) s.credentials.nodup
  have own : ∀ {c : CredentialId} {x : Session}, x.holds c = true → x.credential = some c :=
    fun holds => by
      simp only [Session.holds, Bool.and_eq_true, decide_eq_true_eq] at holds
      exact holds.2
  unfold holders running
  rw [sum_countP_credential (p := fun c x => x.holds c) own distinct]
  refine List.countP_congr fun x hx => ?_
  have hfind : s.session? x.id = some x := session?_eq_some_iff.2 ⟨hx, rfl⟩
  simp only [Bool.and_eq_true, decide_eq_true_eq, List.any_eq_true, Session.holds, credentialsOf,
    List.mem_filter]
  constructor
  · rintro ⟨hrun, hserv⟩
    have hshape := h.shaped hfind
    simp only [Session.Shaped, hrun] at hshape
    obtain ⟨c, hc⟩ := Option.isSome_iff_exists.1 hshape.1
    obtain ⟨d, hd, hds⟩ := h.bound hfind hc
    obtain ⟨hmem, rfl⟩ := credential?_eq_some_iff.1 hd
    exact ⟨d, ⟨hmem, hds.trans hserv⟩, hrun, hc⟩
  · rintro ⟨d, ⟨hmem, hds⟩, hrun, hc⟩
    obtain ⟨e, he, hes⟩ := h.bound hfind hc
    rw [credential?_eq_some_iff.2 ⟨hmem, rfl⟩] at he
    obtain rfl := Option.some.inj he
    exact ⟨hrun, hes.symm.trans hds⟩

end Store

/-! ## Slots in hand -/

/-- The slots of a credential that a call has in hand after some steps, latest first. -/
def slotsInHand (c : CredentialId) (call : Nat) : List Moment → Nat
  | [] => 0
  | m :: past =>
    let n := slotsInHand c call past
    if m.call ≠ call then n
    -- a slot was checked out, or a session that ran on one has ended
    else if m.before.occupancy c < m.after.occupancy c ∨ m.after.holders c < m.before.holders c then
      n + 1
    -- a slot was checked in, or a session started on it
    else if m.after.occupancy c < m.before.occupancy c ∨ m.before.holders c < m.after.holders c then
      n - 1
    else n

/-- The slots of a credential that are in the hands of calls. A call that is finished has none in
hand, see `Scene.Reachable.slotsInHand_of_done`. -/
def Scene.slotsInFlight (σ : Scene) (c : CredentialId) : Nat :=
  ((List.range σ.calls.length).map (slotsInHand c · σ.past)).sum

/-- The slots of a credential that a stake shows. -/
def Stake.share (g : Stake) (c : CredentialId) : Nat := if g.slot = some c then 1 else 0

/-- What one step can do to the counter of a credential, to the number of its running sessions and
to the slots of it that the call has in hand. -/
inductive Shift : Nat → Nat → Nat → Nat → Nat → Nat → Prop
  | still (o h n : Nat) : Shift o h n o h n
  | checkout (o h : Nat) : Shift o h 0 (o + 1) h 1
  | checkin (o h : Nat) : Shift (o + 1) h 1 o h 0
  | start (o h : Nat) : Shift o h 1 o (h + 1) 0
  | leave (o h : Nat) : Shift o (h + 1) 0 o h 1

namespace Stake

variable {g : Stake} {c d : CredentialId}

theorem share_of_none (h : g.slot = none) : g.share c = 0 := by
  rw [share, h, if_neg nofun]

theorem share_of_some (h : g.slot = some d) : g.share c = if d = c then 1 else 0 := by
  rw [share, h]
  simp only [Option.some.injEq]

end Stake

namespace Move

variable {d : Deed} {s t : Store} {g g' : Stake}

/-- An event that moves a session which runs neither before nor after on `c` is none of `c`'s
business; if it starts or ends on `c`, the holders of `c` are one more or one fewer. -/
theorem holders_of_found {id : SessionId} {e : Session.Event} {x y : Session}
    (found : s.session? id = some x) (moved : x.apply e = some y) (c : CredentialId) :
    Store.holders { s with sessions := s.sessions.insert y } c + (x.holds c).toNat =
      s.holders c + (y.holds c).toNat := by
  have := Store.holders_insert (s := s) (t := { s with sessions := s.sessions.insert y }) c rfl
  rwa [(Session.fixed_apply moved).1, (Store.session?_eq_some_iff.1 found).2, found,
    Option.elim_some] at this

theorem holders_of_new {x : Session} (new : s.session? x.id = none) (c : CredentialId) :
    (s.addSession x).2.holders c = s.holders c + (x.holds c).toNat := by
  have := Store.holders_insert (s := s) (t := (s.addSession x).2) c rfl
  rwa [new, Option.elim_none, Nat.add_zero] at this

theorem toNat_holds {x : Session} (c : CredentialId) :
    (x.holds c).toNat = if x.state = .active ∧ x.credential = some c then 1 else 0 := by
  rw [Session.holds]
  by_cases h₁ : x.state = .active <;> by_cases h₂ : x.credential = some c <;> simp [h₁, h₂]

/-- **One step shifts at most one slot of a credential**, and what leaves one place arrives at
another. -/
theorem shift (h : Move d s g t g') (coherent : s.Coherent)
    (fresh : ∀ id, g.id = some id → s.Unused id) (c : CredentialId)
    (room : g.share c ≤ s.occupancy c) :
    Shift (s.occupancy c) (s.holders c) (g.share c) (t.occupancy c) (t.holders c) (g'.share c) := by
  cases h with
  | look | emptied | surveyed | refused => exact .still ..
  | @taken _ _ a now x known spare empty =>
    have hid := (Store.credential?_eq_some_iff.1 known).2
    rw [Store.occupancy_addCredential, Stake.share_of_none empty, Stake.share_of_some rfl,
      Credential.id_occupy, hid]
    by_cases hc : a = c
    · subst hc
      rw [if_pos rfl, if_pos rfl, (Credential.active_occupy now spare).1, Store.occupancy, known]
      exact .checkout ..
    · rw [if_neg hc, if_neg hc]
      exact .still ..
  | @returned _ _ a x known held =>
    have hid := (Store.credential?_eq_some_iff.1 known).2
    rw [Stake.share_of_some held] at room ⊢
    rw [Store.occupancy_addCredential, Stake.share_of_none rfl, Credential.id_release, hid]
    by_cases hc : a = c
    · subst hc
      rw [if_pos rfl, Store.occupancy, known, Option.elim_some] at room
      rw [if_pos rfl, if_pos rfl, Store.occupancy, known, Option.elim_some, Credential.release,
        toNat_fewer, UInt32.toNat_one, ← Nat.sub_add_cancel room]
      exact .checkin ..
    · rw [if_neg hc, if_neg hc]
      exact .still ..
  | @queued _ _ x hid waits =>
    have hold := holders_of_new (fresh _ hid).1 c
    rw [toNat_holds, waits, if_neg (by simp), Nat.add_zero] at hold
    rw [hold]
    exact .still ..
  | @placed _ _ x a _ hid runs _ _ bound held =>
    have hold := holders_of_new (fresh _ hid).1 c
    rw [toNat_holds, runs, bound] at hold
    rw [hold, Stake.share_of_some held, Stake.share_of_none rfl]
    by_cases hc : a = c
    · rw [if_pos hc, if_pos ⟨rfl, congrArg some hc⟩]
      exact .start ..
    · rw [if_neg hc, if_neg fun h => hc (Option.some.inj h.2)]
      exact .still ..
  | @started _ _ id x y a time _ found moved held =>
    have hold := holders_of_found found moved c
    obtain ⟨hq, rfl⟩ := Session.eq_started_of_apply moved
    rw [toNat_holds, toNat_holds, hq] at hold
    rw [Stake.share_of_some held, Stake.share_of_none rfl]
    by_cases hc : a = c
    · rw [if_neg (by simp), if_pos ⟨rfl, congrArg some hc⟩, Nat.add_zero] at hold
      rw [if_pos hc, hold]
      exact .start ..
    · rw [if_neg (by simp), if_neg fun h => hc (Option.some.inj h.2)] at hold
      rw [if_neg hc, Nat.add_right_cancel hold]
      exact .still ..
  | @cancelled _ _ id x y time found waits moved =>
    have hold := holders_of_found found moved c
    have hy : y.state = .ended := by
      have := Session.state_apply moved
      rw [waits] at this
      exact (Option.some.inj this).symm
    rw [toNat_holds, toNat_holds, waits, hy, if_neg (by simp), if_neg (by simp)] at hold
    rw [Nat.add_right_cancel hold]
    exact .still ..
  | @left _ _ id e x y found runs moved empty =>
    have hold := holders_of_found found moved c
    obtain ⟨-, hcred⟩ := Session.Complete.of_apply (coherent.shaped found) runs moved
    have hy : y.state ≠ .active := by
      intro hy
      have := Session.isTerminal_of_apply_active moved runs
      rw [hy] at this
      cases this
    rw [toNat_holds, toNat_holds, runs, if_neg (c := y.state = .active ∧ _) fun h => hy h.1,
      ← hcred, Nat.add_zero] at hold
    rw [Stake.share_of_none empty, ← hold, Stake.share]
    by_cases hc : y.credential = some c
    · rw [if_pos ⟨rfl, hc⟩, if_pos hc]
      exact .leave ..
    · rw [if_neg fun h => hc h.2, if_neg hc]
      exact .still ..
  | billed => exact .still ..
  | @issued _ _ x hid idle =>
    rw [Store.occupancy_addCredential]
    by_cases hc : x.id = c
    · have hnone : s.occupancy c = 0 := by
        rw [Store.occupancy, ← hc, (fresh _ hid).2]
        rfl
      rw [if_pos hc, idle, hnone]
      exact .still ..
    · rw [if_neg hc]
      exact .still ..
  | @amended _ _ _ x y _ _ known _ active =>
    rw [Store.occupancy_addCredential]
    by_cases hc : y.id = c
    · rw [if_pos hc, Store.occupancy, ← hc, known, Option.elim_some, active]
      exact .still ..
    · rw [if_neg hc]
      exact .still ..
  | registered => exact .still ..

end Move

/-! ## The balance -/

namespace Shift

variable {o h n o' h' n' : Nat}

theorem balance (sh : Shift o h n o' h' n') {m : Nat} (b : o = h + (n + m)) :
    o' = h' + (n' + m) := by
  cases sh <;> omega

/-- The slots in hand as `slotsInHand` counts them on. -/
theorem inHand (sh : Shift o h n o' h' n') :
    (if o < o' ∨ h' < h then n + 1 else if o' < o ∨ h < h' then n - 1 else n) = n' := by
  cases sh with
  | still => simp
  | checkout => simp
  | checkin => simp
  | start => simp
  | leave => simp

end Shift

namespace Books

variable {s : Store} {gs gs₁ gs₂ : List Stake} {g : Stake} {drawn : List String}
  {past : List Moment}

theorem sum_share (c : CredentialId) : ((gs₁ ++ g :: gs₂).map (·.share c)).sum =
    g.share c + ((gs₁ ++ gs₂).map (·.share c)).sum := by
  simp only [List.map_append, List.map_cons, List.sum_append, List.sum_cons]
  omega

/-- **The counter is the number of running sessions plus the slots in hand.** -/
theorem balance (h : Books s gs drawn past) (c : CredentialId) :
    s.occupancy c = s.holders c + (gs.map (·.share c)).sum := by
  induction h with
  | start s bare =>
    rw [bare]
    rfl
  | call _ ih =>
    rw [ih, List.map_append, List.sum_append]
    rfl
  | draw _ _ ih =>
    rw [sum_share] at ih ⊢
    exact ih
  | move hb hm ih =>
    rw [sum_share] at ih ⊢
    exact (hm.shift hb.sound.coherent hb.sound.unused c (by omega)).balance ih

/-- Whoever has a slot of a credential in hand finds it counted. -/
theorem share_le (h : Books s gs drawn past) (hg : g ∈ gs) (c : CredentialId) :
    g.share c ≤ s.occupancy c := by
  obtain ⟨gs₁, gs₂, rfl⟩ := List.append_of_mem hg
  have := h.balance c
  rw [sum_share] at this
  omega

theorem capped (h : Books s gs drawn past) {c : CredentialId} {x : Credential}
    (hx : s.credential? c = some x) : x.active ≤ x.maxStreams := by
  induction h generalizing c x with
  | start s bare =>
    rw [bare] at hx
    cases hx
  | call _ ih => exact ih hx
  | draw _ _ ih => exact ih hx
  | move hb hm ih =>
    cases hm with
    | look | emptied | surveyed | refused => exact ih hx
    | taken known spare =>
      rw [Store.credential?_addCredential] at hx
      split at hx
      · cases hx
        exact (Credential.active_occupy _ spare).2
      · exact ih hx
    | @returned _ _ a y known =>
      rw [Store.credential?_addCredential] at hx
      split at hx
      · cases hx
        have before := ih known
        refine UInt32.le_trans (UInt32.le_iff_toNat_le.2 ?_) before
        rw [Credential.release, toNat_fewer]
        exact Nat.sub_le _ _
      · exact ih hx
    | queued | placed | started | cancelled | left | billed | registered => exact ih hx
    | issued _ idle =>
      rw [Store.credential?_addCredential] at hx
      split at hx
      · cases hx
        rw [idle]
        exact UInt32.zero_le
      · exact ih hx
    | amended _ _ known _ active cap =>
      rw [Store.credential?_addCredential] at hx
      split at hx
      · cases hx
        rw [active, cap]
        exact ih known
      · exact ih hx

theorem slotsInHand_cons (c : CredentialId) (call : Nat) (m : Moment) (past : List Moment) :
    slotsInHand c call (m :: past) =
      if m.call = call then
        if m.before.occupancy c < m.after.occupancy c ∨ m.after.holders c < m.before.holders c then
          slotsInHand c call past + 1
        else if m.after.occupancy c < m.before.occupancy c ∨
            m.before.holders c < m.after.holders c then
          slotsInHand c call past - 1
        else slotsInHand c call past
      else slotsInHand c call past := by
  by_cases h : m.call = call <;> simp only [slotsInHand, h, ne_eq, not_true_eq_false,
    not_false_eq_true, if_true, if_false]

/-- **The steps of a call and its stake agree** on the slots that it has in hand. -/
theorem slotsInHand_eq (h : Books s gs drawn past) (c : CredentialId) (i : Nat) :
    slotsInHand c i past = (gs[i]?).elim 0 (·.share c) := by
  induction h with
  | start => rfl
  | @call s gs _ past _ ih =>
    rw [ih]
    rcases Nat.lt_trichotomy i gs.length with hi | rfl | hi
    · rw [List.getElem?_append_left hi]
    · rw [List.getElem?_concat_length, List.getElem?_eq_none (Nat.le_refl _)]
      rfl
    · rw [List.getElem?_eq_none (by omega), List.getElem?_eq_none (by simp; omega)]
  | @draw s gs₁ gs₂ g _ past id _ _ ih =>
    have same : slotsInHand c i (⟨gs₁.length, s, s⟩ :: past) = slotsInHand c i past := by
      simp [slotsInHand_cons]
    rw [same, ih]
    by_cases hi : i = gs₁.length
    · rw [hi, Stake.getElem?_middle_self, Stake.getElem?_middle_self]
      rfl
    · rw [Stake.getElem?_middle_of_ne hi]
  | @move s t gs₁ gs₂ g g' _ past d hb hm ih =>
    have shift := hm.shift hb.sound.coherent hb.sound.unused c 
      (hb.share_le (Stake.mem_middle.2 (.inl rfl)) c)
    rw [slotsInHand_cons, ih]
    by_cases hi : i = gs₁.length
    · rw [hi, Stake.getElem?_middle_self, Stake.getElem?_middle_self, if_pos rfl, Option.elim_some,
        Option.elim_some]
      exact shift.inHand
    · rw [if_neg (Ne.symm hi), Stake.getElem?_middle_of_ne hi]

end Books

/-! ## Checkins -/

/-- A credential whose only slot is held. -/
def Credential.busy (c : CredentialId) : Credential where
  id := c
  service := ""
  identity := ""
  sealedSecret := ""
  tier := .basic
  maxStreams := 1
  state := .checkedOut
  active := 1
  lastCheckout := none

/-- The act that does what a checkin does, whatever the store, is that checkin. -/
theorem Deed.eq_checkin {d : Deed} {c : CredentialId} (h : ∀ s, d.on s = s.checkin c) :
    d = .checkin c := by
  let s : Store := ({} : Store).addCredential (.busy c)
  have find : ∀ b, s.credential? b = if c = b then some (.busy c) else none :=
    fun b => Store.credential?_addCredential (.busy c) b
  have free : (d.on s).occupancy c = 0 := by
    rw [h, Store.checkin, find, if_pos rfl]
    simp [Store.occupancy_addCredential, Credential.release, Credential.busy, fewer]
  have held : s.occupancy c = 1 := by
    rw [Store.occupancy, find, if_pos rfl]
    rfl
  have rests : d.on {} = {} := h {}
  -- any other act leaves the slot held, or changes a store on which the checkin does nothing
  cases d with
  | look =>
    rw [Deed.on, held] at free
    cases free
  | checkout b now =>
    have full : (Credential.busy c).hasCapacity = false := rfl
    by_cases hb : c = b
    · subst hb
      simp [Deed.on, Store.checkout, find, full, held] at free
    · simp [Deed.on, Store.checkout, find, hb, held] at free
  | checkin b =>
    by_cases hb : c = b
    · rw [hb]
    · simp [Deed.on, Store.checkin, find, hb, held] at free
  | addSession x => cases congrArg Store.sequence rests
  | applyEvent id e =>
    have none : s.applyEvent id e = (none, s) := rfl
    rw [Deed.on, none, held] at free
    cases free
  | appendUsage r => cases congrArg Store.ledger rests
  | addCredential x => cases congrArg (·.credentials.entries) rests
  | disable b =>
    by_cases hb : c = b
    · simp [Deed.on, Store.disable, find, hb, Store.occupancy_addCredential, Credential.disable,
        Credential.busy] at free
    · simp [Deed.on, Store.disable, find, hb, held] at free
  | rotate b sealedSecret =>
    by_cases hb : c = b
    · simp [Deed.on, Store.rotate, find, hb, Store.occupancy_addCredential, Credential.rotate,
        Credential.busy] at free
    · simp [Deed.on, Store.rotate, find, hb, held] at free
  | addUser u => cases congrArg (·.users.entries) rests

/-- A call that is about to check a slot in has one in hand. -/
theorem Call.Keeps.slot_of_checkin {p : Platform} {call : Call} {g : Stake} {c : CredentialId}
    {k : Unit → Program Answer} (h : call.Keeps p.store g) (coherent : p.store.Coherent)
    (next : call.rest = (Vault.checkin c).bind k) :
    (∃ x, p.store.credential? c = some x) ∧ g.slot = some c := by
  unfold Call.Keeps at h
  rw [next] at h
  obtain ⟨d, hd, hmove⟩ := h
  have hc : d = .checkin c := Deed.eq_checkin fun s => (hd { p with store := s }).symm
  subst hc
  obtain ⟨g', hm, -⟩ := hmove p (.refl _) coherent
  exact hm.slot_of_checkin

/-! ## What shows -/

/-- The slots that the status of a service shows as used are the sum of the counters. -/
theorem usedSlots_serviceStatus {service : ServiceId} {w : World} {status : Broker.Status}
    (h : ((Broker.serviceStatus service).run w).1 = .ok status) :
    status.usedSlots =
      ((w.platform.store.credentialsOf service).map (·.active)).foldl (· + ·) 0 := by
  unfold Broker.serviceStatus at h
  simp only [Program.bind_eq, Program.pure_eq, Program.run_bind, Program.run_query] at h
  cases hs : w.platform.store.service? service with
  | none =>
    rw [hs] at h
    cases h
  | some definition =>
    rw [hs] at h
    simp only [Program.run_bind, Program.run_query, Program.run_done, Except.ok.injEq] at h
    rw [← h]

/-- Slot counts are added up around the end of the words. -/
theorem foldl_slots (xs : List UInt32) :
    xs.foldl (· + ·) 0 = UInt32.ofNat (xs.map (·.toNat)).sum := by
  have added : ∀ a : UInt32, xs.foldl (· + ·) a = a + UInt32.ofNat (xs.map (·.toNat)).sum := by
    induction xs with
    | nil => exact fun a => (UInt32.add_zero a).symm
    | cons x xs ih =>
      intro a
      rw [List.foldl_cons, ih, List.map_cons, List.sum_cons, UInt32.ofNat_add, UInt32.ofNat_toNat,
        UInt32.add_assoc]
  rw [added, UInt32.zero_add]

theorem sum_active (cs : List Credential) :
    (cs.map (·.active)).foldl (· + ·) 0 = UInt32.ofNat (cs.map (·.active.toNat)).sum := by
  rw [foldl_slots, List.map_map]
  rfl

/-- The stakes and the steps taken agree on the slots in flight. -/
theorem Scene.slotsInFlight_eq {σ : Scene} {gs : List Stake}
    (hb : Books σ.store gs σ.drawn σ.past) (hk : List.Forall₂ (Call.Keeps σ.store) σ.calls gs)
    (c : CredentialId) : σ.slotsInFlight c = (gs.map (·.share c)).sum := by
  unfold slotsInFlight
  rw [hk.length_eq]
  congr 1
  refine List.ext_getElem (by simp) fun i hi _ => ?_
  rw [List.length_map, List.length_range] at hi
  rw [List.getElem_map, List.getElem_map, List.getElem_range, hb.slotsInHand_eq,
    List.getElem?_eq_getElem hi, Option.elim_some]

/-- **A call that is finished has no slot in hand**, so slots are in flight with calls in flight. -/
theorem Scene.Reachable.slotsInHand_of_done {key : Codec.Key} {σ : Scene} (h : σ.Reachable key)
    {i : Nat} {call : Call} {a : Answer} (here : σ.calls[i]? = some call)
    (finished : call.rest = .done a) (c : CredentialId) : slotsInHand c i σ.past = 0 := by
  obtain ⟨gs, hb, hk⟩ := h.books
  obtain ⟨g, hg, keeps⟩ := Scene.keeps_of_getElem? hk here
  rw [hb.slotsInHand_eq, hg, Option.elim_some, Stake.share_of_none (keeps.settled finished).1.1]

/-- **No slot is lost and none is made up**, whatever the order of steps. -/
theorem slots_conserved {key : Codec.Key} {σ : Scene} (h : σ.Reachable key) :
    (∀ c x, σ.store.credential? c = some x →
      x.active.toNat = σ.store.holders c + σ.slotsInFlight c ∧ x.active ≤ x.maxStreams) ∧
    (∀ call ∈ σ.calls, ∀ c k, call.rest = (Vault.checkin c).bind k →
      ∃ x, σ.store.credential? c = some x ∧ 0 < x.active) ∧
    (σ.Quiet →
      (∀ c x, σ.store.credential? c = some x → x.active.toNat = σ.store.holders c) ∧
      ∀ (w : World) (service : ServiceId) (status : Broker.Status), w.platform = σ.platform →
        ((Broker.serviceStatus service).run w).1 = .ok status →
        status.usedSlots = UInt32.ofNat (σ.store.running service)) := by
  obtain ⟨gs, hb, hk⟩ := h.books
  have balance : ∀ c x, σ.store.credential? c = some x →
      x.active.toNat = σ.store.holders c + σ.slotsInFlight c := by
    intro c x hx
    have := hb.balance c
    rwa [Store.occupancy, hx, Option.elim_some, ← Scene.slotsInFlight_eq hb hk] at this
  have settled : σ.Quiet → ∀ c x, σ.store.credential? c = some x →
      x.active.toNat = σ.store.holders c := by
    intro quiet c x hx
    have none : σ.slotsInFlight c = 0 := by
      refine List.sum_eq_zero fun n hn => ?_
      obtain ⟨i, hi, rfl⟩ := List.mem_map.1 hn
      have here := List.getElem?_eq_getElem (List.mem_range.1 hi)
      obtain ⟨a, finished⟩ := quiet _ (List.mem_of_getElem? here)
      exact h.slotsInHand_of_done here finished c
    rw [balance c x hx, none, Nat.add_zero]
  refine ⟨fun c x hx => ⟨balance c x hx, hb.capped hx⟩, fun call hcall c k next => ?_,
    fun quiet => ⟨settled quiet, fun w service status hw hstatus => ?_⟩⟩
  · obtain ⟨i, hi⟩ := List.getElem?_of_mem hcall
    obtain ⟨g, hg, keeps⟩ := Scene.keeps_of_getElem? hk hi
    obtain ⟨⟨x, hx⟩, hslot⟩ := keeps.slot_of_checkin hb.sound.coherent next
    have counted := hb.share_le (List.mem_of_getElem? hg) c
    rw [Stake.share_of_some hslot, if_pos rfl, Store.occupancy, hx, Option.elim_some] at counted
    exact ⟨x, hx, UInt32.lt_iff_toNat_lt.2 counted⟩
  · rw [usedSlots_serviceStatus hstatus, hw, sum_active, hb.sound.coherent.running_eq]
    congr 2
    refine List.map_congr_left fun c hc => ?_
    exact settled quiet c.id c (Store.credential?_eq_some_iff.2 ⟨(List.mem_filter.1 hc).1, rfl⟩)

/-- A credential has been issued, and a user asks for a session. The slot is checked out, but the
session is not stored yet. -/
def slotOnItsWay : Scene :=
  .after [.call (.issue "films" "house" "secret" .basic), .turn 0 0 0, .turn 0 0 7, .turn 0 0 0,
    .call (.request "ann" "films"), .turn 1 0 0, .turn 1 5 0, .turn 1 0 9, .turn 1 0 0, .turn 1 6 0,
    .turn 1 0 0]

theorem slots_conserved_slotOnItsWay :
    slotOnItsWay.slotsInFlight "000000000007" = 1 ∧
      ∃ x, slotOnItsWay.store.credential? "000000000007" = some x ∧
        x.active.toNat = slotOnItsWay.store.holders "000000000007" + 1 := by
  have inFlight : slotOnItsWay.slotsInFlight "000000000007" = 1 := by decide +kernel
  have known : (slotOnItsWay.store.credential? "000000000007").isSome = true := by decide +kernel
  obtain ⟨x, hx⟩ := Option.isSome_iff_exists.1 known
  have balance := ((slots_conserved (Scene.reachable_after _)).1 _ x hx).1
  exact ⟨inFlight, x, hx, inFlight ▸ balance⟩

end SlotBroker
