import SlotBroker.Proofs.Headroom
import SlotBroker.Proofs.QueueOrder

/-!
# What reclaiming comes to

Slots are reclaimed in many steps: sessions leave, and heads of queues start. Where the clock stands
still, what has come of it does not depend on the order of the steps, but for the choice of
credentials. It can be said outright, going by the store at the beginning, the sessions that have
left and the number of those that each queue has lost at its head; and once every queue is drained,
that number is also determined.

Results:
* `SessionOutcome`, `SlotOutcome`, `RecordOutcome`: what has become of the sessions, of the slots
  and of everything else.
* `Reclaims.outcome`: reclaiming comes to that.
* **`SlotOutcome.admitted_eq`**: a queue of which a session has left admits as many as wait, or as
  there are slots if these are fewer; and all other queues admit nobody.
-/

namespace SlotBroker

/-! ## Sessions and credentials -/

/-- The session as it is when it has left its slot. -/
def Session.leave (x : Session) (state : Session.State) (now : Millis) : Session :=
  { x with state := state, endedAt := some now }

theorem Session.apply_finish {x : Session} (runs : x.state = .active) (time : Millis) :
    x.apply (.finish time) = some (x.leave .ended time) := by
  simp only [Session.apply, runs, State.next, Option.map_some, if_true, leave]

/-- The credential with none of its slots held. -/
def Credential.idle (c : Credential) : Credential :=
  { c with
    state := if c.state = .disabled then .disabled else .available
    active := 0
    lastCheckout := none }

namespace Credential

theorem state_idle (c : Credential) : c.idle.state = .disabled ↔ c.state = .disabled := by
  unfold idle
  split <;> simp_all

theorem idle_occupy {c : Credential} (h : c.hasCapacity = true) (taken : Millis) :
    (c.occupy taken).idle = c.idle := by
  simp only [idle, occupy, ((hasCapacity_iff c).1 h).1, if_false, reduceCtorEq]

theorem idle_release (c : Credential) : c.release.idle = c.idle := by
  simp only [idle, release]
  split <;> simp_all

/-- A slot that is given back is counted off. -/
theorem active_release {c : Credential} (held : 0 < c.active.toNat) :
    c.release.active.toNat + 1 = c.active.toNat := by
  rw [release, toNat_fewer, UInt32.toNat_one]
  omega

/-- A slot that is given back is spare, unless the credential is disabled. -/
theorem spareSlots_release {c : Credential} (held : 0 < c.active.toNat)
    (capped : c.active ≤ c.maxStreams) : c.release.spareSlots.toNat =
      c.spareSlots.toNat + if c.state = .disabled then 0 else 1 := by
  have cap := UInt32.le_iff_toNat_le.1 capped
  have active := active_release held
  by_cases disabled : c.state = .disabled
  · have stays : c.release.state = .disabled := by simp [release, disabled]
    rw [spareSlots, if_pos stays, spareSlots, if_pos disabled, if_pos disabled]
    rfl
  · have stays : c.release.state ≠ .disabled := by
      simp only [release]
      split <;> simp_all
    rw [spareSlots, if_neg stays, spareSlots, if_neg disabled, if_neg disabled, toNat_fewer,
      toNat_fewer]
    simp only [release] at active ⊢
    omega

end Credential

/-! ## Standing clocks -/

/-- What reclaiming starts from: a store in order, and a clock that stands still. -/
structure Standing (w : World) (now : Millis) : Prop where
  coherent : w.store.Coherent
  numbered : w.store.Numbered
  settled : w.store.Settled
  still : ∀ n, w.supply.read ≤ n → w.supply.reading n = now

theorem Reclaim.standing {p q : Stage} {now : Millis} (h : Reclaim p q)
    (standing : Standing p.world now) : Standing q.world now where
  coherent := (h.keeps standing.coherent).2
  numbered := h.numbered standing.numbered
  settled := h.settled standing.coherent standing.settled
  still n read := by
    rw [h.passes.reading]
    exact standing.still n (Nat.le_trans h.passes.read read)

theorem Reclaims.standing {p q : Stage} {now : Millis} (h : Reclaims p q)
    (standing : Standing p.world now) : Standing q.world now := by
  induction h with
  | refl => exact standing
  | tail _ step ih => exact step.standing ih

/-! ## Sessions -/

/-- What has become of the sessions of a store when some have left and each queue has lost a number
of sessions at its head. -/
structure SessionOutcome (s : Store) (now : Millis) (admitted : ServiceId → Nat) (p : Stage) :
    Prop where
  left : ∀ y ∈ p.left, ∃ x, s.session? y.id = some x ∧ x.state = .active ∧
    y = x.leave y.state now ∧ y.state.isTerminal = true ∧ p.store.session? y.id = some y
  nodup : p.left.Nodup
  /-- Only overdue sessions expire. -/
  late : ∀ y ∈ p.left, y.state = .expired → ∃ definition,
    s.service? y.service = some definition ∧ y.overdue definition.limitMillis now = true
  started : ∀ a, ∀ x ∈ (s.queue a).take (admitted a),
    ∃ c, p.store.session? x.id = some (x.started c now)
  kept : ∀ {id x}, s.session? id = some x → (∀ y ∈ p.left, y.id ≠ id) →
    x ∉ (s.queue x.service).take (admitted x.service) → p.store.session? id = some x
  unknown : ∀ {id}, s.session? id = none → p.store.session? id = none
  queue : ∀ a, p.store.queue a = (s.queue a).drop (admitted a)
  within : ∀ a, admitted a ≤ (s.queue a).length

/-- Who is ended leaves as of the time of the end, and expires only when overdue. -/
theorem World.Ends.leaves {w : World} {x y : Session} {definition : Service} {e : Session.Event}
    {now : Millis} (ends : w.Ends x definition e) (runs : x.state = .active)
    (moved : x.apply e = some y) (ended : y.endedAt = some now) : y = x.leave y.state now ∧
      (y.state = .expired → x.overdue definition.limitMillis now = true) := by
  cases ends with
  | finish =>
    have hy := Session.eq_ended_of_apply runs moved
    rw [hy] at ended
    rw [← Option.some.inj ended, hy]
    exact ⟨rfl, nofun⟩
  | expire read late =>
    have hy := Session.eq_expired_of_apply moved
    rw [hy] at ended
    rw [← Option.some.inj ended, hy]
    exact ⟨rfl, fun _ => late⟩

/-- Only those may leave that ran at the beginning, or that expire now. -/
def Stage.Leavers (s : Store) (now : Millis) (p : Stage) : Prop :=
  ∀ y ∈ p.left, y.endedAt = some now ∧
    (y.state = .expired ∨ ∃ x, s.session? y.id = some x ∧ x.state = .active)

namespace SessionOutcome

variable {s : Store} {now : Millis} {admitted : ServiceId → Nat} {p : Stage}

theorem start (w : World) : SessionOutcome w.store now (fun _ => 0) ⟨w, none, []⟩ where
  left y hy := nomatch hy
  nodup := .nil
  late y hy := nomatch hy
  started a x hx := by
    rw [List.take_zero] at hx
    cases hx
  kept hx _ _ := hx
  unknown hid := hid
  queue a := List.drop_zero.symm
  within a := Nat.zero_le _

/-- Nothing happens to the sessions. -/
theorem of_sessions_eq {q : Stage} (h : SessionOutcome s now admitted p) (left : q.left = p.left)
    (same : q.store.sessions = p.store.sessions) : SessionOutcome s now admitted q := by
  have found : ∀ id, q.store.session? id = p.store.session? id := fun id => by
    rw [Store.session?, same]
    rfl
  have queues : ∀ a, q.store.queue a = p.store.queue a := fun a => by
    rw [Store.queue, Store.sessionsMatching, same]
    rfl
  refine ⟨fun y hy => ?_, left ▸ h.nodup, left ▸ h.late, fun a x hx => ?_,
    fun hx hleft htake => ?_, fun hid => ?_, fun a => ?_, h.within⟩
  · rw [left] at hy
    simp only [found]
    exact h.left y hy
  · rw [found]
    exact h.started a x hx
  · rw [left] at hleft
    rw [found]
    exact h.kept hx hleft htake
  · rw [found]
    exact h.unknown hid
  · rw [queues]
    exact h.queue a

/-- **Who leaves ran at the beginning**: a session that was admitted starts now, and is not
overdue. -/
theorem ran {x y : Session} {definition : Service} {e : Session.Event}
    (h : SessionOutcome s now admitted p) (found : p.store.session? x.id = some x)
    (runs : x.state = .active) (ends : p.world.Ends x definition e) (moved : x.apply e = some y)
    (ended : y.endedAt = some now)
    (mine : y.state = .expired ∨ ∃ x, s.session? y.id = some x ∧ x.state = .active) :
    s.session? x.id = some x ∧ y = x.leave y.state now ∧
      (y.state = .expired → x.overdue definition.limitMillis now = true) := by
  have hid : y.id = x.id := (Session.fixed_apply moved).1
  have leaves := ends.leaves runs moved ended
  refine ⟨?_, leaves⟩
  cases stored : s.session? x.id with
  | none => cases (h.unknown stored).symm.trans found
  | some x₀ =>
    have hid₀ := (Store.session?_eq_some_iff.1 stored).2
    by_cases left : ∃ y' ∈ p.left, y'.id = x.id
    · obtain ⟨y', hy', same⟩ := left
      obtain ⟨-, -, -, -, terminal, there⟩ := h.left y' hy'
      rw [same, found] at there
      rw [← Option.some.inj there, runs] at terminal
      cases terminal
    · by_cases admitted : x₀ ∈ (s.queue x₀.service).take (admitted x₀.service)
      · obtain ⟨-, waits, -⟩ := Store.mem_queue.1 (List.mem_of_mem_take admitted)
        obtain ⟨c, there⟩ := h.started _ x₀ admitted
        rw [hid₀, found] at there
        rcases mine with expired | ⟨x₁, hx₁, runs₁⟩
        · obtain ⟨first, hfirst, late⟩ :=
            Session.overdue_limitMillis_iff.1 (leaves.2 expired)
          rw [Option.some.inj there] at hfirst
          obtain rfl : now = first := Option.some.inj hfirst
          omega
        · rw [hid, stored] at hx₁
          rw [← Option.some.inj hx₁, waits] at runs₁
          cases runs₁
      · have there := h.kept stored (fun y' hy' same => left ⟨y', hy', same⟩) admitted
        exact there.symm.trans found

/-- A session leaves. -/
theorem leave {q : Stage} {x y : Session} (h : SessionOutcome s now admitted p)
    (numbered : q.store.Numbered) (stored : s.session? x.id = some x) (runs : x.state = .active)
    (hid : y.id = x.id) (leaves : y = x.leave y.state now) (terminal : y.state.isTerminal = true)
    (late : y.state = .expired → ∃ definition, s.service? y.service = some definition ∧
      y.overdue definition.limitMillis now = true)
    (left : q.left = p.left ++ [y]) (found : p.store.session? x.id = some x)
    (there : ∀ id, q.store.session? id = if x.id = id then some y else p.store.session? id) :
    SessionOutcome s now admitted q where
  left z hz := by
    rw [left, List.mem_append, List.mem_singleton] at hz
    rcases hz with hz | rfl
    · obtain ⟨x', hx', runs', leaves', terminal', there'⟩ := h.left z hz
      refine ⟨x', hx', runs', leaves', terminal', ?_⟩
      rw [there, if_neg fun same => ?_]
      · exact there'
      · rw [← same, found] at there'
        rw [← Option.some.inj there', runs] at terminal'
        cases terminal'
    · exact ⟨x, hid ▸ stored, runs, leaves, terminal, by rw [there, if_pos hid.symm]⟩
  nodup := by
    rw [left, ← List.concat_eq_append]
    refine h.nodup.concat fun before => ?_
    -- who has left before does not run any more
    obtain ⟨-, -, -, -, terminal', there'⟩ := h.left y before
    rw [hid, found] at there'
    rw [← Option.some.inj there', runs] at terminal'
    cases terminal'
  late z hz := by
    rw [left, List.mem_append, List.mem_singleton] at hz
    rcases hz with hz | rfl
    · exact h.late z hz
    · exact late
  started a z hz := by
    obtain ⟨hz', waits, -⟩ := Store.mem_queue.1 (List.mem_of_mem_take hz)
    rw [there, if_neg fun same => ?_]
    · exact h.started a z hz
    · rw [← same, stored] at hz'
      rw [← Option.some.inj hz', runs] at waits
      cases waits
  kept {id z} hz hleft htake := by
    rw [left] at hleft
    have apart : x.id ≠ id := by
      rw [← hid]
      exact hleft y (List.mem_append_right _ List.mem_cons_self)
    rw [there, if_neg apart]
    exact h.kept hz (fun y' hy' => hleft y' (List.mem_append_left _ hy')) htake
  unknown {id} hid := by
    rw [there, if_neg fun same => ?_]
    · exact h.unknown hid
    · rw [← same, stored] at hid
      cases hid
  queue a := by
    have away : y.state ≠ .queued := fun waits => by
      rw [waits] at terminal
      cases terminal
    rw [numbered.apart.queue_of_elsewhere found away there fun mem => ?_, h.queue a]
    obtain ⟨-, waits, -⟩ := Store.mem_queue.1 mem
    cases runs.symm.trans waits
  within := h.within

/-- The head of a queue starts. -/
theorem grant {q : Stage} {a : ServiceId} {x : Session} {c : CredentialId}
    (h : SessionOutcome s now admitted p) (numbered : q.store.Numbered)
    (head : (p.store.queue a).head? = some x) (left : q.left = p.left)
    (there : ∀ id, q.store.session? id =
      if x.id = id then some (x.started c now) else p.store.session? id) :
    SessionOutcome s now (Function.update admitted a (admitted a + 1)) q := by
  obtain ⟨found, waits, asks⟩ := Store.mem_queue.1 (List.mem_of_head? head)
  have place : (s.queue a)[admitted a]? = some x := by
    rw [← List.head?_drop, ← h.queue a, head]
  have stored : s.session? x.id = some x := (Store.mem_queue.1 (List.mem_of_getElem? place)).1
  -- of those whose id the session has, only the session itself is stored
  have only : ∀ {z}, s.session? z.id = some z → x.id = z.id → z = x := fun hz same => by
    rw [← same, stored] at hz
    exact (Option.some.inj hz).symm
  have longer : (s.queue a).take (admitted a + 1) = (s.queue a).take (admitted a) ++ [x] := by
    rw [List.take_add_one, place]
    rfl
  refine ⟨fun y hy => ?_, left ▸ h.nodup, left ▸ h.late, fun b z hz => ?_,
    fun {id z} hz hleft htake => ?_, fun {id} hid => ?_, fun b => ?_, fun b => ?_⟩
  · rw [left] at hy
    obtain ⟨x', hx', runs, leaves, terminal, there'⟩ := h.left y hy
    refine ⟨x', hx', runs, leaves, terminal, ?_⟩
    rw [there, if_neg fun same => ?_]
    · exact there'
    · rw [← same, found] at there'
      rw [← Option.some.inj there', waits] at terminal
      cases terminal
  · obtain ⟨hz', -, asks'⟩ := Store.mem_queue.1 (List.mem_of_mem_take hz)
    rw [there]
    by_cases same : x.id = z.id
    · rw [if_pos same, only hz' same]
      exact ⟨c, rfl⟩
    · rw [if_neg same]
      by_cases here : b = a
      · subst here
        rw [Function.update_self, longer, List.mem_append, List.mem_singleton] at hz
        exact h.started b z (hz.resolve_right fun e => same (congrArg Session.id e).symm)
      · rw [Function.update_of_ne here] at hz
        exact h.started b z hz
  · rw [left] at hleft
    have hid : z.id = id := (Store.session?_eq_some_iff.1 hz).2
    by_cases same : x.id = id
    · obtain rfl := only (hid ▸ hz) (same.trans hid.symm)
      rw [asks, Function.update_self, longer] at htake
      exact absurd (List.mem_append_right _ List.mem_cons_self) htake
    · rw [there, if_neg same]
      refine h.kept hz hleft fun before => htake ?_
      by_cases here : z.service = a
      · rw [here] at before ⊢
        rw [Function.update_self, longer]
        exact List.mem_append_left _ before
      · rwa [Function.update_of_ne here]
  · rw [there, if_neg fun same => ?_]
    · exact h.unknown hid
    · rw [← same, stored] at hid
      cases hid
  · by_cases here : b = a
    · subst here
      have rest := numbered.apart.queue_of_head head (y := x.started c now) nofun there
      rw [Function.update_self, ← List.tail_drop, ← h.queue b, rest, List.tail_cons]
    · rw [Function.update_of_ne here, ← h.queue b]
      refine numbered.apart.queue_of_elsewhere found (y := x.started c now) nofun there fun mem =>
        here ?_
      exact (Store.mem_queue.1 mem).2.2.symm.trans asks
  · by_cases here : b = a
    · subst here
      rw [Function.update_self]
      exact (List.getElem?_eq_some_iff.1 place).1
    · rw [Function.update_of_ne here]
      exact h.within b

end SessionOutcome

/-! ## Slots -/

namespace Store

variable {s t : Store}

/-- Where two stores have the same credentials but for what is held, so it is with each of them. -/
theorem credential?_of_map_idle
    (same : t.credentials.entries.map Credential.idle = s.credentials.entries.map Credential.idle)
    (id : CredentialId) :
    (t.credential? id).map Credential.idle = (s.credential? id).map Credential.idle := by
  have found := congrArg (List.find? fun c => decide (Keyed.key c = id)) same
  rwa [List.find?_map, List.find?_map] at found

/-- The slot of the session would be free if it left: its credential is not disabled. -/
def frees (s : Store) (x : Session) : Bool :=
  (x.credential.bind s.credential?).any (·.state != .disabled)

theorem frees_eq {x : Session} {c : CredentialId} {d : Credential}
    (same : t.credentials.entries.map Credential.idle = s.credentials.entries.map Credential.idle)
    (bound : x.credential = some c) (known : t.credential? c = some d) :
    s.frees x = decide (d.state ≠ .disabled) := by
  have idle := credential?_of_map_idle same c
  rw [known, Option.map_some] at idle
  obtain ⟨d₀, hd₀, equal⟩ := Option.map_eq_some_iff.1 idle.symm
  have state : d₀.state = .disabled ↔ d.state = .disabled := by
    rw [← d₀.state_idle, equal, d.state_idle]
  rw [frees, bound, Option.bind_some, hd₀, Option.any_some, Bool.eq_iff_iff, bne_iff_ne,
    decide_eq_true_iff]
  exact not_congr state

/-- Of the credentials, that of the session that leaves is released. -/
theorem credentials_vacate {y : Session} {c : CredentialId} {d : Credential}
    (bound : y.credential = some c) (known : s.credential? c = some d) (r : UsageRecord) :
    (s.vacate y r).credentials = s.credentials.insert d.release := by
  unfold vacate giveBack
  rw [bound, Option.elim_some]
  unfold checkin
  rw [show credential? { s with sessions := s.sessions.insert y } c = some d from known]
  rfl

theorem tally_vacate {y : Session} {c : CredentialId} {d : Credential}
    (bound : y.credential = some c) (known : s.credential? c = some d) (r : UsageRecord)
    (a : ServiceId) (f : Credential → Nat) :
    (s.vacate y r).tally a f + (if d.service = a then f d else 0) =
      s.tally a f + if d.service = a then f d.release else 0 := by
  have sum := tally_addCredential s a f d.release
  rw [d.id_release, credential?_of_id_eq known rfl, Option.elim_some] at sum
  unfold tally credentialsOf at sum ⊢
  rw [credentials_vacate bound known]
  exact sum

theorem tally_grant {x : Session} {c : Credential} (known : s.credential? c.id = some c)
    (taken started : Millis) (a : ServiceId) (f : Credential → Nat) :
    (s.grant x c taken started).tally a f + (if c.service = a then f c else 0) =
      s.tally a f + if c.service = a then f (c.occupy taken) else 0 := by
  have sum := tally_addCredential s a f (c.occupy taken)
  rw [c.id_occupy, known, Option.elim_some] at sum
  exact sum

/-- The credential of a running session is stored, belongs to its service and is held. -/
theorem Settled.held (h : s.Settled) (coherent : s.Coherent) {x : Session}
    (found : s.session? x.id = some x) (runs : x.state = .active) : ∃ c d,
    x.credential = some c ∧ s.credential? c = some d ∧ d.service = x.service ∧
      0 < d.active.toNat ∧ d.active ≤ d.maxStreams := by
  have shaped := coherent.shaped found
  simp only [Session.Shaped, runs] at shaped
  obtain ⟨c, bound⟩ := Option.isSome_iff_exists.1 shaped.1
  obtain ⟨d, known, asks⟩ := coherent.bound found bound
  refine ⟨c, d, bound, known, asks, ?_, h.capped known⟩
  rw [h.active_eq known]
  refine List.countP_pos_iff.2 ⟨x, (session?_eq_some_iff.1 found).1, ?_⟩
  simp only [Session.holds, runs, bound, decide_true, Bool.and_self]

end Store

/-- What has become of the slots of a store when some sessions have left and each queue has lost a
number of sessions at its head. -/
structure SlotOutcome (s : Store) (admitted : ServiceId → Nat) (p : Stage) : Prop where
  spare : ∀ a, p.store.spareSlots a + admitted a =
    s.spareSlots a + p.left.countP fun y => y.service = a && s.frees y
  used : ∀ a, p.store.tally a (·.active.toNat) + p.left.countP (fun y => y.service = a) =
    s.tally a (·.active.toNat) + admitted a
  /-- A queue only moves if a session of its service has left. -/
  reason : ∀ a, 0 < admitted a → ∃ y ∈ p.left, y.service = a
  owes : ∀ a, p.owed = some a → ∃ y ∈ p.left, y.service = a
  /-- If it has, the queue has been drained, or is yet to be. -/
  drained : ∀ a, p.owed ≠ some a → (∃ y ∈ p.left, y.service = a) →
    admitted a = (s.queue a).length ∨ p.store.spareSlots a = 0
  credentials : p.store.credentials.entries.map Credential.idle =
    s.credentials.entries.map Credential.idle

namespace SlotOutcome

variable {s : Store} {now : Millis} {admitted : ServiceId → Nat} {p q : Stage}

theorem start (w : World) : SlotOutcome w.store (fun _ => 0) ⟨w, none, []⟩ where
  spare a := rfl
  used a := rfl
  reason a h := absurd h (Nat.lt_irrefl 0)
  owes a h := nomatch h
  drained a _ h := by
    obtain ⟨y, hy, -⟩ := h
    cases hy
  credentials := rfl

/-- A session leaves its slot. -/
theorem leave {x y : Session} {r : UsageRecord} (h : SlotOutcome s admitted p)
    (coherent : p.store.Coherent) (settled : p.store.Settled)
    (found : p.store.session? x.id = some x) (runs : x.state = .active)
    (asks : y.service = x.service) (bound : y.credential = x.credential)
    (owes : p.owed = none ∨ p.owed = some x.service) (left : q.left = p.left ++ [y])
    (owed : q.owed = some x.service) (result : q.store = p.store.vacate y r) :
    SlotOutcome s admitted q := by
  obtain ⟨c, d, hc, known, service, held, capped⟩ := settled.held coherent found runs
  have tally := Store.tally_vacate (bound.trans hc) known r
  rw [← result] at tally
  have frees := Store.frees_eq h.credentials (bound.trans hc) known
  have counted : ∀ f : Session → Bool, q.left.countP f = p.left.countP f + (f y).toNat := by
    intro f
    rw [left, List.countP_append, List.countP_singleton]
    cases f y <;> rfl
  refine ⟨fun a => ?_, fun a => ?_, fun a ha => ?_, fun a ha => ?_, fun a ha hy => ?_, ?_⟩
  · have before := h.spare a
    have sum := tally a (·.spareSlots.toNat)
    rw [Credential.spareSlots_release held capped, service] at sum
    rw [counted, frees, asks]
    unfold Store.spareSlots at before ⊢
    by_cases here : x.service = a <;> by_cases disabled : d.state = .disabled <;>
      simp only [here, disabled, if_true, if_false, decide_true, decide_false, Bool.and_true,
        Bool.and_false, ne_eq, not_true_eq_false, not_false_eq_true, Bool.toNat_true,
        Bool.toNat_false] at sum ⊢ <;> omega
  · have before := h.used a
    have sum := tally a (·.active.toNat)
    have off := Credential.active_release held
    rw [service] at sum
    rw [counted, asks]
    by_cases here : x.service = a <;>
      simp only [here, if_true, if_false, decide_true, decide_false, Bool.toNat_true,
        Bool.toNat_false] at sum ⊢ <;> omega
  · obtain ⟨z, hz, there⟩ := h.reason a ha
    exact ⟨z, left ▸ List.mem_append_left _ hz, there⟩
  · rw [owed] at ha
    exact ⟨y, left ▸ List.mem_append_right _ List.mem_cons_self,
      asks.trans (Option.some.inj ha)⟩
  · have apart : x.service ≠ a := fun here => ha (owed.trans (congrArg some here))
    have sum := tally a (·.spareSlots.toNat)
    rw [service, if_neg apart, if_neg apart] at sum
    obtain ⟨z, hz, there⟩ := hy
    rw [left, List.mem_append, List.mem_singleton] at hz
    have hz := hz.resolve_right fun e => apart (asks.symm.trans (e ▸ there))
    have before : p.owed ≠ some a := by
      rcases owes with none | some
      · rw [none]
        nofun
      · rw [some]
        exact fun e => apart (Option.some.inj e)
    exact (h.drained a before ⟨z, hz, there⟩).imp_right fun none => sum.trans none
  · rw [← h.credentials, result, Store.credentials_vacate (bound.trans hc) known]
    exact map_placeIn Credential.idle (Store.credential?_of_id_eq known d.id_release)
      d.idle_release

/-- The slots stay as they are, and a queue that is not to be drained any more is empty or has no
slot left. -/
theorem of_store_eq (h : SlotOutcome s admitted p) (left : q.left = p.left)
    (same : q.store = p.store) (owes : ∀ a, q.owed = some a → p.owed = some a)
    (drained : ∀ a, p.owed = some a → q.owed ≠ some a →
      admitted a = (s.queue a).length ∨ p.store.spareSlots a = 0) :
    SlotOutcome s admitted q := by
  refine ⟨fun a => ?_, fun a => ?_, fun a => ?_, fun a ha => ?_, fun a ha hy => ?_, ?_⟩
  · rw [same, left]
    exact h.spare a
  · rw [same, left]
    exact h.used a
  · rw [left]
    exact h.reason a
  · rw [left]
    exact h.owes a (owes a ha)
  · rw [left] at hy
    rw [same]
    by_cases before : p.owed = some a
    · exact drained a before ha
    · exact h.drained a before hy
  · rw [same]
    exact h.credentials

/-- A session starts on a slot. -/
theorem grant {a : ServiceId} {x : Session} {c : Credential} {taken started : Millis}
    (h : SlotOutcome s admitted p) (spare : c ∈ p.store.available a) (left : q.left = p.left)
    (before : p.owed = some a) (owed : q.owed = some a)
    (result : q.store = p.store.grant x c taken started) :
    SlotOutcome s (Function.update admitted a (admitted a + 1)) q := by
  obtain ⟨known, asks, capacity⟩ := Store.mem_available.1 spare
  have fewer := Store.spareSlots_occupy spare taken
  have tally := Store.tally_grant known taken started (x := x)
  rw [← result, asks] at tally
  have others : ∀ {b} f, a ≠ b → q.store.tally b f = p.store.tally b f := by
    intro b f apart
    have sum := tally b f
    rwa [if_neg apart, if_neg apart] at sum
  have here : q.store.spareSlots a + 1 = p.store.spareSlots a := by
    rw [result]
    exact fewer
  refine ⟨fun b => ?_, fun b => ?_, fun b hb => ?_, fun b hb => ?_, fun b hb hy => ?_, ?_⟩
  · have before := h.spare b
    rw [left]
    by_cases same : a = b
    · subst same
      rw [Function.update_self]
      omega
    · rw [Function.update_of_ne (Ne.symm same), Store.spareSlots, others _ same]
      exact before
  · have before := h.used b
    rw [left]
    by_cases same : a = b
    · subst same
      have sum := tally a (·.active.toNat)
      have more := (Credential.active_occupy taken capacity).1
      rw [if_pos rfl, if_pos rfl] at sum
      rw [Function.update_self]
      omega
    · rw [Function.update_of_ne (Ne.symm same), others _ same]
      exact before
  · rw [left]
    by_cases same : a = b
    · subst same
      exact h.owes a before
    · rw [Function.update_of_ne (Ne.symm same)] at hb
      exact h.reason b hb
  · rw [left]
    exact h.owes b (before.trans (owed.symm.trans hb))
  · have apart : a ≠ b := fun same => hb (owed.trans (congrArg some same))
    rw [left] at hy
    rw [Function.update_of_ne (Ne.symm apart), Store.spareSlots, others _ apart]
    exact h.drained b (fun owes => apart (Option.some.inj (before.symm.trans owes))) hy
  · rw [← h.credentials, result]
    exact map_placeIn Credential.idle (Store.credential?_of_id_eq known (c.id_occupy taken))
      (Credential.idle_occupy capacity taken)

/-- **How many sessions a queue admits**: as many as wait, or as there are slots if these are fewer,
and nobody where no session has left. -/
theorem admitted_eq (h : SlotOutcome s admitted p) (sessions : SessionOutcome s now admitted p)
    (done : p.owed = none) (a : ServiceId) : admitted a =
      if p.left.countP (fun y => y.service = a) = 0 then 0
      else min (s.queue a).length
        (s.spareSlots a + p.left.countP fun y => y.service = a && s.frees y) := by
  have within := sessions.within a
  have spare := h.spare a
  split
  · rename_i nobody
    by_contra moved
    obtain ⟨y, hy, asks⟩ := h.reason a (Nat.pos_of_ne_zero moved)
    exact List.countP_eq_zero.1 nobody y hy (decide_eq_true asks)
  · rename_i some
    obtain ⟨y, hy, asks⟩ := List.countP_pos_iff.1 (Nat.pos_of_ne_zero some)
    have owed : p.owed ≠ Option.some a := by
      rw [done]
      nofun
    rcases h.drained a owed ⟨y, hy, of_decide_eq_true asks⟩ with all | none
    · omega
    · omega

end SlotOutcome

/-! ## Everything else -/

/-- The record but for its id. -/
def UsageRecord.unnamed (r : UsageRecord) : UsageRecord := { r with id := "" }

/-- What the session is billed now, but for the id of the record. -/
def Store.bill (s : Store) (now : Millis) (y : Session) : Option UsageRecord :=
  (s.service? y.service).map fun definition => .ofSession "" y definition now

/-- What has become of the rest of a store when some sessions have left: each of them is billed. -/
structure RecordOutcome (s : Store) (now : Millis) (p : Stage) : Prop where
  services : p.store.services = s.services
  users : p.store.users = s.users
  sequence : p.store.sequence = s.sequence
  ledger : ∃ records, p.store.ledger = s.ledger ++ records ∧
    records.map (fun r => some r.unnamed) = p.left.map (s.bill now)

namespace RecordOutcome

variable {s : Store} {now : Millis} {p q : Stage}

theorem start (w : World) : RecordOutcome w.store now ⟨w, none, []⟩ :=
  ⟨rfl, rfl, rfl, [], (List.append_nil _).symm, rfl⟩

/-- Nothing of this changes. -/
theorem of_eq (h : RecordOutcome s now p) (left : q.left = p.left)
    (services : q.store.services = p.store.services) (users : q.store.users = p.store.users)
    (sequence : q.store.sequence = p.store.sequence) (ledger : q.store.ledger = p.store.ledger) :
    RecordOutcome s now q := by
  refine ⟨services.trans h.services, users.trans h.users, sequence.trans h.sequence, ?_⟩
  rw [ledger, left]
  exact h.ledger

/-- A session that leaves is billed. -/
theorem leave {y : Session} {id : String} {definition : Service} (h : RecordOutcome s now p)
    (known : s.service? y.service = some definition) (left : q.left = p.left ++ [y])
    (result : q.store = p.store.vacate y (.ofSession id y definition now)) :
    RecordOutcome s now q := by
  obtain ⟨credentials, store⟩ := p.store.vacate_eq y (.ofSession id y definition now)
  obtain ⟨records, ledger, bills⟩ := h.ledger
  rw [store] at result
  refine ⟨?_, ?_, ?_, records ++ [.ofSession id y definition now], ?_, ?_⟩
  · rw [result]
    exact h.services
  · rw [result]
    exact h.users
  · rw [result]
    exact h.sequence
  · rw [result, ← List.append_assoc, ← ledger]
  · rw [List.map_append, left, List.map_append, bills]
    simp only [List.map_singleton, Store.bill, known, Option.map_some]
    rfl

end RecordOutcome

/-! ## Reclaiming -/

/-- **What reclaiming comes to** where the clock stands still, and where only those leave that ran
at the beginning or that expire. -/
theorem Reclaims.outcome {w : World} {q : Stage} {now : Millis} (h : Reclaims ⟨w, none, []⟩ q)
    (standing : Standing w now) (leavers : q.Leavers w.store now) :
    ∃ admitted, SessionOutcome w.store now admitted q ∧ SlotOutcome w.store admitted q ∧
      RecordOutcome w.store now q := by
  induction h with
  | refl => exact ⟨_, .start w, .start w, .start w⟩
  | @tail p q steps step ih =>
    have standing' := Reclaims.standing steps standing
    have numbered := step.numbered standing'.numbered
    cases step with
    | rest same =>
      obtain ⟨admitted, sessions, slots, records⟩ := ih leavers
      exact ⟨admitted, sessions.of_sessions_eq rfl (congrArg Store.sessions same),
        slots.of_store_eq rfl same (fun _ => id) fun a before after => absurd before after,
        records.of_eq rfl (congrArg Store.services same) (congrArg Store.users same)
          (congrArg Store.sequence same) (congrArg Store.ledger same)⟩
    | @vacate v u owed left x y e definition id n found runs known ends moved owes passes since til
        result =>
      have before : Stage.Leavers w.store now ⟨v, owed, left⟩ := fun z hz =>
        leavers z (List.mem_append_left _ hz)
      obtain ⟨admitted, sessions, slots, records⟩ := ih before
      obtain ⟨ended, mine⟩ := leavers y (List.mem_append_right _ List.mem_cons_self)
      obtain ⟨stored, leaves, late⟩ := sessions.ran found runs ends moved ended mine
      have asks : y.service = x.service := (Session.fixed_apply moved).2.2.1
      have known' : w.store.service? y.service = some definition := by
        rw [asks, Store.service?, ← records.services]
        exact known
      rw [standing'.still n since] at result
      refine ⟨admitted, sessions.leave numbered stored runs (Session.fixed_apply moved).1 leaves
        (Session.isTerminal_of_apply_active moved runs) (fun expired => ⟨definition, known', ?_⟩)
        rfl found fun id => ?_, slots.leave standing'.coherent standing'.settled found runs asks ?_
        owes rfl rfl result, records.leave known' rfl result⟩
      · rw [leaves]
        exact late expired
      · unfold Stage.store
        rw [result, Store.session?_vacate, (Session.fixed_apply moved).1]
      · rw [leaves]
        rfl
    | @grant v a left x c head spare =>
      obtain ⟨admitted, sessions, slots, records⟩ := ih leavers
      have now₁ : v.time 1 = now := standing'.still _ (Nat.le_add_right _ _)
      refine ⟨_, sessions.grant (c := c.id) numbered head rfl fun id => ?_,
        slots.grant (List.mem_of_head? spare) rfl rfl rfl rfl, records.of_eq rfl rfl rfl rfl rfl⟩
      rw [← now₁]
      exact Table.find?_insert _ _ _
    | @drained v a left done =>
      obtain ⟨admitted, sessions, slots, records⟩ := ih leavers
      refine ⟨admitted, sessions.of_sessions_eq rfl rfl, slots.of_store_eq rfl rfl
        (fun b owes => by cases owes) fun b before _ => ?_, records.of_eq rfl rfl rfl rfl rfl⟩
      obtain rfl := Option.some.inj before
      rcases done with nobody | full
      · refine .inl (Nat.le_antisymm (sessions.within a) (List.drop_eq_nil_iff.1 ?_))
        rw [← sessions.queue a]
        exact nobody
      · exact .inr (Store.spareSlots_eq_zero_iff.2 full)

end SlotBroker
