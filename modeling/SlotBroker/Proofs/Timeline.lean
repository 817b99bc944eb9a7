import SlotBroker.Proofs.Counters

/-!
# Slots over time

The counter of a credential bounds the sessions that run on it now. What is billed, though, are
spans of the past. Where no reading of the clock goes back, the times that sessions are given stand
in the order in which things happened, and at no instant do more sessions have slots of a credential
than it has slots: whoever started then was counted, and so was everybody who had not left.

A session has its slot from its start on, and up to but not including its end.

Results:
* `sum_slotTime_le`: if at no instant more than `n` of some sessions have slots, then the finished
  ones had them in any window for at most `n` times its length.
* `Timely`: what holds while times go forward; `Reclaim.timely`, `Course.timely`: steps keep it.
* **`slot_time_bounded`**: the times of every session are in order, its record is not older than its
  end, and slots are never held, nor billed, beyond the cap of their credential.
-/

namespace SlotBroker

/-! ## Slot time -/

namespace Session

/-- The session has a slot of a credential at an instant. -/
def occupies (x : Session) (c : CredentialId) (t : Nat) : Bool :=
  x.credential = some c && x.startedAt.any (·.toNat ≤ t) && x.endedAt.all (t < ·.toNat)

/-- The session has a slot at an instant. -/
def runsAt (x : Session) (t : Nat) : Bool :=
  x.startedAt.any (·.toNat ≤ t) && x.endedAt.all (t < ·.toNat)

/-- The milliseconds from `a` to before `b` in which a finished session had its slot. -/
def slotTime (x : Session) (a b : Nat) : Nat :=
  match x.startedAt, x.endedAt with
  | some started, some ended => min ended.toNat b - max started.toNat a
  | _, _ => 0

variable {x : Session} {c : CredentialId} {a b t : Nat}

theorem occupies_iff : x.occupies c t = true ↔ x.credential = some c ∧
    (∃ started, x.startedAt = some started ∧ started.toNat ≤ t) ∧
    ∀ ended, x.endedAt = some ended → t < ended.toNat := by
  simp only [occupies, Bool.and_eq_true, decide_eq_true_eq, Option.any_eq_true,
    Option.all_eq_true, and_assoc]

theorem occupies_eq (x : Session) (c : CredentialId) (t : Nat) :
    x.occupies c t = (decide (x.credential = some c) && x.runsAt t) :=
  Bool.and_assoc ..

theorem slotTime_eq_zero (x : Session) (h : b ≤ a) : x.slotTime a b = 0 := by
  unfold slotTime
  split
  · omega
  · rfl

/-- One more instant adds at most one millisecond, and only if the session has its slot then. -/
theorem slotTime_succ (x : Session) (h : a ≤ b) :
    x.slotTime a (b + 1) ≤ x.slotTime a b + (x.runsAt b).toNat := by
  unfold slotTime
  split
  · rename_i started ended hs he
    have here : x.runsAt b = (decide (started.toNat ≤ b) && decide (b < ended.toNat)) := by
      rw [runsAt, hs, he, Option.any_some, Option.all_some]
    rw [here]
    by_cases began : started.toNat ≤ b <;> by_cases goes : b < ended.toNat <;>
      simp only [began, goes, decide_true, decide_false, Bool.and_true, Bool.and_false,
        Bool.toNat_true, Bool.toNat_false] <;> omega
  · exact Nat.zero_le _

end Session

theorem sum_slotTime_succ (xs : List Session) {a b : Nat} (h : a ≤ b) :
    (xs.map (·.slotTime a (b + 1))).sum ≤
      (xs.map (·.slotTime a b)).sum + xs.countP (·.runsAt b) := by
  induction xs with
  | nil => exact Nat.le_refl _
  | cons x xs ih =>
    have here := x.slotTime_succ h
    rw [List.countP_cons]
    simp only [List.map_cons, List.sum_cons]
    cases there : x.runsAt b <;> rw [there] at here <;>
      simp only [Bool.toNat_true, Bool.toNat_false, Bool.false_eq_true, if_true, if_false]
        at here ⊢ <;>
      omega

/-- **Slot time is bounded by the slots**, one instant after the other. -/
theorem sum_slotTime_le {xs : List Session} {n a b : Nat}
    (room : ∀ t, a ≤ t → t < b → xs.countP (·.runsAt t) ≤ n) :
    (xs.map (·.slotTime a b)).sum ≤ n * (b - a) := by
  have none : ∀ {b}, b ≤ a → (xs.map (·.slotTime a b)).sum = 0 := fun h => by
    rw [List.map_congr_left fun x _ => x.slotTime_eq_zero h]
    simp
  induction b with
  | zero => rw [none (Nat.zero_le a)]; exact Nat.zero_le _
  | succ b ih =>
    by_cases h : a ≤ b
    · have before := ih fun t since til => room t since (Nat.lt_succ_of_lt til)
      have step := sum_slotTime_succ xs h
      have cap := room b h (Nat.lt_succ_self b)
      rw [Nat.succ_sub h, Nat.mul_succ]
      omega
    · rw [none (by omega)]
      exact Nat.zero_le _

namespace Store

/-- The sessions that have a slot of a credential at an instant. -/
def occupants (s : Store) (c : CredentialId) (t : Nat) : Nat :=
  s.sessions.entries.countP (·.occupies c t)

/-- The milliseconds from `a` to before `b` in which finished sessions had slots of a credential,
summed over the sessions. -/
def slotTime (s : Store) (c : CredentialId) (a b : Nat) : Nat :=
  ((s.sessions.entries.filter fun x => x.credential = some c).map (·.slotTime a b)).sum

variable {s t : Store}

theorem slotTime_le {c : CredentialId} {n : Nat} (room : ∀ t, s.occupants c t ≤ n) (a b : Nat) :
    s.slotTime c a b ≤ n * (b - a) := by
  refine sum_slotTime_le fun t _ _ => ?_
  rw [List.countP_filter]
  refine Nat.le_trans (Nat.le_of_eq (List.countP_congr fun x _ => ?_)) (room t)
  rw [Session.occupies_eq, Bool.and_comm]

theorem occupants_insert {y : Session} (c : CredentialId) (i : Nat)
    (ht : t.sessions = s.sessions.insert y) :
    t.occupants c i + ((s.session? y.id).elim 0 fun x => (x.occupies c i).toNat) =
      s.occupants c i + (y.occupies c i).toNat := by
  rw [occupants, ht]
  exact countP_placeIn (fun x : Session => x.occupies c i) y s.sessions.entries

/-- A session that does not have a slot then, or had it before, does not add to the occupants. -/
theorem occupants_insert_le {y : Session} {c : CredentialId} {i : Nat}
    (ht : t.sessions = s.sessions.insert y)
    (had : y.occupies c i = true → ∃ x, s.session? y.id = some x ∧ x.occupies c i = true) :
    t.occupants c i ≤ s.occupants c i := by
  have count := occupants_insert c i ht
  cases here : y.occupies c i
  · rw [here, Bool.toNat_false] at count
    omega
  · obtain ⟨x, hx, before⟩ := had here
    rw [here, hx, Option.elim_some, before] at count
    omega

/-- Nobody has a slot of a credential that is not stored. -/
theorem occupants_of_unknown {c : CredentialId} {i : Nat} (coherent : s.Coherent)
    (unknown : s.credential? c = none) : s.occupants c i = 0 := by
  refine List.countP_eq_zero.2 fun x hx here => ?_
  obtain ⟨d, hd, -⟩ := coherent.bound (session?_eq_some_iff.2 ⟨hx, rfl⟩)
    (Session.occupies_iff.1 here).1
  cases unknown.symm.trans hd

/-- Once all ends are past, who has a slot is running. -/
theorem occupants_le_holders {c : CredentialId} {i : Nat} (coherent : s.Coherent)
    (past : ∀ {id x}, s.session? id = some x → ∀ t, x.endedAt = some t → t.toNat ≤ i) :
    s.occupants c i ≤ s.holders c := by
  refine List.countP_mono_left fun x hx here => ?_
  have stored : s.session? x.id = some x := session?_eq_some_iff.2 ⟨hx, rfl⟩
  obtain ⟨bound, ⟨_, began, -⟩, ends⟩ := Session.occupies_iff.1 here
  have goes : x.endedAt = none := by
    cases ended : x.endedAt with
    | none => rfl
    | some t => exact absurd (ends t ended) (Nat.not_lt.2 (past stored t ended))
  have shaped := coherent.shaped stored
  have runs : x.state = .active := by
    cases state : x.state <;>
      simp_all [Session.Shaped, Session.Blank, Session.Complete]
  simp only [Session.holds, runs, bound, decide_true, Bool.and_self]

end Store

/-! ## Times that go forward -/

/-- The readings of the clock before the given one never go back. -/
def Supply.Forward (s : Supply) (limit : Nat) : Prop :=
  ∀ m n, m ≤ n → n < limit → s.reading m ≤ s.reading n

/-- No reading that is yet to be made, before the given one, shows an earlier time. -/
def World.IsPast (w : World) (limit : Nat) (t : Millis) : Prop :=
  ∀ n, w.supply.read ≤ n → n < limit → t ≤ w.supply.reading n

/-- The times of a session are in order, and past. -/
structure Session.Stamped (x : Session) (w : World) (limit : Nat) : Prop where
  asked : w.IsPast limit x.queuedAt
  began : ∀ t, x.startedAt = some t → x.queuedAt ≤ t ∧ w.IsPast limit t
  ended : ∀ t, x.endedAt = some t → (∃ s, x.startedAt = some s ∧ s ≤ t) ∧ w.IsPast limit t

/-- What holds while times go forward, up to the given reading of the clock. -/
structure Timely (limit : Nat) (w : World) : Prop where
  stamped : ∀ {id x}, w.store.session? id = some x → x.Stamped w limit
  /-- A record is of a session that has ended, and was not written before that. -/
  billed : ∀ r ∈ w.store.ledger, ∃ x t, w.store.session? r.session = some x ∧
    x.state.isTerminal = true ∧ x.endedAt = some t ∧ t ≤ r.recordedAt
  room : ∀ {id c}, w.store.credential? id = some c →
    ∀ t, w.store.occupants id t ≤ c.maxStreams.toNat

section Steps

variable {limit : Nat} {w v : World} {x y : Session}

theorem World.IsPast.later {t : Millis} (h : w.IsPast limit t) (passes : w.Passes v) :
    v.IsPast limit t := fun n read below => by
  rw [passes.reading]
  exact h n (Nat.le_trans passes.read read) below

theorem Session.Stamped.later (h : x.Stamped w limit) (passes : w.Passes v) :
    x.Stamped v limit where
  asked := h.asked.later passes
  began t ht := (h.began t ht).imp_right (·.later passes)
  ended t ht := (h.ended t ht).imp_right (·.later passes)

/-- What has been read is past. -/
theorem Supply.Forward.isPast (h : w.supply.Forward limit) {n : Nat} (read : n ≤ w.supply.read) :
    w.IsPast limit (w.supply.reading n) := fun m later below =>
  h n m (Nat.le_trans read later) below

/-- A session that is put into its place keeps the others as they are. -/
theorem Timely.stamped_insert (h : Timely limit w) (passes : w.Passes v)
    (sessions : v.store.sessions = w.store.sessions.insert y) (stamped : y.Stamped v limit)
    {id : SessionId} {x : Session} (hx : v.store.session? id = some x) : x.Stamped v limit := by
  rw [Store.session?, sessions, Table.find?_insert] at hx
  split at hx
  · rwa [← Option.some.inj hx]
  · exact (h.stamped hx).later passes

/-- Old records stay in order. -/
theorem Timely.billed_later (h : Timely limit w) (grows : w.store.Grows v.store) :
    ∀ r ∈ w.store.ledger, ∃ x t, v.store.session? r.session = some x ∧
      x.state.isTerminal = true ∧ x.endedAt = some t ∧ t ≤ r.recordedAt := fun r hr => by
  obtain ⟨x, t, hx, ended, rest⟩ := h.billed r hr
  exact ⟨x, t, grows.session?_of_terminal hx ended, ended, rest⟩

theorem Timely.of_store_eq (h : Timely limit w) (passes : w.Passes v) (same : v.store = w.store) :
    Timely limit v where
  stamped hx := (h.stamped (same ▸ hx)).later passes
  billed := by
    rw [same]
    exact h.billed
  room hc := by
    rw [same] at hc ⊢
    exact h.room hc

/-- Where all ends are past when a session starts, it has room: before, nobody is added, and then
all who have slots are counted. -/
theorem Timely.room_of_start (h : Timely limit w) {s : Store} (settled : s.Settled)
    (coherent : s.Coherent) (now : Millis)
    (past : ∀ {id x}, s.session? id = some x → ∀ t, x.endedAt = some t → t ≤ now)
    (before : ∀ c t, t < now.toNat → s.occupants c t ≤ w.store.occupants c t)
    (caps : ∀ {id c}, s.credential? id = some c →
      ∃ d, w.store.credential? id = some d ∧ d.maxStreams = c.maxStreams)
    {id : CredentialId} {c : Credential} (known : s.credential? id = some c) (t : Nat) :
    s.occupants id t ≤ c.maxStreams.toNat := by
  by_cases earlier : t < now.toNat
  · obtain ⟨d, hd, cap⟩ := caps known
    rw [← cap]
    exact (before id t earlier).trans (h.room hd t)
  · have running := Store.occupants_le_holders (c := id) (i := t) coherent fun hx e he =>
      (UInt64.le_iff_toNat_le.1 (past hx e he)).trans (Nat.le_of_not_lt earlier)
    rw [← settled.active_eq known] at running
    exact running.trans (UInt32.le_iff_toNat_le.1 (settled.capped known))

/-- The end of a running session comes after its start, and is past. -/
theorem World.Ends.stamp {definition : Service} {e : Session.Event} (h : w.Ends x definition e)
    (forward : w.supply.Forward limit) (below : w.supply.read < limit)
    (stamped : x.Stamped w limit) (shaped : x.Shaped) (runs : x.state = .active)
    (moved : x.apply e = some y) : ∃ state t, y = { x with state := state, endedAt := some t } ∧
      (∃ s, x.startedAt = some s ∧ s ≤ t) ∧ w.IsPast limit t := by
  cases h with
  | finish =>
    simp only [Session.Shaped, runs] at shaped
    obtain ⟨s, hs⟩ := Option.isSome_iff_exists.1 shaped.2.1
    exact ⟨_, _, Session.eq_ended_of_apply runs moved,
      ⟨s, hs, (stamped.began s hs).2 _ (Nat.le_refl _) below⟩, forward.isPast (Nat.le_refl _)⟩
  | expire read late =>
    obtain ⟨s, hs, after⟩ := Session.overdue_limitMillis_iff.1 late
    exact ⟨_, _, Session.eq_expired_of_apply moved,
      ⟨s, hs, UInt64.le_iff_toNat_le.2 (by omega)⟩, forward.isPast (Nat.le_of_lt read)⟩

/-- A session that leaves its slot has an end that is in order, and is billed after it. -/
theorem Timely.vacate {definition : Service} {e : Session.Event} {id : String} {n : Nat}
    (h : Timely limit w) (forward : w.supply.Forward limit) (til : v.supply.read ≤ limit)
    (coherent : w.store.Coherent) (found : w.store.session? x.id = some x)
    (runs : x.state = .active) (ends : w.Ends x definition e) (moved : x.apply e = some y)
    (passes : w.Passes v) (since : w.supply.read ≤ n) (before : n < v.supply.read)
    (result : v.store = w.store.vacate y (.ofSession id y definition (w.supply.reading n))) :
    Timely limit v := by
  have shaped := coherent.shaped found
  have stamped := h.stamped found
  have below : n < limit := Nat.lt_of_lt_of_le before til
  obtain ⟨state, t, hy, ⟨began, hbegan, after⟩, past⟩ :=
    ends.stamp forward (Nat.lt_of_le_of_lt since below) stamped shaped runs moved
  have hid : y.id = x.id := (Session.fixed_apply moved).1
  have sessions : v.store.sessions = w.store.sessions.insert y := by
    rw [result, Store.sessions_vacate]
  have stays : v.store.session? y.id = some y := by rw [result, Store.session?_vacate, if_pos rfl]
  have ended : y.state.isTerminal = true := Session.isTerminal_of_apply_active moved runs
  refine ⟨h.stamped_insert passes sessions ?_, fun r hr => ?_, fun {c d} hd i => ?_⟩
  · subst hy
    refine ⟨(stamped.later passes).asked, (stamped.later passes).began, fun t' ht' => ?_⟩
    obtain rfl := Option.some.inj ht'
    exact ⟨⟨began, hbegan, after⟩, past.later passes⟩
  · have ledger : v.store.ledger = w.store.ledger ++
        [.ofSession id y definition (w.supply.reading n)] := by
      rw [result, Store.ledger_vacate]
    rw [ledger, List.mem_append, List.mem_singleton] at hr
    rcases hr with old | rfl
    · refine h.billed_later ?_ r old
      rw [result]
      exact Store.grows_vacate found moved _
    · exact ⟨y, t, stays, ended, by rw [hy], past n since below⟩
  · have fewer : v.store.occupants c i ≤ w.store.occupants c i := by
      refine Store.occupants_insert_le sessions fun here => ⟨x, hid ▸ found, ?_⟩
      simp only [Session.Shaped, runs] at shaped
      subst hy
      obtain ⟨bound, started, -⟩ := Session.occupies_iff.1 here
      exact Session.occupies_iff.2 ⟨bound, started, fun e he => by cases shaped.2.2.symm.trans he⟩
    have known := hd
    rw [result] at known
    replace known := (Store.credential?_giveBack _ y c).symm.trans known
    split at known
    · obtain ⟨d', hd', rfl⟩ := Option.map_eq_some_iff.1 known
      exact fewer.trans (h.room hd' i)
    · exact fewer.trans (h.room known i)

/-- A session that starts now on a free slot has room. -/
theorem Timely.start {c : Credential} {taken now : Millis} (h : Timely limit w)
    (passes : w.Passes v) (settled : v.store.Settled) (coherent : v.store.Coherent)
    (grows : w.store.Grows v.store)
    (known : w.store.credential? c.id = some c)
    (sessions : v.store.sessions = w.store.sessions.insert y)
    (credentials : v.store.credentials = (w.store.addCredential (c.occupy taken)).credentials)
    (ledger : v.store.ledger = w.store.ledger) (began : y.startedAt = some now)
    (runs : y.endedAt = none) (asked : y.queuedAt ≤ now) (stamps : w.IsPast limit y.queuedAt)
    (past : v.IsPast limit now)
    (ends : ∀ {t : Millis}, w.IsPast limit t → t ≤ now) : Timely limit v := by
  refine ⟨h.stamped_insert passes sessions ⟨stamps.later passes, fun t ht => ?_, fun t ht => ?_⟩,
    ?_, h.room_of_start settled coherent now (fun {id x} hx t ht => ?_)
      (fun c' t early => ?_) fun {id d} hd => ?_⟩
  · obtain rfl := Option.some.inj (began.symm.trans ht)
    exact ⟨asked, past⟩
  · cases runs.symm.trans ht
  · rw [ledger]
    exact h.billed_later grows
  · rw [Store.session?, sessions, Table.find?_insert] at hx
    split at hx
    · obtain rfl := Option.some.inj hx
      cases runs.symm.trans ht
    · exact ends ((h.stamped hx).ended t ht).2
  · refine Store.occupants_insert_le sessions fun here => ?_
    obtain ⟨-, ⟨t', ht', after⟩, -⟩ := Session.occupies_iff.1 here
    obtain rfl := Option.some.inj (began.symm.trans ht')
    omega
  · rw [Store.credential?, credentials] at hd
    replace hd := (Store.credential?_addCredential (s := w.store) (c.occupy taken) id).symm.trans hd
    split at hd
    · rename_i hid
      obtain rfl := Option.some.inj hd
      exact ⟨c, hid ▸ known, rfl⟩
    · exact ⟨d, hd, rfl⟩

/-- A session that does not get a slot takes no room. -/
theorem Timely.insert (h : Timely limit w) (passes : w.Passes v) (grows : w.store.Grows v.store)
    (sessions : v.store.sessions = w.store.sessions.insert y)
    (credentials : v.store.credentials = w.store.credentials)
    (ledger : v.store.ledger = w.store.ledger) (stamped : y.Stamped v limit)
    (away : y.credential = none) : Timely limit v := by
  refine ⟨h.stamped_insert passes sessions stamped, ?_, fun {c d} hd t => ?_⟩
  · rw [ledger]
    exact h.billed_later grows
  · rw [Store.credential?, credentials] at hd
    refine (Store.occupants_insert_le sessions fun here => ?_).trans (h.room hd t)
    cases away.symm.trans (Session.occupies_iff.1 here).1

/-- A credential that takes its place has room for all who have slots of it. -/
theorem Timely.addCredential {c : Credential} (h : Timely limit w) (passes : w.Passes v)
    (result : v.store = w.store.addCredential c)
    (room : ∀ t, w.store.occupants c.id t ≤ c.maxStreams.toNat) : Timely limit v where
  stamped {id x} hx := by
    rw [result] at hx
    exact (h.stamped hx).later passes
  billed := by
    rw [result]
    exact h.billed
  room {id d} hd t := by
    rw [result] at hd ⊢
    rw [Store.credential?_addCredential] at hd
    split at hd
    · rename_i hid
      rw [← hid, ← Option.some.inj hd]
      exact room t
    · exact h.room hd t

end Steps

/-! ## What commands keep -/

section Runs

variable {key : Codec.Key} {w v : World} {past : List Moment} {limit : Nat}

theorem Reclaim.timely {p q : Stage} (h : Reclaim p q) (coherent : p.store.Coherent)
    (settled : p.store.Settled) (forward : p.world.supply.Forward limit)
    (til : q.world.supply.read ≤ limit) (timely : Timely limit p.world) : Timely limit q.world := by
  have grows := (h.keeps coherent).1
  have coherent' := (h.keeps coherent).2
  have settled' := h.settled coherent settled
  cases h with
  | rest same passes => exact timely.of_store_eq passes same
  | vacate found runs _ ends moved _ passes since before result =>
    exact timely.vacate forward til coherent found runs ends moved passes since before result
  | @grant w service left h c head spare =>
    obtain ⟨stored, waits, -⟩ := Store.mem_queue.1 (List.mem_of_head? head)
    obtain ⟨known, -, -⟩ := Store.mem_available.1 (List.mem_of_head? spare)
    have blank := coherent.shaped stored
    simp only [Session.Shaped, waits] at blank
    have asked := (timely.stamped stored).asked
    have read : w.supply.read + 1 < limit := til
    exact timely.start (y := h.started c.id (w.time 1)) ⟨rfl, Nat.le_add_right _ _⟩ settled'
      coherent' grows known rfl rfl rfl rfl blank.2.2 (asked _ (Nat.le_succ _) read) asked
      (forward.isPast (w := w.tick 2) (Nat.le_succ _)) fun ended => ended _ (Nat.le_succ _) read
  | drained => exact timely

theorem Reclaims.timely {p q : Stage} (h : Reclaims p q) (coherent : p.store.Coherent)
    (settled : p.store.Settled) (forward : p.world.supply.Forward limit)
    (til : q.world.supply.read ≤ limit) (timely : Timely limit p.world) : Timely limit q.world := by
  induction h with
  | refl => exact timely
  | tail steps step ih =>
    have passes := Reclaims.passes steps
    have forward' : Supply.Forward _ limit := fun m n => by
      rw [passes.reading]
      exact forward m n
    exact step.timely (Reclaims.keeps steps coherent).2 (Reclaims.settled steps coherent settled)
      forward' til (ih (step.passes.read.trans til))

theorem Course.timely (h : Course w v) (coherent : w.store.Coherent) (settled : w.store.Settled)
    (forward : w.supply.Forward limit) (til : v.supply.read ≤ limit) (timely : Timely limit w) :
    Timely limit v := by
  have grows := (h.keeps coherent).1
  have coherent' := (h.keeps coherent).2
  have settled' := h.settled coherent settled
  cases h with
  | reclaimed steps => exact steps.timely coherent settled forward til timely
  | @queued x _ passes _ _ waits shaped asked _ _ result =>
    simp only [Session.Shaped, waits] at shaped
    obtain ⟨away, began, ended⟩ := shaped
    have past : w.IsPast limit x.queuedAt := asked ▸ forward.isPast (Nat.le_refl _)
    refine timely.insert (y := { x with sequence := w.store.sequence + 1 }) passes grows
      (by rw [result]; rfl) (by rw [result]; rfl) (by rw [result]; rfl)
      ⟨past.later passes, fun t ht => ?_, fun t ht => ?_⟩ away
    · cases began.symm.trans ht
    · cases ended.symm.trans ht
  | @placed x c _ passes reads _ _ runs shaped asked began _ _ spare result =>
    simp only [Session.Shaped, runs] at shaped
    obtain ⟨known, -, -⟩ := Store.mem_available.1 (List.mem_of_head? spare)
    have now : w.IsPast limit (w.time 0) := forward.isPast (Nat.le_refl _)
    have read : w.supply.read < limit := Nat.lt_of_lt_of_le reads til
    exact timely.start (y := { x with sequence := w.store.sequence + 1 }) passes settled' coherent'
      grows known (by rw [result]; rfl) (by rw [result]; rfl) (by rw [result]; rfl) began
      shaped.2.2 (UInt64.le_of_eq asked) (asked ▸ now) (now.later passes) fun ended =>
        ended _ (Nat.le_refl _) read
  | @cancelled x y passes found waits moved result =>
    have shaped := coherent.shaped found
    simp only [Session.Shaped, waits] at shaped
    obtain rfl := Session.eq_cancelled_of_apply waits moved
    have stamped := (timely.stamped found).later passes
    exact timely.insert (y := { x with state := .ended }) passes grows (by rw [result])
      (by rw [result]) (by rw [result]) ⟨stamped.asked, stamped.began, stamped.ended⟩ shaped.1
  | issued passes fresh _ result =>
    refine timely.addCredential passes result fun t => ?_
    rw [Store.occupants_of_unknown coherent fresh]
    exact Nat.zero_le _
  | amended passes known _ _ cap _ result =>
    refine timely.addCredential passes result fun t => ?_
    rw [cap]
    exact timely.room known t
  | registered passes result =>
    refine ⟨fun hx => ?_, ?_, fun hc t => ?_⟩
    · rw [result] at hx
      exact (timely.stamped hx).later passes
    · rw [result]
      exact timely.billed
    · rw [result] at hc ⊢
      exact timely.room hc t

/-- Between any two commands, times have gone forward if no reading went back. -/
theorem Orderly.timely (h : Orderly key w past) (forward : w.supply.Forward limit)
    (til : w.supply.read ≤ limit) : Timely limit w := by
  induction h with
  | start w bare =>
    refine ⟨fun hx => ?_, fun r hr => ?_, fun hc => ?_⟩
    · rw [bare] at hx
      cases hx
    · rw [bare] at hr
      cases hr
    · rw [bare] at hc
      cases hc
  | @next w past c h fresh ih =>
    cases c with
    | define service =>
      have timely := ih forward til
      exact ⟨fun hx => (timely.stamped hx).later ⟨rfl, Nat.le_refl _⟩, timely.billed, timely.room⟩
    | call op =>
      have course := op.course key fresh h.coherent
      have before : w.supply.Forward limit := fun m n => by
        rw [← course.passes.reading]
        exact forward m n
      exact course.timely h.coherent h.settled before til (ih before (course.passes.read.trans til))

/-- **Slots are never held, nor billed, beyond the cap of their credential.** Where the readings of
the clock never go back, the times of every session are in order, its record is not older than its
end, at every instant a credential has room for all who have slots of it, and the finished sessions
of any window had them for at most its slots times the length of the window. -/
theorem slot_time_bounded (h : Orderly key w past)
    (forward : ∀ m n, m ≤ n → n < w.supply.read → w.supply.reading m ≤ w.supply.reading n) :
    (∀ id x, w.store.session? id = some x →
      (∀ t, x.startedAt = some t → x.queuedAt ≤ t) ∧
      ∀ t, x.endedAt = some t → ∃ s, x.startedAt = some s ∧ s ≤ t) ∧
    (∀ r ∈ w.store.ledger, ∃ x t, w.store.session? r.session = some x ∧ x.endedAt = some t ∧
      t ≤ r.recordedAt) ∧
    ∀ id c, w.store.credential? id = some c →
      (∀ t, w.store.occupants id t ≤ c.maxStreams.toNat) ∧
      ∀ a b, w.store.slotTime id a b ≤ c.maxStreams.toNat * (b - a) := by
  have timely := h.timely forward (Nat.le_refl _)
  refine ⟨fun id x hx => ?_, fun r hr => ?_, fun id c hc => ?_⟩
  · have stamped := timely.stamped hx
    exact ⟨fun t ht => (stamped.began t ht).1, fun t ht => (stamped.ended t ht).1⟩
  · obtain ⟨x, t, hx, -, ended, after⟩ := timely.billed r hr
    exact ⟨x, t, hx, ended, after⟩
  · exact ⟨timely.room hc, Store.slotTime_le (timely.room hc)⟩

end Runs

/-- On a clock that shows the number of the reading, a session ends and another one takes over its
slot. -/
def takenOver : World × List Moment :=
  [.define oneSlot, .call (.issue "films" "house" "secret" .basic),
    .call (.request "ann" "films"), .call (.request "bob" "films"),
    .call (.finish "0000000000000001")].foldl (Command.play Scene.plainKey)
    ({ platform := {}, supply := { reading := UInt64.ofNat, word := UInt64.ofNat } }, [])

theorem slot_time_bounded_takenOver :
    takenOver.1.store.slotTime "000000000000" 0 9 = 3 ∧
      takenOver.1.store.slotTime "000000000000" 0 9 ≤ 1 * (9 - 0) ∧
      takenOver.1.store.occupants "000000000000" 2 = 1 ∧
      takenOver.1.store.occupants "000000000000" 2 ≤ 1 := by
  have reached : Orderly Scene.plainKey takenOver.1 takenOver.2 := Orderly.play (.start _ rfl) _
  have read : takenOver.1.supply.read = 7 := by decide +kernel
  have clock : takenOver.1.supply.reading = UInt64.ofNat := Command.reading_play ..
  have forward : ∀ m n, m ≤ n → n < takenOver.1.supply.read →
      takenOver.1.supply.reading m ≤ takenOver.1.supply.reading n := by
    intro m n h below
    rw [read] at below
    rw [clock, UInt64.le_iff_toNat_le, UInt64.toNat_ofNat', UInt64.toNat_ofNat']
    omega
  have known : (takenOver.1.store.credential? "000000000000").map (·.maxStreams) = some 1 := by
    decide +kernel
  obtain ⟨c, hc, cap⟩ := Option.map_eq_some_iff.1 known
  obtain ⟨-, -, bounds⟩ := slot_time_bounded reached forward
  obtain ⟨room, time⟩ := bounds _ c hc
  have one : c.maxStreams.toNat = 1 := by rw [cap]; rfl
  rw [one] at room time
  exact ⟨by decide +kernel, time 0 9, by decide +kernel, room 2⟩

end SlotBroker
