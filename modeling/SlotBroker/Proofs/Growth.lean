import Mathlib.Logic.Relation
import SlotBroker.Store

/-!
# How the store changes under the operations

No operation of the broker forgets anything. A session that is stored stays stored and only ever
moves on by events; a credential stays stored and stays with its service. This is `Store.Grows`, and
what a call once read of the store still holds of it in this weakened form when the call goes on,
whatever others did in between.

`Store.Coherent` is what holds of the store alone: sessions have the shape that their state calls
for, and what they refer to is stored.

Results:
* `Session.Leads.fixed`, `Session.Leads.eq_of_active`, `Session.Leads.eq_of_terminal`,
  `Session.Leads.eq_of_queued`: a later version of a session keeps who asked and when; if both
  versions run, or the first has ended, or the second waits, they are equal.
* `Session.Shaped.apply`: events keep the shape.
* `Store.Coherent.insertSession`, `Store.Coherent.of_grows`: the two ways in which a step keeps the
  store coherent.
* `Store.applyEvent_cases`, `Store.disable_cases`, `Store.rotate_cases`: an atomic step changes
  nothing, or one stored record alone.
-/

namespace SlotBroker

/-! ## Sessions -/

namespace Session

/-- The session is, or has by events become, `t`. -/
def Leads : Session → Session → Prop :=
  Relation.ReflTransGen fun a b => ∃ e, a.apply e = some b

/-- The session holds nothing: no credential and no times. -/
def Blank (s : Session) : Prop := s.credential = none ∧ s.startedAt = none ∧ s.endedAt = none

/-- The session has run to its end: it has a credential and both times. -/
def Complete (s : Session) : Prop :=
  s.credential.isSome = true ∧ s.startedAt.isSome = true ∧ s.endedAt.isSome = true

/-- The session has what its state calls for. -/
def Shaped (s : Session) : Prop :=
  match s.state with
  | .queued => s.Blank
  | .active => s.credential.isSome = true ∧ s.startedAt.isSome = true ∧ s.endedAt = none
  | .ended => s.Blank ∨ s.Complete
  | .expired => s.Complete

variable {s t u : Session} {e : Event}

theorem Leads.refl (s : Session) : s.Leads s := Relation.ReflTransGen.refl

theorem Leads.trans (h : s.Leads t) (h' : t.Leads u) : s.Leads u := Relation.ReflTransGen.trans h h'

theorem Leads.of_apply (h : s.apply e = some t) : s.Leads t := Relation.ReflTransGen.single ⟨e, h⟩

/-- No event leads back into the queue. -/
theorem state_ne_queued_of_apply (h : s.apply e = some t) : t.state ≠ .queued := by
  have hs := state_apply h
  intro ht
  rw [ht] at hs
  cases hq : s.state <;> cases e <;> simp [hq, State.next] at hs

theorem isTerminal_eq_false_of_apply (h : s.apply e = some t) : s.state.isTerminal = false := by
  cases hs : s.state.isTerminal with
  | false => rfl
  | true =>
    have := state_apply h
    rw [State.next_eq_none_of_terminal hs] at this
    cases this

theorem Leads.fixed (h : s.Leads t) :
    t.id = s.id ∧ t.user = s.user ∧ t.service = s.service ∧ t.queuedAt = s.queuedAt ∧
      t.sequence = s.sequence := by
  induction h with
  | refl => exact ⟨rfl, rfl, rfl, rfl, rfl⟩
  | tail _ step ih =>
    obtain ⟨e, he⟩ := step
    obtain ⟨h1, h2, h3, h4, h5⟩ := fixed_apply he
    obtain ⟨i1, i2, i3, i4, i5⟩ := ih
    exact ⟨h1.trans i1, h2.trans i2, h3.trans i3, h4.trans i4, h5.trans i5⟩

theorem Leads.eq_of_terminal (h : s.Leads t) (hs : s.state.isTerminal = true) : t = s := by
  rcases Relation.ReflTransGen.cases_head h with rfl | ⟨u, ⟨e, he⟩, -⟩
  · rfl
  · rw [isTerminal_eq_false_of_apply he] at hs
    cases hs

theorem Leads.eq_of_queued (h : s.Leads t) (ht : t.state = .queued) : t = s := by
  rcases Relation.ReflTransGen.cases_tail h with h' | ⟨u, -, e, he⟩
  · exact h'
  · exact absurd ht (state_ne_queued_of_apply he)

/-- A running session is only left by ending. -/
theorem isTerminal_of_apply_active (h : s.apply e = some t) (hs : s.state = .active) :
    t.state.isTerminal = true := by
  have := state_apply h
  rw [hs] at this
  cases e <;> simp only [State.next, Option.some.injEq, reduceCtorEq] at this <;>
    rw [← this] <;> rfl

/-- A running session runs on, or ends. -/
theorem Leads.eq_or_terminal (h : s.Leads t) (hs : s.state = .active) :
    t = s ∨ t.state.isTerminal = true := by
  rcases Relation.ReflTransGen.cases_head h with rfl | ⟨u, ⟨e, he⟩, hu⟩
  · exact .inl rfl
  · have hend := isTerminal_of_apply_active he hs
    rw [Leads.eq_of_terminal hu hend]
    exact .inr hend

theorem Leads.eq_of_active (h : s.Leads t) (hs : s.state = .active) (ht : t.state = .active) :
    t = s := by
  refine (h.eq_or_terminal hs).resolve_right fun hend => ?_
  rw [ht] at hend
  cases hend

/-- **Events keep the shape.** -/
theorem Shaped.apply (hs : s.Shaped) (h : s.apply e = some t) : t.Shaped := by
  simp only [Session.apply, Option.map_eq_some_iff] at h
  obtain ⟨state, hstate, rfl⟩ := h
  cases hq : s.state <;> cases e <;>
    simp only [hq, State.next, Option.some.injEq, reduceCtorEq] at hstate <;> subst hstate <;>
    simp only [Shaped, hq] at hs <;> simp_all [Shaped, Blank, Complete]

/-- Only the start of a waiting session gives it a credential. -/
theorem credential_apply (h : s.apply e = some t) :
    t.credential = s.credential ∨
      s.state = .queued ∧ ∃ c time, e = .start c time ∧ t.credential = some c := by
  simp only [Session.apply, Option.map_eq_some_iff] at h
  obtain ⟨state, hstate, rfl⟩ := h
  cases e with
  | start c time =>
    refine .inr ⟨?_, c, time, rfl, rfl⟩
    cases hs : s.state <;> simp [hs, State.next] at hstate
    rfl
  | finish => exact .inl rfl
  | expire => exact .inl rfl

/-- The session as it runs on a slot of a credential. -/
def started (s : Session) (c : CredentialId) (time : Millis) : Session :=
  { s with state := .active, credential := some c, startedAt := some time }

/-- A waiting session that is given a slot runs on it. -/
theorem apply_start (hs : s.state = .queued) (c : CredentialId) (time : Millis) :
    s.apply (.start c time) = some (s.started c time) := by
  simp only [Session.apply, hs, State.next, Option.map_some, started]

/-- Only a waiting session can be given a slot. -/
theorem eq_started_of_apply {c : CredentialId} {time : Millis}
    (h : s.apply (.start c time) = some t) : s.state = .queued ∧ t = s.started c time := by
  have hs := state_apply h
  cases hq : s.state with
  | queued =>
    rw [apply_start hq] at h
    exact ⟨rfl, (Option.some.inj h).symm⟩
  | active | ended | expired =>
    rw [hq] at hs
    cases hs

/-- A running session that is to expire does so. -/
theorem apply_expire (hs : s.state = .active) (time : Millis) :
    ∃ t, s.apply (.expire time) = some t :=
  ⟨_, by simp only [Session.apply, hs, State.next, Option.map_some]; rfl⟩

/-- A session that has ended ignores every event. -/
theorem apply_of_terminal (hs : s.state.isTerminal = true) : s.apply e = none := by
  rw [Session.apply, State.next_eq_none_of_terminal hs, Option.map_none]

/-- Only a running session expires. -/
theorem active_of_expire {time : Millis} (h : s.apply (.expire time) = some t) :
    s.state = .active := by
  have hs := state_apply h
  cases hq : s.state with
  | active => rfl
  | queued | ended | expired =>
    rw [hq] at hs
    cases hs

/-- What becomes of a running session that is ended. -/
theorem eq_ended_of_apply {time : Millis} (hs : s.state = .active)
    (h : s.apply (.finish time) = some t) :
    t = { s with state := .ended, endedAt := some time } := by
  simp only [Session.apply, hs, State.next, Option.map_some, if_true, Option.some.injEq] at h
  exact h.symm

/-- What becomes of a session that expires. -/
theorem eq_expired_of_apply {time : Millis} (h : s.apply (.expire time) = some t) :
    t = { s with state := .expired, endedAt := some time } := by
  simp only [Session.apply, active_of_expire h, State.next, Option.map_some, if_true,
    Option.some.injEq] at h
  exact h.symm

/-- What becomes of a waiting session that is cancelled. -/
theorem eq_cancelled_of_apply {time : Millis} (hs : s.state = .queued)
    (h : s.apply (.finish time) = some t) : t = { s with state := .ended } := by
  simp only [Session.apply, hs, State.next, Option.map_some, reduceCtorEq, if_false,
    Option.some.injEq] at h
  exact h.symm

/-- A session that has left its slot keeps the credential and has run to its end. -/
theorem Complete.of_apply (hs : s.Shaped) (hrun : s.state = .active) (h : s.apply e = some t) :
    t.Complete ∧ t.credential = s.credential := by
  simp only [Session.apply, Option.map_eq_some_iff] at h
  obtain ⟨state, hstate, rfl⟩ := h
  cases e <;> simp only [hrun, State.next, Option.some.injEq, reduceCtorEq] at hstate <;>
    simp only [Shaped, hrun] at hs <;> simp_all [Complete]

end Session

/-! ## The store -/

/-- What a record that is put into its place adds to a count, and what the one before it took. -/
theorem countP_placeIn {α : Type} [Keyed α] (p : α → Bool) (v : α) (xs : List α) :
    (placeIn v xs).countP p +
        ((xs.find? fun x => decide (Keyed.key x = Keyed.key v)).elim 0 fun x => (p x).toNat) =
      xs.countP p + (p v).toNat := by
  induction xs with
  | nil => cases hv : p v <;> simp [placeIn, hv]
  | cons x xs ih =>
    by_cases h : Keyed.key x = Keyed.key v
    · rw [placeIn, if_pos h, List.find?_cons_of_pos (by simpa using h), Option.elim_some]
      cases hv : p v <;> cases hx : p x <;> simp [hv, hx]
    · rw [placeIn, if_neg h, List.find?_cons_of_neg (by simpa using h)]
      cases hx : p x <;> simp only [List.countP_cons, hx] <;> omega

namespace Store

variable {s t u : Store}

/-! ### Lookups and lists -/

theorem session?_eq_some_iff {id : SessionId} {x : Session} :
    s.session? id = some x ↔ x ∈ s.sessions.entries ∧ x.id = id :=
  Table.find?_eq_some_iff

theorem credential?_eq_some_iff {id : CredentialId} {c : Credential} :
    s.credential? id = some c ↔ c ∈ s.credentials.entries ∧ c.id = id :=
  Table.find?_eq_some_iff

theorem session?_self {id : SessionId} {x : Session} (h : s.session? id = some x) :
    s.session? x.id = some x := by
  rw [(session?_eq_some_iff.1 h).2, h]

/-- A credential that takes the place of another one. -/
theorem credential?_of_id_eq {id : CredentialId} {c d : Credential} (h : s.credential? id = some c)
    (same : d.id = c.id) : s.credential? d.id = some c := by
  rw [same, (credential?_eq_some_iff.1 h).2, h]

theorem mem_queue {q : Session} {service : ServiceId} : q ∈ s.queue service ↔
    s.session? q.id = some q ∧ q.state = .queued ∧ q.service = service := by
  rw [queue, mem_sessionsMatching, session?_eq_some_iff]
  simp [Session.waitsFor]

theorem mem_available {c : Credential} {service : ServiceId} : c ∈ s.available service ↔
    s.credential? c.id = some c ∧ c.service = service ∧ c.hasCapacity = true := by
  rw [available, List.mem_filter, credential?_eq_some_iff]
  simp

theorem available_eq_filter (s : Store) (service : ServiceId) :
    s.available service = (s.credentialsOf service).filter (·.hasCapacity) := by
  unfold available credentialsOf
  rw [List.filter_filter]
  exact List.filter_congr fun c _ => Bool.and_comm ..

/-! ### Growth -/

/-- Some steps lead from `s` to `t`: sessions move on by events, credentials stay with their
services. -/
structure Evolves (s t : Store) : Prop where
  sessions : ∀ {id x}, s.session? id = some x → ∃ y, t.session? id = some y ∧ x.Leads y
  credentials : ∀ {id c}, s.credential? id = some c →
    ∃ d, t.credential? id = some d ∧ d.service = c.service

theorem Evolves.refl (s : Store) : s.Evolves s := ⟨fun h => ⟨_, h, .refl _⟩, fun h => ⟨_, h, rfl⟩⟩

theorem Evolves.trans (h : s.Evolves t) (h' : t.Evolves u) : s.Evolves u where
  sessions hx := by
    obtain ⟨y, hy, hxy⟩ := h.sessions hx
    obtain ⟨z, hz, hyz⟩ := h'.sessions hy
    exact ⟨z, hz, hxy.trans hyz⟩
  credentials hc := by
    obtain ⟨d, hd, hcd⟩ := h.credentials hc
    obtain ⟨e, he, hde⟩ := h'.credentials hd
    exact ⟨e, he, hde.trans hcd⟩

/-- What is unknown later has been so before. -/
theorem Evolves.session?_eq_none (h : s.Evolves t) {id : SessionId}
    (unknown : t.session? id = none) : s.session? id = none := by
  refine Option.eq_none_iff_forall_ne_some.2 fun x found => ?_
  obtain ⟨y, found', -⟩ := h.sessions found
  cases unknown.symm.trans found'

/-- Some steps of operations lead from `s` to `t`: besides, services are fixed. -/
structure Grows (s t : Store) : Prop extends s.Evolves t where
  services : t.services = s.services

theorem Grows.refl (s : Store) : s.Grows s := ⟨.refl s, rfl⟩

theorem Grows.trans (h : s.Grows t) (h' : t.Grows u) : s.Grows u :=
  ⟨h.toEvolves.trans h'.toEvolves, h'.services.trans h.services⟩

/-- A session that has ended stays as it is. -/
theorem Grows.session?_of_terminal (h : s.Grows t) {id : SessionId} {x : Session}
    (hx : s.session? id = some x) (hend : x.state.isTerminal = true) : t.session? id = some x := by
  obtain ⟨y, hy, hxy⟩ := h.sessions hx
  rwa [hxy.eq_of_terminal hend] at hy

theorem Grows.of_eq (hs : t.services = s.services) (hx : t.sessions = s.sessions)
    (hc : t.credentials = s.credentials) : s.Grows t where
  services := hs
  sessions h := ⟨_, by rwa [session?, hx], .refl _⟩
  credentials h := ⟨_, by rwa [credential?, hc], rfl⟩

theorem Grows.insertSession {y : Session} (hs : t.services = s.services)
    (hx : t.sessions = s.sessions.insert y) (hc : t.credentials = s.credentials)
    (hy : ∀ x, s.session? y.id = some x → x.Leads y) : s.Grows t where
  services := hs
  sessions {id x} h := by
    rw [session?, hx, Table.find?_insert]
    split
    · rename_i hid
      change y.id = id at hid
      exact ⟨y, rfl, hy x (by rw [hid]; exact h)⟩
    · exact ⟨x, h, .refl x⟩
  credentials h := ⟨_, by rwa [credential?, hc], rfl⟩

@[simp] theorem session?_addCredential (c : Credential) (id : SessionId) :
    (s.addCredential c).session? id = s.session? id := rfl

@[simp] theorem credential?_addCredential (c : Credential) (id : CredentialId) :
    (s.addCredential c).credential? id = if c.id = id then some c else s.credential? id :=
  Table.find?_insert s.credentials c id

theorem Grows.insertCredential {d : Credential}
    (hd : ∀ c, s.credential? d.id = some c → d.service = c.service) :
    s.Grows (s.addCredential d) where
  services := rfl
  sessions h := ⟨_, h, .refl _⟩
  credentials {id c} h := by
    rw [credential?_addCredential]
    split
    · rename_i hid
      exact ⟨d, rfl, hd c (by rw [hid]; exact h)⟩
    · exact ⟨c, h, rfl⟩

/-! ### Coherence -/

/-- What holds of the store between any two steps. -/
structure Coherent (s : Store) : Prop where
  shaped : ∀ {id x}, s.session? id = some x → x.Shaped
  /-- The credential of a session is stored and belongs to the session's service. -/
  bound : ∀ {id x c}, s.session? id = some x → x.credential = some c →
    ∃ d, s.credential? c = some d ∧ d.service = x.service
  registered : ∀ {id x}, s.session? id = some x → (s.service? x.service).isSome = true

theorem Coherent.of_grows (h : s.Coherent) (hg : s.Grows t) (hx : t.sessions = s.sessions) :
    t.Coherent where
  shaped hid := h.shaped (by rwa [session?, ← hx])
  bound hid hc := by
    obtain ⟨d, hd, hs⟩ := h.bound (by rwa [session?, ← hx]) hc
    obtain ⟨e, he, hde⟩ := hg.credentials hd
    exact ⟨e, he, hde.trans hs⟩
  registered hid := by
    rw [service?, hg.services]
    exact h.registered (by rwa [session?, ← hx])

theorem Coherent.insertSession (h : s.Coherent) {y : Session} (hs : t.services = s.services)
    (hx : t.sessions = s.sessions.insert y) (hc : t.credentials = s.credentials)
    (shaped : y.Shaped)
    (bound : ∀ c, y.credential = some c → ∃ d, s.credential? c = some d ∧ d.service = y.service)
    (registered : (s.service? y.service).isSome = true) : t.Coherent := by
  have hfind : ∀ {id x}, t.session? id = some x → x = y ∨ s.session? id = some x := by
    intro id x hid
    rw [session?, hx, Table.find?_insert] at hid
    split at hid
    · exact .inl (Option.some.inj hid).symm
    · exact .inr hid
  refine ⟨fun hid => ?_, fun hid hcred => ?_, fun hid => ?_⟩
  · rcases hfind hid with rfl | hid
    · exact shaped
    · exact h.shaped hid
  · rw [credential?, hc]
    rcases hfind hid with rfl | hid
    · exact bound _ hcred
    · exact h.bound hid hcred
  · rw [service?, hs]
    rcases hfind hid with rfl | hid
    · exact registered
    · exact h.registered hid

@[simp] theorem session?_insert (s : Store) (y : Session) (id : SessionId) :
    Store.session? { s with sessions := s.sessions.insert y } id =
      if y.id = id then some y else s.session? id :=
  Table.find?_insert s.sessions y id

@[simp] theorem session?_addSession (s : Store) (x : Session) (id : SessionId) :
    (s.addSession x).2.session? id =
      if x.id = id then some { x with sequence := s.sequence + 1 } else s.session? id :=
  Table.find?_insert s.sessions _ id

/-! ### Events of stored sessions -/

section Events

variable {id : SessionId} {e : Session.Event} {x y : Session}

/-- An event keeps the id, so the session goes back to its own place. -/
theorem session?_id_of_apply (found : s.session? id = some x) (moved : x.apply e = some y) :
    s.session? y.id = some x := by
  rw [(Session.fixed_apply moved).1, session?_self found]

/-- An event that a stored session does not ignore changes that session alone. -/
theorem applyEvent_eq (found : s.session? id = some x) (moved : x.apply e = some y) :
    s.applyEvent id e = (some (x.state, y), { s with sessions := s.sessions.insert y }) := by
  simp only [applyEvent, found, moved]

/-- **An event is ignored, or changes one stored session alone.** -/
theorem applyEvent_cases (s : Store) (id : SessionId) (e : Session.Event) :
    s.applyEvent id e = (none, s) ∨ ∃ x y, s.session? id = some x ∧ x.apply e = some y ∧
      s.applyEvent id e = (some (x.state, y), { s with sessions := s.sessions.insert y }) := by
  cases found : s.session? id with
  | none => exact .inl (by simp only [applyEvent, found])
  | some x =>
    cases moved : x.apply e with
    | none => exact .inl (by simp only [applyEvent, found, moved])
    | some y => exact .inr ⟨x, y, rfl, moved, applyEvent_eq found moved⟩

theorem Grows.of_apply (found : s.session? id = some x) (moved : x.apply e = some y) :
    s.Grows { s with sessions := s.sessions.insert y } :=
  .insertSession rfl rfl rfl fun z hz => by
    obtain rfl := Option.some.inj ((session?_id_of_apply found moved).symm.trans hz)
    exact .of_apply moved

/-- An event gives a session no other credential than the one that it starts on. -/
theorem Coherent.of_apply (h : s.Coherent) (found : s.session? id = some x)
    (moved : x.apply e = some y)
    (start : ∀ c time, e = .start c time →
      ∃ d, s.credential? c = some d ∧ d.service = x.service) :
    Store.Coherent { s with sessions := s.sessions.insert y } := by
  have hserv := (Session.fixed_apply moved).2.2.1
  refine h.insertSession rfl rfl rfl ((h.shaped found).apply moved) (fun c hc => ?_) ?_
  · rw [hserv]
    rcases Session.credential_apply moved with hx | ⟨-, c', time, rfl, hc'⟩
    · exact h.bound found (hx ▸ hc)
    · obtain rfl := Option.some.inj (hc'.symm.trans hc)
      exact start _ _ rfl
  · rw [hserv]
    exact h.registered found

end Events

/-! ### Changes of stored credentials -/

theorem disable_cases (s : Store) (id : CredentialId) :
    s.disable id = (false, s) ∨ ∃ c, s.credential? c.disable.id = some c ∧
      s.disable id = (true, s.addCredential c.disable) := by
  cases known : s.credential? id with
  | none => exact .inl (by simp only [disable, known])
  | some c =>
    exact .inr ⟨c, credential?_of_id_eq known c.id_disable, by simp only [disable, known]⟩

theorem rotate_cases (s : Store) (id : CredentialId) (secret : String) :
    s.rotate id secret = (false, s) ∨ ∃ c, s.credential? (c.rotate secret).id = some c ∧
      s.rotate id secret = (true, s.addCredential (c.rotate secret)) := by
  cases known : s.credential? id with
  | none => exact .inl (by simp only [rotate, known])
  | some c =>
    exact .inr ⟨c, credential?_of_id_eq known (c.id_rotate secret), by simp only [rotate, known]⟩

end Store

end SlotBroker
