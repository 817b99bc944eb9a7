import SlotBroker.Proofs.Books

/-!
# The life of a session

A session is stored as one that waits or runs, and from then on every atomic step of any call leaves
it as it is or lets one event happen to it. So what a session has it keeps, and it goes through its
states in one direction. Calls write sessions from what they saw some steps before, and the times
that they write were read before as well; the events themselves are refused where they do not fit
what is stored.

Results:
* `Session.continues_of_apply`: an event only adds to what a session has.
* `Move.session_cases`: a step stores a new session, or one event happens to a stored one.
* `Scene.Reachable.next_move`: from one scene to the next the store makes at most one move.
* `Books.overran`: an expired session has run for longer than its service allows.
* **`lifecycle_kept`**: in every reachable scene each session has the shape of its state, refers to
  a stored credential of its registered service, and if it has expired, was overdue; and the next
  scene continues it.
-/

namespace SlotBroker

/-! ## One step in the life of a session -/

namespace Session

/-- The states that come after each other. -/
inductive State.Follows : State → State → Prop
  | admitted : Follows .queued .active
  | cancelled : Follows .queued .ended
  | finished : Follows .active .ended
  | overran : Follows .active .expired

theorem State.follows_of_next {a b : State} {e : Event} (h : a.next e = some b) : a.Follows b := by
  cases a <;> cases e <;> simp only [State.next, Option.some.injEq, reduceCtorEq] at h <;> subst h
  · exact .admitted
  · exact .cancelled
  · exact .finished
  · exact .overran

/-- What may have become of a session one step later: it is the same, or its state has moved on; in
any case it keeps who asked for what, when and with which number, and the credential and the times
that it has. -/
structure Continues (x y : Session) : Prop where
  fixed : y.id = x.id ∧ y.user = x.user ∧ y.service = x.service ∧ y.queuedAt = x.queuedAt ∧
    y.sequence = x.sequence
  credential : ∀ c, x.credential = some c → y.credential = some c
  startedAt : ∀ time, x.startedAt = some time → y.startedAt = some time
  endedAt : ∀ time, x.endedAt = some time → y.endedAt = some time
  state : y = x ∨ x.state.Follows y.state

theorem Continues.refl (x : Session) : x.Continues x :=
  ⟨⟨rfl, rfl, rfl, rfl, rfl⟩, fun _ h => h, fun _ h => h, fun _ h => h, .inl rfl⟩

variable {x y : Session} {e : Event}

/-- **An event only adds to what a session has.** -/
theorem continues_of_apply (shaped : x.Shaped) (h : x.apply e = some y) : x.Continues y := by
  have follows := State.follows_of_next (state_apply h)
  refine ⟨fixed_apply h, ?_, ?_, ?_, .inr follows⟩ <;>
  · simp only [Session.apply, Option.map_eq_some_iff] at h
    obtain ⟨state, hstate, rfl⟩ := h
    intro value has
    cases hq : x.state <;> cases e <;>
      simp only [hq, State.next, Option.some.injEq, reduceCtorEq] at hstate <;>
      simp only [Shaped, Blank, hq] at shaped <;> simp_all

/-- The session has run for longer than the service allows, both taken as numbers without end. -/
def Overran (x : Session) (definition : Service) : Prop :=
  ∃ first last, x.startedAt = some first ∧ x.endedAt = some last ∧
    first.toNat + 1000 * definition.sessionLimit.toNat < last.toNat

/-- A session that expires while it is overdue has run for too long. -/
theorem Overran.of_expire {definition : Service} {time : Millis}
    (late : x.overdue definition.limitMillis time = true) (h : x.apply (.expire time) = some y) :
    y.Overran definition := by
  obtain ⟨first, started, bound⟩ := overdue_limitMillis_iff.1 late
  have runs := active_of_expire h
  simp only [Session.apply, Option.map_eq_some_iff] at h
  obtain ⟨state, -, rfl⟩ := h
  exact ⟨first, time, started, if_pos runs, bound⟩

/-- Only an expiry makes a session expired. -/
theorem eq_expire_of_apply (h : x.apply e = some y) (expired : y.state = .expired) :
    ∃ time, e = .expire time := by
  have hs := state_apply h
  rw [expired] at hs
  cases e with
  | expire time => exact ⟨time, rfl⟩
  | start | finish => cases hq : x.state <;> simp [hq, State.next] at hs

end Session

namespace Move

variable {d : Deed} {s t : Store} {g g' : Stake}

/-- **What a step does to the sessions**: a session that is stored after it was stored before, or an
event has happened to the one that was, or it is a new one of the id in hand. -/
theorem session_cases (h : Move d s g t g') {id : SessionId} {y : Session}
    (hy : t.session? id = some y) :
    s.session? id = some y ∨
    (∃ x e, s.session? id = some x ∧ x.apply e = some y ∧ ∀ time, e = .expire time →
      ∃ definition, s.service? x.service = some definition ∧
        x.overdue definition.limitMillis time = true) ∨
    g.id = some id ∧ (y.state = .queued ∨ y.state = .active) := by
  -- where an event has happened to one session
  have moved : ∀ {i : SessionId} {x z : Session} {e : Session.Event}, s.session? i = some x →
      x.apply e = some z →
      (∀ time, e = .expire time → ∃ definition, s.service? x.service = some definition ∧
        x.overdue definition.limitMillis time = true) →
      Store.session? { s with sessions := s.sessions.insert z } id = some y →
      s.session? id = some y ∨ ∃ x e, s.session? id = some x ∧ x.apply e = some y ∧
        ∀ time, e = .expire time → ∃ definition, s.service? x.service = some definition ∧
          x.overdue definition.limitMillis time = true := by
    intro i x z e found hz late hy
    rw [Store.session?_insert] at hy
    split at hy
    · rename_i hid
      obtain rfl := Option.some.inj hy
      exact .inr ⟨x, e, hid ▸ Store.session?_id_of_apply found hz, hz, late⟩
    · exact .inl hy
  -- where a session has been stored
  have stored : ∀ {x : Session}, g.id = some x.id → x.state = .queued ∨ x.state = .active →
      (s.addSession x).2.session? id = some y →
      s.session? id = some y ∨ g.id = some id ∧ (y.state = .queued ∨ y.state = .active) := by
    intro x hx state hy
    rw [Store.session?_addSession] at hy
    split at hy
    · rename_i hid
      rw [← Option.some.inj hy]
      exact .inr ⟨hid ▸ hx, state⟩
    · exact .inl hy
  cases h with
  | queued hid waits => exact (stored hid (.inl waits) hy).imp_right .inr
  | placed hid runs => exact (stored hid (.inr runs) hy).imp_right .inr
  | started found hz => exact (moved found hz (fun _ he => nomatch he) hy).imp_right .inl
  | cancelled found _ hz => exact (moved found hz (fun _ he => nomatch he) hy).imp_right .inl
  | left found _ hz _ _ _ late => exact (moved found hz late hy).imp_right .inl
  | look | emptied | surveyed | refused | taken | returned | billed | issued | amended
  | registered =>
    exact .inl hy

end Move

/-! ## Whole runs -/

/-- **An expired session has run for longer than its service allows.** -/
theorem Books.overran {s : Store} {gs : List Stake} {drawn : List String} {past : List Moment}
    (h : Books s gs drawn past) {id : SessionId} {x : Session} (hx : s.session? id = some x)
    (expired : x.state = .expired) :
    ∃ definition, s.service? x.service = some definition ∧ x.Overran definition := by
  induction h generalizing id x with
  | start s bare =>
    rw [bare] at hx
    cases hx
  | call _ ih => exact ih hx expired
  | draw _ _ ih => exact ih hx expired
  | @move s t _ _ _ _ _ _ _ hb hm ih =>
    have services : ∀ service, t.service? service = s.service? service := fun service => by
      rw [Store.service?, (hm.grows hb.sound.unused).services, Store.service?]
    rw [services]
    rcases hm.session_cases hx with before | ⟨z, e, hz, moved, late⟩ | ⟨-, waits | runs⟩
    · exact ih before expired
    · obtain ⟨time, rfl⟩ := Session.eq_expire_of_apply moved expired
      obtain ⟨definition, known, overdue⟩ := late time rfl
      rw [(Session.fixed_apply moved).2.2.1]
      exact ⟨definition, known, .of_expire overdue moved⟩
    · cases waits.symm.trans expired
    · cases runs.symm.trans expired

/-- From one scene to the next the store makes one move of a call whose drawn id is not in use, or
none. -/
theorem Scene.Reachable.next_move {key : Codec.Key} {σ τ : Scene} (h : σ.Reachable key)
    (next : Scene.Next key σ τ) : τ.store = σ.store ∨
      ∃ d g g', Move d σ.store g τ.store g' ∧ ∀ id, g.id = some id → σ.store.Unused id := by
  obtain ⟨gs, hb, hk⟩ := h.books
  cases next with
  | call op => exact .inl rfl
  | turn before after c p rest drawn here turn =>
    rw [here] at hk
    obtain ⟨gs₁, g, gs₂, rfl, -, hc, -⟩ := forall₂_cut hk
    rcases hc.turn hb.sound.coherent turn with ⟨-, d, g', hm, -⟩ | ⟨-, -, -, rfl, -⟩
    · exact .inr ⟨d, g, g', hm, hb.sound.unused⟩
    · exact .inl rfl

/-- **Sessions keep what they have**, whatever the order of steps. -/
theorem lifecycle_kept {key : Codec.Key} {σ : Scene} (h : σ.Reachable key) :
    (∀ id x, σ.store.session? id = some x → x.id = id ∧ x.Shaped ∧
      (∀ c, x.credential = some c →
        ∃ d, σ.store.credential? c = some d ∧ d.service = x.service) ∧
      ∃ definition, σ.store.service? x.service = some definition ∧
        (x.state = .expired → x.Overran definition)) ∧
    ∀ τ, Scene.Next key σ τ → ∀ id x, σ.store.session? id = some x →
      ∃ y, τ.store.session? id = some y ∧ x.Continues y := by
  obtain ⟨gs, hb, -⟩ := h.books
  have coherent := hb.sound.coherent
  refine ⟨fun id x hx => ⟨(Store.session?_eq_some_iff.1 hx).2, coherent.shaped hx,
    fun c hc => coherent.bound hx hc, ?_⟩, fun τ next id x hx => ?_⟩
  · obtain ⟨definition, known⟩ := Option.isSome_iff_exists.1 (coherent.registered hx)
    refine ⟨definition, known, fun expired => ?_⟩
    obtain ⟨definition', known', overran⟩ := hb.overran hx expired
    rwa [Option.some.inj (known.symm.trans known')]
  · rcases h.next_move next with same | ⟨d, g, g', hm, fresh⟩
    · exact ⟨x, same ▸ hx, .refl x⟩
    · obtain ⟨y, hy, -⟩ := (hm.grows fresh).sessions hx
      refine ⟨y, hy, ?_⟩
      rcases hm.session_cases hy with before | ⟨z, e, hz, moved, -⟩ | ⟨hid, -⟩
      · obtain rfl := Option.some.inj (hx.symm.trans before)
        exact .refl x
      · obtain rfl := Option.some.inj (hx.symm.trans hz)
        exact Session.continues_of_apply (coherent.shaped hx) moved
      · cases hx.symm.trans (fresh id hid).1

/-- A user has a session on a service with a limit of two hours, and somewhat later a sweep has
found it overdue, and is about to expire it. -/
def foundOverdue : Scene :=
  .after ([Scene.Choice.call (.issue "films" "house" "secret" .basic), Scene.Choice.turn 0 0 0,
      Scene.Choice.turn 0 0 7, Scene.Choice.turn 0 0 0,
      Scene.Choice.call (.request "ann" "films")] ++
    (List.range 8).map (fun n => Scene.Choice.turn 1 5 (.ofNat (10 + n))) ++
    Scene.Choice.call .sweep :: List.replicate 4 (Scene.Choice.turn 2 7200006 0))

theorem lifecycle_kept_foundOverdue :
    let next := Scene.play Scene.plainKey foundOverdue (.turn 2 7200006 0)
    ∃ x y, foundOverdue.store.session? "000000000000000c" = some x ∧ x.state = .active ∧
      next.store.session? "000000000000000c" = some y ∧ y.state = .expired ∧ x.Continues y ∧
      ∃ definition, next.store.service? y.service = some definition ∧ y.Overran definition := by
  intro next
  have reachable : foundOverdue.Reachable Scene.plainKey := Scene.reachable_after _
  have runs : (foundOverdue.store.session? "000000000000000c").map (·.state) = some .active := by
    decide +kernel
  have expires : (next.store.session? "000000000000000c").map (·.state) = some .expired := by
    decide +kernel
  obtain ⟨x, hx, active⟩ := Option.map_eq_some_iff.1 runs
  rcases Scene.play_eq_or_next Scene.plainKey foundOverdue (.turn 2 7200006 0) with same | step
  · have : (next.store.session? "000000000000000c").map (·.state) = some .active := by
      rw [← runs]
      exact congrArg (fun σ => (σ.store.session? "000000000000000c").map (·.state)) same
    cases expires.symm.trans this
  · obtain ⟨y, hy, continues⟩ := (lifecycle_kept reachable).2 next step _ x hx
    have expired : y.state = .expired := by
      rw [hy] at expires
      exact Option.some.inj expires
    obtain ⟨-, -, -, definition, known, overran⟩ := (lifecycle_kept (reachable.next step)).1 _ y hy
    exact ⟨x, y, hx, active, hy, expired, continues, definition, known, overran expired⟩

end SlotBroker
