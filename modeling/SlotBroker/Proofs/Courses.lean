import Mathlib.Logic.Relation
import SlotBroker.Proofs.Undisturbed

/-!
# The courses that operations take

What an operation does to the platform when nobody interferes with it comes down to a few shapes,
which `Course` lists. Operations that end running sessions go through several `Reclaim` steps: slots
are vacated and billed, and for each service with a vacated slot the queue is drained before the
operation is over. A `Stage` keeps account of the services that are yet to be drained and of the
sessions that have left. Both relations say everything that the steps depend on: the times are
readings of the clock, and the slots are the first that are free.

Results:
* **`reclaims_drainQueue`**: draining goes on until nobody waits or no slot is left.
* `reclaims_endSession`, `reclaims_sweepServices`: ends and sweeps are reclaiming; the sweep expires
  all that it finds overdue.
* `Reclaim.keeps`, `Course.keeps`: each step and each course lets the store grow and keeps it
  coherent.
* **`Operation.course`**: every operation takes one of the listed courses.
-/

namespace SlotBroker

/-! ## Reclaiming slots -/

/-- How far the reclaiming of slots has got: the world as it is, the service whose queue is yet to
be drained, and the sessions that have left their slots, in order and as they were when they had. -/
structure Stage where
  world : World
  owed : Option ServiceId := none
  left : List Session := []

/-- The store of the stage. -/
abbrev Stage.store (p : Stage) : Store := p.world.store

/-- The event that ends a session of a service now: its user ends it, as of the next reading of the
clock, or the sweep does, as of a reading that was made before and shows it to be overdue. -/
inductive World.Ends (w : World) (x : Session) (definition : Service) : Session.Event → Prop
  | finish : Ends w x definition (.finish (w.time 0))
  | expire {n : Nat} (read : n < w.supply.read)
      (late : x.overdue definition.limitMillis (w.supply.reading n) = true) :
      Ends w x definition (.expire (w.supply.reading n))

/-- What is done to reclaim the slots of running sessions. -/
inductive Reclaim : Stage → Stage → Prop
  /-- Nothing happens to the store. -/
  | rest {w v : World} {owed : Option ServiceId} {left : List Session} (same : v.store = w.store)
      (passes : w.Passes v) : Reclaim ⟨w, owed, left⟩ ⟨v, owed, left⟩
  /-- A running session is ended or expired, its slot is checked in, and it is billed. -/
  | vacate {w v : World} {owed : Option ServiceId} {left : List Session} {x y : Session}
      {e : Session.Event} {definition : Service} {id : String} {n : Nat}
      (found : w.store.session? x.id = some x) (runs : x.state = .active)
      (known : w.store.service? x.service = some definition) (ends : w.Ends x definition e)
      (moved : x.apply e = some y) (owes : owed = none ∨ owed = some x.service)
      (passes : w.Passes v) (since : w.supply.read ≤ n) (til : n < v.supply.read)
      (result : v.store = w.store.vacate y (.ofSession id y definition (w.supply.reading n))) :
      Reclaim ⟨w, owed, left⟩ ⟨v, some x.service, left ++ [y]⟩
  /-- The head of the queue starts on the first free slot. -/
  | grant {w : World} {service : ServiceId} {left : List Session} {h : Session} {c : Credential}
      (head : (w.store.queue service).head? = some h)
      (spare : (w.store.available service).head? = some c) :
      Reclaim ⟨w, some service, left⟩
        ⟨(w.tick 2).withStore (w.store.grant h c (w.time 0) (w.time 1)), some service, left⟩
  /-- Nobody waits, or no slot is left. -/
  | drained {w : World} {service : ServiceId} {left : List Session}
      (done : w.store.queue service = [] ∨ w.store.available service = []) :
      Reclaim ⟨w, some service, left⟩ ⟨w, none, left⟩

/-- Any number of such steps. -/
abbrev Reclaims : Stage → Stage → Prop := Relation.ReflTransGen Reclaim

namespace Store

variable {s : Store}

/-- A credential stays with its service when a slot is taken. -/
theorem grows_occupy {c : Credential} (known : s.credential? c.id = some c) (taken : Millis) :
    s.Grows (s.addCredential (c.occupy taken)) :=
  .insertCredential fun z hz => by
    obtain rfl := Option.some.inj (known.symm.trans hz)
    rfl

theorem grows_checkin (s : Store) (c : CredentialId) : s.Grows (s.checkin c) := by
  unfold checkin
  cases hc : s.credential? c with
  | none => exact .refl s
  | some x =>
    refine .insertCredential fun z hz => ?_
    rw [credential?_of_id_eq hc x.id_release] at hz
    rw [← Option.some.inj hz]
    rfl

theorem grows_giveBack (s : Store) (x : Session) : s.Grows (s.giveBack x) := by
  unfold giveBack
  cases x.credential with
  | none => exact .refl s
  | some c => exact s.grows_checkin c

/-- Of the credentials only that of the session changes. -/
theorem credential?_giveBack (s : Store) (x : Session) (id : CredentialId) :
    (s.giveBack x).credential? id =
      if x.credential = some id then (s.credential? id).map Credential.release
      else s.credential? id := by
  unfold giveBack
  cases x.credential with
  | none => rw [if_neg nofun, Option.elim_none]
  | some k =>
    rw [Option.elim_some]
    unfold checkin
    by_cases same : k = id
    · subst same
      cases hk : s.credential? k with
      | none => rw [if_pos rfl, Option.map_none]; exact hk
      | some d =>
        rw [if_pos rfl, Option.map_some, credential?_addCredential, d.id_release,
          if_pos (credential?_eq_some_iff.1 hk).2]
    · rw [if_neg fun e => same (Option.some.inj e)]
      cases hk : s.credential? k with
      | none => rfl
      | some d =>
        rw [credential?_addCredential, d.id_release, (credential?_eq_some_iff.1 hk).2, if_neg same]

/-- The session is put into its place and billed, and else only credentials change. -/
theorem vacate_eq (s : Store) (y : Session) (r : UsageRecord) : ∃ credentials, s.vacate y r =
    { s with
      credentials := credentials
      sessions := s.sessions.insert y
      ledger := s.ledger ++ [r] } := by
  obtain ⟨credentials, back⟩ := giveBack_eq { s with sessions := s.sessions.insert y } y
  refine ⟨credentials, ?_⟩
  rw [vacate, back]
  rfl

theorem sessions_vacate (s : Store) (y : Session) (r : UsageRecord) :
    (s.vacate y r).sessions = s.sessions.insert y := by
  obtain ⟨_, h⟩ := s.vacate_eq y r
  rw [h]

@[simp] theorem session?_vacate (s : Store) (y : Session) (r : UsageRecord) (id : SessionId) :
    (s.vacate y r).session? id = if y.id = id then some y else s.session? id := by
  rw [session?, sessions_vacate]
  exact Table.find?_insert s.sessions y id

theorem sequence_vacate (s : Store) (y : Session) (r : UsageRecord) :
    (s.vacate y r).sequence = s.sequence := by
  obtain ⟨_, h⟩ := s.vacate_eq y r
  rw [h]

theorem ledger_vacate (s : Store) (y : Session) (r : UsageRecord) :
    (s.vacate y r).ledger = s.ledger ++ [r] := by
  obtain ⟨_, h⟩ := s.vacate_eq y r
  rw [h]

theorem grows_vacate {id : SessionId} {x y : Session} {e : Session.Event}
    (found : s.session? id = some x) (moved : x.apply e = some y) (r : UsageRecord) :
    s.Grows (s.vacate y r) :=
  ((Grows.of_apply found moved).trans (grows_giveBack _ y)).trans (.of_eq rfl rfl rfl)

theorem Coherent.vacate {id : SessionId} {x y : Session} {e : Session.Event} (h : s.Coherent)
    (found : s.session? id = some x) (runs : x.state = .active) (moved : x.apply e = some y)
    (r : UsageRecord) : (s.vacate y r).Coherent := by
  have ended : Store.Coherent { s with sessions := s.sessions.insert y } := by
    refine h.of_apply found moved fun c time he => ?_
    have hstate := Session.state_apply moved
    rw [he, runs] at hstate
    cases hstate
  exact (ended.of_grows (grows_giveBack _ y) (sessions_giveBack _ y)).of_grows (.of_eq rfl rfl rfl)
    rfl

end Store

/-- Vacating and draining let the store grow, and keep it coherent. -/
theorem Reclaim.keeps {p q : Stage} (h : Reclaim p q) (coherent : p.store.Coherent) :
    p.store.Grows q.store ∧ q.store.Coherent := by
  cases h with
  | rest same =>
    unfold Stage.store
    rw [same]
    exact ⟨.refl _, coherent⟩
  | vacate found runs _ _ moved _ _ _ _ result =>
    unfold Stage.store
    rw [result]
    exact ⟨Store.grows_vacate found moved _, coherent.vacate found runs moved _⟩
  | @grant w service _ h c head spare =>
    obtain ⟨known, hcs, -⟩ := Store.mem_available.1 (List.mem_of_head? spare)
    obtain ⟨stored, waits, hservice⟩ := Store.mem_queue.1 (List.mem_of_head? head)
    have occupied := Store.grows_occupy known (w.time 0)
    have moved := Session.apply_start waits c.id (w.time 1)
    have stored' : (w.store.addCredential (c.occupy (w.time 0))).session? h.id = some h := stored
    refine ⟨occupied.trans (.of_apply stored' moved),
      (coherent.of_grows occupied rfl).of_apply stored' moved fun c' time he => ?_⟩
    cases he
    refine ⟨c.occupy (w.time 0), ?_, hcs.trans hservice.symm⟩
    rw [Store.credential?_addCredential, c.id_occupy, if_pos rfl]
  | drained => exact ⟨.refl _, coherent⟩

theorem Reclaims.keeps {p q : Stage} (h : Reclaims p q) (coherent : p.store.Coherent) :
    p.store.Grows q.store ∧ q.store.Coherent := by
  induction h with
  | refl => exact ⟨.refl _, coherent⟩
  | tail _ step ih =>
    obtain ⟨grows, coherent⟩ := step.keeps ih.2
    exact ⟨ih.1.trans grows, coherent⟩

/-- No session comes from nothing. -/
theorem Reclaim.origin {p q : Stage} (h : Reclaim p q) {id : SessionId} {x : Session}
    (hx : q.store.session? id = some x) : ∃ y, p.store.session? id = some y ∧ y.Leads x := by
  -- where an event has happened to one session
  have moved : ∀ {s : Store} {z v : Session} {e : Session.Event}, s.session? z.id = some z →
      z.apply e = some v → (s.sessions.insert v).find? id = some x →
      ∃ y, s.session? id = some y ∧ y.Leads x := by
    intro s z v e found hv hx
    rw [Table.find?_insert] at hx
    split at hx
    · rename_i hid
      obtain rfl := Option.some.inj hx
      exact ⟨z, by rw [← hid]; exact Store.session?_id_of_apply found hv, .of_apply hv⟩
    · exact ⟨x, hx, .refl x⟩
  cases h with
  | rest same =>
    unfold Stage.store at hx
    rw [same] at hx
    exact ⟨x, hx, .refl x⟩
  | vacate found _ _ _ hy _ _ _ _ result =>
    unfold Stage.store at hx
    rw [result, Store.session?, Store.sessions_vacate] at hx
    exact moved found hy hx
  | grant head =>
    obtain ⟨stored, waits, -⟩ := Store.mem_queue.1 (List.mem_of_head? head)
    exact moved stored (Session.apply_start waits _ _) hx
  | drained => exact ⟨x, hx, .refl x⟩

theorem Reclaims.origin {p q : Stage} (h : Reclaims p q) {id : SessionId} {x : Session}
    (hx : q.store.session? id = some x) : ∃ y, p.store.session? id = some y ∧ y.Leads x := by
  induction h generalizing x with
  | refl => exact ⟨x, hx, .refl x⟩
  | tail _ step ih =>
    obtain ⟨y, hy, later⟩ := step.origin hx
    obtain ⟨z, hz, earlier⟩ := ih hy
    exact ⟨z, hz, earlier.trans later⟩

/-- The sessions that have left are stored as they were when they did. -/
def Stage.Gone (p : Stage) : Prop :=
  ∀ y ∈ p.left, p.store.session? y.id = some y ∧ y.state.isTerminal = true

theorem Reclaim.gone {p q : Stage} (h : Reclaim p q) (coherent : p.store.Coherent) (gone : p.Gone) :
    q.Gone := by
  have grows := (h.keeps coherent).1
  have kept : ∀ y ∈ p.left, q.store.session? y.id = some y ∧ y.state.isTerminal = true :=
    fun y hy => ⟨grows.session?_of_terminal (gone y hy).1 (gone y hy).2, (gone y hy).2⟩
  cases h with
  | rest | grant | drained => exact kept
  | vacate _ runs _ _ moved _ _ _ _ result =>
    intro z hz
    rcases List.mem_append.1 hz with old | new
    · exact kept z old
    · obtain rfl := List.mem_singleton.1 new
      refine ⟨?_, Session.isTerminal_of_apply_active moved runs⟩
      unfold Stage.store
      rw [result, Store.session?_vacate, if_pos rfl]

theorem Reclaims.gone {p q : Stage} (h : Reclaims p q) (coherent : p.store.Coherent)
    (gone : p.Gone) : q.Gone := by
  induction h with
  | refl => exact gone
  | tail steps step ih => exact step.gone (Reclaims.keeps steps coherent).2 ih

theorem Reclaim.passes {p q : Stage} (h : Reclaim p q) : p.world.Passes q.world := by
  cases h with
  | rest _ passes => exact passes
  | vacate _ _ _ _ _ _ passes => exact passes
  | grant => exact ⟨rfl, Nat.le_add_right _ _⟩
  | drained => exact .refl _

theorem Reclaims.passes {p q : Stage} (h : Reclaims p q) : p.world.Passes q.world := by
  induction h with
  | refl => exact .refl _
  | tail _ step ih => exact ih.trans step.passes

section Runs

variable {service : ServiceId} {w : World} {left : List Session}

theorem reclaims_rounds {n k : Nat} (bound : w.store.queueDepth service < k) :
    Reclaims ⟨w, some service, left⟩
      ⟨(rounds (fun n w => (Broker.drainRound service n).run w) k n w).2, none, left⟩ := by
  induction k generalizing n w with
  | zero => exact absurd bound (Nat.not_lt_zero _)
  | succ k ih =>
    rw [rounds]
    by_cases none : w.store.queue service = [] ∨ w.store.available service = []
    · rw [run_drainRound_of_none none]
      exact .single (.drained none)
    · obtain ⟨hqueue, havailable⟩ := not_or.1 none
      obtain ⟨h, head⟩ := Option.isSome_iff_exists.1 (List.isSome_head?.2 hqueue)
      obtain ⟨c, spare⟩ := Option.isSome_iff_exists.1 (List.isSome_head?.2 havailable)
      rw [run_drainRound_of_spare head spare, if_pos rfl]
      have depth := queueDepth_grant (c := c) (t := w.time 0) (u := w.time 1) head
      refine .head (.grant head spare) (ih (w := (w.tick 2).withStore (w.store.grant h c _ _)) ?_)
      rw [World.store_withStore]
      omega

/-- **Draining goes on** until nobody waits or no slot is left. -/
theorem reclaims_drainQueue (service : ServiceId) (w : World) (left : List Session) :
    Reclaims ⟨w, some service, left⟩ ⟨((Broker.drainQueue service).run w).2, none, left⟩ :=
  (reclaims_rounds (Nat.lt_succ_self _)).tail
    (.rest (store_run_drainQueue w) (passes_run_drainQueue w))

/-! ## Ends -/

/-- What the end of a running session leads to. -/
theorem Course.run_endSession {id : SessionId} {x y : Session}
    (found : w.store.session? id = some x) (runs : x.state = .active)
    (moved : x.apply (.finish w.supply.readClock.1) = some y) :
    ((Broker.endSession id).run w).2 =
      ((Broker.drainQueue y.service).run ((Broker.releaseAndBill y).run
        ((w.tick 1).withStore { w.store with sessions := w.store.sessions.insert y })).2).2 :=
  congrArg Prod.snd (run_endSession_of_active found runs moved)

/-- **The end of a running session** reclaims its slot. -/
theorem reclaims_endSession {x y : Session} {definition : Service}
    (found : w.store.session? x.id = some x) (runs : x.state = .active)
    (known : w.store.service? x.service = some definition)
    (moved : x.apply (.finish (w.time 0)) = some y) :
    Reclaims ⟨w, none, left⟩ ⟨((Broker.endSession x.id).run w).2, none, left ++ [y]⟩ := by
  have service : y.service = x.service := (Session.fixed_apply moved).2.2.1
  rw [Course.run_endSession found runs moved]
  have passes := (Broker.releaseAndBill y).passes_run
    ((w.tick 1).withStore { w.store with sessions := w.store.sessions.insert y })
  obtain ⟨v, run, supply, store⟩ := run_releaseAndBill (y := y)
    (w := (w.tick 1).withStore { w.store with sessions := w.store.sessions.insert y })
    (by rw [service]; exact known)
  rw [run] at passes ⊢
  have ticked : w.Passes ((w.tick 1).withStore
      { w.store with sessions := w.store.sessions.insert y }) := ⟨rfl, Nat.le_succ _⟩
  have vacated : Reclaim ⟨w, none, left⟩ ⟨v, some x.service, left ++ [y]⟩ :=
    .vacate found runs known .finish moved (.inl rfl) (ticked.trans passes) (Nat.le_succ _)
      (by rw [supply]; exact Nat.lt_succ_self _) store
  rw [service]
  exact .head vacated (reclaims_drainQueue _ _ _)

/-! ## The sweep -/

/-- What is owed after some sessions of a service have been expired. -/
def owedAfter (service : ServiceId) (owed : Option ServiceId) (ids : List SessionId) :
    Option ServiceId :=
  if ids.isEmpty then owed else some service

theorem owedAfter_some (service : ServiceId) (ids : List SessionId) :
    owedAfter service (some service) ids = some service := by
  unfold owedAfter
  split <;> rfl

theorem owedAfter_append (service : ServiceId) (owed : Option ServiceId) (xs ys : List SessionId) :
    owedAfter service owed (xs ++ ys) = owedAfter service (owedAfter service owed xs) ys := by
  unfold owedAfter
  cases xs <;> cases ys <;> rfl

theorem owedAfter_eq (service : ServiceId) {owed : Option ServiceId}
    (owes : owed = none ∨ owed = some service) (ids : List SessionId) :
    owedAfter service owed ids = none ∨ owedAfter service owed ids = some service := by
  unfold owedAfter
  split
  · exact owes
  · exact .inr rfl

/-- The session is stored, and has ended. -/
def Store.HasEnded (s : Store) (id : SessionId) : Prop :=
  ∃ x, s.session? id = some x ∧ x.state.isTerminal = true

theorem Store.Grows.hasEnded {s t : Store} (h : s.Grows t) {id : SessionId}
    (ended : s.HasEnded id) : t.HasEnded id := by
  obtain ⟨x, hx, terminal⟩ := ended
  exact ⟨x, h.session?_of_terminal hx terminal, terminal⟩

/-- The session expired as of a reading of the clock, the given one or a later one. -/
def Session.ExpiredSince (y : Session) (s : Supply) (first : Nat) : Prop :=
  y.state = .expired ∧ ∃ n, first ≤ n ∧ y.endedAt = some (s.reading n)

/-- What a part of the sweep does: it reclaims the slots of some sessions and gives their ids, all
of them expire, and those that it was to expire have ended. -/
structure Sweeps (first : Nat) (w : World) (owed : Option ServiceId) (left : List Session)
    (due : Session → Prop) (r : List SessionId × World) (next : Option ServiceId) : Prop where
  reclaims : ∃ gone : List Session, r.1 = gone.map (·.id) ∧
    (∀ y ∈ gone, y.ExpiredSince w.supply first) ∧
    Reclaims ⟨w, owed, left⟩ ⟨r.2, next, left ++ gone⟩
  cleared : ∀ x, due x → r.2.store.HasEnded x.id

/-- What has been seen running on its service either still runs or has ended. -/
structure Seen (w : World) (service : ServiceId) (x : Session) : Prop where
  runs : x.state = .active
  service : x.service = service
  stored : ∃ z, w.store.session? x.id = some z ∧ x.Leads z

theorem Seen.later {v : World} {x : Session} (h : Seen w service x)
    (grows : w.store.Grows v.store) : Seen v service x := by
  obtain ⟨z, hz, leads⟩ := h.stored
  obtain ⟨z', hz', leads'⟩ := grows.sessions hz
  exact ⟨h.runs, h.service, z', hz', leads.trans leads'⟩

theorem Seen.of_stored {x : Session} (stored : w.store.session? x.id = some x)
    (runs : x.state = .active) (asks : x.service = service) : Seen w service x :=
  ⟨runs, asks, x, stored, .refl x⟩

/-- A running session is expired, up to the look at the next one. -/
theorem reclaim_expire (left : List Session) {x y : Session} {definition : Service}
    {owed : Option ServiceId} {n : Nat}
    (found : w.store.session? x.id = some x) (runs : x.state = .active)
    (known : w.store.service? x.service = some definition) (read : n < w.supply.read)
    (late : x.overdue definition.limitMillis (w.supply.reading n) = true)
    (moved : x.apply (.expire (w.supply.reading n)) = some y)
    (owes : owed = none ∨ owed = some x.service) :
    Reclaim ⟨w, owed, left⟩
      ⟨((Broker.releaseAndBill y).run
        (w.withStore { w.store with sessions := w.store.sessions.insert y })).2,
        some x.service, left ++ [y]⟩ := by
  have passes := (Broker.releaseAndBill y).passes_run
    (w.withStore { w.store with sessions := w.store.sessions.insert y })
  obtain ⟨v, run, supply, store⟩ := run_releaseAndBill (y := y)
    (w := w.withStore { w.store with sessions := w.store.sessions.insert y })
    (by rw [(Session.fixed_apply moved).2.2.1]; exact known)
  rw [run] at passes ⊢
  exact .vacate found runs known (.expire read late) moved owes ⟨passes.reading, passes.read⟩
    (Nat.le_refl _) (by rw [supply]; exact Nat.lt_succ_self _) store

/-- Something is done in which nobody is expired. -/
theorem Sweeps.of_reclaims {first : Nat} {owed next : Option ServiceId} {due : Session → Prop}
    {v : World} (none : ∀ x, ¬ due x) (steps : Reclaims ⟨w, owed, left⟩ ⟨v, next, left⟩) :
    Sweeps first w owed left due ([], v) next :=
  ⟨⟨[], rfl, fun _ h => absurd h List.not_mem_nil, by rwa [List.append_nil]⟩,
    fun x h => absurd h (none x)⟩

/-- Two parts of a sweep, one after the other. -/
theorem Sweeps.append {first : Nat} {owed mid next : Option ServiceId}
    {due one two : Session → Prop} {r r' : List SessionId × World} (coherent : w.store.Coherent)
    (h : Sweeps first w owed left one r mid) (h' : ∀ left, Sweeps first r.2 mid left two r' next)
    (split : ∀ x, due x → one x ∨ two x ∨ r.2.store.HasEnded x.id) :
    Sweeps first w owed left due (r.1 ++ r'.1, r'.2) next := by
  obtain ⟨gone, ids, expired, steps⟩ := h.reclaims
  obtain ⟨gone', ids', expired', steps'⟩ := (h' (left ++ gone)).reclaims
  have grows := (steps'.keeps (steps.keeps coherent).2).1
  refine ⟨⟨gone ++ gone', ?_, fun y hy => ?_, ?_⟩, fun x due => ?_⟩
  · rw [ids, ids', List.map_append]
  · rcases List.mem_append.1 hy with hy | hy
    · exact expired y hy
    · obtain ⟨state, n, since, ended⟩ := expired' y hy
      exact ⟨state, n, since, by rw [ended, steps.passes.reading]⟩
  · rw [← List.append_assoc]
    exact steps.trans steps'
  · rcases split x due with h₁ | h₂ | ended
    · exact grows.hasEnded (h.cleared x h₁)
    · exact (h' []).cleared x h₂
    · exact grows.hasEnded ended

/-- What has ended before need not be expired. -/
theorem Sweeps.weaken {first : Nat} {owed next : Option ServiceId} {due due' : Session → Prop}
    {r : List SessionId × World} (h : Sweeps first w owed left due r next)
    (coherent : w.store.Coherent) (covers : ∀ x, due' x → due x ∨ w.store.HasEnded x.id) :
    Sweeps first w owed left due' r next := by
  obtain ⟨gone, ids, expired, steps⟩ := h.reclaims
  refine ⟨⟨gone, ids, expired, steps⟩, fun x due => ?_⟩
  rcases covers x due with due | ended
  · exact h.cleared x due
  · exact (steps.keeps coherent).1.hasEnded ended

theorem Sweeps.keeps {first : Nat} {owed next : Option ServiceId} {due : Session → Prop}
    {r : List SessionId × World} (h : Sweeps first w owed left due r next)
    (coherent : w.store.Coherent) :
    w.store.Grows r.2.store ∧ r.2.store.Coherent := by
  obtain ⟨_, -, -, steps⟩ := h.reclaims
  exact steps.keeps coherent

theorem Sweeps.passes {first : Nat} {owed next : Option ServiceId} {due : Session → Prop}
    {r : List SessionId × World} (h : Sweeps first w owed left due r next) : w.Passes r.2 := by
  obtain ⟨_, -, -, steps⟩ := h.reclaims
  exact steps.passes

/-- A look at a session that is overdue and expires. -/
theorem run_expireSessions_of_expired {limit now : Millis} {x z y : Session} {rest : List Session}
    (late : x.overdue limit now = true) (found : w.store.session? x.id = some z)
    (moved : z.apply (.expire now) = some y) :
    (Broker.expireSessions limit now (x :: rest)).run w =
      let v := ((Broker.releaseAndBill y).run
        (w.withStore { w.store with sessions := w.store.sessions.insert y })).2
      let r := (Broker.expireSessions limit now rest).run v
      (y.id :: r.1, r.2) := by
  rw [Broker.expireSessions, if_pos late]
  simp only [Program.bind_eq, Program.pure_eq]
  rw [Program.run_bind, Program.run_onStore, Store.applyEvent_eq found moved]
  dsimp only
  rw [Program.run_bind, Program.run_bind]
  rfl

/-- A look at a session that is not overdue or does not expire. -/
theorem run_expireSessions_of_kept {limit now : Millis} {x : Session} {rest : List Session}
    (kept : x.overdue limit now = true → ∃ z, w.store.session? x.id = some z ∧
      z.apply (.expire now) = none) :
    (Broker.expireSessions limit now (x :: rest)).run w =
      (Broker.expireSessions limit now rest).run w := by
  rw [Broker.expireSessions]
  split
  · obtain ⟨z, found, stays⟩ := kept ‹_›
    have ignored : w.platform.store.applyEvent x.id (.expire now) = (none, w.store) := by
      simp only [Store.applyEvent, found, stays]
    simp only [Program.bind_eq, Program.pure_eq]
    rw [Program.run_bind, Program.run_onStore, ignored]
  · rfl

/-- The overdue ones of some sessions that have been seen running are expired. -/
theorem sweeps_expireSessions {first : Nat} {definition : Service} {n : Nat} (xs : List Session)
    (left : List Session) {owed : Option ServiceId} (coherent : w.store.Coherent)
    (known : w.store.service? service = some definition) (since : first ≤ n)
    (read : n < w.supply.read) (owes : owed = none ∨ owed = some service)
    (seen : ∀ x ∈ xs, Seen w service x) :
    let r := (Broker.expireSessions definition.limitMillis (w.supply.reading n) xs).run w
    Sweeps first w owed left
      (fun x => x ∈ xs ∧ x.overdue definition.limitMillis (w.supply.reading n) = true) r
      (owedAfter service owed r.1) := by
  induction xs generalizing w owed left with
  | nil => exact .of_reclaims (fun x h => List.not_mem_nil h.1) .refl
  | cons x rest ih =>
    have rest' : ∀ x ∈ rest, Seen w service x := fun x hx => seen x (List.mem_cons_of_mem _ hx)
    obtain ⟨runs, asks, z, hz, leads⟩ := seen x List.mem_cons_self
    by_cases expires : x.overdue definition.limitMillis (w.supply.reading n) = true ∧ z = x
    · obtain ⟨late, rfl⟩ := expires
      obtain ⟨y, moved⟩ := Session.apply_expire runs (w.supply.reading n)
      rw [run_expireSessions_of_expired late hz moved]
      have step : ∀ left : List Session, _ := fun left =>
        reclaim_expire left hz runs (asks ▸ known) read late moved (asks ▸ owes)
      generalize ((Broker.releaseAndBill y).run _).2 = v at step ⊢
      obtain ⟨grows, coherent'⟩ := (step []).keeps coherent
      have passes := (step []).passes
      have here : Sweeps first w owed left (· = z) ([y.id], v) (some service) := by
        refine ⟨⟨[y], rfl, fun z hz => ?_, asks ▸ .single (step left)⟩, fun x hx => ?_⟩
        · rw [List.mem_singleton.1 hz, Session.eq_expired_of_apply moved]
          exact ⟨rfl, n, since, rfl⟩
        · obtain ⟨stored, ended⟩ := (step []).gone coherent (fun _ h => absurd h List.not_mem_nil)
            y List.mem_cons_self
          rw [hx, ← (Session.fixed_apply moved).1]
          exact ⟨y, stored, ended⟩
      have others : ∀ left, _ := fun left => ih (w := v) left coherent'
        (by rw [Store.service?, grows.services]; exact known)
        (Nat.lt_of_lt_of_le read passes.read) (.inr rfl) fun x hx => (rest' x hx).later grows
      rw [passes.reading] at others
      simp only [owedAfter_some] at others
      refine Sweeps.append coherent here others ?_
      rintro x ⟨hx, due⟩
      rcases List.mem_cons.1 hx with same | hx
      · exact .inl same
      · exact .inr (.inl ⟨hx, due⟩)
    · -- it is not overdue, or it has ended before
      have ended : x.overdue definition.limitMillis (w.supply.reading n) = true →
          ∃ z, w.store.session? x.id = some z ∧ z.state.isTerminal = true := fun late =>
        ⟨z, hz, (leads.eq_or_terminal runs).resolve_left fun same => expires ⟨late, same⟩⟩
      rw [run_expireSessions_of_kept fun late =>
        (ended late).imp fun _ h => ⟨h.1, Session.apply_of_terminal h.2⟩]
      refine (ih left coherent known read owes rest').weaken coherent ?_
      rintro y ⟨hy, due⟩
      rcases List.mem_cons.1 hy with rfl | hy
      · exact .inr (ended due)
      · exact .inl ⟨hy, due⟩

/-- The overdue sessions that hold slots of some credentials of a service are expired. -/
theorem sweeps_expireHolding {first : Nat} {definition : Service} {n : Nat} (cs : List Credential)
    (left : List Session) {owed : Option ServiceId} (coherent : w.store.Coherent)
    (known : w.store.service? service = some definition) (since : first ≤ n)
    (read : n < w.supply.read) (owes : owed = none ∨ owed = some service)
    (seen : ∀ c ∈ cs, ∃ d, w.store.credential? c.id = some d ∧ d.service = service) :
    let r := (Broker.expireHolding definition.limitMillis (w.supply.reading n) cs).run w
    Sweeps first w owed left
      (fun x => w.store.session? x.id = some x ∧ x.state = .active ∧
        (∃ c ∈ cs, x.credential = some c.id) ∧
        x.overdue definition.limitMillis (w.supply.reading n) = true) r
      (owedAfter service owed r.1) := by
  induction cs generalizing w owed left with
  | nil =>
    refine .of_reclaims ?_ .refl
    rintro x ⟨-, -, ⟨c, hc, -⟩, -⟩
    exact List.not_mem_nil hc
  | cons c rest ih =>
    rw [Broker.expireHolding]
    simp only [Program.bind_eq, Program.pure_eq]
    rw [Program.run_bind, Program.run_query]
    dsimp only
    rw [Program.run_bind, Program.run_bind]
    have held : ∀ x ∈ w.store.sessionsHolding c.id, Seen w service x := by
      intro x hx
      obtain ⟨hmem, hholds⟩ := Store.mem_sessionsMatching.1 hx
      simp only [Session.holds, Bool.and_eq_true, decide_eq_true_eq] at hholds
      have stored : w.store.session? x.id = some x := Store.session?_eq_some_iff.2 ⟨hmem, rfl⟩
      obtain ⟨d, hd, hds⟩ := coherent.bound stored hholds.2
      obtain ⟨d', hd', hds'⟩ := seen c List.mem_cons_self
      obtain rfl := Option.some.inj (hd.symm.trans hd')
      exact .of_stored stored hholds.1 (hds.symm.trans hds')
    have here := sweeps_expireSessions (w.store.sessionsHolding c.id) left coherent known since
      read owes held
    dsimp only at here
    generalize (Broker.expireSessions _ _ _).run w = r at here ⊢
    obtain ⟨grows, coherent'⟩ := here.keeps coherent
    have passes := here.passes
    have others : ∀ left, _ := fun left => ih (w := r.2) left coherent'
      (by rw [Store.service?, grows.services]; exact known)
      (Nat.lt_of_lt_of_le read passes.read) (owedAfter_eq service owes r.1) fun d hd => by
        obtain ⟨e, he, hes⟩ := seen d (List.mem_cons_of_mem c hd)
        obtain ⟨e', he', hes'⟩ := grows.credentials he
        exact ⟨e', he', hes'.trans hes⟩
    rw [passes.reading] at others
    dsimp only at others
    simp only [← owedAfter_append] at others
    refine Sweeps.append coherent here others ?_
    rintro x ⟨stored, runs, ⟨d, hd, bound⟩, late⟩
    rcases List.mem_cons.1 hd with rfl | hd
    · refine .inl ⟨Store.mem_sessionsMatching.2 ⟨(Store.session?_eq_some_iff.1 stored).1, ?_⟩, late⟩
      simp only [Session.holds, runs, bound, decide_true, Bool.and_self]
    · obtain ⟨y, hy, leads⟩ := grows.sessions stored
      rcases leads.eq_or_terminal runs with rfl | ended
      · exact .inr (.inl ⟨hy, runs, ⟨d, hd, bound⟩, late⟩)
      · exact .inr (.inr ⟨y, hy, ended⟩)

/-- The session runs on a service, and is overdue whenever the clock is read from now on. -/
structure Due (w : World) (definition : Service) (x : Session) : Prop where
  stored : w.store.session? x.id = some x
  runs : x.state = .active
  asks : x.service = definition.id
  late : ∀ n, w.supply.read ≤ n →
    x.overdue definition.limitMillis (w.supply.reading n) = true

/-- What is due stays so, or has ended. -/
theorem Due.later {definition : Service} {v : World} {x : Session} (h : Due w definition x)
    (grows : w.store.Grows v.store) (passes : w.Passes v) :
    Due v definition x ∨ v.store.HasEnded x.id := by
  obtain ⟨y, hy, leads⟩ := grows.sessions h.stored
  rcases leads.eq_or_terminal h.runs with rfl | ended
  · refine .inl ⟨hy, h.runs, h.asks, fun n read => ?_⟩
    rw [passes.reading]
    exact h.late n (Nat.le_trans passes.read read)
  · exact .inr ⟨y, hy, ended⟩

/-- The overdue sessions of a service are expired. -/
theorem sweeps_expireOverdue {first : Nat} {definition : Service} (left : List Session)
    (since : first ≤ w.supply.read) (coherent : w.store.Coherent)
    (known : w.store.service? definition.id = some definition) :
    let r := (Broker.expireOverdue definition).run w
    Sweeps first w none left (Due w definition) r (owedAfter definition.id none r.1) := by
  unfold Broker.expireOverdue
  simp only [Program.bind_eq]
  rw [Program.run_bind, Program.run_now]
  dsimp only
  rw [Program.run_bind, Program.run_query]
  dsimp only
  have ticked : Sweeps first w none left (fun _ => False) ([], w.tick 1) none :=
    .of_reclaims (fun _ => id) (.single (.rest rfl ⟨rfl, Nat.le_succ _⟩))
  refine Sweeps.append coherent ticked (fun left => sweeps_expireHolding (w := w.tick 1)
    (w.store.credentialsOf definition.id) left coherent known since (Nat.lt_succ_self _) (.inl rfl)
    fun c hc => ?_) fun x due => .inr (.inl ⟨due.stored, due.runs, ?_, ?_⟩)
  · obtain ⟨hmem, hcs⟩ := List.mem_filter.1 hc
    exact ⟨c, Store.credential?_eq_some_iff.2 ⟨hmem, rfl⟩, of_decide_eq_true hcs⟩
  · have shaped := coherent.shaped due.stored
    simp only [Session.Shaped, due.runs] at shaped
    obtain ⟨c, bound⟩ := Option.isSome_iff_exists.1 shaped.1
    obtain ⟨d, hd, hds⟩ := coherent.bound due.stored bound
    obtain ⟨hmem, rfl⟩ := Store.credential?_eq_some_iff.1 hd
    exact ⟨d, List.mem_filter.2 ⟨hmem, decide_eq_true (hds.trans due.asks)⟩, bound⟩
  · exact due.late _ (Nat.le_refl _)

/-- The queue of a service is drained if anybody has been expired there. -/
theorem sweeps_drainExpired {first : Nat} {definition : Service} {due : Session → Prop}
    {r : List SessionId × World} (rest : Program (List SessionId)) (coherent : w.store.Coherent)
    (expired : ∀ left, Sweeps first w none left due r (owedAfter definition.id none r.1)) : ∃ v,
    (∀ left, Sweeps first w none left due (r.1, v) none) ∧
      (if r.1.isEmpty = true then rest
        else (Program.count (.expired definition.id) r.1.length).bind fun _ =>
          (Broker.drainQueue definition.id).bind fun _ =>
            rest.bind fun more => .done (r.1 ++ more)).run r.2 =
        (r.1 ++ (rest.run v).1, (rest.run v).2) := by
  unfold owedAfter at expired
  split
  · rename_i none
    rw [if_pos none] at expired
    refine ⟨r.2, expired, ?_⟩
    rw [List.isEmpty_iff.1 none, List.nil_append]
  · rename_i some
    rw [if_neg some] at expired
    let counted := ((Program.count (.expired definition.id) r.1.length).run r.2).2
    have drained : ∀ left, Sweeps first r.2 (.some definition.id) left (fun _ => False)
        ([], ((Broker.drainQueue definition.id).run counted).2) .none := fun left => by
      have counting : Reclaims ⟨r.2, .some definition.id, left⟩
          ⟨counted, .some definition.id, left⟩ :=
        .single (.rest rfl ⟨rfl, Nat.le_refl _⟩)
      exact .of_reclaims (fun _ => id) (counting.trans (reclaims_drainQueue _ counted left))
    refine ⟨((Broker.drainQueue definition.id).run counted).2, fun left => ?_, ?_⟩
    · have both := Sweeps.append coherent (expired left) drained fun x (hx : due x) => .inl hx
      rwa [List.append_nil] at both
    · rw [Program.run_bind, Program.run_bind, Program.run_bind]
      rfl

/-- The overdue sessions of some services are expired, and their queues are drained. -/
theorem sweeps_sweepServices {first : Nat} (services : List Service) (left : List Session)
    (since : first ≤ w.supply.read) (coherent : w.store.Coherent)
    (known : ∀ d ∈ services, w.store.service? d.id = some d) :
    Sweeps first w none left (fun x => ∃ d ∈ services, Due w d x)
      ((Broker.sweepServices services).run w) none := by
  induction services generalizing w left with
  | nil =>
    refine .of_reclaims ?_ .refl
    rintro x ⟨d, hd, -⟩
    exact List.not_mem_nil hd
  | cons d rest ih =>
    rw [Broker.sweepServices]
    simp only [Program.bind_eq, Program.pure_eq]
    rw [Program.run_bind]
    obtain ⟨v, here, run⟩ := sweeps_drainExpired (Broker.sweepServices rest) coherent
      fun left => sweeps_expireOverdue left since coherent (known d List.mem_cons_self)
    obtain ⟨grows, coherent'⟩ := (here []).keeps coherent
    rw [run]
    refine Sweeps.append (r := (_, v)) coherent (here left) (fun left => ih (w := v) left
      (Nat.le_trans since (here []).passes.read) coherent'
      fun d' hd' => ?_) ?_
    · rw [Store.service?, grows.services]
      exact known d' (List.mem_cons_of_mem _ hd')
    · rintro x ⟨d', hd', due⟩
      rcases List.mem_cons.1 hd' with rfl | hd'
      · exact .inl due
      · exact .inr ((due.later grows (here []).passes).imp_left fun due => ⟨d', hd', due⟩)

/-- **The sweep** reclaims the slots of some sessions, and all that are due have ended then. -/
theorem sweeps_enforceLimits (left : List Session) (coherent : w.store.Coherent) :
    Sweeps w.supply.read w none left (fun x => ∃ d, w.store.service? d.id = some d ∧ Due w d x)
      (Broker.enforceLimits.run w) none := by
  unfold Broker.enforceLimits
  rw [Program.bind_eq, Program.run_bind, Program.run_query]
  obtain ⟨reclaims, cleared⟩ := sweeps_sweepServices w.store.services.entries left
    (Nat.le_refl _) coherent fun d hd => Table.find?_of_mem hd
  refine ⟨reclaims, ?_⟩
  rintro x ⟨d, hd, due⟩
  exact cleared x ⟨d, Table.mem_of_find? hd, due⟩

end Runs

/-! ## Courses -/

/-- What an operation that nobody interferes with does to the platform. -/
inductive Course : World → World → Prop
  /-- Slots of running sessions are reclaimed, or nothing happens to the store. -/
  | reclaimed {w v : World} {left : List Session}
      (steps : Reclaims ⟨w, none, []⟩ ⟨v, none, left⟩) : Course w v
  /-- A new session joins the queue since no credential has a slot. -/
  | queued {w v : World} {x : Session} {word : UInt64} (passes : w.Passes v)
      (fresh : w.store.session? x.id = none) (named : x.id = Ident.hex Ident.longDigits word)
      (waits : x.state = .queued) (shaped : x.Shaped) (asked : x.queuedAt = w.time 0)
      (registered : (w.store.service? x.service).isSome = true)
      (full : w.store.available x.service = []) (result : v.store = (w.store.addSession x).2) :
      Course w v
  /-- A new session starts on the first free slot. -/
  | placed {w v : World} {x : Session} {c : Credential} {word : UInt64} (passes : w.Passes v)
      (reads : w.supply.read < v.supply.read)
      (fresh : w.store.session? x.id = none) (named : x.id = Ident.hex Ident.longDigits word)
      (runs : x.state = .active) (shaped : x.Shaped) (asked : x.queuedAt = w.time 0)
      (began : x.startedAt = some (w.time 0))
      (registered : (w.store.service? x.service).isSome = true) (bound : x.credential = some c.id)
      (spare : (w.store.available x.service).head? = some c)
      (result : v.store = ((w.store.addCredential (c.occupy (w.time 1))).addSession x).2) :
      Course w v
  /-- A waiting session is cancelled. -/
  | cancelled {w v : World} {x y : Session} (passes : w.Passes v)
      (found : w.store.session? x.id = some x) (waits : x.state = .queued)
      (moved : x.apply (.finish (w.time 0)) = some y)
      (result : v.store = { w.store with sessions := w.store.sessions.insert y }) : Course w v
  /-- A credential is issued, with all its slots free. -/
  | issued {w v : World} {c : Credential} (passes : w.Passes v)
      (fresh : w.store.credential? c.id = none) (idle : c.active = 0)
      (result : v.store = w.store.addCredential c) : Course w v
  /-- A credential is disabled or gets another secret. -/
  | amended {w v : World} {x y : Credential} (passes : w.Passes v)
      (known : w.store.credential? y.id = some x) (service : y.service = x.service)
      (active : y.active = x.active) (cap : y.maxStreams = x.maxStreams)
      (capacity : y.hasCapacity = true → x.hasCapacity = true)
      (result : v.store = w.store.addCredential y) : Course w v
  /-- A user is registered. -/
  | registered {w v : World} {u : User} (passes : w.Passes v)
      (result : v.store = w.store.addUser u) : Course w v

/-- Every course lets the store grow, and keeps it coherent. -/
theorem Course.keeps {w v : World} (h : Course w v) (coherent : w.store.Coherent) :
    w.store.Grows v.store ∧ v.store.Coherent := by
  cases h with
  | reclaimed steps => exact steps.keeps coherent
  | queued _ fresh named waits shaped asked registered full result =>
    rw [result]
    refine ⟨.insertSession rfl rfl rfl fun y hy => ?_,
      coherent.insertSession rfl rfl rfl shaped (fun c hc => ?_) registered⟩
    · cases hy.symm.trans fresh
    · simp only [Session.Shaped, waits] at shaped
      cases shaped.1.symm.trans hc
  | @placed _ c _ _ _ fresh _ _ shaped _ _ registered bound spare result =>
    rw [result]
    obtain ⟨known, hcs, -⟩ := Store.mem_available.1 (List.mem_of_head? spare)
    have occupied := Store.grows_occupy known (w.time 1)
    refine ⟨occupied.trans (.insertSession rfl rfl rfl fun y hy => ?_),
      (coherent.of_grows occupied rfl).insertSession rfl rfl rfl shaped (fun d hd => ?_) registered⟩
    · cases hy.symm.trans fresh
    · obtain rfl := Option.some.inj (bound.symm.trans hd)
      refine ⟨c.occupy (w.time 1), ?_, hcs⟩
      rw [Store.credential?_addCredential, c.id_occupy, if_pos rfl]
  | cancelled _ found waits moved result =>
    rw [result]
    exact ⟨.of_apply found moved, coherent.of_apply found moved fun c time he => by cases he⟩
  | issued _ fresh _ result =>
    rw [result]
    have grows := Store.Grows.insertCredential fun z hz => by cases hz.symm.trans fresh
    exact ⟨grows, coherent.of_grows grows rfl⟩
  | amended _ known service _ _ _ result =>
    rw [result]
    have grows := Store.Grows.insertCredential fun z hz => by
      obtain rfl := Option.some.inj (known.symm.trans hz)
      exact service
    exact ⟨grows, coherent.of_grows grows rfl⟩
  | registered _ result =>
    rw [result]
    exact ⟨.of_eq rfl rfl rfl, coherent.of_grows (.of_eq rfl rfl rfl) rfl⟩

theorem Course.passes {w v : World} (h : Course w v) : w.Passes v := by
  cases h with
  | reclaimed steps => exact steps.passes
  | queued passes | placed passes | cancelled passes | issued passes | amended passes
  | registered passes => exact passes

namespace Course

variable {w : World}

/-- Something is done that leaves the store as it is. -/
theorem rest {v : World} (passes : w.Passes v) (same : v.store = w.store) : Course w v :=
  .reclaimed (.single (.rest same passes))

theorem endSession (id : SessionId) (coherent : w.store.Coherent) :
    Course w ((Broker.endSession id).run w).2 := by
  have passes := (Broker.endSession id).passes_run w
  by_cases ends : ∃ x y, w.store.session? id = some x ∧ x.state = .active ∧
      x.apply (.finish (w.time 0)) = some y
  · obtain ⟨x, y, hx, runs, moved⟩ := ends
    obtain ⟨definition, known⟩ := Option.isSome_iff_exists.1 (coherent.registered hx)
    obtain rfl : x.id = id := (Store.session?_eq_some_iff.1 hx).2
    exact .reclaimed (reclaims_endSession hx runs known moved)
  · rcases w.store.applyEvent_cases id (.finish (w.time 0)) with
      ignored | ⟨x, y, hx, moved, -⟩
    · rw [run_endSession_of_ignored ignored] at passes ⊢
      exact .rest passes rfl
    · cases state : x.state with
      | queued =>
        rw [run_endSession_of_queued hx state moved] at passes ⊢
        exact .cancelled passes (Store.session?_self hx) state moved rfl
      | active => exact absurd ⟨x, y, hx, state, moved⟩ ends
      | ended | expired =>
        have := Session.isTerminal_eq_false_of_apply moved
        rw [state] at this
        cases this

theorem enforceLimits (coherent : w.store.Coherent) : Course w (Broker.enforceLimits.run w).2 := by
  obtain ⟨_, -, -, steps⟩ := (sweeps_enforceLimits [] coherent).reclaims
  exact .reclaimed steps

theorem requestSession {user : UserId} {service : ServiceId}
    (fresh : w.store.session? (Ident.hex Ident.longDigits w.supply.draw.1) = none) :
    Course w ((Broker.requestSession user service).run w).2 := by
  have passes := (Broker.requestSession user service).passes_run w
  cases known : w.store.service? service with
  | none =>
    rw [run_requestSession_of_unknown user known]
    exact .rest (.refl w) rfl
  | some definition =>
    have registered := Option.isSome_of_eq_some known
    cases spare : (w.store.available service).head? with
    | none =>
      have full := List.head?_eq_none_iff.1 spare
      obtain ⟨v, run, result⟩ := run_requestSession_of_full user known full
      rw [run] at passes ⊢
      exact .queued (x := w.asking user service) passes fresh rfl rfl ⟨rfl, rfl, rfl⟩ rfl registered
        full result
    | some c =>
      obtain ⟨v, run, result⟩ := run_requestSession_of_spare user known spare
      have reads := read_lt_run_requestSession user known
      rw [run] at passes reads ⊢
      exact .placed (x := (w.asking user service).started c.id (w.time 0)) passes reads fresh rfl
        rfl ⟨rfl, rfl, rfl⟩ rfl rfl registered rfl spare result

theorem storeCredential {key : Codec.Key} {service : ServiceId} {identity secret : String}
    {tier : Tier}
    (fresh : w.store.credential? (Ident.hex Ident.shortDigits w.supply.draw.1) = none) :
    Course w ((Vault.storeCredential key service identity secret tier).run w).2 := by
  unfold Vault.storeCredential
  simp only [Program.bind_eq, Program.pure_eq]
  rw [Program.run_bind, Program.run_query]
  cases w.platform.store.service? service with
  | none => exact .rest (.refl w) rfl
  | some definition =>
    refine .issued ⟨rfl, Nat.le_refl _⟩ ?_ ?_ rfl
    · exact fresh
    · rfl

theorem disable (id : CredentialId) (w : World) : Course w ((Vault.disable id).run w).2 := by
  unfold Vault.disable
  rw [Program.run_onStore]
  rcases w.store.disable_cases id with unknown | ⟨c, known, disabled⟩
  · rw [unknown]
    exact .rest (.refl w) rfl
  · rw [disabled]
    refine .amended ⟨rfl, Nat.le_refl _⟩ known rfl rfl rfl (fun capacity => ?_) rfl
    simp [Credential.hasCapacity, Credential.disable] at capacity

theorem rotate (key : Codec.Key) (id : CredentialId) (secret : String) (w : World) :
    Course w ((Vault.rotate key id secret).run w).2 := by
  unfold Vault.rotate
  rw [Program.run_onStore]
  rcases w.store.rotate_cases id (key.conceal secret) with unknown | ⟨c, known, rotated⟩
  · rw [unknown]
    exact .rest (.refl w) rfl
  · rw [rotated]
    exact .amended ⟨rfl, Nat.le_refl _⟩ known rfl rfl rfl (fun capacity => capacity) rfl

theorem register (username : String) (w : World) :
    Course w ((Accounts.register username).run w).2 := by
  unfold Accounts.register
  simp only [Program.bind_eq, Program.pure_eq]
  rw [Program.run_bind, Program.run_query]
  cases w.platform.store.userNamed? username with
  | some user => exact .rest (.refl w) rfl
  | none => exact .registered ⟨rfl, Nat.le_succ _⟩ rfl

end Course

/-- The id that the operation will draw for a session or a credential is not in use. -/
def Operation.Fresh (w : World) : Operation → Prop
  | .request .. => w.store.session? (Ident.hex Ident.longDigits w.supply.draw.1) = none
  | .issue .. => w.store.credential? (Ident.hex Ident.shortDigits w.supply.draw.1) = none
  | _ => True

/-- **Every operation takes one of the courses** when nobody interferes with it. -/
theorem Operation.course (key : Codec.Key) (op : Operation) {w : World} (fresh : op.Fresh w)
    (coherent : w.store.Coherent) : Course w ((op.program key).run w).2 := by
  cases op <;> rw [Operation.program, Program.run_map]
  case request => exact .requestSession fresh
  case finish id => exact .endSession id coherent
  case sweep => exact .enforceLimits coherent
  case issue => exact .storeCredential fresh
  case disable id => exact .disable id w
  case rotate id secret => exact .rotate key id secret w
  case register username => exact .register username w

end SlotBroker
