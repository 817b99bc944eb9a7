import SlotBroker.Proofs.Headroom
import SlotBroker.Proofs.Parts

/-!
# Worlds that agree on one service

What the broker does for a service reads the part of that service, the clock and the random words,
and writes the part of that service. So in two worlds whose parts, clocks and words are the same, it
comes to the same, however much the rest of the two stores differs. `Twins a w v` says that two
worlds agree on the service `a` in this way, and `Lockstep a w v r r'` that they still do after two
runs, that both runs gave the same answer, and that neither changed the part of another service. A
run beside itself shows that it keeps to its service.

Results:
* `Twins.drainQueue`, `Twins.endSession`, **`Twins.sweepService`**: draining a queue, ending a
  session and sweeping a service come to the same in twin worlds.
-/

namespace SlotBroker

/-! ## Changes of one part -/

namespace Part

/-- The part after the slot that a session was on has been checked in. -/
def giveBack (p : Part) (x : Session) : Part :=
  x.credential.elim p fun id =>
    (p.credentials.find? fun c => Keyed.key c = id).elim p fun c => p.putCredential c.release

end Part

namespace Store

/-- From `s` to `t` nothing is forgotten, and the parts of all services but one stay as they are. -/
structure Confined (a : ServiceId) (s t : Store) : Prop extends s.Evolves t where
  others : ∀ b, b ≠ a → t.part b = s.part b

/-- Besides, the part of that service changes by `f`. -/
structure Changes (a : ServiceId) (f : Part → Part) (s t : Store) : Prop
    extends Confined a s t where
  part : t.part a = f (s.part a)

/-- The store is coherent, and its sessions are stored in the order of their numbers. -/
structure Tidy (s : Store) : Prop where
  coherent : s.Coherent
  ascending : s.Ascending

/-- From `s` to `t` the part of a service changes by `f`, and the store stays tidy. -/
structure Works (a : ServiceId) (f : Part → Part) (s t : Store) : Prop extends Changes a f s t where
  tidy : t.Tidy

variable {s t u : Store} {a : ServiceId} {f g : Part → Part}

theorem Confined.refl (a : ServiceId) (s : Store) : Confined a s s := ⟨.refl s, fun _ _ => rfl⟩

theorem Confined.trans (h : Confined a s t) (h' : Confined a t u) : Confined a s u :=
  ⟨h.toEvolves.trans h'.toEvolves, fun b hb => (h'.others b hb).trans (h.others b hb)⟩

theorem Changes.trans (h : Changes a f s t) (h' : Changes a g t u) : Changes a (g ∘ f) s u :=
  ⟨h.toConfined.trans h'.toConfined, by rw [h'.part, h.part, Function.comp_apply]⟩

theorem Tidy.works_refl (h : s.Tidy) (a : ServiceId) : Works a id s s :=
  ⟨⟨.refl a s, rfl⟩, h⟩

theorem Works.trans (h : Works a f s t) (h' : Works a g t u) : Works a (g ∘ f) s u :=
  ⟨h.toChanges.trans h'.toChanges, h'.tidy⟩

/-- What is written changes the part of the service that it belongs to. -/
theorem Changes.of_part (evolves : s.Evolves t) {b : ServiceId} (of : b = a)
    (part : ∀ c, t.part c = if b = c then f (s.part c) else s.part c) : Changes a f s t := by
  refine ⟨⟨evolves, fun c hc => ?_⟩, ?_⟩
  · rw [part, if_neg fun same => hc (same.symm.trans of)]
  · rw [part, if_pos of]

theorem changes_addService {d : Service} (of : d.id = a) :
    Changes a (fun p => { p with definition := some d }) s (s.addService d) :=
  .of_part (.addService s d) of (s.part_addService d)

theorem changes_addCredential {d : Credential}
    (same : ∀ c, s.credential? d.id = some c → d.service = c.service) (of : d.service = a) :
    Changes a (·.putCredential d) s (s.addCredential d) :=
  .of_part (Grows.insertCredential same).toEvolves of
    (part_addCredential fun c known => (same c known).symm)

theorem changes_addSession {x : Session} (fresh : s.session? x.id = none) (of : x.service = a) :
    Changes a (·.putSession x.unnumbered) s (s.addSession x).2 := by
  refine .of_part (Grows.toEvolves ?_) of (part_addSession fresh)
  exact .insertSession rfl rfl rfl fun y found => by cases fresh.symm.trans found

/-- An event of a session changes the part of the session's service. -/
theorem changes_apply {id : SessionId} {x y : Session} {e : Session.Event}
    (found : s.session? id = some x) (moved : x.apply e = some y) (of : x.service = a) :
    Changes a (·.putSession y.unnumbered) s { s with sessions := s.sessions.insert y } := by
  have service := (Session.fixed_apply moved).2.2.1
  refine .of_part (Grows.of_apply found moved).toEvolves (service.trans of)
    (part_insertSession fun z hz => ?_)
  rw [session?_id_of_apply found moved] at hz
  rw [← Option.some.inj hz, service]

namespace Tidy

variable (h : s.Tidy)
include h

theorem works_apply {id : SessionId} {x y : Session} {e : Session.Event}
    (found : s.session? id = some x) (moved : x.apply e = some y) (of : x.service = a)
    (start : ∀ c time, e = .start c time → ∃ d, s.credential? c = some d ∧ d.service = a) :
    Works a (·.putSession y.unnumbered) s { s with sessions := s.sessions.insert y } where
  toChanges := changes_apply found moved of
  tidy := ⟨h.coherent.of_apply found moved (of ▸ start), h.ascending.of_apply found moved⟩

theorem works_addCredential {c d : Credential} (known : s.credential? d.id = some c)
    (same : d.service = c.service) (of : d.service = a) :
    Works a (·.putCredential d) s (s.addCredential d) := by
  have keeps : ∀ z, s.credential? d.id = some z → d.service = z.service := fun z hz => by
    rw [← Option.some.inj (known.symm.trans hz), same]
  exact ⟨changes_addCredential keeps of, h.coherent.of_grows (.insertCredential keeps) rfl,
    h.ascending.of_eq rfl⟩

theorem works_appendUsage {r : UsageRecord} (of : r.service = a) :
    Works a (·.addRecord r) s (s.appendUsage r) := by
  have grows : s.Grows (s.appendUsage r) := .of_eq rfl rfl rfl
  exact ⟨.of_part grows.toEvolves of (s.part_appendUsage r), h.coherent.of_grows grows rfl,
    h.ascending.of_eq rfl⟩

/-- The head of a queue starts on a slot of its service. -/
theorem works_grant {q : Session} {c : Credential} (head : (s.queue a).head? = some q)
    (spare : (s.available a).head? = some c) (taken started : Millis) :
    Works a (fun p => (p.putCredential (c.occupy taken)).putSession
      (q.unnumbered.started c.id started)) s (s.grant q c taken started) := by
  obtain ⟨known, serves, -⟩ := mem_available.1 (List.mem_of_head? spare)
  obtain ⟨stored, waits, asks⟩ := mem_queue.1 (List.mem_of_head? head)
  have occupied := h.works_addCredential (d := c.occupy taken) known rfl serves
  have found : (s.addCredential (c.occupy taken)).session? q.id = some q := stored
  refine occupied.trans (occupied.tidy.works_apply found
    (Session.apply_start waits c.id started) asks fun k time starts => ?_)
  cases starts
  refine ⟨c.occupy taken, ?_, serves⟩
  rw [credential?_addCredential, c.id_occupy, if_pos rfl]

/-- A slot of a credential of the service is checked in. -/
theorem works_giveBack {x : Session}
    (bound : ∀ k, x.credential = some k → ∃ d, s.credential? k = some d ∧ d.service = a) :
    Works a (·.giveBack x) s (s.giveBack x) := by
  unfold giveBack Part.giveBack
  cases slot : x.credential with
  | none => exact h.works_refl a
  | some k =>
    obtain ⟨d, known, serves⟩ := bound k slot
    have inPart : ((s.part a).credentials.find? fun c => decide (Keyed.key c = k)) = some d := by
      rw [find?_part_credentials, known, Option.filter_some, if_pos (decide_eq_true serves)]
    have back := h.works_addCredential (d := d.release)
      (credential?_of_id_eq known d.id_release) rfl serves
    refine ⟨⟨?_, ?_⟩, ?_⟩
    · rw [Option.elim_some, checkin, known]
      exact back.toConfined
    · dsimp only [Option.elim_some]
      rw [inPart, checkin, known]
      exact back.part
    · rw [Option.elim_some, checkin, known]
      exact back.tidy

end Tidy

end Store

/-! ## Twin worlds -/

/-- Two worlds with tidy stores that agree on a service: they hold the same of it, both clocks
stand still at one time, and the same words are drawn next. -/
structure Twins (a : ServiceId) (w v : World) : Prop where
  left : w.store.Tidy
  right : v.store.Tidy
  part : w.store.part a = v.store.part a
  clock : ∀ m n, w.supply.reading m = v.supply.reading n
  words : ∀ n, w.supply.word (w.supply.drawn + n) = v.supply.word (v.supply.drawn + n)

/-- Two runs from twin worlds give one answer and lead to twin worlds, and neither changes the part
of another service. -/
structure Lockstep {α : Type} (a : ServiceId) (w v : World) (r r' : α × World) : Prop where
  answer : r.1 = r'.1
  twins : Twins a r.2 r'.2
  left : Store.Confined a w.store r.2.store
  right : Store.Confined a v.store r'.2.store

section Twins

variable {α β : Type} {a : ServiceId} {w v w' v' : World}

theorem Twins.time (h : Twins a w v) (m n : Nat) : w.time m = v.time n := h.clock _ _

theorem Twins.word (h : Twins a w v) : w.supply.draw.1 = v.supply.draw.1 := h.words 0

/-- What is done in twin worlds to the part of the service leads to twin worlds. -/
theorem Twins.lockstep {f : Part → Part} {x x' : α} (h : Twins a w v) (answer : x = x')
    (left : Store.Works a f w.store w'.store) (right : Store.Works a f v.store v'.store)
    (clock : w'.supply.reading = w.supply.reading) (clock' : v'.supply.reading = v.supply.reading)
    (words : ∀ n, w'.supply.word (w'.supply.drawn + n) = v'.supply.word (v'.supply.drawn + n)) :
    Lockstep a w v (x, w') (x', v') where
  answer := answer
  twins := ⟨left.tidy, right.tidy, by rw [left.part, right.part, h.part],
    by rw [clock, clock']; exact h.clock, words⟩
  left := left.toConfined
  right := right.toConfined

/-- Nothing is done to the stores. -/
theorem Twins.rest (h : Twins a w v) (x : α) : Lockstep a w v (x, w) (x, v) :=
  h.lockstep rfl (h.left.works_refl a) (h.right.works_refl a) rfl rfl h.words

/-- Readings of the clocks do not matter. -/
theorem Twins.tick (h : Twins a w v) (m n : Nat) (x : α) :
    Lockstep a w v (x, w.tick m) (x, v.tick n) :=
  h.lockstep rfl (h.left.works_refl a) (h.right.works_refl a) rfl rfl h.words

/-- What is counted does not matter. -/
theorem Twins.count (h : Twins a w v) (c : Counter) (n : Nat) :
    Lockstep a w v ((Program.count c n).run w) ((Program.count c n).run v) :=
  h.lockstep rfl (h.left.works_refl a) (h.right.works_refl a) rfl rfl h.words

theorem Lockstep.trans {r r' : α × World} {t t' : β × World} (h : Lockstep a w v r r')
    (next : Lockstep a r.2 r'.2 t t') : Lockstep a w v t t' :=
  ⟨next.answer, next.twins, h.left.trans next.left, h.right.trans next.right⟩

/-- What is done afterwards, with the answer from before. -/
theorem Lockstep.andThen {r r' : α × World} {t t' : β × World} (h : Lockstep a w v r r')
    (next : Lockstep a r.2 r'.2 t t') : Lockstep a w v (r.1, t.2) (r'.1, t'.2) :=
  ⟨h.answer, next.twins, h.left.trans next.left, h.right.trans next.right⟩

/-- Two programs in a row. -/
theorem Lockstep.bind {p q : Program α} {k : α → Program β} (h : Lockstep a w v (p.run w) (q.run v))
    (next : ∀ x w' v', Twins a w' v' → Store.Confined a w.store w'.store →
      Lockstep a w' v' ((k x).run w') ((k x).run v')) :
    Lockstep a w v ((p.bind k).run w) ((q.bind k).run v) := by
  rw [Program.run_bind, Program.run_bind, ← h.answer]
  exact h.trans (next _ _ _ h.twins h.left)

theorem Lockstep.map {r r' : α × World} (h : Lockstep a w v r r') (g : α → β) :
    Lockstep a w v (g r.1, r.2) (g r'.1, r'.2) :=
  ⟨congrArg g h.answer, h.twins, h.left, h.right⟩

/-! ### Draining -/

/-- Sessions that are listed in twin worlds are the same but for their numbers. -/
theorem head?_of_map_eq {xs ys : List Session}
    (same : xs.map Session.unnumbered = ys.map Session.unnumbered) {x : Session}
    (head : xs.head? = some x) : ∃ y, ys.head? = some y ∧ x.unnumbered = y.unnumbered := by
  have heads := congrArg List.head? same
  rw [List.head?_map, List.head?_map, head, Option.map_some] at heads
  obtain ⟨y, hy, e⟩ := Option.map_eq_some_iff.1 heads.symm
  exact ⟨y, hy, e.symm⟩

theorem Twins.drainRound (h : Twins a w v) (n : Nat) :
    Lockstep a w v ((Broker.drainRound a n).run w) ((Broker.drainRound a n).run v) := by
  have queues := Store.queue_of_part_eq h.part h.left.ascending h.right.ascending
  have slots := Store.available_of_part_eq h.part
  by_cases none : w.store.queue a = [] ∨ w.store.available a = []
  · have none' : v.store.queue a = [] ∨ v.store.available a = [] := by
      refine none.imp (fun empty => ?_) fun full => slots ▸ full
      rw [empty, List.map_nil] at queues
      exact List.map_eq_nil_iff.1 queues.symm
    rw [run_drainRound_of_none none, run_drainRound_of_none none']
    exact h.rest _
  · obtain ⟨waits, free⟩ := not_or.1 none
    obtain ⟨q, head⟩ := Option.isSome_iff_exists.1 (List.isSome_head?.2 waits)
    obtain ⟨c, spare⟩ := Option.isSome_iff_exists.1 (List.isSome_head?.2 free)
    obtain ⟨q', head', same⟩ := head?_of_map_eq queues head
    have spare' : (v.store.available a).head? = some c := slots ▸ spare
    rw [run_drainRound_of_spare head spare, run_drainRound_of_spare head' spare']
    have granted := h.left.works_grant head spare (w.time 0) (w.time 1)
    have granted' := h.right.works_grant head' spare' (v.time 0) (v.time 1)
    rw [← h.time 0 0, ← h.time 1 1, ← same] at granted'
    rw [← h.time 0 0, ← h.time 1 1]
    exact h.lockstep rfl granted granted' rfl rfl h.words

theorem Twins.rounds (h : Twins a w v) (k n : Nat) :
    Lockstep a w v (rounds (fun n w => (Broker.drainRound a n).run w) k n w)
      (rounds (fun n w => (Broker.drainRound a n).run w) k n v) := by
  induction k generalizing n w v with
  | zero => exact h.rest n
  | succ k ih =>
    have round := h.drainRound n
    unfold SlotBroker.rounds
    dsimp only
    have last := round.map Prod.snd
    rw [← round.answer] at last ⊢
    split
    · exact round.trans (ih round.twins _)
    · exact last

theorem Twins.drainQueue (h : Twins a w v) :
    Lockstep a w v ((Broker.drainQueue a).run w) ((Broker.drainQueue a).run v) := by
  have depths := Store.queueDepth_of_part_eq h.part h.left.ascending h.right.ascending
  have drained := h.rounds (w.store.queueDepth a + 1) 0
  unfold Broker.drainQueue
  simp only [Program.bind_eq, Program.pure_eq]
  refine Lockstep.bind ?_ fun n w' v' twins _ => ?_
  · rw [Program.run_repeatWhile, Program.run_repeatWhile]
    unfold Broker.drainLimit
    rw [← depths]
    exact drained
  · split
    · rw [Program.run_bind, Program.run_bind]
      exact (twins.count (.admitted a) n).map fun _ => n
    · exact twins.rest n

/-! ### Ends -/

/-- The slot of a session that has left is given back, and the session is billed. -/
theorem Twins.releaseAndBill (h : Twins a w v) {y y' : Session}
    (stored : w.store.session? y.id = some y) (asks : y.service = a)
    (same : y.unnumbered = y'.unnumbered) :
    Lockstep a w v ((Broker.releaseAndBill y).run w) ((Broker.releaseAndBill y').run v) := by
  obtain ⟨definition, known⟩ := Option.isSome_iff_exists.1 (h.left.coherent.registered stored)
  have known' : v.store.service? y.service = some definition := by
    rw [asks] at known ⊢
    rw [← Store.service?_of_part_eq h.part, known]
  have bound : ∀ k, y.credential = some k →
      ∃ d, w.store.credential? k = some d ∧ d.service = a := fun k slot => by
    obtain ⟨d, hd, serves⟩ := h.left.coherent.bound stored slot
    exact ⟨d, hd, serves.trans asks⟩
  have bound' : ∀ k, y.credential = some k →
      ∃ d, v.store.credential? k = some d ∧ d.service = a := fun k slot => by
    obtain ⟨d, hd, serves⟩ := bound k slot
    exact ⟨d, Store.credential?_of_part_eq h.part hd serves, serves⟩
  -- neither the slot nor the bill depends on the number
  rw [Session.eq_of_unnumbered_eq same]
  obtain ⟨u, run, supply, store⟩ := run_releaseAndBill known
  obtain ⟨u', run', supply', store'⟩ :=
    run_releaseAndBill (y := { y with sequence := y'.sequence }) known'
  have bills : v.bill { y with sequence := y'.sequence } definition = w.bill y definition := by
    unfold World.bill
    rw [← h.time 0 0, ← h.word]
    rfl
  rw [run, run', bills]
  rw [bills] at store'
  have back := h.left.works_giveBack bound
  have back' := h.right.works_giveBack bound'
  have billed := back.trans (back.tidy.works_appendUsage (r := w.bill y definition) asks)
  have billed' := back'.trans (back'.tidy.works_appendUsage (r := w.bill y definition) asks)
  rw [← store] at billed
  refine h.lockstep rfl billed (store' ▸ billed') ?_ ?_ fun n => ?_
  · rw [supply]
    rfl
  · rw [supply']
    rfl
  · rw [supply, supply']
    have word := h.words (1 + n)
    rwa [← Nat.add_assoc, ← Nat.add_assoc] at word

/-- An event of a session of the service that is not its start happens in both worlds. -/
theorem Twins.apply (h : Twins a w v) {id : SessionId} {x y : Session} {e : Session.Event}
    (found : w.store.session? id = some x) (asks : x.service = a) (moved : x.apply e = some y)
    (ends : ∀ c time, e ≠ .start c time) : ∃ x' y',
    v.store.session? id = some x' ∧ x'.state = x.state ∧ x'.apply e = some y' ∧
      y.unnumbered = y'.unnumbered ∧
      Lockstep a w v ((), w.withStore { w.store with sessions := w.store.sessions.insert y })
        ((), v.withStore { v.store with sessions := v.store.sessions.insert y' }) := by
  obtain ⟨x', found', asks', same⟩ := Store.session?_of_part_eq h.part found asks
  obtain ⟨y', moved', same'⟩ := Session.apply_of_unnumbered_eq same moved
  have left := h.left.works_apply found moved asks fun c time start => absurd start (ends c time)
  have right := h.right.works_apply found' moved' asks' fun c time start =>
    absurd start (ends c time)
  rw [← same'] at right
  refine ⟨x', y', found', ?_, moved', same', h.lockstep rfl left right rfl rfl h.words⟩
  rw [Session.eq_of_unnumbered_eq same]

/-- **The end of a session of the service** comes to the same. -/
theorem Twins.endSession (h : Twins a w v) {id : SessionId} {x : Session}
    (found : w.store.session? id = some x) (asks : x.service = a) :
    Lockstep a w v ((Broker.endSession id).run w) ((Broker.endSession id).run v) := by
  cases moved : x.apply (.finish (w.time 0)) with
  | none =>
    obtain ⟨x', found', -, same⟩ := Store.session?_of_part_eq h.part found asks
    have stays := Session.apply_eq_none_of_unnumbered_eq same moved
    rw [h.time 0 0] at stays
    rw [run_endSession_of_ignored (by simp only [Store.applyEvent, found, moved]),
      run_endSession_of_ignored (by simp only [Store.applyEvent, found', stays])]
    exact h.tick 1 1 none
  | some y =>
    have ticked : Lockstep a w v ((), w.tick 1) ((), v.tick 1) := h.tick 1 1 ()
    obtain ⟨x', y', found', state, moved', same, left⟩ :=
      ticked.twins.apply (w := w.tick 1) (v := v.tick 1) found asks moved
        fun _ _ start => by cases start
    rw [h.time 0 0] at moved'
    cases hx : x.state with
    | queued =>
      rw [run_endSession_of_queued found hx moved,
        run_endSession_of_queued (w := v) found' (state.trans hx) moved']
      exact (ticked.trans left).map fun _ => none
    | active =>
      have service := (Session.fixed_apply moved).2.2.1.trans asks
      have service' : y'.service = a := (congrArg Session.service same).symm.trans service
      rw [run_endSession_of_active found hx moved,
        run_endSession_of_active (w := v) found' (state.trans hx) moved', service, service']
      have stored : ((w.tick 1).withStore
          { w.store with sessions := w.store.sessions.insert y }).store.session? y.id = some y := by
        rw [World.store_withStore, Store.session?_insert, if_pos rfl]
      have billed := left.twins.releaseAndBill stored service same
      exact (ticked.trans left).trans (billed.andThen billed.twins.drainQueue)
    | ended | expired =>
      have unended := Session.isTerminal_eq_false_of_apply moved
      rw [hx] at unended
      cases unended

end Twins

/-! ## The sweep -/

/-- The session is stored, and asks for the service. -/
def Store.Owns (s : Store) (a : ServiceId) (id : SessionId) : Prop :=
  ∃ x, s.session? id = some x ∧ x.service = a

theorem Store.Evolves.owns {s t : Store} (h : s.Evolves t) {a : ServiceId} {id : SessionId}
    (owned : s.Owns a id) : t.Owns a id := by
  obtain ⟨x, found, asks⟩ := owned
  obtain ⟨y, found', leads⟩ := h.sessions found
  exact ⟨y, found', leads.fixed.2.2.1.trans asks⟩

/-- Two runs from twin worlds stay in lockstep, and give ids of sessions of the service. -/
structure Expires (a : ServiceId) (w v : World) (r r' : List SessionId × World) : Prop
    extends Lockstep a w v r r' where
  owned : ∀ id ∈ r.1, r.2.store.Owns a id

section Sweep

variable {a : ServiceId} {w v : World}

/-- Two parts of a sweep, one after the other. -/
theorem Expires.append {r r' t t' : List SessionId × World} (h : Expires a w v r r')
    (next : Expires a r.2 r'.2 t t') : Expires a w v (r.1 ++ t.1, t.2) (r'.1 ++ t'.1, t'.2) where
  answer := by rw [h.answer, next.answer]
  twins := next.twins
  left := h.left.trans next.left
  right := h.right.trans next.right
  owned id hid := by
    rcases List.mem_append.1 hid with before | after
    · exact next.left.toEvolves.owns (h.owned id before)
    · exact next.owned id after

/-- Some sessions of the service are given as expired. -/
theorem Lockstep.expires {α : Type} {r r' : α × World} (h : Lockstep a w v r r')
    {ids ids' : List SessionId} (same : ids = ids') (owned : ∀ id ∈ ids, w.store.Owns a id) :
    Expires a w v (ids, r.2) (ids', r'.2) :=
  ⟨⟨same, h.twins, h.left, h.right⟩, fun id hid => h.left.toEvolves.owns (owned id hid)⟩

/-- Nobody is expired. -/
theorem Lockstep.expires_nil {α : Type} {r r' : α × World} (h : Lockstep a w v r r') :
    Expires a w v ([], r.2) ([], r'.2) :=
  h.expires rfl fun _ hid => absurd hid List.not_mem_nil

/-- Which sessions expire does not depend on their numbers. -/
theorem expireSessions_unnumbered (limit now : Millis) (xs : List Session) :
    Broker.expireSessions limit now (xs.map Session.unnumbered) =
      Broker.expireSessions limit now xs := by
  induction xs with
  | nil => rfl
  | cons x rest ih =>
    rw [List.map_cons, Broker.expireSessions, Broker.expireSessions, ih]
    rfl

theorem Twins.expireSessions (h : Twins a w v) (limit now : Millis) (xs : List Session)
    (owned : ∀ x ∈ xs, w.store.Owns a x.id) :
    Expires a w v ((Broker.expireSessions limit now xs).run w)
      ((Broker.expireSessions limit now xs).run v) := by
  induction xs generalizing w v with
  | nil => exact (h.rest ()).expires_nil
  | cons x rest ih =>
    have others : ∀ z ∈ rest, w.store.Owns a z.id := fun z hz => owned z (List.mem_cons_of_mem x hz)
    obtain ⟨z, found, asks⟩ := owned x List.mem_cons_self
    by_cases late : x.overdue limit now = true
    · cases moved : z.apply (.expire now) with
      | none =>
        obtain ⟨z', found', -, same⟩ := Store.session?_of_part_eq h.part found asks
        have stays := Session.apply_eq_none_of_unnumbered_eq same moved
        rw [run_expireSessions_of_kept fun _ => ⟨z, found, moved⟩,
          run_expireSessions_of_kept fun _ => ⟨z', found', stays⟩]
        exact ih h others
      | some y =>
        have service := (Session.fixed_apply moved).2.2.1.trans asks
        obtain ⟨z', y', found', -, moved', same, left⟩ :=
          h.apply found asks moved fun _ _ start => by cases start
        have stored : (w.withStore
            { w.store with sessions := w.store.sessions.insert y }).store.session? y.id =
              some y := by
          rw [World.store_withStore, Store.session?_insert, if_pos rfl]
        have gone := left.trans (left.twins.releaseAndBill stored service same)
        have owns : w.store.Owns a y.id := ⟨z, Store.session?_id_of_apply found moved, asks⟩
        have ids : y.unnumbered.id = y'.unnumbered.id := by rw [same]
        have here := gone.expires (congrArg (fun id => [id]) ids) fun id hid =>
          List.mem_singleton.1 hid ▸ owns
        rw [run_expireSessions_of_expired late found moved,
          run_expireSessions_of_expired late found' moved']
        exact here.append (ih gone.twins fun z hz => gone.left.toEvolves.owns (others z hz))
    · rw [run_expireSessions_of_kept fun overdue => absurd overdue late,
        run_expireSessions_of_kept fun overdue => absurd overdue late]
      exact ih h others

/-- The sessions that hold slots of credentials of the service. -/
theorem Twins.expireHolding (h : Twins a w v) (limit now : Millis) (cs : List Credential)
    (serve : ∀ c ∈ cs, ∃ d, w.store.credential? c.id = some d ∧ d.service = a) :
    Expires a w v ((Broker.expireHolding limit now cs).run w)
      ((Broker.expireHolding limit now cs).run v) := by
  induction cs generalizing w v with
  | nil => exact (h.rest ()).expires_nil
  | cons c rest ih =>
    obtain ⟨d, known, serves⟩ := serve c List.mem_cons_self
    have id : d.id = c.id := (Store.credential?_eq_some_iff.1 known).2
    have self : w.store.credential? d.id = some d := by rw [id, known]
    have lists := Store.sessionsHolding_of_part_eq h.part h.left.coherent h.right.coherent
      h.left.ascending h.right.ascending self serves
    have owned : ∀ x ∈ w.store.sessionsHolding d.id, w.store.Owns a x.id := fun x hx => by
      obtain ⟨stored, holds⟩ := Store.mem_sessionsMatching.1 hx
      exact ⟨x, Store.session?_eq_some_iff.2 ⟨stored, rfl⟩,
        (h.left.coherent.service_of_holds self stored holds).trans serves⟩
    have here := h.expireSessions limit now _ owned
    have program : Broker.expireSessions limit now (w.store.sessionsHolding d.id) =
        Broker.expireSessions limit now (v.store.sessionsHolding d.id) := by
      rw [← expireSessions_unnumbered, lists, expireSessions_unnumbered]
    have next := ih here.twins fun e he => by
      obtain ⟨f, hf, serves⟩ := serve e (List.mem_cons_of_mem c he)
      obtain ⟨g, hg, same⟩ := here.left.credentials hf
      exact ⟨g, hg, same.trans serves⟩
    rw [Broker.expireHolding]
    simp only [Program.bind_eq, Program.pure_eq, Program.run_bind, Program.run_query,
      Program.run_done, ← id]
    rw [show Broker.expireSessions limit now (v.platform.store.sessionsHolding d.id) = _ from
      program.symm]
    exact here.append next

/-- The overdue sessions of the service are expired. -/
theorem Twins.expireOverdue (h : Twins a w v) {definition : Service} (of : definition.id = a) :
    Expires a w v ((Broker.expireOverdue definition).run w)
      ((Broker.expireOverdue definition).run v) := by
  have credentials := Store.credentialsOf_of_part_eq h.part
  have ticked := (h.tick 1 1 ()).expires_nil
  have serve : ∀ c ∈ w.store.credentialsOf a,
      ∃ d, (w.tick 1).store.credential? c.id = some d ∧ d.service = a := fun c hc => by
    obtain ⟨stored, serves⟩ := List.mem_filter.1 hc
    exact ⟨c, Store.credential?_eq_some_iff.2 ⟨stored, rfl⟩, of_decide_eq_true serves⟩
  have swept := ticked.append (ticked.twins.expireHolding definition.limitMillis (w.time 0)
    (w.store.credentialsOf a) serve)
  unfold Broker.expireOverdue
  simp only [Program.bind_eq, Program.run_bind, Program.run_now, Program.run_query, of]
  rw [List.nil_append, List.nil_append] at swept
  have time : v.supply.readClock.1 = w.time 0 := (h.time 0 0).symm
  rw [time, ← credentials]
  exact swept

/-- **The sweep of the service** comes to the same. -/
theorem Twins.sweepService (h : Twins a w v) {definition : Service} (of : definition.id = a) :
    Expires a w v ((Broker.sweepServices [definition]).run w)
      ((Broker.sweepServices [definition]).run v) := by
  have here := h.expireOverdue of
  rw [Broker.sweepServices]
  simp only [Program.bind_eq, Program.pure_eq, Program.run_bind]
  rw [← here.answer]
  split
  · exact here.toLockstep.expires_nil
  · have counted : Lockstep a ((Broker.expireOverdue definition).run w).2 _ _ _ :=
      here.twins.count (.expired definition.id) ((Broker.expireOverdue definition).run w).1.length
    subst of
    have both := here.append (counted.trans counted.twins.drainQueue).expires_nil
    rw [← here.answer] at both
    simp only [Program.run_bind]
    exact both

/-! ### Sweeps of several services -/

theorem run_sweepServices_cons (d : Service) (ds : List Service) (w : World) :
    (Broker.sweepServices (d :: ds)).run w =
      let r := (Broker.sweepServices [d]).run w
      let t := (Broker.sweepServices ds).run r.2
      (r.1 ++ t.1, t.2) := by
  rw [Broker.sweepServices, Broker.sweepServices]
  simp only [Program.bind_eq, Program.pure_eq, Program.run_bind]
  split
  · rw [Broker.sweepServices]
    rfl
  · simp only [Program.run_bind, Broker.sweepServices, Program.pure_eq, Program.run_done,
      List.append_nil]

theorem run_sweepServices_append (ds es : List Service) (w : World) :
    (Broker.sweepServices (ds ++ es)).run w =
      let r := (Broker.sweepServices ds).run w
      let t := (Broker.sweepServices es).run r.2
      (r.1 ++ t.1, t.2) := by
  induction ds generalizing w with
  | nil => rfl
  | cons d ds ih =>
    rw [List.cons_append, run_sweepServices_cons, run_sweepServices_cons d ds]
    dsimp only
    rw [ih]
    dsimp only
    rw [List.append_assoc]

/-- A world in which the clock stands still is its own twin. -/
theorem Twins.refl (tidy : w.store.Tidy)
    (still : ∀ m n, w.supply.reading m = w.supply.reading n) : Twins a w w :=
  ⟨tidy, tidy, rfl, still, fun _ => rfl⟩

/-- What is done for other services: the part of a service stays as it is, and only sessions of
others are given as expired. -/
structure Spares (a : ServiceId) (w : World) (r : List SessionId × World) : Prop where
  tidy : r.2.store.Tidy
  evolves : w.store.Evolves r.2.store
  part : r.2.store.part a = w.store.part a
  foreign : ∀ id ∈ r.1, ∃ b, b ≠ a ∧ r.2.store.Owns b id

/-- A sweep of other services spares a service. -/
theorem spares_sweepServices {ds : List Service} (tidy : w.store.Tidy)
    (still : ∀ m n, w.supply.reading m = w.supply.reading n) (others : ∀ d ∈ ds, d.id ≠ a) :
    Spares a w ((Broker.sweepServices ds).run w) := by
  induction ds generalizing w with
  | nil => exact ⟨tidy, .refl _, rfl, fun _ h => absurd h List.not_mem_nil⟩
  | cons d ds ih =>
    have other := others d List.mem_cons_self
    have here := (Twins.refl (a := d.id) tidy still).sweepService rfl
    have rest := ih here.twins.left here.twins.clock fun e he =>
      others e (List.mem_cons_of_mem d he)
    rw [run_sweepServices_cons]
    refine ⟨rest.tidy, here.left.toEvolves.trans rest.evolves,
      rest.part.trans (here.left.others a other.symm), fun id hid => ?_⟩
    rcases List.mem_append.1 hid with first | later
    · exact ⟨d.id, other, rest.evolves.owns (here.owned id first)⟩
    · exact rest.foreign id later

end Sweep

end SlotBroker
