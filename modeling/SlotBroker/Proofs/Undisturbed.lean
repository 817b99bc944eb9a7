import SlotBroker.Proofs.Growth
import SlotBroker.Proofs.Interleaving

/-!
# Programs that nobody interferes with

When a program runs from its start to its end with nothing in between, each look at the store still
holds at the step that relies on it. So a slot that is seen is taken, a session that is seen waiting
starts, and what each part of the broker does can be said outright.

Results:
* `Program.passes_run`, `Program.word_run`: a run reads on in one clock and draws from one sequence
  of words.
* `run_drainRound_of_spare`, `run_drainRound_of_none`: a round of draining starts the head of the
  queue on the first credential with a slot, or it is the last.
* `run_drainQueue_of_none`: where no slot is left, draining does nothing.
* `run_releaseAndBill`: the slot of a session that has left is checked in, and one record of it is
  written.
* **`run_requestSession_of_spare`**, **`run_requestSession_of_full`**: a request starts a session on
  the first credential with a slot, and joins the queue if there is none;
  `run_requestSession_eq_of_spare` and `run_requestSession_eq_of_full` are the same to the letter.
-/

namespace SlotBroker

/-- The store of the platform. -/
abbrev World.store (w : World) : Store := w.platform.store

namespace World

/-- The world after some readings of the clock. -/
def tick (w : World) (n : Nat) : World :=
  { w with supply := { w.supply with read := w.supply.read + n } }

/-- The world with another store. -/
def withStore (w : World) (s : Store) : World :=
  { w with platform := { w.platform with store := s } }

/-- The world with another clock, which has been read as often. -/
def withReading (w : World) (reading : Nat → Millis) : World :=
  { w with supply := { w.supply with reading := reading } }

/-- What the clock will show after `k` more readings. -/
def time (w : World) (k : Nat) : Millis := w.supply.reading (w.supply.read + k)

@[simp] theorem store_withStore (w : World) (s : Store) : (w.withStore s).store = s := rfl

/-- The second world is later than the first by the same clock. -/
structure Passes (w v : World) : Prop where
  reading : v.supply.reading = w.supply.reading
  read : w.supply.read ≤ v.supply.read

theorem Passes.refl (w : World) : w.Passes w := ⟨rfl, Nat.le_refl _⟩

theorem Passes.trans {u v w : World} (h : u.Passes v) (h' : v.Passes w) : u.Passes w :=
  ⟨h'.reading.trans h.reading, Nat.le_trans h.read h'.read⟩

end World

namespace Store

/-- The store after a waiting session has started on a slot of a credential. -/
def grant (s : Store) (h : Session) (c : Credential) (taken started : Millis) : Store :=
  { s.addCredential (c.occupy taken) with sessions := s.sessions.insert (h.started c.id started) }

/-- The store after the slot that a session was on has been checked in. -/
def giveBack (s : Store) (x : Session) : Store := x.credential.elim s s.checkin

/-- The store after a session has left its slot as it is now, the slot has been checked in, and the
session has been billed. -/
def vacate (s : Store) (y : Session) (r : UsageRecord) : Store :=
  (giveBack { s with sessions := s.sessions.insert y } y).appendUsage r

end Store

namespace Store

/-- Checking a slot in changes nothing but credentials. -/
theorem checkin_eq (s : Store) (c : CredentialId) :
    ∃ credentials, s.checkin c = { s with credentials := credentials } := by
  unfold checkin
  cases s.credential? c with
  | none => exact ⟨s.credentials, rfl⟩
  | some d => exact ⟨_, rfl⟩

theorem giveBack_eq (s : Store) (x : Session) :
    ∃ credentials, s.giveBack x = { s with credentials := credentials } := by
  unfold giveBack
  cases x.credential with
  | none => exact ⟨s.credentials, rfl⟩
  | some c => exact s.checkin_eq c

theorem services_checkin (s : Store) (c : CredentialId) : (s.checkin c).services = s.services := by
  obtain ⟨_, h⟩ := s.checkin_eq c
  rw [h]

theorem sessions_giveBack (s : Store) (x : Session) : (s.giveBack x).sessions = s.sessions := by
  obtain ⟨_, h⟩ := s.giveBack_eq x
  rw [h]

end Store

/-! ## Any program -/

namespace Program

theorem run_map {α β : Type} (f : α → β) (p : Program α) (w : World) :
    (f <$> p).run w = (f (p.run w).1, (p.run w).2) := by
  change (p.bind fun a => .done (f a)).run w = _
  rw [run_bind, run_done]

/-- What comes from outside is only used by readings of the clock and by drawn words, so what these
keep a run keeps. -/
theorem supply_run {α : Type} {R : Supply → Supply → Prop} (refl : ∀ s, R s s)
    (trans : ∀ {s t u}, R s t → R t u → R s u) (read : ∀ s : Supply, R s s.readClock.2)
    (draw : ∀ s : Supply, R s s.draw.2) (p : Program α) (w : World) :
    R w.supply (p.run w).2.supply := by
  induction p generalizing w with
  | done => exact refl w.supply
  | step f k ih => exact ih _ { w with platform := (f w.platform).2 }
  | clock k ih => exact trans (read w.supply) (ih _ { w with supply := w.supply.readClock.2 })
  | random k ih => exact trans (draw w.supply) (ih _ { w with supply := w.supply.draw.2 })
  | loop body limit s k hbody ih =>
    have looped : ∀ (n : Nat) (s : _) (w : World),
        R w.supply (rounds (fun s w => (body s).run w) n s w).2.supply := by
      intro n
      induction n with
      | zero => exact fun s w => refl w.supply
      | succ n ihn =>
        intro s w
        rw [rounds]
        split
        · exact trans (hbody s w) (ihn _ _)
        · exact hbody s w
    exact trans (looped _ _ _) (ih _ _)

/-- **A run reads on in one clock.** -/
theorem passes_run {α : Type} (p : Program α) (w : World) : w.Passes (p.run w).2 := by
  obtain ⟨reading, read⟩ := supply_run
    (R := fun s t => t.reading = s.reading ∧ s.read ≤ t.read)
    (fun s => ⟨rfl, Nat.le_refl _⟩) (fun h h' => ⟨h'.1.trans h.1, Nat.le_trans h.2 h'.2⟩)
    (fun s => ⟨rfl, Nat.le_succ _⟩) (fun s => ⟨rfl, Nat.le_refl _⟩) p w
  exact ⟨reading, read⟩

/-- A run reads one clock. -/
theorem reading_run {α : Type} (p : Program α) (w : World) :
    (p.run w).2.supply.reading = w.supply.reading :=
  (p.passes_run w).reading

/-- **A run depends only on the readings that it makes**: under another clock that shows the same
for as long, it does the same. -/
theorem run_withReading {α : Type} (p : Program α) {w : World} {reading : Nat → Millis}
    (same : ∀ n, w.supply.read ≤ n → n < (p.run w).2.supply.read →
      reading n = w.supply.reading n) :
    p.run (w.withReading reading) = ((p.run w).1, (p.run w).2.withReading reading) := by
  induction p generalizing w with
  | done => rfl
  | step f k ih => exact ih _ (w := { w with platform := (f w.platform).2 }) same
  | clock k ih =>
    have first : reading w.supply.read = w.supply.reading w.supply.read :=
      same _ (Nat.le_refl _) (passes_run (k _) { w with supply := w.supply.readClock.2 }).read
    rw [run, run, ← ih _ (w := { w with supply := w.supply.readClock.2 }) fun n since =>
      same n (Nat.le_of_succ_le since)]
    change (k (reading w.supply.read)).run _ = _
    rw [first]
    rfl
  | random k ih => exact ih _ (w := { w with supply := w.supply.draw.2 }) same
  | @loop _ σ body limit s k hbody ih =>
    have looped : ∀ (n : Nat) (s : σ) (w : World),
        (∀ m, w.supply.read ≤ m →
          m < (rounds (fun s w => (body s).run w) n s w).2.supply.read →
            reading m = w.supply.reading m) →
        rounds (fun s w => (body s).run w) n s (w.withReading reading) =
          ((rounds (fun s w => (body s).run w) n s w).1,
            (rounds (fun s w => (body s).run w) n s w).2.withReading reading) := by
      intro n
      induction n with
      | zero => exact fun s w _ => rfl
      | succ n ihn =>
        intro s w same
        rw [rounds] at same ⊢
        rw [rounds]
        have later := ((repeatWhile body (fun _ => n) ((body s).run w).1.2).passes_run
          ((body s).run w).2).read
        rw [run_repeatWhile] at later
        have round := hbody s (w := w) fun m since til => same m since <| by
          split
          · exact Nat.lt_of_lt_of_le til later
          · exact til
        rw [round]
        have passes := (body s).passes_run w
        split
        · rename_i again
          rw [if_pos again] at same
          refine ihn _ _ fun m since til => ?_
          rw [passes.reading]
          exact same m (Nat.le_trans passes.read since) til
        · rfl
    have passes := (repeatWhile body (fun _ => limit w.platform) s).passes_run w
    rw [run_repeatWhile] at passes
    rw [run, run]
    change (k (rounds _ (limit w.platform) s (w.withReading reading)).1).run
      (rounds _ (limit w.platform) s (w.withReading reading)).2 = _
    rw [looped _ _ _ fun m since til =>
      same m since (Nat.lt_of_lt_of_le til (passes_run (k _) _).read)]
    refine ih _ fun m since til => ?_
    rw [passes.reading]
    exact same m (Nat.le_trans passes.read since) til

/-- A run under a clock that stands still for as long is a run under one that stands still. -/
theorem exists_still {α : Type} (p : Program α) {w : World} {now : Millis}
    (still : ∀ n, w.supply.read ≤ n → n < (p.run w).2.supply.read → w.supply.reading n = now) :
    ∃ v : World, v.store = w.store ∧ (∀ n, v.supply.reading n = now) ∧
      (p.run v).1 = (p.run w).1 ∧ (p.run v).2.store = (p.run w).2.store := by
  have run := p.run_withReading fun n since til => (still n since til).symm
  refine ⟨w.withReading fun _ => now, rfl, fun _ => rfl, ?_, ?_⟩
  · rw [run]
  · rw [run]
    rfl

/-- A run draws from one sequence of words. -/
theorem word_run {α : Type} (p : Program α) (w : World) :
    (p.run w).2.supply.word = w.supply.word :=
  supply_run (R := fun s t => t.word = s.word) (fun _ => rfl) (fun h h' => h'.trans h)
    (fun _ => rfl) (fun _ => rfl) p w

end Program

/-! ## Draining -/

section Draining

variable {service : ServiceId} {w : World} {h : Session} {c : Credential} {n : Nat}

theorem run_checkout_of_spare (known : w.store.credential? c.id = some c)
    (capacity : c.hasCapacity = true) :
    (Vault.checkout c.id).run w =
      (some (c.occupy (w.time 0)),
        (w.tick 1).withStore (w.store.addCredential (c.occupy (w.time 0)))) := by
  unfold Vault.checkout
  simp only [Program.bind_eq, Program.run_bind, Program.run_now, Program.run_onStore,
    Supply.readClock, Store.checkout, known, capacity, if_true]
  rfl

theorem run_checkoutFirst_of_spare {cs : List Credential}
    (known : w.store.credential? c.id = some c) (capacity : c.hasCapacity = true) :
    (Vault.checkoutFirst (c :: cs)).run w =
      (some (c.occupy (w.time 0)),
        (w.tick 1).withStore (w.store.addCredential (c.occupy (w.time 0)))) := by
  rw [Vault.checkoutFirst, Program.bind_eq, Program.run_bind, run_checkout_of_spare known capacity]
  rfl

/-- A slot that is offered to a session that waits is taken. -/
theorem run_offer {time : Millis} (stored : w.store.session? h.id = some h)
    (waits : h.state = .queued) :
    ((Program.onStore (·.applyEvent h.id (.start c.id time))).bind fun moved =>
        if moved.isSome = true then Program.done (true, n + 1)
        else (Vault.checkin c.id).bind fun _ => .done (true, n)).run w =
      ((true, n + 1), w.withStore
        { w.store with sessions := w.store.sessions.insert (h.started c.id time) }) := by
  have admitted := Store.applyEvent_eq stored (Session.apply_start waits c.id time)
  rw [Program.run_bind, Program.run_onStore, admitted]
  rfl

/-- **A round with somebody waiting and a slot to spare**: the head of the queue starts on the first
credential that has one. -/
theorem run_drainRound_of_spare (head : (w.store.queue service).head? = some h)
    (spare : (w.store.available service).head? = some c) :
    (Broker.drainRound service n).run w =
      ((true, n + 1),
        (w.tick 2).withStore (w.store.grant h c (w.time 0) (w.time 1))) := by
  obtain ⟨cs, hcs⟩ := List.head?_eq_some_iff.1 spare
  obtain ⟨known, -, capacity⟩ := Store.mem_available.1 (List.mem_of_head? spare)
  obtain ⟨stored, waits, -⟩ := Store.mem_queue.1 (List.mem_of_head? head)
  unfold Broker.drainRound
  simp only [Program.bind_eq, Program.pure_eq]
  rw [Program.run_bind, Program.run_query, head]
  dsimp only
  rw [Program.run_bind, Program.run_query, hcs]
  dsimp only
  rw [Program.run_bind, run_checkoutFirst_of_spare known capacity]
  dsimp only
  rw [Program.run_bind, Program.run_now, Credential.id_occupy]
  exact run_offer stored waits

/-- **A round with nobody waiting or no slot to spare** is the last one. -/
theorem run_drainRound_of_none
    (none : w.store.queue service = [] ∨ w.store.available service = []) :
    (Broker.drainRound service n).run w = ((false, n), w) := by
  unfold Broker.drainRound
  simp only [Program.bind_eq, Program.pure_eq, Program.run_bind, Program.run_query]
  rcases none with hqueue | havailable
  · rw [hqueue]
    rfl
  · cases (w.platform.store.queue service).head? with
    | none => rfl
    | some h =>
      simp only [Program.run_bind, Program.run_query, havailable]
      rfl

theorem queueDepth_grant {s : Store} {t u : Millis} (head : (s.queue service).head? = some h) :
    (s.grant h c t u).queueDepth service + 1 = s.queueDepth service := by
  obtain ⟨stored, waits, hservice⟩ := Store.mem_queue.1 (List.mem_of_head? head)
  have count := countP_placeIn (·.waitsFor service) (h.started c.id u) s.sessions.entries
  have found : (s.sessions.entries.find? fun x => decide (Keyed.key x = Keyed.key h)) = some h :=
    stored
  have before : h.waitsFor service = true := by simp [Session.waitsFor, waits, hservice]
  have after : (h.started c.id u).waitsFor service = false := rfl
  change _ + ((s.sessions.entries.find? fun x => decide (Keyed.key x = Keyed.key h)).elim 0 _) = _
    at count
  rw [found, Option.elim_some, before, after] at count
  exact count

theorem store_run_drainQueue (w : World) :
    ((Broker.drainQueue service).run w).2.store =
      (rounds (fun n w => (Broker.drainRound service n).run w) (w.store.queueDepth service + 1) 0
        w).2.store := by
  have counted : ∀ (n : Nat) (w : World),
      ((if 0 < n then (Program.count (.admitted service) n).bind fun _ => Program.done n
        else .done n).run w).2.store = w.store := by
    intro n w
    split
    · rfl
    · rfl
  unfold Broker.drainQueue
  simp only [Program.bind_eq, Program.pure_eq]
  rw [Program.run_bind]
  exact counted _ _

/-- Draining counts what it does after its last round. -/
theorem passes_run_drainQueue (w : World) :
    (rounds (fun n w => (Broker.drainRound service n).run w) (w.store.queueDepth service + 1) 0
      w).2.Passes ((Broker.drainQueue service).run w).2 := by
  unfold Broker.drainQueue
  simp only [Program.bind_eq, Program.pure_eq]
  rw [Program.run_bind]
  exact Program.passes_run _ _

/-- Draining where no slot is left does nothing. -/
theorem run_drainQueue_of_none (none : w.store.available service = []) :
    (Broker.drainQueue service).run w = (0, w) := by
  unfold Broker.drainQueue
  simp only [Program.bind_eq, Program.pure_eq]
  rw [Program.run_bind, Program.run_repeatWhile,
    show Broker.drainLimit service w.platform = w.store.queueDepth service + 1 from rfl, rounds,
    run_drainRound_of_none (.inr none)]
  rfl

end Draining

/-! ## Bills -/

section Bills

variable {w : World} {y : Session} {definition : Service}

/-- Billing writes nothing but the ledger. -/
theorem store_run_recordSession (y : Session) (w : World) : ∃ ledger,
    ((Billing.recordSession y).run w).2.store = { w.store with ledger := ledger } := by
  unfold Billing.recordSession
  simp only [Program.bind_eq, Program.pure_eq]
  rw [Program.run_bind, Program.run_query]
  cases w.platform.store.service? y.service with
  | none => exact ⟨w.store.ledger, rfl⟩
  | some definition => exact ⟨_, rfl⟩

theorem store_run_releaseAndBill (y : Session) (w : World) : ∃ ledger,
    ((Broker.releaseAndBill y).run w).2.store = { w.store.giveBack y with ledger := ledger } := by
  -- the bill is the last step, whatever comes of it
  have bill : ∀ (w : World) (k : Except Failure UsageRecord → Program (Option UsageRecord)),
      (∀ r, ∃ a, k r = .done a) → ∃ ledger,
        (((Billing.recordSession y).bind k).run w).2.store = { w.store with ledger := ledger } := by
    intro w k last
    obtain ⟨ledger, hledger⟩ := store_run_recordSession y w
    obtain ⟨a, ha⟩ := last ((Billing.recordSession y).run w).1
    refine ⟨ledger, ?_⟩
    rw [Program.run_bind, ha, Program.run_done, hledger]
  unfold Broker.releaseAndBill Store.giveBack
  cases y.credential with
  | none =>
    refine bill w _ fun r => ?_
    cases r <;> exact ⟨_, rfl⟩
  | some c =>
    refine bill (w.withStore (w.store.checkin c)) _ fun r => ?_
    cases r <;> exact ⟨_, rfl⟩

/-- The record of a session that is billed now. -/
def World.bill (w : World) (y : Session) (definition : Service) : UsageRecord :=
  .ofSession (Ident.hex Ident.longDigits w.supply.draw.1) y definition (w.time 0)

theorem run_recordSession (known : w.store.service? y.service = some definition) : ∃ v,
    (Billing.recordSession y).run w = (.ok (w.bill y definition), v) ∧
      v.supply = w.supply.readClock.2.draw.2 ∧
      v.store = w.store.appendUsage (w.bill y definition) := by
  unfold Billing.recordSession
  simp only [Program.bind_eq, Program.pure_eq]
  rw [Program.run_bind, Program.run_query, known]
  exact ⟨_, rfl, rfl, rfl⟩

/-- **The slot of a session that has left is checked in, and one record of it is written.** -/
theorem run_releaseAndBill (known : w.store.service? y.service = some definition) : ∃ v,
    (Broker.releaseAndBill y).run w = (some (w.bill y definition), v) ∧
      v.supply = w.supply.readClock.2.draw.2 ∧
      v.store = (w.store.giveBack y).appendUsage (w.bill y definition) := by
  unfold Broker.releaseAndBill Store.giveBack
  cases y.credential with
  | none =>
    obtain ⟨v, run, supply, store⟩ := run_recordSession known
    refine ⟨v, ?_, supply, store⟩
    simp only [Program.bind_eq, Program.pure_eq]
    rw [Program.run_bind, run]
    rfl
  | some c =>
    have known' : (w.withStore (w.store.checkin c)).store.service? y.service = some definition := by
      rw [World.store_withStore, Store.service?, Store.services_checkin]
      exact known
    obtain ⟨v, run, supply, store⟩ := run_recordSession known'
    refine ⟨v, ?_, supply, store⟩
    simp only [Program.bind_eq, Program.pure_eq]
    change ((Billing.recordSession y).bind _).run (w.withStore (w.store.checkin c)) = _
    rw [Program.run_bind, run]
    rfl

end Bills

/-! ## Ends -/

section Ends

variable {w : World} {id : SessionId} {x y : Session}

/-- The end of a session that is unknown or over already. -/
theorem run_endSession_of_ignored
    (ignored : w.store.applyEvent id (.finish (w.time 0)) = (none, w.store)) :
    (Broker.endSession id).run w = (none, w.tick 1) := by
  unfold Broker.endSession
  simp only [Program.bind_eq, Program.pure_eq]
  rw [Program.run_bind, Program.run_now]
  dsimp only
  rw [Program.run_bind, Program.run_onStore, show w.supply.readClock.1 = w.time 0 from rfl, ignored]
  rfl

/-- The end of a session that waits. -/
theorem run_endSession_of_queued (found : w.store.session? id = some x) (waits : x.state = .queued)
    (moved : x.apply (.finish (w.time 0)) = some y) :
    (Broker.endSession id).run w =
      (none, (w.tick 1).withStore { w.store with sessions := w.store.sessions.insert y }) := by
  unfold Broker.endSession
  simp only [Program.bind_eq, Program.pure_eq]
  rw [Program.run_bind, Program.run_now]
  dsimp only
  rw [Program.run_bind, Program.run_onStore, show w.supply.readClock.1 = w.time 0 from rfl,
    Store.applyEvent_eq found moved, waits]
  rfl

/-- The end of a running session: its slot is given back, it is billed, and the queue is drained. -/
theorem run_endSession_of_active (found : w.store.session? id = some x) (runs : x.state = .active)
    (moved : x.apply (.finish (w.time 0)) = some y) :
    (Broker.endSession id).run w =
      let r := (Broker.releaseAndBill y).run
        ((w.tick 1).withStore { w.store with sessions := w.store.sessions.insert y })
      (r.1, ((Broker.drainQueue y.service).run r.2).2) := by
  unfold Broker.endSession
  simp only [Program.bind_eq, Program.pure_eq]
  rw [Program.run_bind, Program.run_now]
  dsimp only
  rw [Program.run_bind, Program.run_onStore, show w.supply.readClock.1 = w.time 0 from rfl,
    Store.applyEvent_eq found moved, runs]
  dsimp only
  rw [Program.run_bind, Program.run_bind]
  rfl

end Ends

/-! ## Requests -/

section Requests

variable {w : World} {user : UserId} {service : ServiceId} {definition : Service} {c : Credential}

theorem firstAvailable_eq (s : Store) (service : ServiceId) :
    s.firstAvailable service = (s.available service).head? :=
  List.head?_filter.symm

theorem run_admitNew_of_none {session : Session} {now : Millis}
    (none : w.store.available session.service = []) :
    (Broker.admitNew session now).run w = (session, w) := by
  unfold Broker.admitNew
  simp only [Program.bind_eq, Program.pure_eq]
  rw [Program.run_bind, Program.run_query, firstAvailable_eq, none]
  rfl

theorem run_admitNew_of_spare {session : Session} {now : Millis} (waits : session.state = .queued)
    (spare : (w.store.available session.service).head? = some c) :
    (Broker.admitNew session now).run w =
      (session.started c.id now,
        (w.tick 1).withStore (w.store.addCredential (c.occupy (w.time 0)))) := by
  obtain ⟨known, -, capacity⟩ := Store.mem_available.1 (List.mem_of_head? spare)
  unfold Broker.admitNew
  simp only [Program.bind_eq, Program.pure_eq]
  rw [Program.run_bind, Program.run_query, firstAvailable_eq, spare]
  dsimp only
  rw [Program.run_bind, run_checkout_of_spare known capacity]
  dsimp only
  rw [c.id_occupy, Session.apply_start waits]
  rfl

/-- The session that a user gets who asks for a service now, before it has a slot or a number. -/
def World.asking (w : World) (user : UserId) (service : ServiceId) : Session where
  id := Ident.hex Ident.longDigits w.supply.draw.1
  user := user
  service := service
  queuedAt := w.time 0

/-- A request for a service that is not registered is refused. -/
theorem run_requestSession_of_unknown (user : UserId) (unknown : w.store.service? service = none) :
    (Broker.requestSession user service).run w = (.error (.serviceNotFound service), w) := by
  unfold Broker.requestSession
  simp only [Program.bind_eq, Program.pure_eq]
  rw [Program.run_bind, Program.run_query, unknown]
  rfl

/-- A request up to the look for a slot. -/
theorem run_requestSession (known : w.store.service? service = some definition) :
    (Broker.requestSession user service).run w =
      ((Broker.admitNew (w.asking user service) (w.time 0)).bind fun session =>
        (Program.onStore (·.addSession session)).bind fun stored =>
          if stored.state = .queued then
            (Broker.drainQueue service).bind fun _ =>
              (Program.query fun s => (s.session? stored.id).getD stored).bind fun settled =>
                (Program.count (.requested service settled.state.label) 1).bind fun _ =>
                  .done (.ok settled)
          else
            (Program.done stored).bind fun settled =>
              (Program.count (.requested service settled.state.label) 1).bind fun _ =>
                .done (.ok settled)).run
        { w with supply := w.supply.readClock.2.draw.2 } := by
  unfold Broker.requestSession
  simp only [Program.bind_eq, Program.pure_eq]
  rw [Program.run_bind, Program.run_query, known]
  rfl

/-- A request reads the clock. -/
theorem read_lt_run_requestSession (user : UserId)
    (known : w.store.service? service = some definition) :
    w.supply.read < ((Broker.requestSession user service).run w).2.supply.read := by
  rw [run_requestSession known]
  refine Nat.lt_of_lt_of_le (Nat.lt_succ_self w.supply.read) ?_
  exact (Program.passes_run _ { w with supply := w.supply.readClock.2.draw.2 }).read

/-- The world once a request has been counted by the state in which its session came back. -/
def World.requested (w : World) (service : ServiceId) (state : Session.State) : World :=
  ((Program.count (.requested service state.label) 1).run w).2

/-- **A request where there is a slot** takes it before it stores its session. -/
theorem run_requestSession_eq_of_spare (user : UserId)
    (known : w.store.service? service = some definition)
    (spare : (w.store.available service).head? = some c) :
    (Broker.requestSession user service).run w =
      let stored := (w.store.addCredential (c.occupy (w.time 1))).addSession
        ((w.asking user service).started c.id (w.time 0))
      (.ok stored.1,
        World.requested
          { platform := { w.platform with store := stored.2 }
            supply := w.supply.readClock.2.draw.2.readClock.2 } service .active) := by
  rw [run_requestSession known, Program.run_bind, run_admitNew_of_spare rfl spare]
  rfl

/-- **A request where there is no slot** stores its session, and draining the queue changes
nothing. -/
theorem run_requestSession_eq_of_full (user : UserId)
    (known : w.store.service? service = some definition)
    (full : w.store.available service = []) :
    (Broker.requestSession user service).run w =
      let stored := w.store.addSession (w.asking user service)
      (.ok stored.1,
        World.requested
          { platform := { w.platform with store := stored.2 }
            supply := w.supply.readClock.2.draw.2 } service .queued) := by
  have waits : (w.store.addSession (w.asking user service)).1.state = .queued := rfl
  have stored : (w.store.addSession (w.asking user service)).2.session?
      (w.store.addSession (w.asking user service)).1.id =
        some (w.store.addSession (w.asking user service)).1 :=
    (Table.find?_insert _ _ _).trans (if_pos rfl)
  have drained : (Broker.drainQueue service).run
      { platform := { w.platform with store := (w.store.addSession (w.asking user service)).2 }
        supply := w.supply.readClock.2.draw.2 } = (0, _) := run_drainQueue_of_none full
  rw [run_requestSession known, Program.run_bind, run_admitNew_of_none full, Program.run_bind,
    Program.run_onStore]
  dsimp only
  rw [if_pos waits, Program.run_bind, drained, Program.run_bind, Program.run_query]
  dsimp only
  rw [stored]
  rfl

/-- **A request starts a session** on the first credential that has a slot. -/
theorem run_requestSession_of_spare (user : UserId)
    (known : w.store.service? service = some definition)
    (spare : (w.store.available service).head? = some c) : ∃ v,
    let store := w.store.addCredential (c.occupy (w.time 1))
    let session := (w.asking user service).started c.id (w.time 0)
    (Broker.requestSession user service).run w = (.ok (store.addSession session).1, v) ∧
      v.store = (store.addSession session).2 :=
  ⟨_, run_requestSession_eq_of_spare user known spare, rfl⟩

/-- **A request joins the queue** if no credential has a slot. -/
theorem run_requestSession_of_full (user : UserId)
    (known : w.store.service? service = some definition)
    (full : w.store.available service = []) : ∃ v,
    (Broker.requestSession user service).run w =
        (.ok (w.store.addSession (w.asking user service)).1, v) ∧
      v.store = (w.store.addSession (w.asking user service)).2 :=
  ⟨_, run_requestSession_eq_of_full user known full, rfl⟩

end Requests

/-! ## Credentials -/

section Credentials

variable {w : World} {service : ServiceId} {definition : Service}

/-- The credential that is issued now for a service. -/
def World.issuing (w : World) (key : Codec.Key) (service : ServiceId) (definition : Service)
    (identity secret : String) (tier : Tier) : Credential where
  id := Ident.hex Ident.shortDigits w.supply.draw.1
  service := service
  identity := identity
  sealedSecret := key.conceal secret
  tier := tier
  maxStreams := min tier.capacity definition.streamCap
  state := .available
  active := 0
  lastCheckout := none

/-- A credential for a service that is registered is issued. -/
theorem run_storeCredential (key : Codec.Key) (identity secret : String) (tier : Tier)
    (known : w.store.service? service = some definition) :
    let c := w.issuing key service definition identity secret tier
    (Vault.storeCredential key service identity secret tier).run w =
      (.ok c, { w with supply := w.supply.draw.2 }.withStore (w.store.addCredential c)) := by
  unfold Vault.storeCredential
  simp only [Program.bind_eq, Program.pure_eq]
  rw [Program.run_bind, Program.run_query, known]
  rfl

theorem run_storeCredential_of_unknown (key : Codec.Key) (identity secret : String) (tier : Tier)
    (unknown : w.store.service? service = none) :
    (Vault.storeCredential key service identity secret tier).run w =
      (.error (.serviceNotFound service), w) := by
  unfold Vault.storeCredential
  simp only [Program.bind_eq, Program.pure_eq]
  rw [Program.run_bind, Program.run_query, unknown]
  rfl

end Credentials

end SlotBroker
