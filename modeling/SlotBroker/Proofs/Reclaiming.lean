import SlotBroker.Proofs.Outcome

/-!
# Reclaiming in any order

Users may end their sessions one after the other, with the queue drained each time, or the sweep may
expire them, with the queue drained once for each service. Where the clock stands still, it matters
to nobody but the credentials: the same sessions leave, the same sessions start, and the same bills
are written.

Results:
* `Reclaims.reclaimed`: what reclaiming comes to, told from the store at the beginning and the
  sessions that leave.
* `reclaims_endEach`, `reclaims_sweep`: ends one by one are reclaiming, and so is the sweep; the
  latter of exactly those that are overdue.
* **`reclaiming_commutes`**: ends in any order and the sweep agree but for the choice of
  credentials.
-/

namespace SlotBroker

/-! ## What it comes to -/

/-- A running session is not in a queue. -/
theorem Store.not_mem_take_queue {s : Store} {x : Session} {service : ServiceId} {n : Nat}
    (runs : x.state = .active) : x ∉ (s.queue service).take n := fun taken => by
  obtain ⟨-, waits, -⟩ := Store.mem_queue.1 (List.mem_of_mem_take taken)
  cases runs.symm.trans waits

/-- The number of sessions that start from a queue when some running ones leave their slots. -/
def Store.entrants (s : Store) (xs : List Session) (service : ServiceId) : Nat :=
  if xs.countP (fun x => x.service = service) = 0 then 0
  else min (s.queue service).length
    (s.spareSlots service + xs.countP fun x => x.service = service && s.frees x)

/-- What a store has become when some running sessions have left their slots and all that could
start has. The credentials on which sessions start are left open. -/
structure Reclaimed (s : Store) (now : Millis) (xs : List Session) (state : Session.State)
    (t : Store) : Prop where
  left : ∀ x ∈ xs, t.session? x.id = some (x.leave state now)
  started : ∀ a, ∀ x ∈ (s.queue a).take (s.entrants xs a),
    ∃ c, t.session? x.id = some (x.started c now)
  kept : ∀ {id x}, s.session? id = some x → (∀ y ∈ xs, y.id ≠ id) →
    x ∉ (s.queue x.service).take (s.entrants xs x.service) → t.session? id = some x
  unknown : ∀ {id}, s.session? id = none → t.session? id = none
  queue : ∀ a, t.queue a = (s.queue a).drop (s.entrants xs a)
  spare : ∀ a, t.spareSlots a + s.entrants xs a =
    s.spareSlots a + xs.countP fun x => x.service = a && s.frees x
  used : ∀ a, t.tally a (·.active.toNat) + xs.countP (fun x => x.service = a) =
    s.tally a (·.active.toNat) + s.entrants xs a
  credentials : t.credentials.entries.map Credential.idle =
    s.credentials.entries.map Credential.idle
  ledger : ∃ records, t.ledger = s.ledger ++ records ∧
    (records.map fun r => some r.unnamed).Perm (xs.map fun x => s.bill now (x.leave .ended now))
  services : t.services = s.services
  users : t.users = s.users
  sequence : t.sequence = s.sequence

/-- **What reclaiming comes to** is settled by the sessions that leave. -/
theorem Reclaims.reclaimed {w v : World} {now : Millis} {gone xs : List Session}
    {state : Session.State} (h : Reclaims ⟨w, none, []⟩ ⟨v, none, gone⟩) (standing : Standing w now)
    (running : ∀ x ∈ xs, w.store.session? x.id = some x ∧ x.state = .active)
    (same : gone.Perm (xs.map (·.leave state now))) :
    Reclaimed w.store now xs state v.store := by
  have leavers : Stage.Leavers w.store now ⟨v, none, gone⟩ := fun y hy => by
    obtain ⟨x, hx, rfl⟩ := List.mem_map.1 (same.mem_iff.1 hy)
    exact ⟨rfl, .inr ⟨x, running x hx⟩⟩
  obtain ⟨admitted, sessions, slots, records⟩ := h.outcome standing leavers
  have count : ∀ p : Session → Bool, (∀ x, p (x.leave state now) = p x) →
      gone.countP p = xs.countP p := fun p blind => by
    rw [same.countP_eq, List.countP_map]
    exact List.countP_congr fun x _ => by rw [Function.comp_apply, blind]
  obtain rfl : admitted = w.store.entrants xs := by
    funext a
    rw [slots.admitted_eq sessions rfl, count _ fun _ => rfl, count _ fun _ => rfl]
    rfl
  have there : ∀ x ∈ xs, x.leave state now ∈ gone := fun x hx =>
    same.mem_iff.2 (List.mem_map_of_mem hx)
  refine ⟨fun x hx => ?_, sessions.started, fun hx apart => ?_, sessions.unknown, sessions.queue,
    fun a => ?_, fun a => ?_, slots.credentials, ?_, records.services, records.users,
    records.sequence⟩
  · obtain ⟨-, -, -, -, -, stored⟩ := sessions.left _ (there x hx)
    exact stored
  · refine sessions.kept hx fun y hy => ?_
    obtain ⟨x, hx, rfl⟩ := List.mem_map.1 (same.mem_iff.1 hy)
    exact apart x hx
  · rw [← count _ fun _ => rfl]
    exact slots.spare a
  · rw [← count _ fun _ => rfl]
    exact slots.used a
  · obtain ⟨written, ledger, bills⟩ := records.ledger
    refine ⟨written, ledger, bills ▸ ?_⟩
    have billed := same.map (w.store.bill now)
    rwa [List.map_map] at billed

/-! ## Ends one by one -/

/-- Some sessions are ended, one after the other. -/
def endEach (xs : List Session) (w : World) : World :=
  xs.foldl (fun w x => ((Broker.endSession x.id).run w).2) w

/-- **Ends one by one reclaim the slots.** -/
theorem reclaims_endEach {xs : List Session} {w : World} {now : Millis} (left : List Session)
    (standing : Standing w now) (nodup : xs.Nodup)
    (running : ∀ x ∈ xs, w.store.session? x.id = some x ∧ x.state = .active) :
    Reclaims ⟨w, none, left⟩ ⟨endEach xs w, none, left ++ xs.map (·.leave .ended now)⟩ := by
  induction xs generalizing w left with
  | nil =>
    rw [List.map_nil, List.append_nil]
    exact .refl
  | cons x rest ih =>
    obtain ⟨found, runs⟩ := running x List.mem_cons_self
    obtain ⟨apart, nodup'⟩ := List.nodup_cons.1 nodup
    obtain ⟨definition, known⟩ := Option.isSome_iff_exists.1 (standing.coherent.registered found)
    have moved : x.apply (.finish (w.time 0)) = some (x.leave .ended now) := by
      rw [show w.time 0 = now from standing.still _ (Nat.le_refl _)]
      exact Session.apply_finish runs now
    have ends : ∀ left : List Session, Reclaims ⟨w, none, left⟩
        ⟨((Broker.endSession x.id).run w).2, none, left ++ [x.leave .ended now]⟩ := fun left =>
      reclaims_endSession found runs known moved
    have standing' := (ends []).standing standing
    have reclaimed : Reclaimed w.store now [x] .ended ((Broker.endSession x.id).run w).2.store :=
      (ends []).reclaimed standing (fun z hz => List.mem_singleton.1 hz ▸ ⟨found, runs⟩) (.refl _)
    -- those that are to be ended later run on as they did
    have running' : ∀ z ∈ rest, ((Broker.endSession x.id).run w).2.store.session? z.id = some z ∧
        z.state = .active := fun z hz => by
      obtain ⟨stored, active⟩ := running z (List.mem_cons_of_mem x hz)
      refine ⟨reclaimed.kept stored (fun y hy same => apart ?_) (Store.not_mem_take_queue active),
        active⟩
      rw [List.mem_singleton.1 hy] at same
      rw [same, stored] at found
      exact Option.some.inj found ▸ hz
    have others := ih (left ++ [x.leave .ended now]) standing' nodup' running'
    rw [List.append_assoc] at others
    exact (ends left).trans others

/-! ## The sweep -/

/-- The running sessions that are overdue now. -/
def Store.overdueAt (s : Store) (now : Millis) : List Session :=
  s.sessions.entries.filter fun x => x.state = .active &&
    (s.service? x.service).any fun definition => x.overdue definition.limitMillis now

theorem Store.mem_overdueAt {s : Store} {now : Millis} {x : Session} : x ∈ s.overdueAt now ↔
    s.session? x.id = some x ∧ x.state = .active ∧ ∃ definition,
      s.service? x.service = some definition ∧ x.overdue definition.limitMillis now = true := by
  simp only [overdueAt, List.mem_filter, Bool.and_eq_true, decide_eq_true_eq,
    Option.any_eq_true, session?_eq_some_iff, and_true]

/-- **The sweep reclaims the slots of exactly those that are overdue.** -/
theorem reclaims_sweep {xs : List Session} {w : World} {now : Millis} (standing : Standing w now)
    (nodup : xs.Nodup) (overdue : ∀ x, x ∈ xs ↔ x ∈ w.store.overdueAt now) : ∃ gone,
    Reclaims ⟨w, none, []⟩ ⟨(Broker.enforceLimits.run w).2, none, gone⟩ ∧
      gone.Perm (xs.map (·.leave .expired now)) := by
  obtain ⟨⟨gone, -, expired, steps⟩, cleared⟩ := sweeps_enforceLimits [] standing.coherent
  rw [List.nil_append] at steps
  have leavers : Stage.Leavers w.store now ⟨(Broker.enforceLimits.run w).2, none, gone⟩ :=
    fun y hy => by
      obtain ⟨state, n, since, ended⟩ := expired y hy
      rw [standing.still n since] at ended
      exact ⟨ended, .inl state⟩
  obtain ⟨admitted, sessions, -, -⟩ := steps.outcome standing leavers
  refine ⟨gone, steps, (List.perm_ext_iff_of_nodup sessions.nodup ?_).2 fun y => ?_⟩
  · refine nodup.map_on fun x hx z hz same => ?_
    have stored := (Store.mem_overdueAt.1 ((overdue x).1 hx)).1
    have hid := congrArg Session.id same
    change x.id = z.id at hid
    rw [hid, (Store.mem_overdueAt.1 ((overdue z).1 hz)).1] at stored
    exact (Option.some.inj stored).symm
  · rw [List.mem_map]
    constructor
    · intro hy
      obtain ⟨x, stored, runs, leaves, -, -⟩ := sessions.left y hy
      rw [(expired y hy).1] at leaves
      obtain ⟨definition, known, late⟩ := sessions.late y hy (expired y hy).1
      rw [leaves] at known late
      exact ⟨x, (overdue x).2 (Store.mem_overdueAt.2
        ⟨Store.session?_self stored, runs, definition, known, late⟩), leaves.symm⟩
    · rintro ⟨x, hx, rfl⟩
      obtain ⟨stored, runs, definition, known, late⟩ := Store.mem_overdueAt.1 ((overdue x).1 hx)
      have asks : definition.id = x.service := Table.find?_key known
      obtain ⟨z, hz, terminal⟩ := cleared x ⟨definition, asks ▸ known, stored, runs, asks.symm,
        fun n read => by rw [standing.still n read]; exact late⟩
      -- it has ended, so it is among those that have left
      by_contra absent
      have still : (Broker.enforceLimits.run w).2.store.session? x.id = some x := by
        refine sessions.kept stored (fun y hy same => absent ?_) (Store.not_mem_take_queue runs)
        obtain ⟨x', stored', -, leaves, -, -⟩ := sessions.left y hy
        rw [same, stored] at stored'
        rw [(expired y hy).1, ← Option.some.inj stored'] at leaves
        exact leaves ▸ hy
      rw [still] at hz
      rw [← Option.some.inj hz, runs] at terminal
      cases terminal

/-! ## Agreement -/

/-- The sessions of a queue that have come to run from the one store to the other. -/
def Store.admitted (s t : Store) (service : ServiceId) : List Session :=
  (s.queue service).filter fun x => (t.session? x.id).any (·.state = .active)

/-- Two worlds that the one store has led to agree on all but which credentials the admitted
sessions run on. Of the given sessions each has left its slot, in the one state or in the other. -/
structure Alike (s : Store) (now : Millis) (xs : List Session) (state state' : Session.State)
    (v v' : World) : Prop where
  left : ∀ x ∈ xs, v.store.session? x.id = some (x.leave state now) ∧
    v'.store.session? x.id = some (x.leave state' now)
  /-- Every other session is the same, but for the credential if it has been admitted. -/
  others : ∀ id, (∀ x ∈ xs, x.id ≠ id) → v.store.session? id = v'.store.session? id ∨
    ∃ x c c', s.session? id = some x ∧ x.state = .queued ∧
      v.store.session? id = some (x.started c now) ∧
      v'.store.session? id = some (x.started c' now)
  admitted : ∀ a, s.admitted v.store a = s.admitted v'.store a
  queues : ∀ a, v.store.queue a = v'.store.queue a
  statuses : ∀ a, ((Broker.serviceStatus a).run v).1 = ((Broker.serviceStatus a).run v').1
  ledgers : (v.store.ledger.map (·.unnamed)).Perm (v'.store.ledger.map (·.unnamed))
  /-- Of the slots of a service as many are held, and as many are spare. -/
  slots : ∀ a, v.store.tally a (·.active.toNat) = v'.store.tally a (·.active.toNat) ∧
    v.store.spareSlots a = v'.store.spareSlots a
  /-- The credentials are the same, but for the slots that are held. -/
  credentials : v.store.credentials.entries.map Credential.idle =
    v'.store.credentials.entries.map Credential.idle
  services : v.store.services = v'.store.services
  users : v.store.users = v'.store.users
  sequence : v.store.sequence = v'.store.sequence

namespace Store

variable {s t : Store}

/-- Credentials that are the same but for what is held belong to the same services. -/
theorem credentialsOf_of_map_idle
    (same : s.credentials.entries.map Credential.idle = t.credentials.entries.map Credential.idle)
    (a : ServiceId) :
    (s.credentialsOf a).map Credential.idle = (t.credentialsOf a).map Credential.idle := by
  have filtered := congrArg (List.filter fun c => decide (c.service = a)) same
  rwa [List.filter_map, List.filter_map] at filtered

/-- What does not depend on the slots that are held has the same sum. -/
theorem tally_of_map_idle
    (same : s.credentials.entries.map Credential.idle = t.credentials.entries.map Credential.idle)
    (a : ServiceId) {f : Credential → Nat} (blind : ∀ c, f c.idle = f c) :
    s.tally a f = t.tally a f := by
  have summed := congrArg (fun cs => (cs.map f).sum) (credentialsOf_of_map_idle same a)
  simp only [List.map_map, Function.comp_def, blind] at summed
  exact summed

/-- The status shows nothing of how the held slots are spread over credentials. -/
theorem status_of_map_idle
    (same : s.credentials.entries.map Credential.idle = t.credentials.entries.map Credential.idle)
    (definition : Service)
    (used : s.tally definition.id (·.active.toNat) = t.tally definition.id (·.active.toNat))
    (queue : s.queue definition.id = t.queue definition.id) :
    s.status definition = t.status definition := by
  have opened : s.openSlots definition.id = t.openSlots definition.id :=
    tally_of_map_idle same _ fun c => by
      simp only [c.state_idle]
      rfl
  have count := congrArg List.length (credentialsOf_of_map_idle same definition.id)
  rw [List.length_map, List.length_map] at count
  rw [status, status, opened, used, queue, count]

end Store

namespace Reclaimed

variable {s t t' : Store} {now : Millis} {xs : List Session} {state state' : Session.State}

/-- A session that waited when others left runs now if it was among the first of its queue, and
waits on if it was not. -/
theorem session?_eq (h : Reclaimed s now xs state t) {id : SessionId} {x : Session}
    (stored : s.session? id = some x) (apart : ∀ y ∈ xs, y.id ≠ id) :
    if x ∈ (s.queue x.service).take (s.entrants xs x.service) then
      x.state = .queued ∧ ∃ c, t.session? id = some (x.started c now)
    else t.session? id = some x := by
  split
  · rename_i taken
    obtain ⟨-, waits, -⟩ := Store.mem_queue.1 (List.mem_of_mem_take taken)
    rw [← (Store.session?_eq_some_iff.1 stored).2]
    exact ⟨waits, h.started _ x taken⟩
  · rename_i kept
    exact h.kept stored apart kept

/-- Each other session is the same but for the credential on which it may have started. -/
theorem others (h : Reclaimed s now xs state t) (h' : Reclaimed s now xs state' t')
    {id : SessionId} (apart : ∀ x ∈ xs, x.id ≠ id) : t.session? id = t'.session? id ∨
      ∃ x c c', s.session? id = some x ∧ x.state = .queued ∧
        t.session? id = some (x.started c now) ∧ t'.session? id = some (x.started c' now) := by
  cases stored : s.session? id with
  | none => exact .inl ((h.unknown stored).trans (h'.unknown stored).symm)
  | some x =>
    have here := h.session?_eq stored apart
    have there := h'.session?_eq stored apart
    split at here
    · rename_i taken
      rw [if_pos taken] at there
      obtain ⟨waits, c, hc⟩ := here
      obtain ⟨-, c', hc'⟩ := there
      exact .inr ⟨x, c, c', rfl, waits, hc, hc'⟩
    · rename_i kept
      rw [if_neg kept] at there
      exact .inl (here.trans there.symm)

/-- Bills are the same but for the ids of the records. -/
theorem ledgers (h : Reclaimed s now xs state t) (h' : Reclaimed s now xs state' t') :
    (t.ledger.map (·.unnamed)).Perm (t'.ledger.map (·.unnamed)) := by
  obtain ⟨records, ledger, bills⟩ := h.ledger
  obtain ⟨records', ledger', bills'⟩ := h'.ledger
  have same : ((records.map (·.unnamed)).map some).Perm ((records'.map (·.unnamed)).map some) := by
    rw [List.map_map, List.map_map]
    exact bills.trans bills'.symm
  rw [ledger, ledger', List.map_append, List.map_append]
  exact ((List.map_perm_map_iff (Option.some_injective _)).1 same).append_left _

/-- **Whatever the order, what it comes to is the same** but for the choice of credentials. -/
theorem alike {v v' : World} (h : Reclaimed s now xs state v.store)
    (h' : Reclaimed s now xs state' v'.store)
    (running : ∀ x ∈ xs, s.session? x.id = some x ∧ x.state = .active) :
    Alike s now xs state state' v v' := by
  have used : ∀ a, v.store.tally a (·.active.toNat) = v'.store.tally a (·.active.toNat) :=
    fun a => Nat.add_right_cancel ((h.used a).trans (h'.used a).symm)
  have queues : ∀ a, v.store.queue a = v'.store.queue a :=
    fun a => (h.queue a).trans (h'.queue a).symm
  have credentials := h.credentials.trans h'.credentials.symm
  have services := h.services.trans h'.services.symm
  refine ⟨fun x hx => ⟨h.left x hx, h'.left x hx⟩, fun id apart => h.others h' apart, fun a => ?_,
    queues, fun a => ?_, h.ledgers h', fun a => ⟨used a, ?_⟩, credentials, services,
    h.users.trans h'.users.symm, h.sequence.trans h'.sequence.symm⟩
  · refine List.filter_congr fun x hx => ?_
    obtain ⟨stored, waits, -⟩ := Store.mem_queue.1 hx
    have apart : ∀ y ∈ xs, y.id ≠ x.id := fun y hy same => by
      obtain ⟨running, active⟩ := running y hy
      rw [same, stored] at running
      rw [← Option.some.inj running, waits] at active
      cases active
    rcases h.others h' apart with same | ⟨z, c, c', -, -, here, there⟩
    · rw [same]
    · rw [here, there]
      rfl
  · rw [run_serviceStatus, run_serviceStatus, Store.service?, Store.service?, services]
    cases v'.store.services.find? a with
    | none => rfl
    | some definition =>
      rw [Option.elim_some, Option.elim_some,
        Store.status_of_map_idle credentials definition (used _) (queues _)]
  · exact Nat.add_right_cancel ((h.spare a).trans (h'.spare a).symm)

end Reclaimed

/-! ## Any order -/

section Runs

variable {key : Codec.Key} {w : World} {past : List Moment}

theorem Orderly.standing (h : Orderly key w past) {now : Millis}
    (still : ∀ n, w.supply.read ≤ n → w.supply.reading n = now) : Standing w now :=
  ⟨h.coherent, h.numbered, h.settled, still⟩

/-- **Reclaiming depends neither on the order nor on the path.** Running sessions may be ended one
after the other, in any order, each time with the queue drained; and if they are exactly those that
are overdue, the sweep may expire them, with the queues drained afterwards. All of it agrees but for
the credentials that are given to the sessions that are admitted. -/
theorem reclaiming_commutes (h : Orderly key w past) {now : Millis}
    (still : ∀ n, w.supply.read ≤ n → w.supply.reading n = now) {xs : List Session}
    (nodup : xs.Nodup) (running : ∀ x ∈ xs, w.store.session? x.id = some x ∧ x.state = .active) :
    (∀ ys, xs.Perm ys →
      Alike w.store now xs .ended .ended (endEach xs w) (endEach ys w)) ∧
    ((∀ x, x ∈ xs ↔ x ∈ w.store.overdueAt now) →
      Alike w.store now xs .ended .expired (endEach xs w) (Broker.enforceLimits.run w).2) := by
  have standing := h.standing still
  have each : ∀ ys, xs.Perm ys → Reclaimed w.store now xs .ended (endEach ys w).store := by
    intro ys same
    have steps := reclaims_endEach [] standing (same.nodup_iff.1 nodup) fun y hy =>
      running y (same.mem_iff.2 hy)
    rw [List.nil_append] at steps
    exact steps.reclaimed standing running (same.symm.map _)
  have here := each xs (.refl xs)
  refine ⟨fun ys same => here.alike (each ys same) running, fun overdue => ?_⟩
  obtain ⟨gone, steps, same⟩ := reclaims_sweep standing nodup overdue
  exact here.alike (steps.reclaimed standing running same) running

end Runs

/-- Two sessions run on the two slots of a service, a third waits, and hours later nobody has
left. -/
def overnight : World × List Moment :=
  [Command.define oneSlot, .call (.issue "films" "house" "secret" .basic),
    .call (.issue "films" "flat" "secret" .basic), .call (.request "ann" "films"),
    .call (.request "bob" "films"), .call (.request "cy" "films")].foldl
    (Command.play Scene.plainKey)
    ({ platform := {}
       supply := { reading := fun n => if n < 5 then 0 else 7200001, word := UInt64.ofNat } }, [])

/-- Both are overdue. It does not matter who is ended first, nor whether the sweep expires them. -/
theorem reclaiming_commutes_overnight :
    let xs := overnight.1.store.overdueAt 7200001
    xs.length = 2 ∧ (overnight.1.store.queue "films").length = 1 ∧
      Alike overnight.1.store 7200001 xs .ended .ended (endEach xs overnight.1)
        (endEach xs.reverse overnight.1) ∧
      Alike overnight.1.store 7200001 xs .ended .expired (endEach xs overnight.1)
        (Broker.enforceLimits.run overnight.1).2 := by
  have reached : Orderly Scene.plainKey overnight.1 overnight.2 := .play (.start _ rfl) _
  have read : overnight.1.supply.read = 5 := by decide +kernel
  have still : ∀ n, overnight.1.supply.read ≤ n → overnight.1.supply.reading n = 7200001 := by
    intro n since
    rw [read] at since
    refine (congrFun (Command.reading_play Scene.plainKey _ _) n).trans (if_neg ?_)
    exact Nat.not_lt.2 since
  have nodup : (overnight.1.store.overdueAt 7200001).Nodup := by decide +kernel
  obtain ⟨orders, sweep⟩ := reclaiming_commutes reached still nodup fun x hx =>
    ⟨(Store.mem_overdueAt.1 hx).1, (Store.mem_overdueAt.1 hx).2.1⟩
  refine ⟨by decide +kernel, by decide +kernel, orders _ ?_, sweep fun x => Iff.rfl⟩
  exact (List.reverse_perm _).symm

/-- Only the credential of the third depends on who is ended first. -/
example :
    let xs := overnight.1.store.overdueAt 7200001
    (endEach xs overnight.1).store.sessions.entries.map (·.credential) =
        [some "000000000000", some "000000000001", some "000000000000"] ∧
      (endEach xs.reverse overnight.1).store.sessions.entries.map (·.credential) =
        [some "000000000000", some "000000000001", some "000000000001"] := by
  decide +kernel

end SlotBroker
