import SlotBroker.Proofs.Effects
import SlotBroker.Proofs.Headroom
import SlotBroker.Proofs.Tallies

/-!
# Metrics that agree with the store

Operations that do not overlap leave no count owed, whether they are called directly or asked for
over HTTP: what requests add of their own are their count and the end of a batch of samples, and no
series of sessions shows either. So after every operation the series of each service are counts of
its sessions, and what was started less what was billed is what runs.

Results:
* `Tallied.quiet`: what is owed does not depend on the count of requests.
* `Reconciled.allows`: whatever comes of requests leaves nothing owed.
* **`metrics_reconcile`**: the metrics show the numbers of sessions, and the used slots are those
  started less those billed.
-/

namespace SlotBroker

open Codec

/-! ## What is not counted as requests -/

theorem Store.Calls.congr {s : Store} {n n' : Counter → Nat} (h : s.Calls n)
    (same : ∀ c, Metrics.countsRequests c = false → n' c = n c) : s.Calls n' := by
  refine ⟨fun a => ?_, fun a => ?_, fun a => ?_, ?_, h.bills⟩
  · rw [same _ rfl, same _ rfl]
    exact h.requests a
  · rw [same _ rfl, same _ rfl]
    exact h.starts a
  · rw [same _ rfl]
    exact h.expiries a
  · rw [same _ rfl]
    exact h.sweeps

namespace Metrics

theorem lookup_filter {κ ν : Type} [DecidableEq κ] (p : κ → Bool) {k : κ} (hk : p k = true)
    (l : List (κ × ν)) : (l.filter fun x => p x.1).lookup k = l.lookup k := by
  induction l with
  | nil => rfl
  | cons x rest ih =>
    by_cases same : k = x.1
    · have kept : p x.1 = true := same ▸ hk
      rw [List.filter_cons, if_pos kept, List.lookup_cons, List.lookup_cons, ih]
    · rw [List.lookup_cons, beq_false_of_ne same, List.filter_cons]
      split
      · rw [List.lookup_cons, beq_false_of_ne same]
        exact ih
      · exact ih

theorem lookup_map {κ ν ν' : Type} [DecidableEq κ] (f : ν → ν') (k : κ) (l : List (κ × ν)) :
    (l.map fun x => (x.1, f x.2)).lookup k = (l.lookup k).map f := by
  induction l with
  | nil => rfl
  | cons x rest ih =>
    obtain ⟨k', v⟩ := x
    rw [List.map_cons, List.lookup_cons, List.lookup_cons, ih]
    cases k == k' <;> rfl

variable {m m' : Metrics}

theorem lookup_of_others (h : m'.others = m.others) {c : Counter}
    (hc : countsRequests c = false) : m'.counters.lookup c = m.counters.lookup c := by
  have kept : (!countsRequests c) = true := by rw [hc]; rfl
  rw [← lookup_filter (fun c => !countsRequests c) kept m'.counters,
    ← lookup_filter (fun c => !countsRequests c) kept m.counters]
  exact congrArg (fun o => o.1.lookup c) h

theorem billed_of_others (h : m'.others = m.others) : m'.billed = m.billed := by
  have count : ∀ (m : Metrics) (a : ServiceId), m.billed a =
      ((m.others.2.lookup a).map fun d => d.1.length).getD 0 := by
    intro m a
    unfold others billed durationsOf
    rw [lookup_map (fun d : Histogram => (d.samples, d.sum)) a m.durations, Option.map_map]
    cases m.durations.lookup a <;> rfl
  funext a
  rw [count, count, h]

end Metrics

/-- What is owed does not depend on the count of requests, nor on what nobody counts. -/
theorem Tallied.quiet {owed : Counter → Nat} {w v : World} (h : Tallied owed w)
    (quiet : w.Quiet v) : Tallied owed v where
  coherent := by
    rw [quiet.store]
    exact h.coherent
  counters := by
    obtain ⟨n, shows, called⟩ := h.counters
    -- requests are counted as they show, and the rest as before
    refine ⟨fun c => if Metrics.countsRequests c then (v.platform.metrics.value c).toNat else n c,
      ⟨quiet.recording.trans shows.recording, fun c => ?_, fun a outcome touched => ?_⟩, ?_⟩
    · split
      · rw [UInt64.ofNat_toNat]
      · rename_i other
        rw [← shows.value, Metrics.value, Metrics.value,
          Metrics.lookup_of_others quiet.metrics (Bool.eq_false_iff.2 other)]
    · rw [Metrics.lookup_of_others quiet.metrics rfl] at touched
      exact shows.labels a outcome touched
    · rw [quiet.store]
      refine called.congr fun c other => ?_
      simp [other]
  durations a := by
    rw [quiet.store, Metrics.billed_of_others quiet.metrics]
    exact h.durations a

/-! ## What operations keep -/

/-- Nothing is owed, and the counters of the credentials show the running sessions. -/
structure Reconciled (w : World) : Prop where
  tallied : Tallied 0 w
  settled : w.store.Settled

namespace Reconciled

variable {w v : World}

theorem coherent (h : Reconciled w) : w.store.Coherent := h.tallied.coherent

/-- What follows a course and owes nothing reconciles. -/
theorem of_course (h : Reconciled w) (course : Course w v) (tallied : Tallied 0 v) :
    Reconciled v :=
  ⟨tallied, course.settled h.coherent h.settled⟩

theorem requestSession (h : Reconciled w) {user : UserId} {service : ServiceId}
    (fresh : w.store.session? (Ident.hex Ident.longDigits w.supply.draw.1) = none) :
    Reconciled ((Broker.requestSession user service).run w).2 :=
  h.of_course (.requestSession fresh) (h.tallied.requestSession fresh)

theorem storeCredential (h : Reconciled w) {key : Key} {service : ServiceId}
    {identity secret : String} {tier : Tier}
    (fresh : w.store.credential? (Ident.hex Ident.shortDigits w.supply.draw.1) = none) :
    Reconciled ((Vault.storeCredential key service identity secret tier).run w).2 :=
  h.of_course (.storeCredential fresh) (h.tallied.storeCredential fresh)

theorem rotate (h : Reconciled w) (key : Key) (id : CredentialId) (secret : String) :
    Reconciled ((Vault.rotate key id secret).run w).2 :=
  h.of_course (.rotate key id secret w) (h.tallied.rotate key id secret)

theorem sweepCycle (h : Reconciled w) : Reconciled (Broker.sweepCycle.run w).2 where
  tallied := h.tallied.sweepCycle
  settled := by
    -- what is counted last is not stored
    have stored : (Broker.sweepCycle.run w).2.store = (Broker.enforceLimits.run w).2.store := by
      unfold Broker.sweepCycle
      simp only [Program.bind_eq]
      rw [Program.run_bind, Program.run_bind]
      rfl
    rw [stored]
    exact (Course.enforceLimits h.coherent).settled h.coherent h.settled

/-- **Whatever comes of requests leaves nothing owed.** -/
theorem allows : World.Allows fun w v => Reconciled w → Reconciled v where
  quiet quiet h := ⟨h.tallied.quiet quiet, by rw [quiet.store]; exact h.settled⟩
  trans first second h := second (first h)
  ends id _ h := h.of_course (.endSession id h.coherent) (h.tallied.endSession id)
  sweeps _ h := h.sweepCycle
  disables id w h := h.of_course (.disable id w) (h.tallied.disable id)
  registers username w h := h.of_course (.register username w) (h.tallied.register username)

theorem define (h : Reconciled w) (service : Service) :
    Reconciled (w.withStore (w.store.addService service)) where
  tallied := h.tallied.still rfl (h.coherent.addService service) rfl rfl
  settled := h.settled.of_eq rfl rfl

/-- An operation leaves nothing owed. A sweep alone would owe the count of what it expired. -/
theorem operation (h : Reconciled w) (key : Key) (op : Operation) (counted : op ≠ .sweep)
    (fresh : op.Fresh w) : Reconciled ((op.program key).run w).2 := by
  cases op <;> rw [Operation.program, Program.run_map]
  case request => exact h.requestSession fresh
  case finish id => exact allows.ends id w h
  case sweep => exact absurd rfl counted
  case issue => exact h.storeCredential fresh
  case disable id => exact allows.disables id w h
  case rotate id secret => exact h.rotate key id secret
  case register username => exact allows.registers username w h

end Reconciled

/-! ## What requests keep -/

namespace Http

open Handling

variable {request : Request} {w : World}

/-- No session has the id that will be drawn for one. -/
def NewSession (w : World) : Prop :=
  w.store.session? (Ident.hex Ident.longDigits w.supply.draw.1) = none

/-- No credential has the id that will be drawn for one. -/
def NewCredential (w : World) : Prop :=
  w.store.credential? (Ident.hex Ident.shortDigits w.supply.draw.1) = none

theorem reconciled_createSession (fresh : NewSession w) (hole : String) :
    Reconciled w → Reconciled ((Public.createSession hole request).outcome w).2 := by
  refine Reconciled.allows.look_bind (looks_bodyFields _ request) fun _ => ?_
  split
  · dsimp only
    split
    · exact id
    · intro h
      rw [Looks.world_bind (fun x => .bind (.lift (looks_placed x)) fun _ => .pure _),
        outcome_ofFailing]
      exact h.requestSession fresh
  · exact id

theorem reconciled_addCredential (fresh : NewCredential w) (key : Key) (hole : String) :
    Reconciled w → Reconciled ((Admin.addCredential key hole request).outcome w).2 := by
  refine Reconciled.allows.look_bind (looks_bodyFields _ request) fun _ => ?_
  split
  · split
    · dsimp only
      split
      · exact id
      · intro h
        rw [Looks.world_bind fun _ => .pure _, outcome_ofFailing]
        exact h.storeCredential fresh
    · exact id
  · exact id

theorem reconciled_rotateCredential (key : Key) (hole : String) :
    Reconciled w → Reconciled ((Admin.rotateCredential key hole request).outcome w).2 := by
  have allows := Reconciled.allows
  refine allows.bind (allows.looks (looks_pathId hole)) (fun id => allows.bind
    (allows.looks (looks_bodyFields _ request)) fun _ => ?_) w
  split
  · dsimp only
    split
    · exact allows.throw_bind _ _
    · refine allows.bind (World.Allows.lift fun w h => h.rotate key id _) fun known => ?_
      split
      · exact allows.looks (.bind (looks_credential id) fun _ => .pure _)
      · exact allows.throw_bind _ _
  · exact allows.looks (.throw _)

end Http

/-! ## Runs -/

/-- What is done without interference: a service is registered, an operation called, or a request
sent. A sweep is called as the server does, with its count. -/
inductive Transaction where
  | define (service : Service)
  | call (op : Operation)
  | sweep
  /-- A client sends a request. -/
  | clients (request : Http.Request)
  /-- The administration is sent a request. -/
  | administration (request : Http.Request)

namespace Transaction

/-- The world after a transaction. -/
def run (key : Key) : Transaction → World → World
  | define service, w => w.withStore (w.store.addService service)
  | call op, w => ((op.program key).run w).2
  | sweep, w => (Broker.sweepCycle.run w).2
  | clients request, w => ((Http.Public.handle request).run w).2
  | administration request, w => ((Http.Admin.handle key request).run w).2

/-- The id that will be drawn for a session or a credential is not in use, and no sweep goes without
its count. -/
def Sound (w : World) : Transaction → Prop
  | define _ | sweep => True
  | call op => op ≠ .sweep ∧ op.Fresh w
  | clients request => request.AsksSession → Http.NewSession w
  | administration request => request.AsksCredential → Http.NewCredential w

instance (w : World) : DecidablePred (Sound w)
  | define _ | sweep => inferInstanceAs (Decidable True)
  | call op =>
    have : Decidable (op = .sweep) := match op with
      | .sweep => isTrue rfl
      | .request .. | .finish _ | .issue .. | .disable _ | .rotate .. | .register _ =>
        isFalse Operation.noConfusion
    have : Decidable (op.Fresh w) := inferInstanceAs (Decidable ((Command.call op).Fresh w))
    inferInstanceAs (Decidable (¬ op = .sweep ∧ op.Fresh w))
  | clients request =>
    have : Decidable request.AsksSession := inferInstanceAs (Decidable (_ ∧ _))
    inferInstanceAs (Decidable (request.AsksSession → _ = none))
  | administration request =>
    have : Decidable request.AsksCredential := inferInstanceAs (Decidable (_ ∧ _))
    inferInstanceAs (Decidable (request.AsksCredential → _ = none))

end Transaction

/-- A world that transactions lead to, one after the other, from a platform without credentials and
sessions, on which nothing has been counted. -/
inductive Metered (key : Key) : World → Prop
  | start (w : World) (bare : w.store = { services := w.store.services })
      (blank : w.platform.metrics = {}) : Metered key w
  | next {w : World} (t : Transaction) : Metered key w → t.Sound w → Metered key (t.run key w)

/-- **A transaction leaves nothing owed.** -/
theorem Reconciled.transaction {w : World} (h : Reconciled w) (key : Key) {t : Transaction}
    (sound : t.Sound w) : Reconciled (t.run key w) := by
  cases t with
  | define service => exact h.define service
  | call op => exact h.operation key op sound.1 sound.2
  | sweep => exact h.sweepCycle
  | clients request =>
    exact allows.clients (fun asks hole => Http.reconciled_createSession (sound asks) hole) h
  | administration request =>
    exact allows.administration key
      (fun asks hole => Http.reconciled_addCredential (sound asks) key hole)
      (fun _ _ hole => Http.reconciled_rotateCredential key hole) h

theorem Metered.reconciled {key : Key} {w : World} (h : Metered key w) : Reconciled w := by
  induction h with
  | start w bare blank =>
    refine ⟨⟨?_, ⟨0, ?_, ?_⟩, fun a => ?_⟩, ?_⟩
    · rw [bare]
      exact ⟨fun h => (nomatch h), fun h => (nomatch h), fun h => (nomatch h)⟩
    · rw [blank]
      exact ⟨rfl, fun c => rfl, fun _ _ h => nomatch h⟩
    · rw [bare]
      exact ⟨fun _ => rfl, fun _ => rfl, fun _ => rfl, rfl, fun _ => rfl⟩
    · rw [bare, blank]
      rfl
    · rw [bare]
      exact ⟨fun _ => rfl, fun known => nomatch known⟩
  | next t _ sound ih => exact ih.transaction key sound

/-! ## What the numbers come to -/

namespace Store

variable {s : Store} {n : Counter → Nat}

/-- Who has started runs or has run to an end. -/
theorem Coherent.census_began (h : s.Coherent) (a : ServiceId) :
    s.census (·.began a) = s.running a + s.census (·.completed a) := by
  let runs (x : Session) : Bool := x.state = .active && x.service = a
  have apart : List.Pairwise (fun p q : Session → Bool => ∀ x, p x = true → q x = false)
      [runs, (·.completed a)] := by
    refine List.pairwise_pair.2 fun x hx => ?_
    simp only [runs, Bool.and_eq_true, decide_eq_true_eq] at hx
    simp [Session.completed, hx.1, Session.State.isTerminal]
  have both := sum_countP (fun (p : Session → Bool) x => p x) apart s.sessions.entries
  rw [List.map_cons, List.map_singleton, List.sum_cons, List.sum_singleton] at both
  refine Eq.trans (List.countP_congr fun x hx => ?_) both.symm
  have shaped := h.shaped (session?_eq_some_iff.2 ⟨hx, rfl⟩)
  unfold Session.Shaped at shaped
  simp only [List.any_cons, List.any_nil, Bool.or_false, Bool.or_eq_true, runs, Session.began,
    Session.completed, Bool.and_eq_true, decide_eq_true_eq]
  cases state : x.state with
  | queued =>
    rw [state] at shaped
    simp [Session.State.isTerminal, shaped.2.1]
  | active =>
    rw [state] at shaped
    simp [Session.State.isTerminal, shaped.2.1]
  | ended | expired => simp [Session.State.isTerminal]

/-- Every session is of a registered service, so those that expired are counted service by
service. -/
theorem Coherent.sum_overran (h : s.Coherent) :
    (s.services.entries.map fun d => s.census (·.overran d.id)).sum = s.census (·.isExpired) := by
  refine (sum_countP (fun (d : Service) (x : Session) => x.overran d.id) ?_ _).trans ?_
  · refine (List.pairwise_map.1 s.services.nodup).imp fun {d e} different x hx => ?_
    rw [Bool.eq_false_iff]
    intro he
    simp only [Session.overran, Bool.and_eq_true, decide_eq_true_eq] at hx he
    exact different (hx.1.symm.trans he.1)
  · refine List.countP_congr fun x hx => ?_
    obtain ⟨d, known⟩ := Option.isSome_iff_exists.1
      (h.registered (session?_eq_some_iff.2 ⟨hx, rfl⟩))
    simp only [List.any_eq_true, Session.overran, Bool.and_eq_true, decide_eq_true_eq]
    constructor
    · rintro ⟨_, _, _, expired⟩
      exact expired
    · exact fun expired => ⟨d, Table.mem_of_find? known, (Table.find?_key known).symm, expired⟩

/-- No count of sessions is above their number. -/
theorem Calls.le_size (h : s.Calls n) {c : Counter} (label : Metrics.Labelled c)
    (tells : Metrics.countsRequests c = false) : n c ≤ s.sessions.size := by
  have within : ∀ p, s.census p ≤ s.sessions.size := fun p => List.countP_le_length
  cases c with
  | requested a outcome =>
    have requests := h.requests a
    have bound := within (·.isOf a)
    rcases label with rfl | rfl <;> omega
  | admitted a =>
    have starts := h.starts a
    have bound := within (·.began a)
    omega
  | expired a => exact h.expiries a ▸ within _
  | answered => cases tells
  | swept => exact h.sweeps ▸ within _

end Store

/-- **The metrics show the numbers of sessions**, after every operation: there are numbers that the
counters show, and that are called for by what is stored. The sweeps have counted what expired of
all services, and the durations are as many as the bills; what was started less what was billed are
the used slots. Words end at their size: as long as the sessions, or the slots of a service, can be
counted in one, the numbers are shown as they are. -/
theorem metrics_reconcile {key : Key} {w : World} (h : Metered key w) : ∃ n : Counter → Nat,
    w.platform.metrics.Shows n ∧ w.store.Calls n ∧
    n .swept = (w.store.services.entries.map fun d => n (.expired d.id)).sum ∧
    (w.store.sessions.size < 2 ^ 64 → ∀ c, Metrics.Labelled c →
      Metrics.countsRequests c = false → (w.platform.metrics.value c).toNat = n c) ∧
    ∀ a, (w.platform.metrics.durationsOf a).count = w.store.ledger.countP (·.service = a) ∧
      ∀ definition, w.store.service? a = some definition →
        ∃ status, ((Broker.serviceStatus a).run w).1 = .ok status ∧
          let started := n (.requested a "active") + n (.admitted a)
          let billed := (w.platform.metrics.durationsOf a).count
          billed ≤ started ∧ status.usedSlots = UInt32.ofNat (started - billed) ∧
            (w.store.slots a < 2 ^ 32 → status.usedSlots.toNat = started - billed) := by
  obtain ⟨tallied, settled⟩ := h.reconciled
  obtain ⟨n, shows, called⟩ := tallied.counters
  rw [add_zero] at called
  have coherent := tallied.coherent
  refine ⟨n, shows, called, ?_, fun fits c label tells => ?_, fun a =>
    ⟨tallied.durations a, fun definition known => ?_⟩⟩
  · rw [called.sweeps, ← coherent.sum_overran]
    simp only [called.expiries]
  · rw [shows.value, UInt64.toNat_ofNat']
    exact Nat.mod_eq_of_lt (Nat.lt_of_le_of_lt (called.le_size label tells) fits)
  · obtain rfl : definition.id = a := Table.find?_key known
    have running : n (.requested definition.id "active") + n (.admitted definition.id) =
        w.store.running definition.id + (w.platform.metrics.durationsOf definition.id).count := by
      rw [called.starts, coherent.census_began, ← called.bills]
      exact congrArg _ (tallied.durations definition.id).symm
    have used : (w.store.status definition).usedSlots =
        UInt32.ofNat (w.store.running definition.id) :=
      congrArg UInt32.ofNat (settled.tally_active coherent definition.id)
    refine ⟨w.store.status definition, ?_, ?_⟩
    · rw [run_serviceStatus, known, Option.elim_some]
    · dsimp only
      rw [running, Nat.add_sub_cancel, used]
      refine ⟨Nat.le_add_left _ _, rfl, fun fits => ?_⟩
      rw [UInt32.toNat_ofNat']
      exact Nat.mod_eq_of_lt
        (Nat.lt_of_le_of_lt (settled.running_le_slots coherent definition.id) fits)

/-- What transactions lead to on an empty platform, those left out that would draw an id in use. -/
def Transaction.after (supply : Supply) (ts : List Transaction) : World :=
  ts.foldl (fun w t => if t.Sound w then t.run Scene.plainKey w else w)
    { platform := {}, supply := supply }

theorem metered_after (supply : Supply) (ts : List Transaction) :
    Metered Scene.plainKey (Transaction.after supply ts) := by
  have play : ∀ w : World, Metered Scene.plainKey w →
      Metered Scene.plainKey
        (ts.foldl (fun w t => if t.Sound w then t.run Scene.plainKey w else w) w) := by
    induction ts with
    | nil => exact fun w h => h
    | cons t rest ih =>
      intro w h
      refine ih _ ?_
      dsimp only
      by_cases sound : t.Sound w
      · rw [if_pos sound]
        exact h.next t sound
      · rwa [if_neg sound]
  exact play _ (.start _ rfl rfl)

/-- Two users ask for the only slot over HTTP. The first one leaves, the second one runs past the
limit, and a third one gets the slot. -/
def thirdRuns : World :=
  let ask (user : String) : Http.Request :=
    { method := "POST", target := "/sessions", contentType := some "application/json",
      body := "\x7b\"user_id\":\"" ++ user ++ "\",\"service_id\":\"films\"\x7d" }
  Transaction.after
    { reading := fun n => if n < 7 then 0 else 100000000, word := UInt64.ofNat }
    [.define oneSlot, .call (.issue "films" "house" "secret" .basic), .clients (ask "ann"),
     .clients (ask "bob"), .clients { method := "DELETE", target := "/sessions/0000000000000001" },
     .administration { method := "POST", target := "/admin/sweep" }, .call (.request "cy" "films")]

/-- Two sessions have started at once and one from the queue, and two have been billed. -/
theorem metrics_reconcile_thirdRuns :
    (thirdRuns.platform.metrics.value .swept).toNat = 1 ∧
    ∃ status, ((Broker.serviceStatus "films").run thirdRuns).1 = .ok status ∧
      status.usedSlots.toNat = 2 + 1 - 2 := by
  have reached : Metered Scene.plainKey thirdRuns := metered_after _ _
  obtain ⟨n, -, -, swept, shown, services⟩ := metrics_reconcile reached
  have shown := shown (by decide +kernel)
  have only : thirdRuns.store.services.entries = [oneSlot] := by decide +kernel
  have expired : n (.expired "films") = 1 :=
    (shown (.expired "films") trivial rfl).symm.trans (by decide +kernel)
  have active : n (.requested "films" "active") = 2 :=
    (shown (.requested "films" "active") (.inl rfl) rfl).symm.trans (by decide +kernel)
  have admitted : n (.admitted "films") = 1 :=
    (shown (.admitted "films") trivial rfl).symm.trans (by decide +kernel)
  have billed : (thirdRuns.platform.metrics.durationsOf "films").count = 2 := by decide +kernel
  refine ⟨(shown .swept trivial rfl).trans ?_, ?_⟩
  · rw [swept, only]
    exact expired
  · obtain ⟨status, answer, -, -, used⟩ := (services "films").2 oneSlot (by decide +kernel)
    refine ⟨status, answer, ?_⟩
    rw [used (by decide +kernel), active, admitted, billed]

end SlotBroker
