import SlotBroker.Proofs.Handling
import SlotBroker.Proofs.Orderly
import SlotBroker.Proofs.Steps

/-!
# Refused requests, and looks

A request that is answered with an error has changed nothing, whatever stood on the platform: most
faults are found before anything is done, and what is done after a change cannot fail any more. A
request that only looks changes nothing either. Both are counted, and that is all they leave.

Results:
* `Atomic.bind`, `Handling.Looks.atomic_bind`: actions whose refusal is no change, put together.
* `tame_of_mem`: every action of both interfaces is tame.
* **`request_safe`**: a request that fails or only looks leaves the platform and the clock as they
  were, but for the count of requests.
-/

namespace SlotBroker

/-! ## What stays -/

namespace Metrics

/-- The counter counts requests. -/
def countsRequests : Counter → Bool
  | .answered .. => true
  | _ => false

/-- What the metrics show besides the count of requests: the other counters, and the samples of each
service with their sum. -/
def others (m : Metrics) : List (Counter × UInt64) × List (String × List Float × Float) :=
  (m.counters.filter fun c => !countsRequests c.1,
    m.durations.map fun d => (d.1, d.2.samples, d.2.sum))

theorem filter_upsert {κ ν : Type} [DecidableEq κ] (p : κ → Bool) {k : κ} (hk : p k = false)
    (fresh : ν) (f : ν → ν) (l : List (κ × ν)) :
    (upsert k fresh f l).filter (fun x => p x.1) = l.filter fun x => p x.1 := by
  induction l with
  | nil => simp [upsert, hk]
  | cons x rest ih =>
    rw [upsert]
    split
    · rename_i same
      rw [List.filter_cons_of_neg (by simp [same, hk]),
        List.filter_cons_of_neg (by simp [same, hk])]
    · rw [List.filter_cons, List.filter_cons, ih]

theorem others_increment (m : Metrics) {c : Counter} (h : countsRequests c = true) (n : UInt64) :
    (m.increment c n).others = m.others := by
  unfold increment
  split
  · exact congrArg (·, _) (filter_upsert (fun c => !countsRequests c) (by simp [h]) 0 _ m.counters)
  · rfl

theorem others_settle (m : Metrics) : m.settle.others = m.others := by
  have settled : ∀ h : Histogram, h.settle.sum = h.sum := fun _ => rfl
  simp only [others, settle, List.map_map, Prod.mk.injEq, true_and]
  refine List.map_congr_left fun d _ => ?_
  simp only [Function.comp_apply, settled]
  rfl

end Metrics

/-- Everything on the platform is as it was, but for the count of requests. -/
structure World.Still (w v : World) : Prop where
  store : v.store = w.store
  providers : v.platform.providers = w.platform.providers
  recording : v.platform.metrics.recording = w.platform.metrics.recording
  metrics : v.platform.metrics.others = w.platform.metrics.others

theorem World.Still.refl (w : World) : w.Still w := ⟨rfl, rfl, rfl, rfl⟩

theorem World.Still.counted {w v : World} (h : w.Still v) (route : Http.Route) (status : Nat) :
    w.Still (v.counted route status) where
  store := h.store
  providers := h.providers
  recording := by
    rw [← h.recording]
    change (Metrics.increment _ _ _).recording = _
    unfold Metrics.increment
    split <;> rfl
  metrics := (Metrics.others_increment _ rfl _).trans h.metrics

@[simp] theorem World.supply_counted (w : World) (route : Http.Route) (status : Nat) :
    (w.counted route status).supply = w.supply := rfl

namespace Http

/-! ## Refusals that change nothing -/

theorem Refusal.status_response (e : Refusal) (request : Request) :
    (e.response request).status = e.status := by
  unfold response
  split <;> rfl

/-- Every refusal is told by an error status. -/
theorem Refusal.le_status (e : Refusal) : 400 ≤ e.status := by
  unfold status
  split <;> decide

namespace Handling

variable {α β : Type} {x : Handling α} {f : α → Handling β} {w : World}

/-- If the action is refused, the world is as it was. -/
def Atomic (x : Handling α) (w : World) : Prop :=
  ∀ e v, outcome x w = (.error e, v) → v = w

theorem Looks.atomic (h : Looks x) (w : World) : Atomic x w := fun e v out => by
  have := h w
  rwa [out] at this

/-- Once something has been done, what follows must not be refused any more. -/
theorem Atomic.bind (h : Atomic x w)
    (hf : ∀ {a v}, outcome x w = (.ok a, v) → ∃ b u, outcome (f a) v = (.ok b, u)) :
    Atomic (x >>= f) w := by
  intro e v out
  rcases hx : outcome x w with ⟨_ | a, u⟩
  · rw [outcome_bind_of_error hx] at out
    rw [← (Prod.mk.inj out).2]
    exact h _ _ hx
  · obtain ⟨b, u', hb⟩ := hf hx
    rw [outcome_bind_of_ok hx, hb] at out
    cases out

/-- As long as there have been looks only, what follows may be refused for what was seen. -/
theorem Looks.atomic_bind (h : Looks x)
    (hf : ∀ {a}, outcome x w = (.ok a, w) → Atomic (f a) w) : Atomic (x >>= f) w := by
  intro e v out
  have still := h w
  rcases hx : outcome x w with ⟨_ | a, u⟩
  · rw [outcome_bind_of_error hx] at out
    rw [← (Prod.mk.inj out).2]
    exact h.atomic w _ _ hx
  · rw [hx] at still
    obtain rfl : u = w := still
    rw [outcome_bind_of_ok hx] at out
    exact hf hx _ _ out

theorem atomic_throw (e : Refusal) (w : World) : Atomic (throw e : Handling α) w :=
  (Looks.throw e).atomic w

theorem atomic_throw_bind (e : Refusal) (f : α → Handling β) (w : World) :
    Atomic ((throw e : Handling α) >>= f) w :=
  (Looks.throw_bind e f).atomic w

theorem atomic_ite {c : Prop} [Decidable c] {x y : Handling α} (hx : Atomic x w)
    (hy : Atomic y w) : Atomic (if c then x else y) w := by
  split
  · exact hx
  · exact hy

theorem atomic_ofFailing {p : Program (Except Failure α)}
    (h : ∀ e, (p.run w).1 = .error e → (p.run w).2 = w) : Atomic (ofFailing p) w := by
  intro e v out
  rw [outcome_ofFailing] at out
  obtain ⟨failed, rfl⟩ := Prod.mk.inj out
  cases hp : (p.run w).1 with
  | error e => exact h e hp
  | ok a =>
    rw [hp] at failed
    cases failed

theorem atomic_lift (p : Program α) (w : World) : Atomic (liftM p : Handling α) w := by
  intro e v out
  rw [outcome_lift] at out
  cases out

/-- What is done last and cannot fail is not refused. -/
theorem sure_lift (p : Program α) (g : α → β) (v : World) :
    ∃ b u, outcome ((liftM p : Handling α) >>= fun a => pure (g a)) v = (.ok b, u) :=
  ⟨_, _, outcome_bind_of_ok (outcome_lift p v)⟩

/-- A change that is tried and says whether it was made. -/
theorem atomic_try {p : Program Bool} {f : Bool → Handling β} (absent : Atomic (f false) w)
    (h : p.run w = (false, w) ∨
      ∃ v, p.run w = (true, v) ∧ ∃ b u, outcome (f true) v = (.ok b, u)) :
    Atomic ((liftM p : Handling Bool) >>= f) w := by
  intro e v out
  rcases h with h | ⟨u, h, b, u', sure⟩
  · rw [outcome_bind_of_ok (outcome_lift p w), h] at out
    exact absent e v out
  · rw [outcome_bind_of_ok (outcome_lift p w), h, sure] at out
    cases out

/-- The response of the action, if it gives one, is no error. -/
def Accepts (x : Handling Response) : Prop :=
  ∀ w r v, outcome x w = (.ok r, v) → r.status < 400

theorem Accepts.pure {r : Response} (h : r.status < 400) : Accepts (Pure.pure r) := fun _ _ _ out =>
  (Except.ok.inj (Prod.mk.inj out).1) ▸ h

theorem Accepts.throw (e : Refusal) : Accepts (MonadExcept.throw e) := fun _ _ _ out => nomatch out

theorem Accepts.throw_bind (e : Refusal) (f : α → Handling Response) :
    Accepts ((MonadExcept.throw e : Handling α) >>= f) :=
  fun _ _ _ out => nomatch out

theorem Accepts.ite {c : Prop} [Decidable c] {x y : Handling Response} (hx : Accepts x)
    (hy : Accepts y) : Accepts (if c then x else y) := by
  split
  · exact hx
  · exact hy

theorem Accepts.bind {f : α → Handling Response} (hf : ∀ a, Accepts (f a)) : Accepts (x >>= f) := by
  intro w r v out
  rcases hx : outcome x w with ⟨_ | a, u⟩
  · rw [outcome_bind_of_error hx] at out
    cases out
  · rw [outcome_bind_of_ok hx] at out
    exact hf a _ _ _ out

end Handling

/-! ## The actions -/

/-- What a look leaves. Only a bill reads the clock. -/
structure Reads (template : List Piece) (w : World) (r : Except Refusal Response × World) :
    Prop where
  still : w.Still r.2
  supply : r.2.supply = w.supply ∨ template = [.word "users", .hole, .word "bill"] ∧
    (∃ response, r.1 = .ok response ∧ response.status = 200) ∧ r.2.supply = w.supply.readClock.2

/-- What the theorem below needs of an action that serves a method of a template. -/
structure Tame (template : List Piece) (m : Method) (action : Action) : Prop where
  atomic : ∀ id request w, Handling.Atomic (action id request) w
  accepts : ∀ id request, Handling.Accepts (action id request)
  reads : m = .get → ∀ id request w, Reads template w ((action id request).outcome w)

theorem Reads.bind {template : List Piece} {α : Type} {x : Handling α} {f : α → Handling Response}
    {w : World} (h : Handling.Looks x) (hf : ∀ a, Reads template w ((f a).outcome w)) :
    Reads template w (Handling.outcome (x >>= f) w) := by
  have still := h w
  rcases hx : x.outcome w with ⟨_ | a, v⟩
  · rw [hx] at still
    obtain rfl : v = w := still
    rw [Handling.outcome_bind_of_error hx]
    exact ⟨.refl v, .inl rfl⟩
  · rw [hx] at still
    obtain rfl : v = w := still
    rw [Handling.outcome_bind_of_ok hx]
    exact hf a

theorem Tame.of_looks {template : List Piece} {m : Method} {action : Action}
    (looks : ∀ id request, Handling.Looks (action id request))
    (accepts : ∀ id request, Handling.Accepts (action id request)) : Tame template m action where
  atomic id request w := (looks id request).atomic w
  accepts := accepts
  reads _ id request w := by
    have still := looks id request w
    refine ⟨?_, .inl ?_⟩
    · rw [still]
      exact .refl w
    · rw [still]

theorem Tame.of_change {template : List Piece} {m : Method} {action : Action} (hm : m ≠ .get)
    (atomic : ∀ id request w, Handling.Atomic (action id request) w)
    (accepts : ∀ id request, Handling.Accepts (action id request)) : Tame template m action :=
  ⟨atomic, accepts, fun h => absurd h hm⟩

open Handling

/-! ### What clients can ask -/

section Clients

variable {template : List Piece}

theorem accepts_ofJson {status : Nat} {value : Json} (h : status < 400) :
    Accepts (pure (.ofJson status value)) :=
  .pure h

theorem tame_health : Tame template .get Public.health :=
  .of_looks (fun _ _ => .bind (.query _) fun _ => .pure _)
    fun _ _ => .bind fun _ => accepts_ofJson (by decide)

/-- The exposition closes the open batch of samples, which is not seen in it. -/
theorem tame_metrics : Tame template .get Public.metrics where
  atomic id request w := Atomic.bind (atomic_lift _ w) fun _ => ⟨_, _, rfl⟩
  accepts _ _ := .bind fun _ => .pure (show 200 < 400 by decide)
  reads _ id request w := ⟨⟨rfl, rfl, rfl, Metrics.others_settle _⟩, .inl rfl⟩

theorem looks_statuses (services : List Service) : Looks (Public.statuses services) := by
  induction services with
  | nil => exact .pure _
  | cons s rest ih =>
    exact .bind (.ofFailing (looks_serviceStatus s.id)) fun _ => .bind ih fun _ => .pure _

theorem tame_listServices : Tame template .get Public.listServices :=
  .of_looks
    (fun _ _ => .bind (.query _) fun services => .bind (looks_statuses services) fun _ => .pure _)
    fun _ _ => .bind fun _ => .bind fun _ => accepts_ofJson (by decide)

theorem tame_getService : Tame template .get Public.getService :=
  .of_looks
    (fun hole _ => .bind (looks_pathId hole) fun id =>
      .bind (.ofFailing (looks_serviceStatus id)) fun _ => .pure _)
    fun _ _ => .bind fun _ => .bind fun _ => accepts_ofJson (by decide)

theorem tame_getRevenue : Tame template .get Public.getRevenue :=
  .of_looks
    (fun hole request => .bind (looks_pathId hole) fun id =>
      .bind (looks_queryMillis "since" request) fun since =>
        .bind (.ofFailing (looks_serviceRevenue id since)) fun _ => .pure _)
    fun _ _ => .bind fun _ => .bind fun _ => .bind fun _ => accepts_ofJson (by decide)

theorem looks_placed (x : Session) : (Public.placed x).Looks :=
  .bind (looks_queuePosition x.id) fun _ => .done _

theorem tame_getSession : Tame template .get Public.getSession :=
  .of_looks
    (fun hole _ => .bind (looks_pathId hole) fun id =>
      .bind (.ofFailing (looks_session id)) fun x =>
        .bind (.lift (looks_placed x)) fun _ => .pure _)
    fun _ _ => .bind fun _ => .bind fun _ => .bind fun _ => accepts_ofJson (by decide)

theorem tame_userSessions : Tame template .get Public.userSessions :=
  .of_looks
    (fun hole request => .bind (looks_pathId hole) fun _ =>
      .bind (looks_queryFlag "all" request) fun _ => .bind (.query _) fun _ => .pure _)
    fun _ _ => .bind fun _ => .bind fun _ => .bind fun _ => accepts_ofJson (by decide)

theorem tame_getSummary : Tame template .get Public.getSummary :=
  .of_looks
    (fun _ request => .bind (looks_queryMillis "since" request) fun since =>
      .bind (.lift (looks_summary since)) fun _ => .pure _)
    fun _ _ => .bind fun _ => .bind fun _ => accepts_ofJson (by decide)

/-- A bill reads the clock, and only if the request for it is in order. -/
theorem tame_userBill :
    Tame [.word "users", .hole, .word "bill"] .get Public.userBill where
  atomic hole request w :=
    (looks_pathId hole).atomic_bind fun _ =>
      (looks_queryMillis "start" request).atomic_bind fun _ =>
        (looks_queryMillis "end" request).atomic_bind fun _ =>
          (atomic_lift _ w).bind fun _ => ⟨_, _, rfl⟩
  accepts _ _ := .bind fun _ => .bind fun _ => .bind fun _ => .bind fun _ =>
    accepts_ofJson (by decide)
  reads _ hole request w :=
    .bind (looks_pathId hole) fun _ => .bind (looks_queryMillis "start" request) fun _ =>
      .bind (looks_queryMillis "end" request) fun _ =>
        ⟨⟨rfl, rfl, rfl, rfl⟩, .inr ⟨rfl, ⟨_, rfl, rfl⟩, rfl⟩⟩

/-- A request for a session fails before anything is done, or not at all. -/
theorem run_requestSession_of_error {user : UserId} {service : ServiceId} {w : World} {e : Failure}
    (h : ((Broker.requestSession user service).run w).1 = .error e) :
    ((Broker.requestSession user service).run w).2 = w := by
  cases known : w.store.service? service with
  | none =>
    unfold Broker.requestSession
    simp only [Program.bind_eq, Program.pure_eq]
    rw [Program.run_bind, Program.run_query, known]
    rfl
  | some definition =>
    rw [run_requestSession known, Program.run_bind, Program.run_bind] at h
    split at h <;> simp only [Program.run_bind, Program.run_done, reduceCtorEq] at h

theorem tame_createSession : Tame template .post Public.createSession := by
  refine .of_change (by decide) (fun _ request w => ?_) fun _ request => ?_
  · refine (looks_bodyFields _ request).atomic_bind fun _ => ?_
    split
    · exact atomic_ite (atomic_throw_bind _ _ w)
        ((atomic_ofFailing fun e => run_requestSession_of_error).bind fun _ => sure_lift _ _ _)
    · exact atomic_throw _ w
  · have status : ∀ x : Session, (if x.state = .active then 201 else 202) < 400 := fun x => by
      split <;> decide
    refine .bind fun _ => ?_
    split
    · exact .ite (.throw_bind _ _) (.bind fun x => .bind fun _ => accepts_ofJson (status x))
    · exact .throw _

theorem run_session (id : SessionId) (w : World) : (Broker.session id).run w =
    (match w.store.session? id with
      | some x => .ok x
      | none => .error (.sessionNotFound id), w) := by
  unfold Broker.session
  rw [Program.bind_eq, Program.run_bind, Program.run_query]
  cases w.platform.store.session? id <;> rfl

/-- A session that is found is found again once it has been ended. -/
theorem tame_endSession : Tame template .delete Public.endSession := by
  refine .of_change (by decide) (fun hole _ w => ?_) fun _ _ =>
    .bind fun _ => .bind fun _ => .bind fun _ => .bind fun _ => accepts_ofJson (by decide)
  refine (looks_pathId hole).atomic_bind fun {id} _ => ?_
  refine (Looks.ofFailing (looks_session id)).atomic_bind fun {x} found => ?_
  refine (atomic_lift _ w).bind fun {record v} out => ?_
  have known : (w.store.session? id).isSome = true := by
    rw [outcome_ofFailing, run_session] at found
    cases h : w.store.session? id with
    | none =>
      rw [h] at found
      cases found
    | some x => rfl
  have ended : v.store = ((Broker.endSession id).run w).2.store := by
    rw [outcome_lift] at out
    rw [← (Prod.mk.inj out).2]
  have retained := Program.Retains.run (Store.Retains.permits.doesEndSession id) w
  obtain ⟨y, hy⟩ := Option.isSome_iff_exists.1 (retained.sessions id known)
  have again : outcome (ofFailing (Broker.session id)) v = (.ok y, v) := by
    rw [outcome_ofFailing, run_session, ended, hy]
    rfl
  exact ⟨_, _, outcome_bind_of_ok again⟩

end Clients

/-! ### What the administration can ask -/

section Administration

variable {template : List Piece} {key : Codec.Key}

theorem tame_listCredentials : Tame template .get Admin.listCredentials :=
  .of_looks (fun _ _ => .bind (.query _) fun _ => .pure _)
    fun _ _ => .bind fun _ => accepts_ofJson (by decide)

/-- A credential is refused before an id is drawn, or not at all. -/
theorem run_storeCredential_of_error {service : ServiceId} {identity secret : String} {tier : Tier}
    {w : World} {e : Failure}
    (h : ((Vault.storeCredential key service identity secret tier).run w).1 = .error e) :
    ((Vault.storeCredential key service identity secret tier).run w).2 = w := by
  cases known : w.store.service? service with
  | none => rw [run_storeCredential_of_unknown _ identity secret tier known]
  | some definition =>
    rw [run_storeCredential _ identity secret tier known] at h
    cases h

theorem tame_addCredential : Tame template .post (Admin.addCredential key) := by
  refine .of_change (by decide) (fun _ request w => ?_) fun _ request => ?_
  · refine (looks_bodyFields _ request).atomic_bind fun _ => ?_
    split
    · split
      · exact atomic_ite (atomic_throw_bind _ _ w)
          ((atomic_ofFailing fun e => run_storeCredential_of_error).bind fun _ =>
            ⟨_, _, outcome_pure _ _⟩)
      · exact atomic_throw _ w
    · exact atomic_throw _ w
  · refine .bind fun _ => ?_
    split
    · split
      · exact .ite (.throw_bind _ _) (.bind fun _ => accepts_ofJson (by decide))
      · exact .throw _
    · exact .throw _

theorem outcome_credential {id : CredentialId} {c : Credential} {w : World}
    (known : w.store.credential? id = some c) :
    (Admin.credential id).outcome w = (.ok c, w) := by
  unfold Admin.credential
  rw [outcome_bind_of_ok (outcome_query _ w), known]
  rfl

/-- A change of one credential says whether the credential exists: if so it still does, and if not
nothing has changed. -/
theorem atomic_change {g : Store → Bool × Store} {id : CredentialId} {w : World}
    {f : Bool → Handling Response} (absent : Atomic (f false) w)
    (present : ∀ {v c}, Store.credential? (World.store v) id = some c →
      ∃ b u, outcome (f true) v = (.ok b, u))
    (h : g w.store = (false, w.store) ∨
      ∃ c, c.id = id ∧ g w.store = (true, w.store.addCredential c)) :
    Atomic ((liftM (Program.onStore g) : Handling Bool) >>= f) w := by
  refine atomic_try absent ?_
  rw [Program.run_onStore]
  rcases h with h | ⟨c, rfl, h⟩
  · rw [h]
    exact .inl rfl
  · rw [h]
    refine .inr ⟨_, rfl, present (c := c) ?_⟩
    rw [World.store, Store.credential?_addCredential, if_pos rfl]

theorem tame_disableCredential : Tame template .post Admin.disableCredential := by
  refine .of_change (by decide) (fun hole _ w => ?_) fun _ _ => ?_
  · refine (looks_pathId hole).atomic_bind fun {id} _ => ?_
    refine atomic_change (atomic_throw_bind _ _ w)
      (fun known => ⟨_, _, outcome_bind_of_ok (outcome_credential known)⟩) ?_
    unfold Store.disable
    cases known : w.store.credential? id with
    | none => exact .inl rfl
    | some c => exact .inr ⟨c.disable, (Store.credential?_eq_some_iff.1 known).2, rfl⟩
  · exact .bind fun _ => .bind fun _ => .ite (.bind fun _ => accepts_ofJson (by decide))
      (.throw_bind _ _)

theorem tame_rotateCredential : Tame template .post (Admin.rotateCredential key) := by
  refine .of_change (by decide) (fun hole request w => ?_) fun _ _ => ?_
  · refine (looks_pathId hole).atomic_bind fun {id} _ =>
      (looks_bodyFields _ request).atomic_bind fun _ => ?_
    split
    · rename_i secret _
      refine atomic_ite (atomic_throw_bind _ _ w) (atomic_change (atomic_throw_bind _ _ w)
        (fun known => ⟨_, _, outcome_bind_of_ok (outcome_credential known)⟩) ?_)
      unfold Store.rotate
      cases known : w.store.credential? id with
      | none => exact .inl rfl
      | some c =>
        exact .inr ⟨c.rotate (key.conceal secret), (Store.credential?_eq_some_iff.1 known).2, rfl⟩
    · exact atomic_throw _ w
  · refine .bind fun _ => .bind fun _ => ?_
    split
    · exact .ite (.throw_bind _ _) (.bind fun _ =>
        .ite (.bind fun _ => accepts_ofJson (by decide)) (.throw_bind _ _))
    · exact .throw _

/-- Nothing is refused any more once the login has been tried. -/
theorem tame_verifyCredential : Tame template .post (Admin.verifyCredential key) := by
  refine .of_change (by decide) (fun hole _ w => ?_) fun _ _ => ?_
  · refine (looks_pathId hole).atomic_bind fun {id} _ =>
      (looks_credential id).atomic_bind fun {c} _ =>
        (Looks.lift fun _ => rfl).atomic_bind fun _ => ?_
    refine atomic_ite ((Looks.lift fun _ => rfl).atomic_bind fun _ => ?_) (atomic_throw_bind _ _ w)
    split
    · refine (atomic_lift _ w).bind fun {outcome v} _ => ?_
      cases outcome with
      | none => exact ⟨_, _, outcome_pure _ v⟩
      | some fault =>
        dsimp only
        split
        · exact sure_lift _ _ v
        · exact ⟨_, _, outcome_pure _ v⟩
    · exact atomic_throw _ w
  · refine .bind fun _ => .bind fun _ => .bind fun _ => .ite (.bind fun _ => ?_) (.throw_bind _ _)
    split
    · refine .bind fun outcome => ?_
      cases outcome with
      | none => exact accepts_ofJson (by decide)
      | some fault =>
        exact .ite (.bind fun _ => accepts_ofJson (by decide))
          (.bind fun _ => accepts_ofJson (by decide))
    · exact .throw _

theorem tame_sweepNow : Tame template .post Admin.sweepNow :=
  .of_change (by decide) (fun _ _ w => (atomic_lift _ w).bind fun _ => ⟨_, _, outcome_pure _ _⟩)
    fun _ _ => .bind fun _ => accepts_ofJson (by decide)

theorem tame_registerUser : Tame template .post Admin.registerUser := by
  refine .of_change (by decide) (fun _ request w => ?_) fun _ _ => ?_
  · refine (looks_bodyFields _ request).atomic_bind fun _ => ?_
    split
    · exact atomic_ite (atomic_throw_bind _ _ w)
        ((atomic_lift _ w).bind fun _ => ⟨_, _, outcome_pure _ _⟩)
    · exact atomic_throw _ w
  · refine .bind fun _ => ?_
    split
    · exact .ite (.throw_bind _ _) (.bind fun _ => accepts_ofJson (by decide))
    · exact .throw _

end Administration

theorem tame_clients : ∀ route ∈ Public.routes, ∀ a ∈ route.actions,
    Tame route.template a.1 a.2 := by
  simp only [Public.routes, List.forall_mem_cons, List.not_mem_nil, false_implies, implies_true,
    and_true]
  exact ⟨tame_health, tame_metrics, tame_listServices, tame_getService, tame_getRevenue,
    tame_createSession, ⟨tame_getSession, tame_endSession⟩, tame_userSessions, tame_userBill,
    tame_getSummary⟩

theorem tame_admin (key : Codec.Key) : ∀ route ∈ Admin.routes key, ∀ a ∈ route.actions,
    Tame route.template a.1 a.2 := by
  simp only [Admin.routes, List.forall_mem_cons, List.not_mem_nil, false_implies, implies_true,
    and_true]
  exact ⟨⟨tame_listCredentials, tame_addCredential⟩, tame_disableCredential, tame_rotateCredential,
    tame_verifyCredential, tame_sweepNow, tame_registerUser⟩

/-- Every action of both interfaces is tame. -/
theorem tame_of_mem {i : Interface} {route : Route} {m : Method} {action : Action}
    (hroute : route ∈ i.routes) (haction : (m, action) ∈ route.actions) :
    Tame route.template m action :=
  match i with
  | .clients => tame_clients route hroute _ haction
  | .admin key => tame_admin key route hroute _ haction

/-! ## Requests -/

/-- The only paths that match the template of a bill. -/
theorem eq_of_matchPieces_bill {pieces holes : List String}
    (h : matchPieces [.word "users", .hole, .word "bill"] pieces = some holes) :
    ∃ user, pieces = ["users", user, "bill"] := by
  rcases pieces with _ | ⟨users, _ | ⟨user, _ | ⟨bill, _ | ⟨_, _⟩⟩⟩⟩ <;>
    simp only [matchPieces, Option.ite_none_right_eq_some, Option.map_none, reduceCtorEq,
      and_false, Option.map_eq_some_iff, false_and, exists_false] at h
  obtain ⟨rfl, -, ⟨rfl, -⟩, -⟩ := h
  exact ⟨user, rfl⟩

/-- **A request that fails changes nothing, and neither does one that only looks.** Whatever stands
on the platform and at the providers, and whatever method, path and body a request to either
interface has: if the status of the answer is 400 or above, then the store, the providers and the
metrics but for the count of requests are as before, and neither the clock has been read nor a
random word drawn. The same holds of every request that is served as a `GET`, whatever its status,
but that a bill that succeeds reads the clock. -/
theorem request_safe (i : Interface) (request : Request) (w : World) :
    let r := (i.handle request).run w
    (400 ≤ r.1.status → w.Still r.2 ∧ r.2.supply = w.supply) ∧
    (Method.ofName? request.method = some .get → w.Still r.2 ∧
      (r.2.supply = w.supply ∨
        r.1.status = 200 ∧ (∃ user, pathPieces? request.path = some ["users", user, "bill"]) ∧
          r.2.supply = w.supply.readClock.2)) := by
  rw [i.handle_eq_serve]
  rcases serve_cases i.routes request w with unknown | ⟨route, refused⟩ | ⟨hit, answered⟩
  · rw [unknown]
    exact ⟨fun _ => ⟨.refl w, rfl⟩, fun _ => ⟨.refl w, .inl rfl⟩⟩
  · have still := (World.Still.refl w).counted route 405
    rw [refused]
    exact ⟨fun _ => ⟨still, rfl⟩, fun _ => ⟨still, .inl rfl⟩⟩
  · have tame := tame_of_mem hit.mem hit.serves
    rw [answered]
    dsimp only
    rw [status_sent, World.supply_counted, Hit.outcome]
    refine ⟨fun failed => ?_, fun get => ?_⟩
    · rcases out : (hit.action (hit.holes.headD "") request).outcome w with ⟨e | response, v⟩
      · obtain rfl : v = w := tame.atomic _ request w e v out
        exact ⟨(World.Still.refl v).counted hit.route _, rfl⟩
      · rw [out] at failed
        exact absurd (tame.accepts _ request w response v out) (Nat.not_lt.2 failed)
    · have reads := tame.reads (Option.some.inj (hit.named.symm.trans get)) (hit.holes.headD "")
        request w
      refine ⟨reads.still.counted hit.route _, reads.supply.imp_right ?_⟩
      rintro ⟨template, ⟨response, answer, status⟩, supply⟩
      have matched := hit.matched
      rw [template] at matched
      obtain ⟨user, pieces⟩ := eq_of_matchPieces_bill matched
      rw [answer]
      exact ⟨status, ⟨user, hit.path.trans (congrArg some pieces)⟩, supply⟩

/-- A platform with one account of one service. -/
def oneAccount : World :=
  (Command.after [.define oneSlot, .call (.issue "films" "pool@films" "pass" .basic)]).1

/-- The account cannot be verified, since its service has no provider; a bill can be looked at. -/
theorem request_safe_of_verify_of_bill :
    let verify : Request := { method := "POST", target := "/admin/credentials/000000000000/verify" }
    let bill : Request := { method := "GET", target := "/users/ann/bill" }
    let refused := ((Interface.admin Scene.plainKey).handle verify).run oneAccount
    let billed := (Interface.clients.handle bill).run oneAccount
    (refused.1.status = 422 ∧ oneAccount.Still refused.2 ∧
      refused.2.supply = oneAccount.supply) ∧
    billed.1.status = 200 ∧ oneAccount.Still billed.2 := by
  have refused : (((Interface.admin Scene.plainKey).handle
      { method := "POST", target := "/admin/credentials/000000000000/verify" }).run
        oneAccount).1.status = 422 := by decide +kernel
  refine ⟨⟨refused, ?_⟩, by decide +kernel, ?_⟩
  · exact (request_safe (.admin Scene.plainKey) _ oneAccount).1 (by rw [refused]; decide)
  · exact ((request_safe .clients _ oneAccount).2 (by decide)).1

end Http

end SlotBroker
