import SlotBroker.Http.Admin
import SlotBroker.Http.Public
import SlotBroker.Proofs.Undisturbed

/-!
# Requests that nobody interferes with

An action either gives a response or is refused, and leaves a world either way. Here is what comes
of actions that are put together, and what `serve` makes of the outcome of the one that it finds.

`Looks` says of a program or an action that it leaves the world as it was.

Results:
* `outcome_bind` and a lemma for each way to begin: the outcomes of actions in order.
* `Handling.Looks.bind`: looks one after the other are a look.
* **`serve_cases`**: a request is not found, or its method is not allowed, or it is answered with
  what comes of one action.
-/

namespace SlotBroker

namespace Program

variable {α β : Type}

/-- The program leaves the world as it was. -/
def Looks (p : Program α) : Prop := ∀ w, (p.run w).2 = w

namespace Looks

theorem done (a : α) : (Program.done a).Looks := fun _ => rfl

theorem query (f : Store → α) : (Program.query f).Looks := fun _ => rfl

theorem bind {p : Program α} {f : α → Program β} (h : p.Looks) (hf : ∀ a, (f a).Looks) :
    (p.bind f).Looks := by
  intro w
  rw [run_bind, h, hf]

end Looks

end Program

open Program

theorem looks_serviceStatus (service : ServiceId) : (Broker.serviceStatus service).Looks := by
  refine .bind (.query _) fun known => ?_
  cases known with
  | none => exact .done _
  | some definition => exact .bind (.query _) fun _ => .bind (.query _) fun _ => .done _

theorem looks_session (id : SessionId) : (Broker.session id).Looks := by
  refine .bind (.query _) fun known => ?_
  cases known <;> exact .done _

theorem looks_queuePosition (id : SessionId) : (Broker.queuePosition id).Looks := by
  refine .bind (.query _) fun known => ?_
  cases known with
  | none => exact .done _
  | some x =>
    dsimp only
    split
    · exact .bind (.query _) fun _ => .done _
    · exact .done _

theorem looks_serviceRevenue (service : ServiceId) (since : Option Millis) :
    (Billing.serviceRevenue service since).Looks := by
  refine .bind (.query _) fun known => ?_
  cases known with
  | none => exact .done _
  | some definition => exact .bind (.query _) fun _ => .done _

theorem looks_summary (since : Option Millis) : (Billing.summary since).Looks :=
  .bind (.query _) fun _ => .bind (.query _) fun _ => .done _

/-- The world once a response has been counted under a route. -/
def World.counted (w : World) (route : Http.Route) (status : Nat) : World :=
  ((count (.answered (Http.templateText route.template) (toString status)) 1).run w).2

namespace Http

namespace Handling

variable {α β : Type}

/-! ## Outcomes -/

/-- What comes of an action, and the world after it. -/
def outcome (x : Handling α) (w : World) : Except Refusal α × World := x.run.run w

variable {x : Handling α} {f : α → Handling β} {w : World}

@[simp] theorem outcome_pure (a : α) (w : World) : outcome (pure a) w = (.ok a, w) := rfl

theorem outcome_bind (x : Handling α) (f : α → Handling β) (w : World) :
    outcome (x >>= f) w =
      match outcome x w with
      | (.ok a, v) => outcome (f a) v
      | (.error e, v) => (.error e, v) := by
  rw [outcome, outcome, ExceptT.run_bind, Program.bind_eq, Program.run_bind]
  rcases x.run.run w with ⟨_ | _, v⟩ <;> rfl

theorem outcome_bind_of_ok {a : α} {v : World} (h : outcome x w = (.ok a, v)) :
    outcome (x >>= f) w = outcome (f a) v := by
  rw [outcome_bind, h]

theorem outcome_bind_of_error {e : Refusal} {v : World} (h : outcome x w = (.error e, v)) :
    outcome (x >>= f) w = (.error e, v) := by
  rw [outcome_bind, h]

@[simp] theorem outcome_lift (p : Program α) (w : World) :
    outcome (liftM p : Handling α) w = (.ok (p.run w).1, (p.run w).2) := by
  change (p.bind fun a => .done (Except.ok a)).run w = _
  rw [Program.run_bind, Program.run_done]

@[simp] theorem outcome_query (g : Store → α) (w : World) :
    outcome (query g) w = (.ok (g w.store), w) := rfl

theorem outcome_ofFailing (p : Program (Except Failure α)) (w : World) :
    outcome (ofFailing p) w = ((p.run w).1.mapError .failed, (p.run w).2) := by
  change (p.bind _).run w = _
  rw [Program.run_bind]
  cases (p.run w).1 <;> rfl

/-! ## Looks -/

/-- The action leaves the world as it was. -/
def Looks (x : Handling α) : Prop := ∀ w, (outcome x w).2 = w

namespace Looks

theorem pure (a : α) : Looks (Pure.pure a : Handling α) := fun _ => rfl

theorem throw (e : Refusal) : Looks (MonadExcept.throw e : Handling α) := fun _ => rfl

/-- What would follow a refusal does not matter. -/
theorem throw_bind (e : Refusal) (f : α → Handling β) :
    Looks ((MonadExcept.throw e : Handling α) >>= f) := fun _ => rfl

theorem query (g : Store → α) : Looks (Handling.query g) := fun _ => rfl

theorem bind (h : Looks x) (hf : ∀ a, Looks (f a)) : Looks (x >>= f) := by
  intro w
  have still := h w
  rcases hx : outcome x w with ⟨_ | a, v⟩
  · rw [hx] at still
    rw [outcome_bind_of_error hx]
    exact still
  · rw [hx] at still
    rw [outcome_bind_of_ok hx, hf a v]
    exact still

/-- What follows a change and only looks leaves what the change left. -/
theorem world_bind (hf : ∀ a, Looks (f a)) (w : World) :
    (outcome (x >>= f) w).2 = (outcome x w).2 := by
  rcases hx : outcome x w with ⟨_ | a, v⟩
  · rw [outcome_bind_of_error hx]
  · rw [outcome_bind_of_ok hx, hf a v]

theorem lift {p : Program α} (h : p.Looks) : Looks (liftM p : Handling α) := by
  intro w
  rw [outcome_lift]
  exact h w

theorem ofFailing {p : Program (Except Failure α)} (h : p.Looks) :
    Looks (Handling.ofFailing p) := by
  intro w
  rw [outcome_ofFailing]
  exact h w

end Looks

theorem looks_pathId (hole : String) : Looks (pathId hole) := by
  unfold pathId
  split
  · exact .pure _
  · exact .throw _

theorem looks_queryField (name : String) (request : Request) : Looks (queryField name request) := by
  unfold queryField
  split
  · exact .pure _
  · exact .pure _
  · exact .throw _

theorem looks_queryMillis (name : String) (request : Request) :
    Looks (queryMillis name request) := by
  refine .bind (looks_queryField name request) fun field => ?_
  split
  · exact .pure _
  · split
    · exact .pure _
    · exact .throw _

theorem looks_queryFlag (name : String) (request : Request) : Looks (queryFlag name request) := by
  refine .bind (looks_queryField name request) fun field => ?_
  split
  · exact .pure _
  · exact .pure _
  · exact .pure _
  · exact .throw _

theorem looks_bodyFields (names : List String) (request : Request) :
    Looks (bodyFields names request) := by
  unfold bodyFields
  split
  · split
    · split
      · exact .pure _
      · exact .throw _
    · exact .throw _
  · exact .throw _

theorem looks_credential (id : CredentialId) : Looks (Admin.credential id) := by
  refine .bind (.query _) fun known => ?_
  split
  · exact .pure _
  · exact .throw _

/-- The response to a request after what came of an action. -/
def respond (request : Request) : Except Refusal Response → Response
  | .ok response => response
  | .error refusal => refusal.response request

end Handling

/-! ## Serving -/

section Serving

variable {routes : List Route} {request : Request} {route : Route} {id : String} {w : World}

/-- The route that a request is for, with what stands in its hole. -/
def sought (routes : List Route) (request : Request) : Option (Route × String) :=
  (pathPieces? request.path).bind fun pieces => findRoute? pieces routes

/-- The response as it goes out: `HEAD` gets no body. -/
def sent (request : Request) (response : Response) : Response :=
  if request.method = "HEAD" then { response with body := .none } else response

@[simp] theorem status_sent (request : Request) (response : Response) :
    (sent request response).status = response.status := by
  unfold sent
  split <;> rfl

theorem mem_of_findRoute? {pieces : List String} {routes : List Route}
    (h : findRoute? pieces routes = some (route, id)) :
    route ∈ routes ∧ ∃ holes, matchPieces route.template pieces = some holes ∧
      id = holes.headD "" := by
  induction routes with
  | nil => cases h
  | cons r rs ih =>
    rw [findRoute?] at h
    split at h
    · rename_i holes hmatch
      obtain ⟨rfl, rfl⟩ := Prod.mk.inj (Option.some.inj h)
      exact ⟨List.mem_cons_self, holes, hmatch, rfl⟩
    · obtain ⟨mem, rest⟩ := ih h
      exact ⟨List.mem_cons_of_mem r mem, rest⟩

theorem run_serve_of_unknown (unknown : sought routes request = none) :
    (serve routes request).run w = ({ status := 404 }, w) := by
  unfold serve
  rw [show (pathPieces? request.path).bind _ = none from unknown]
  rfl

theorem run_serve_of_found (found : sought routes request = some (route, id)) :
    (serve routes request).run w =
      let r := (route.answer id request).run w
      (r.1, r.2.counted route r.1.status) := by
  unfold serve
  rw [show (pathPieces? request.path).bind _ = some (route, id) from found]
  dsimp only
  rw [Program.bind_eq, Program.run_bind]
  rfl

theorem run_answer_of_not_allowed
    (none : (Method.ofName? request.method).bind (fun m => route.actions.lookup m) = none) :
    (route.answer id request).run w = ({ status := 405, allow := some route.allowed }, w) := by
  unfold Route.answer
  rw [none]
  rfl

theorem run_answer_of_action {action : Action}
    (serves : (Method.ofName? request.method).bind (fun m => route.actions.lookup m) =
      some action) :
    (route.answer id request).run w =
      let r := (action id request).outcome w
      (sent request (Handling.respond request r.1), r.2) := by
  unfold Route.answer Handling.outcome sent
  rw [serves]
  simp only [Program.bind_eq, Program.pure_eq]
  rw [Program.run_bind]
  generalize (action id request).run.run w = r
  by_cases head : request.method = "HEAD"
  · simp only [head, if_true]
    rcases r with ⟨_ | response, v⟩ <;> rfl
  · simp only [head, if_false]
    rcases r with ⟨_ | response, v⟩ <;> rfl

/-- What comes of the action that serves a request is the answer, and it is counted. -/
theorem run_serve_of_action {m : Method} {action : Action}
    (found : sought routes request = some (route, id))
    (named : Method.ofName? request.method = some m)
    (serves : route.actions.lookup m = some action) :
    (serve routes request).run w =
      let r := (action id request).outcome w
      (sent request (Handling.respond request r.1),
        r.2.counted route (sent request (Handling.respond request r.1)).status) := by
  have serves : (Method.ofName? request.method).bind (fun m => route.actions.lookup m) =
      some action := by
    rw [named]
    exact serves
  rw [run_serve_of_found found, run_answer_of_action serves]

theorem mem_of_lookup {m : Method} {action : Action} {actions : List (Method × Action)}
    (h : actions.lookup m = some action) : (m, action) ∈ actions := by
  obtain ⟨before, after, rfl, -⟩ := List.lookup_eq_some_iff.1 h
  exact List.mem_append_right before List.mem_cons_self

/-- The action that a request comes to. -/
structure Hit (routes : List Route) (request : Request) where
  route : Route
  method : Method
  action : Action
  /-- The pieces of the path. -/
  pieces : List String
  /-- What stands in the holes of the template. -/
  holes : List String
  mem : route ∈ routes
  serves : (method, action) ∈ route.actions
  named : Method.ofName? request.method = some method
  path : pathPieces? request.path = some pieces
  matched : matchPieces route.template pieces = some holes

/-- What comes of the action that a request comes to. -/
def Hit.outcome (hit : Hit routes request) (w : World) : Except Refusal Response × World :=
  (hit.action (hit.holes.headD "") request).outcome w

/-- **A request is not found, or its method is not allowed, or it is answered with what comes of an
action.** Only what is found is counted. -/
theorem serve_cases (routes : List Route) (request : Request) (w : World) :
    (serve routes request).run w = ({ status := 404 }, w) ∨
    (∃ route, (serve routes request).run w =
      ({ status := 405, allow := some route.allowed }, w.counted route 405)) ∨
    ∃ hit : Hit routes request, (serve routes request).run w =
      let response := Handling.respond request (hit.outcome w).1
      (sent request response, (hit.outcome w).2.counted hit.route response.status) := by
  cases found : sought routes request with
  | none => exact .inl (run_serve_of_unknown found)
  | some target =>
    obtain ⟨route, id⟩ := target
    rw [run_serve_of_found found]
    cases serves : (Method.ofName? request.method).bind fun m => route.actions.lookup m with
    | none =>
      rw [run_answer_of_not_allowed serves]
      exact .inr (.inl ⟨route, rfl⟩)
    | some action =>
      obtain ⟨pieces, path, find⟩ := Option.bind_eq_some_iff.1 found
      obtain ⟨mem, holes, matched, rfl⟩ := mem_of_findRoute? find
      obtain ⟨m, named, lookup⟩ := Option.bind_eq_some_iff.1 serves
      refine .inr (.inr ⟨⟨route, m, action, pieces, holes, mem, mem_of_lookup lookup, named, path,
        matched⟩, ?_⟩)
      rw [run_answer_of_action serves, Hit.outcome]
      dsimp only
      rw [status_sent]

end Serving

/-! ## The interfaces -/

/-- An interface of the server. -/
inductive Interface where
  /-- The one for users and their clients. -/
  | clients
  /-- The administration, under a master key. -/
  | admin (key : Codec.Key)

namespace Interface

/-- The routes of an interface. -/
def routes : Interface → List Route
  | clients => Public.routes
  | admin key => Admin.routes key

/-- The answer of an interface. -/
def handle : Interface → Request → Program Response
  | clients => Public.handle
  | admin key => Admin.handle key

theorem handle_eq_serve (i : Interface) (request : Request) :
    i.handle request = serve i.routes request := by
  cases i <;> rfl

end Interface

end Http

end SlotBroker
