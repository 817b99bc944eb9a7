import SlotBroker.Proofs.Effects

/-!
# What requests ask the administration for

Of all requests two kinds hand over a secret: one asks for a credential, the other for a rotation.
`Admin.asked?` reads the operation off a request of either kind that is in order.

Results:
* `retains_handle`: no request of a client touches a sealed secret.
* **`Admin.store_run_handle`**: a request that asks for an operation does to the store what the
  operation does, and any other leaves the sealed secrets as they are.
-/

namespace SlotBroker

open Codec Program

namespace Http

section Fields

variable {names : List String} {request : Request} {values : List Json.Scalar}

/-- The values of some text fields, if the body of a request is JSON that holds them and not too
long to be read. -/
def fields? (names : List String) (request : Request) : Option (List Json.Scalar) :=
  if request.contentType.any namesJson = true ∧ request.body.utf8ByteSize ≤ bodyLimit then
    (Json.recordOf (names.map fun n => { name := n, kind := .text }) request.body).toOption
  else none

theorem outcome_bodyFields (names : List String) (request : Request) (w : World) :
    (∃ values, fields? names request = some values ∧
        (bodyFields names request).outcome w = (.ok values, w)) ∨
      fields? names request = none ∧
        ∃ e, (bodyFields names request).outcome w = (.error e, w) := by
  unfold fields? bodyFields
  by_cases said : request.contentType.any namesJson = true
  · by_cases fits : request.body.utf8ByteSize ≤ bodyLimit
    · rw [if_pos ⟨said, fits⟩, if_pos said, if_pos fits]
      cases Json.recordOf (names.map fun n => { name := n, kind := .text }) request.body with
      | ok values => exact .inl ⟨values, rfl, rfl⟩
      | error fault => exact .inr ⟨rfl, _, rfl⟩
    · rw [if_neg fun h => fits h.2, if_pos said, if_neg fits]
      exact .inr ⟨rfl, _, rfl⟩
  · rw [if_neg fun h => said h.1, if_neg said]
    exact .inr ⟨rfl, _, rfl⟩

end Fields

namespace Admin

/-- The credential that a body asks for, if it is in order. -/
def issueAsked? (request : Request) : Option Operation :=
  match fields? ["service_id", "identity", "secret", "tier"] request with
  | some [.text service, .text identity, .text secret, .text tierName] =>
    match Tier.ofLabel? tierName with
    | some tier =>
      if Text.trim identity = "" || secret = "" then none
      else some (.issue service identity secret tier)
    | none => none
  | _ => none

/-- The rotation that a body asks for, if it is in order. -/
def rotationAsked? (hole : String) (request : Request) : Option Operation :=
  match Text.percentDecoded? hole, fields? ["secret"] request with
  | some id, some [.text secret] => if secret = "" then none else some (.rotate id secret)
  | _, _ => none

/-- The credential or the rotation that a request asks the administration for. -/
def asked? (request : Request) : Option Operation :=
  if request.method = "POST" then
    match pathPieces? request.path with
    | some ["admin", "credentials"] => issueAsked? request
    | some ["admin", "credentials", hole, "rotate"] => rotationAsked? hole request
    | _ => none
  else none

variable {key : Key} {request : Request} {w : World}

/-- The store after what was asked for, or as it was. -/
def after (key : Key) (w : World) (asked : Option Operation) : Store :=
  asked.elim w.store fun op => ((op.program key).run w).2.store

theorem store_addCredential (key : Key) (hole : String) (request : Request) (w : World) :
    ((addCredential key hole request).outcome w).2.store = after key w (issueAsked? request) := by
  unfold addCredential issueAsked?
  rcases outcome_bodyFields ["service_id", "identity", "secret", "tier"] request w with
    ⟨values, hvalues, out⟩ | ⟨hnone, e, out⟩
  · rw [Handling.outcome_bind_of_ok out, hvalues]
    split
    · rename_i service identity secret tierName
      dsimp only
      cases Tier.ofLabel? tierName with
      | none => rfl
      | some tier =>
        dsimp only
        split
        · rfl
        · rw [Handling.Looks.world_bind (fun _ => .pure _), Handling.outcome_ofFailing]
          change _ = (Program.run (Operation.program key (.issue ..)) w).2.store
          rw [Operation.program, Program.run_map]
    · rename_i mismatched
      split
      · rename_i heq
        exact (mismatched _ _ _ _ (Option.some.inj heq)).elim
      · rfl
  · rw [Handling.outcome_bind_of_error out, hnone]
    rfl

theorem store_rotateCredential (key : Key) (hole : String) (request : Request) (w : World) :
    ((rotateCredential key hole request).outcome w).2.store =
      after key w (rotationAsked? hole request) := by
  unfold rotateCredential rotationAsked? pathId
  cases Text.percentDecoded? hole with
  | none => rfl
  | some id =>
    dsimp only
    rcases outcome_bodyFields ["secret"] request w with ⟨values, hvalues, out⟩ | ⟨hnone, e, out⟩
    · rw [Handling.outcome_bind_of_ok (Handling.outcome_pure id w),
        Handling.outcome_bind_of_ok out, hvalues]
      split
      · rename_i secret
        dsimp only
        split
        · rfl
        · refine (congrArg World.store (Handling.Looks.world_bind (fun known => ?_) w)).trans ?_
          · split
            · exact .bind (Handling.looks_credential id) fun _ => .pure _
            · exact .bind (.throw _) fun _ => .bind (Handling.looks_credential id) fun _ => .pure _
          · rw [Handling.outcome_lift]
            change _ = (Program.run (Operation.program key (.rotate ..)) w).2.store
            rw [Operation.program, Program.run_map]
      · rename_i mismatched
        split
        · rename_i heq
          exact (mismatched _ (Option.some.inj heq)).elim
        · rfl
    · rw [Handling.outcome_bind_of_ok (Handling.outcome_pure id w),
        Handling.outcome_bind_of_error out, hnone]
      rfl

end Admin

/-- The action leaves every sealed secret as it is. -/
def Handling.Retains {α : Type} (x : Handling α) : Prop :=
  ∀ w : World, w.store.Retains (x.outcome w).2.store

open Handling

end Http

/-- Whatever comes of requests leaves the sealed secrets as they are. -/
theorem Store.Retains.allows : World.Allows fun w v => w.store.Retains v.store where
  quiet {w _} quiet := by
    rw [quiet.store]
    exact .refl w.store
  trans := .trans
  ends id := Program.Retains.run (Store.Retains.permits.doesEndSession id)
  sweeps := Program.Retains.run Store.Retains.permits.doesSweepCycle
  disables id := Program.Retains.run (retains_disable id)
  registers username := Program.Retains.run (retains_register username)

namespace Http

open World Handling

theorem retains_createSession (hole : String) (request : Request) :
    Handling.Retains (Public.createSession hole request) := by
  have allows := Store.Retains.allows
  refine allows.bind (allows.looks (looks_bodyFields _ request)) fun _ => ?_
  split
  · dsimp only
    split
    · exact allows.throw_bind _ _
    · exact allows.bind
        (Allows.ofFailing (Program.Retains.run (Store.Retains.permits.doesRequestSession _ _)))
        fun x => allows.looks (.bind (.lift (looks_placed x)) fun _ => .pure _)
  · exact allows.looks (.throw _)

/-- No request of a client touches a sealed secret. -/
theorem retains_handle (request : Request) (w : World) :
    w.store.Retains ((Public.handle request).run w).2.store :=
  Store.Retains.allows.clients fun _ hole => retains_createSession hole request w

namespace Admin

variable {key : Key} {request : Request} {w : World}

theorem sought_credentials (key : Key) {request : Request}
    (path : pathPieces? request.path = some ["admin", "credentials"]) :
    sought (routes key) request =
      some ({ template := credentialsTemplate,
              actions := [(.get, listCredentials), (.post, addCredential key)] }, "") := by
  rw [sought, path]
  rfl

theorem sought_rotation (key : Key) {request : Request} {hole : String}
    (path : pathPieces? request.path = some ["admin", "credentials", hole, "rotate"]) :
    sought (routes key) request =
      some ({ template := rotationTemplate,
              actions := [(.post, rotateCredential key)] }, hole) := by
  rw [sought, path]
  rfl

theorem store_run_handle_of_action {m : Method} {route : Route} {id : String} {action : Action}
    (found : sought (routes key) request = some (route, id))
    (method : Method.ofName? request.method = some m)
    (serves : route.actions.lookup m = some action) :
    ((handle key request).run w).2.store = ((action id request).outcome w).2.store := by
  rw [handle, run_serve_of_action found method serves]
  rfl

theorem store_run_handle_of_credentials (post : request.method = "POST")
    (path : pathPieces? request.path = some ["admin", "credentials"]) :
    ((handle key request).run w).2.store = after key w (issueAsked? request) := by
  rw [store_run_handle_of_action (sought_credentials key path) (by rw [post]; rfl) rfl]
  exact store_addCredential key "" request w

theorem store_run_handle_of_rotation {hole : String} (post : request.method = "POST")
    (path : pathPieces? request.path = some ["admin", "credentials", hole, "rotate"]) :
    ((handle key request).run w).2.store = after key w (rotationAsked? hole request) := by
  rw [store_run_handle_of_action (sought_rotation key path) (by rw [post]; rfl) rfl]
  exact store_rotateCredential key hole request w

/-- Any other request leaves the sealed secrets as they are. -/
theorem retains_handle_of_other (noIssue : ¬ request.AsksCredential)
    (noRotation : ∀ hole, ¬ request.AsksRotation hole) :
    w.store.Retains ((handle key request).run w).2.store :=
  Store.Retains.allows.administration key (fun asks => absurd asks noIssue)
    fun hole asks => absurd asks (noRotation hole)

/-- **A request that asks for a credential or a rotation does to the store what the operation
does**, and any other leaves the sealed secrets as they are. -/
theorem store_run_handle (key : Key) (request : Request) (w : World) :
    ((handle key request).run w).2.store = after key w (asked? request) ∨
      asked? request = none ∧ w.store.Retains ((handle key request).run w).2.store := by
  unfold asked?
  split
  · rename_i post
    split
    · rename_i path
      exact .inl (store_run_handle_of_credentials post path)
    · rename_i hole path
      exact .inl (store_run_handle_of_rotation post path)
    · rename_i noIssue noRotation
      exact .inr ⟨rfl, retains_handle_of_other (fun asks => noIssue asks.2)
        fun hole asks => noRotation hole asks.2⟩
  · rename_i notPost
    exact .inr ⟨rfl, retains_handle_of_other (fun asks => notPost asks.1)
      fun _ asks => notPost asks.1⟩

end Admin

end Http

end SlotBroker
