import SlotBroker.Http.Admin
import SlotBroker.Http.Public
import SlotBroker.Proofs.Akin

/-!
# Actions that agree

Two actions agree if, taken in akin worlds, they are refused for the same reason or give related
results, and leave akin worlds. Every action agrees with itself that neither brings a secret nor
asks for a login: what is stored may differ in the sealed secrets, and it does not look at them.

Results:
* `Agree.bind`, `Agree.lift`, `Agree.ofFailing`: actions that agree, put together.
* `agree_createSession`, `agree_getService`, ...: what clients can ask.
* `agree_listCredentials`, `agree_disableCredential`, ...: what the administration can ask.
-/

namespace SlotBroker

namespace Http

namespace Handling

variable {α β γ δ : Type} {R : α → β → Prop} {S : γ → δ → Prop}

/-- Taken in akin worlds, both actions are refused for the same reason or give results that `R`
relates, and leave akin worlds. -/
def Agree (x : Handling α) (R : α → β → Prop) (y : Handling β) : Prop :=
  Program.Agree x.run (Both R) y.run

namespace Agree

theorem pure {a : α} {b : β} (h : R a b) : Agree (Pure.pure a) R (Pure.pure b) :=
  .done (.value h)

theorem throw (e : Refusal) :
    Agree (MonadExcept.throw e : Handling α) R (MonadExcept.throw e : Handling β) :=
  .done (.fault e)

theorem throw_bind (e : Refusal) (f : α → Handling γ) (g : β → Handling δ) :
    Agree ((MonadExcept.throw e : Handling α) >>= f) S
      ((MonadExcept.throw e : Handling β) >>= g) :=
  .done (.fault e)

theorem bind {x : Handling α} {y : Handling β} {f : α → Handling γ} {g : β → Handling δ}
    (h : Agree x R y) (hf : ∀ a b, R a b → Agree (f a) S (g b)) : Agree (x >>= f) S (y >>= g) := by
  unfold Agree
  rw [ExceptT.run_bind, ExceptT.run_bind, Program.bind_eq, Program.bind_eq]
  refine Program.Agree.bind h fun r r' related => ?_
  cases related with
  | fault e => exact .done (.fault e)
  | value related => exact hf _ _ related

/-- What agrees on its result goes on with it. -/
theorem bind_eq {x y : Handling α} {f : α → Handling γ} {g : α → Handling δ} (h : Agree x Eq y)
    (hf : ∀ a, Agree (f a) S (g a)) : Agree (x >>= f) S (y >>= g) :=
  h.bind fun a b same => by
    subst same
    exact hf a

theorem ite {c : Prop} [Decidable c] {x x' : Handling α} {y y' : Handling β} (h : Agree x R y)
    (h' : Agree x' R y') : Agree (if c then x else x') R (if c then y else y') := by
  split
  · exact h
  · exact h'

theorem lift {p : Program α} {q : Program β} (h : p.Agree R q) :
    Agree (liftM p : Handling α) R (liftM q : Handling β) :=
  Program.Agree.bind h fun _ _ related => .done (.value related)

theorem query {f : Store → α} {g : Store → β} (h : ∀ {s t}, s.Akin t → R (f s) (g t)) :
    Agree (Handling.query f) R (Handling.query g) :=
  lift (.query h)

theorem ofFailing {p : Program (Except Failure α)} {q : Program (Except Failure β)}
    (h : p.Agree (Both R) q) : Agree (Handling.ofFailing p) R (Handling.ofFailing q) :=
  Program.Agree.bind h fun _ _ related => by
    cases related with
    | fault e => exact .done (.fault _)
    | value related => exact .done (.value related)

theorem ofFailing_eq {p q : Program (Except Failure α)} (h : p.Agree Eq q) :
    Agree (Handling.ofFailing p) Eq (Handling.ofFailing q) :=
  ofFailing (h.weaken .of_eq)

end Agree

/-! ## What is read off a request -/

theorem agree_pathId (hole : String) : Agree (pathId hole) Eq (pathId hole) := by
  unfold pathId
  split
  · exact .pure rfl
  · exact .throw _

theorem agree_queryField (name : String) (request : Request) :
    Agree (queryField name request) Eq (queryField name request) := by
  unfold queryField
  split
  · exact .pure rfl
  · exact .pure rfl
  · exact .throw _

theorem agree_queryMillis (name : String) (request : Request) :
    Agree (queryMillis name request) Eq (queryMillis name request) := by
  refine .bind_eq (agree_queryField name request) fun field => ?_
  split
  · exact .pure rfl
  · split
    · exact .pure rfl
    · exact .throw _

theorem agree_queryFlag (name : String) (request : Request) :
    Agree (queryFlag name request) Eq (queryFlag name request) := by
  refine .bind_eq (agree_queryField name request) fun field => ?_
  split
  · exact .pure rfl
  · exact .pure rfl
  · exact .pure rfl
  · exact .throw _

theorem agree_bodyFields (names : List String) (request : Request) :
    Agree (bodyFields names request) Eq (bodyFields names request) := by
  unfold bodyFields
  split
  · split
    · split
      · exact .pure rfl
      · exact .throw _
    · exact .throw _
  · exact .throw _

end Handling

open Handling

/-! ## What clients can ask -/

theorem agree_health (hole : String) (request : Request) :
    Agree (Public.health hole request) Eq (Public.health hole request) :=
  .bind_eq (.query fun akin => akin.counts_eq) fun _ => .pure rfl

theorem agree_metrics (hole : String) (request : Request) :
    Agree (Public.metrics hole request) Eq (Public.metrics hole request) :=
  .bind_eq (.lift .exposition) fun _ => .pure rfl

theorem agree_statuses (services : List Service) :
    Agree (Public.statuses services) Eq (Public.statuses services) := by
  induction services with
  | nil => exact .pure rfl
  | cons s rest ih =>
    exact .bind_eq (.ofFailing_eq (agree_serviceStatus s.id)) fun _ =>
      .bind_eq ih fun _ => .pure rfl

theorem agree_listServices (hole : String) (request : Request) :
    Agree (Public.listServices hole request) Eq (Public.listServices hole request) :=
  .bind_eq (.query fun akin => by rw [akin.services]) fun services =>
    .bind_eq (agree_statuses services) fun _ => .pure rfl

theorem agree_getService (hole : String) (request : Request) :
    Agree (Public.getService hole request) Eq (Public.getService hole request) :=
  .bind_eq (agree_pathId hole) fun id => .bind_eq (.ofFailing_eq (agree_serviceStatus id)) fun _ =>
    .pure rfl

theorem agree_getRevenue (hole : String) (request : Request) :
    Agree (Public.getRevenue hole request) Eq (Public.getRevenue hole request) :=
  .bind_eq (agree_pathId hole) fun id => .bind_eq (agree_queryMillis "since" request) fun since =>
    .bind_eq (.ofFailing_eq (agree_serviceRevenue id since)) fun _ => .pure rfl

theorem agree_placed (x : Session) : (Public.placed x).Agree Eq (Public.placed x) :=
  .bind_eq (agree_queuePosition x.id) fun _ => .done rfl

theorem agree_createSession (hole : String) (request : Request) :
    Agree (Public.createSession hole request) Eq (Public.createSession hole request) := by
  refine .bind_eq (agree_bodyFields _ request) fun _ => ?_
  split
  · exact .ite (.throw_bind _ _ _)
      (.bind_eq (.ofFailing_eq (agree_requestSession _ _)) fun x =>
        .bind_eq (.lift (agree_placed x)) fun _ => .pure rfl)
  · exact .throw _

theorem agree_getSession (hole : String) (request : Request) :
    Agree (Public.getSession hole request) Eq (Public.getSession hole request) :=
  .bind_eq (agree_pathId hole) fun id => .bind_eq (.ofFailing_eq (agree_session id)) fun x =>
    .bind_eq (.lift (agree_placed x)) fun _ => .pure rfl

theorem agree_deleteSession (hole : String) (request : Request) :
    Agree (Public.endSession hole request) Eq (Public.endSession hole request) :=
  .bind_eq (agree_pathId hole) fun id => .bind_eq (.ofFailing_eq (agree_session id)) fun _ =>
    .bind_eq (.lift (agree_endSession id)) fun _ =>
      .bind_eq (.ofFailing_eq (agree_session id)) fun _ => .pure rfl

theorem agree_userSessions (hole : String) (request : Request) :
    Agree (Public.userSessions hole request) Eq (Public.userSessions hole request) :=
  .bind_eq (agree_pathId hole) fun id => .bind_eq (agree_queryFlag "all" request) fun all =>
    .bind_eq (.query fun akin => by
      rw [Store.sessionsOf, Store.activeSessionsOf, akin.sessionsMatching_eq,
        akin.sessionsMatching_eq, Store.sessionsOf, Store.activeSessionsOf]) fun _ => .pure rfl

theorem agree_getUserBill (hole : String) (request : Request) :
    Agree (Public.userBill hole request) Eq (Public.userBill hole request) :=
  .bind_eq (agree_pathId hole) fun id => .bind_eq (agree_queryMillis "start" request) fun start =>
    .bind_eq (agree_queryMillis "end" request) fun finish =>
      .bind_eq (.lift (agree_userBill id start finish)) fun _ => .pure rfl

theorem agree_getSummary (hole : String) (request : Request) :
    Agree (Public.getSummary hole request) Eq (Public.getSummary hole request) :=
  .bind_eq (agree_queryMillis "since" request) fun since =>
    .bind_eq (.lift (agree_summary since)) fun _ => .pure rfl

/-! ## What the administration can ask -/

theorem agree_listCredentials (hole : String) (request : Request) :
    Agree (Admin.listCredentials hole request) Eq (Admin.listCredentials hole request) := by
  refine .bind (R := fun cs ds : List Credential => cs.map Credential.bare = ds.map Credential.bare)
    (.query fun akin => akin.credentials) fun cs ds same => .pure ?_
  have views := congrArg (List.map View.credential) same
  rw [List.map_map, List.map_map] at views
  exact congrArg (fun xs => Response.ofJson 200 (.record [("credentials", .list xs)])) views

theorem agree_credential (id : CredentialId) :
    Agree (Admin.credential id) (fun c d => c.bare = d.bare) (Admin.credential id) := by
  refine .bind (R := SameBare) (.query fun akin => akin.credential?_eq id) fun c d same => ?_
  cases c with
  | none =>
    obtain rfl := Option.map_eq_none_iff.1 same.symm
    exact .throw _
  | some c =>
    obtain ⟨d, rfl, bare⟩ := Option.map_eq_some_iff.1 same.symm
    exact .pure bare.symm

/-- No secret is seen in the view of a credential. -/
theorem view_eq_of_bare {c d : Credential} (same : c.bare = d.bare) :
    View.credential c = View.credential d := by
  have views := congrArg View.credential same
  exact views

theorem agree_disableCredential (hole : String) (request : Request) :
    Agree (Admin.disableCredential hole request) Eq (Admin.disableCredential hole request) :=
  .bind_eq (agree_pathId hole) fun id => .bind_eq (.lift (agree_disable id)) fun known =>
    .ite (.bind (agree_credential id) fun _ _ same => .pure (by rw [view_eq_of_bare same]))
      (.throw_bind _ _ _)

theorem agree_sweepNow (hole : String) (request : Request) :
    Agree (Admin.sweepNow hole request) Eq (Admin.sweepNow hole request) :=
  .bind_eq (.lift agree_sweepCycle) fun _ => .pure rfl

theorem agree_registerUser (hole : String) (request : Request) :
    Agree (Admin.registerUser hole request) Eq (Admin.registerUser hole request) := by
  refine .bind_eq (agree_bodyFields _ request) fun _ => ?_
  split
  · exact .ite (.throw_bind _ _ _)
      (.bind_eq (.lift (agree_register _)) fun _ => .pure rfl)
  · exact .throw _

end Http

end SlotBroker
