import Mathlib.Logic.Relation
import SlotBroker.Proofs.Agreement
import SlotBroker.Proofs.Effects
import SlotBroker.Proofs.Redaction

/-!
# Requests that bring secrets

A request for a credential and one for a rotation bring a secret. Another secret may be put for it,
however the body writes it, and also in a body that is not read: the same is read but for the
secret, or the same fault is found. So the two requests do the same, under any master keys, if
neither body is too long to be read, or both are. A body that is read is not refused as unreadable.

Results:
* `Request.Resealed.alike`, `Request.SameButSecrets.alike`: another secret asks for the same.
* **`agree_addCredential`**, **`agree_rotateCredential`**: they agree whatever the secrets and keys.
* `understands_addCredential`, `understands_rotateCredential`, ...: what is read is understood.
-/

namespace SlotBroker

open Codec

namespace Http

open Handling

/-- The names in the body of a request for a new credential. -/
def Admin.credentialNames : List String := ["service_id", "identity", "secret", "tier"]

/-- The body of a request is to hold these texts, a secret among them. -/
inductive Request.BringsSecret (request : Request) : List String → Prop
  | credential : request.AsksCredential → BringsSecret request Admin.credentialNames
  | rotation {piece : String} : request.AsksRotation piece → BringsSecret request ["secret"]

/-- The second request is the first with another secret, and neither secret is empty. -/
inductive Request.Resealed (request : Request) : Request → Prop
  /-- One string is put for another where the secret is awaited. What comes after it, and whether
  the body is read at all, does not matter. -/
  | written {names : List String} {pre l l' post : List Char} {s s' : String}
      (brings : request.BringsSecret names)
      (body : request.body = String.ofList (pre ++ '"' :: (l ++ post)))
      (awaits : Json.Awaits (Json.textFields names) "secret" pre)
      (hl : Json.IsLiteral l s) (hl' : Json.IsLiteral l' s') (hs : s ≠ "") (hs' : s' ≠ "") :
      Resealed request { request with body := String.ofList (pre ++ '"' :: (l' ++ post)) }
  /-- Both bodies are read, and as the same texts but for the secret, however they are written. -/
  | read {names : List String} {body' : String} {vs vs' : List Json.Scalar}
      (brings : request.BringsSecret names)
      (values : Json.recordOf (Json.textFields names) request.body = .ok vs)
      (values' : Json.recordOf (Json.textFields names) body' = .ok vs')
      (alike : Json.ValuesAlike "secret" (Json.textFields names) vs vs') :
      Resealed request { request with body := body' }

/-- The bodies are read as the same texts but for a secret. -/
def Request.ReadAlike (names : List String) (request request' : Request) : Prop :=
  Both (Json.ValuesAlike "secret" (Json.textFields names))
    (Json.recordOf (Json.textFields names) request.body)
    (Json.recordOf (Json.textFields names) request'.body)

/-- The body is not too long to be read. -/
def Request.Fits (request : Request) : Prop := request.body.utf8ByteSize ≤ bodyLimit

instance (request : Request) : Decidable request.Fits :=
  inferInstanceAs (Decidable (request.body.utf8ByteSize ≤ bodyLimit))

/-- Where a secret is to be brought, the body is read. -/
def Request.Legible (request : Request) : Prop :=
  ∀ {names}, request.BringsSecret names →
    ∃ values, Json.recordOf (Json.textFields names) request.body = .ok values

/-- The requests ask for the same, if secrets do not count. -/
structure Request.Alike (request request' : Request) : Prop where
  method : request'.method = request.method
  target : request'.target = request.target
  contentType : request'.contentType = request.contentType
  brought : ∀ {names}, request.BringsSecret names → request.ReadAlike names request'
  body : (∀ names, ¬ request.BringsSecret names) → request'.body = request.body

theorem Request.ReadAlike.refl (names : List String) (request : Request) :
    request.ReadAlike names request := by
  unfold ReadAlike
  cases Json.recordOf (Json.textFields names) request.body with
  | error e => exact .fault e
  | ok vs => exact .value (.same _ vs)

theorem Request.ReadAlike.trans {names : List String} {r s t : Request}
    (h : r.ReadAlike names s) (h' : s.ReadAlike names t) : r.ReadAlike names t := by
  unfold ReadAlike at h h' ⊢
  generalize Json.recordOf _ r.body = x at h ⊢
  generalize Json.recordOf _ s.body = y at h h'
  generalize Json.recordOf _ t.body = z at h' ⊢
  cases h with
  | fault e =>
    cases h' with
    | fault => exact .fault e
  | value related =>
    cases h' with
    | value related' => exact .value (related.trans related')

theorem Request.Alike.refl (request : Request) : request.Alike request :=
  ⟨rfl, rfl, rfl, fun _ => .refl _ _, fun _ => rfl⟩

theorem Request.path_eq_of_target {request request' : Request}
    (h : request'.target = request.target) : request'.path = request.path := by
  rw [path, path, targetChars, targetChars, h]

theorem Request.Alike.bringsSecret_iff {request request' : Request} (h : request.Alike request')
    (names : List String) : request'.BringsSecret names ↔ request.BringsSecret names := by
  have path := path_eq_of_target h.target
  have credential : request'.AsksCredential ↔ request.AsksCredential := by
    rw [AsksCredential, AsksCredential, h.method, path]
  have rotation (piece : String) : request'.AsksRotation piece ↔ request.AsksRotation piece := by
    rw [AsksRotation, AsksRotation, h.method, path]
  constructor
  · rintro (asks | asks)
    · exact .credential (credential.1 asks)
    · exact .rotation ((rotation _).1 asks)
  · rintro (asks | asks)
    · exact .credential (credential.2 asks)
    · exact .rotation ((rotation _).2 asks)

theorem Request.Alike.trans {r s t : Request} (h : r.Alike s) (h' : s.Alike t) : r.Alike t where
  method := h'.method.trans h.method
  target := h'.target.trans h.target
  contentType := h'.contentType.trans h.contentType
  brought brings := (h.brought brings).trans (h'.brought ((h.bringsSecret_iff _).2 brings))
  body none := (h'.body fun names brings => none names ((h.bringsSecret_iff names).1 brings)).trans
    (h.body none)

theorem Request.Alike.eq_of_not_bringsSecret {request request' : Request}
    (h : request.Alike request') (none : ∀ names, ¬ request.BringsSecret names) :
    request' = request := by
  obtain ⟨method, target, contentType, -, body⟩ := h
  cases request
  cases request'
  cases method
  cases target
  cases contentType
  cases body none
  rfl

/-- A request brings at most one kind of secret. -/
theorem Request.BringsSecret.unique {request : Request} {names names' : List String}
    (h : request.BringsSecret names) (h' : request.BringsSecret names') : names = names' := by
  cases h with
  | credential asks =>
    cases h' with
    | credential => rfl
    | rotation asks' =>
      have paths := asks.2.symm.trans asks'.2
      simp at paths
  | rotation asks =>
    cases h' with
    | credential asks' =>
      have paths := asks.2.symm.trans asks'.2
      simp at paths
    | rotation => rfl

theorem Request.BringsSecret.legible {request : Request} {names : List String}
    {values : List Json.Scalar} (brings : request.BringsSecret names)
    (read : Json.recordOf (Json.textFields names) request.body = .ok values) :
    request.Legible := fun brings' => by
  obtain rfl := brings.unique brings'
  exact ⟨values, read⟩

theorem Request.Resealed.alike {request request' : Request} (h : request.Resealed request') :
    request.Alike request' := by
  have brought : ∀ {names body'}, request.BringsSecret names →
      request.ReadAlike names { request with body := body' } →
        request.Alike { request with body := body' } := by
    intro names body' brings read
    refine ⟨rfl, rfl, rfl, fun brings' => ?_, fun none => absurd brings (none names)⟩
    obtain rfl := brings.unique brings'
    exact read
  cases h with
  | written brings body awaits hl hl' hs hs' =>
    refine brought brings ?_
    rw [ReadAlike, body]
    exact Json.both_recordOf awaits hl hl' hs hs'
  | read brings values values' alike =>
    refine brought brings ?_
    rw [ReadAlike, values, values']
    exact .value alike

/-- The second request is the first, but there may be other secrets in its body. -/
abbrev Request.SameButSecrets : Request → Request → Prop := Relation.ReflTransGen Request.Resealed

variable {request request' : Request}

theorem Request.SameButSecrets.alike (h : request.SameButSecrets request') :
    request.Alike request' := by
  induction h with
  | refl => exact .refl request
  | tail _ resealed ih => exact ih.trans resealed.alike

/-! ## Actions that bring secrets -/

theorem Handling.agree_bodyFields_of_alike {names : List String} (alike : request.Alike request')
    (fits : request.Fits ↔ request'.Fits) (brings : request.BringsSecret names) :
    Agree (bodyFields names request) (Json.ValuesAlike "secret" (Json.textFields names))
      (bodyFields names request') := by
  have read : Both _ (Json.recordOf (names.map fun n => { name := n, kind := .text }) request.body)
    (Json.recordOf (names.map fun n => { name := n, kind := .text }) request'.body) :=
    alike.brought brings
  unfold bodyFields
  rw [alike.contentType]
  refine .ite ?_ (.throw _)
  unfold Request.Fits at fits
  simp only [fits]
  refine .ite ?_ (.throw _)
  generalize Json.recordOf _ request.body = x at read ⊢
  generalize Json.recordOf _ request'.body = y at read ⊢
  cases read with
  | fault e => exact .throw _
  | value related => exact .pure related

/-- Four texts are read alike only as four texts, of which the secret may be another one. -/
theorem credential_of_alike {service identity secret tier : String} {vs : List Json.Scalar}
    (h : Json.ValuesAlike "secret" (Json.textFields Admin.credentialNames)
      [.text service, .text identity, .text secret, .text tier] vs) :
    ∃ secret', (secret = "" ↔ secret' = "") ∧
      vs = [.text service, .text identity, .text secret', .text tier] := by
  obtain ⟨_, _, rfl, hservice, rest⟩ := h.cons_left
  obtain ⟨_, _, rfl, hidentity, rest⟩ := rest.cons_left
  obtain ⟨_, _, rfl, hsecret, rest⟩ := rest.cons_left
  obtain ⟨_, _, rfl, htier, rest⟩ := rest.cons_left
  obtain rfl := rest.nil_left
  obtain rfl := hservice.eq_of_ne (by decide)
  obtain rfl := hidentity.eq_of_ne (by decide)
  obtain rfl := htier.eq_of_ne (by decide)
  obtain ⟨secret', empty, rfl⟩ := hsecret.text_left
  exact ⟨secret', empty, rfl⟩

/-- **A new credential is answered without its secret.** -/
theorem agree_addCredential (key key' : Key) (alike : request.Alike request')
    (fits : request.Fits ↔ request'.Fits) (asks : request.AsksCredential) (hole : String) :
    Handling.Agree (Admin.addCredential key hole request) Eq
      (Admin.addCredential key' hole request') := by
  refine .bind (Handling.agree_bodyFields_of_alike alike fits (.credential asks))
    fun vs vs' read => ?_
  split
  · rename_i service identity secret tierName
    obtain ⟨secret', empty, rfl⟩ := credential_of_alike read
    dsimp only
    cases Tier.ofLabel? tierName with
    | none => exact .throw _
    | some tier =>
      dsimp only
      rw [decide_eq_decide.2 empty]
      exact .ite (.throw_bind _ _ _)
        (.bind (.ofFailing (agree_storeCredential key key' service identity secret secret' tier))
          fun _ _ same => .pure (by rw [view_eq_of_bare same]))
  · rename_i other
    split
    · obtain ⟨secret, -, rfl⟩ := credential_of_alike read.symm
      exact absurd rfl (other _ _ _ _)
    · exact .throw _

theorem agree_rotateCredential (key key' : Key) (alike : request.Alike request')
    (fits : request.Fits ↔ request'.Fits) {piece : String} (asks : request.AsksRotation piece)
    (hole : String) :
    Handling.Agree (Admin.rotateCredential key hole request) Eq
      (Admin.rotateCredential key' hole request') := by
  refine .bind_eq (agree_pathId hole) fun id =>
    .bind (Handling.agree_bodyFields_of_alike alike fits (.rotation asks)) fun vs vs' read => ?_
  have rotation_of_alike : ∀ {secret : String} {vs : List Json.Scalar},
      Json.ValuesAlike "secret" (Json.textFields ["secret"]) [.text secret] vs →
        ∃ secret', (secret = "" ↔ secret' = "") ∧ vs = [.text secret'] := by
    intro secret vs h
    obtain ⟨_, _, rfl, hsecret, rest⟩ := h.cons_left
    obtain rfl := rest.nil_left
    obtain ⟨secret', empty, rfl⟩ := hsecret.text_left
    exact ⟨secret', empty, rfl⟩
  split
  · rename_i secret
    obtain ⟨secret', empty, rfl⟩ := rotation_of_alike read
    dsimp only
    simp only [empty]
    exact .ite (.throw_bind _ _ _) (.bind_eq (.lift (agree_rotate key key' id secret secret'))
      fun known => .ite
        (.bind (agree_credential id) fun _ _ same => .pure (by rw [view_eq_of_bare same]))
        (.throw_bind _ _ _))
  · rename_i other
    split
    · obtain ⟨secret, -, rfl⟩ := rotation_of_alike read.symm
      exact absurd rfl (other _)
    · exact .throw _

/-! ## Bodies that are read -/

namespace Handling

variable {α β : Type}

/-- The action is not refused for a body that is not read. -/
def Understands (x : Handling α) : Prop :=
  ∀ w fault, (x.outcome w).1 ≠ .error (.unreadableBody fault)

namespace Understands

theorem pure (a : α) : Understands (Pure.pure a : Handling α) := fun _ _ => nofun

theorem throw {e : Refusal} (other : ∀ fault, e ≠ .unreadableBody fault) :
    Understands (MonadExcept.throw e : Handling α) := fun _ fault refused =>
  other fault (Except.error.inj refused)

theorem throw_bind {e : Refusal} (other : ∀ fault, e ≠ .unreadableBody fault)
    (f : α → Handling β) : Understands ((MonadExcept.throw e : Handling α) >>= f) :=
  fun _ fault refused => other fault (Except.error.inj refused)

theorem query (g : Store → α) : Understands (Handling.query g) := fun _ _ => nofun

theorem lift (p : Program α) : Understands (liftM p : Handling α) := fun w fault => by
  rw [outcome_lift]
  nofun

theorem ofFailing (p : Program (Except Failure α)) : Understands (Handling.ofFailing p) :=
  fun w fault => by
    rw [outcome_ofFailing]
    cases (p.run w).1 <;> nofun

theorem bind {x : Handling α} {f : α → Handling β} (h : Understands x)
    (hf : ∀ a, Understands (f a)) : Understands (x >>= f) := by
  intro w fault
  have first := h w fault
  rcases hx : outcome x w with ⟨e | a, v⟩
  · rw [hx] at first
    rw [outcome_bind_of_error hx]
    intro refused
    exact first (congrArg Except.error (Except.error.inj refused))
  · rw [outcome_bind_of_ok hx]
    exact hf a v fault

theorem ite {c : Prop} [Decidable c] {x y : Handling α} (h : Understands x)
    (h' : Understands y) : Understands (if c then x else y) := by
  split
  · exact h
  · exact h'

theorem pathId (hole : String) : Understands (Http.pathId hole) := by
  unfold Http.pathId
  split
  · exact .pure _
  · exact .throw (by nofun)

/-- Of a body that is read, texts are handed on. -/
theorem bodyFields_bind {names : List String} {f : List Json.Scalar → Handling α}
    (legible : request.Legible) (brings : request.BringsSecret names)
    (hf : ∀ texts : List String, texts.length = names.length →
      Understands (f (texts.map .text))) :
    Understands (bodyFields names request >>= f) := by
  obtain ⟨values, read⟩ := legible brings
  obtain ⟨texts, count, rfl⟩ := Json.textsFor_of_recordOf read
  unfold bodyFields
  split
  · split
    · rw [show Json.recordOf (names.map fun n => { name := n, kind := .text }) request.body = _
        from read]
      exact hf texts count
    · exact .throw_bind (by nofun) f
  · exact .throw_bind (by nofun) f

end Understands

end Handling

theorem understands_credential (id : CredentialId) : Understands (Admin.credential id) := by
  refine .bind (.query _) fun known => ?_
  cases known with
  | none => exact .throw (by nofun)
  | some c => exact .pure c

theorem understands_listCredentials (hole : String) :
    Understands (Admin.listCredentials hole request) :=
  .bind (.query _) fun _ => .pure _

theorem understands_addCredential (key : Key) (legible : request.Legible)
    (asks : request.AsksCredential) (hole : String) :
    Understands (Admin.addCredential key hole request) := by
  refine .bodyFields_bind legible (.credential asks) fun texts count => ?_
  obtain ⟨service, identity, secret, tierName, rfl⟩ := List.length_eq_four.1 count
  simp only [List.map_cons, List.map_nil]
  cases Tier.ofLabel? tierName with
  | none => exact .throw (by nofun)
  | some tier =>
    exact .ite (.throw_bind (by nofun) _) (.bind (.ofFailing _) fun _ => .pure _)

theorem understands_disableCredential (hole : String) :
    Understands (Admin.disableCredential hole request) :=
  .bind (.pathId hole) fun id => .bind (.lift _) fun _ =>
    .ite (.bind (understands_credential id) fun _ => .pure _) (.throw_bind (by nofun) _)

theorem understands_rotateCredential (key : Key) (legible : request.Legible) {piece : String}
    (asks : request.AsksRotation piece) (hole : String) :
    Understands (Admin.rotateCredential key hole request) := by
  refine .bind (.pathId hole) fun id =>
    .bodyFields_bind legible (.rotation asks) fun texts count => ?_
  obtain ⟨secret, rfl⟩ := List.length_eq_one_iff.1 count
  exact .ite (.throw_bind (by nofun) _) (.bind (.lift _) fun _ =>
    .ite (.bind (understands_credential id) fun _ => .pure _) (.throw_bind (by nofun) _))

theorem understands_sweepNow (hole : String) : Understands (Admin.sweepNow hole request) :=
  .bind (.lift _) fun _ => .pure _

end Http

end SlotBroker
