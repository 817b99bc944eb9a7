import SlotBroker.Accounts
import SlotBroker.Broker
import SlotBroker.Proofs.Growth

/-!
# What every step of a program does

`p.Does R` says that each step of the program `p` makes a change of the store that `R` allows, on
whatever platform it is taken, and whatever came of the steps before. Others may interfere as they
like: nothing is said of what a step finds.

`Store.Permits R` says that `R` allows every change that requests, ends and sweeps make, and from it
follows that they do nothing else. `Store.Retains` is the case that is used most: a step may move
sessions and slots, but it forgets nobody and leaves every sealed secret as it is.

Results:
* `Does.bind`: what two programs do, the one after the other does.
* **`Does.run`**: what each step does, a whole run does, if `R` is reflexive and transitive.
* **`Permits.doesRequestSession`**, `doesEndSession`, `doesSweepCycle`, ...: the steps of the
  operations under a relation that permits them.
-/

namespace SlotBroker

namespace Program

variable {α β σ : Type}

/-- Each step of the program makes a change that `R` allows, wherever it is taken. -/
def Does (R : Store → Store → Prop) : {α : Type} → Program α → Prop
  | _, .done _ => True
  | _, .step f k => (∀ p, R p.store (f p).2.store) ∧ ∀ b, (k b).Does R
  | _, .clock k => ∀ time, (k time).Does R
  | _, .random k => ∀ word, (k word).Does R
  | _, .loop body _ _ k => (∀ a, (body a).Does R) ∧ ∀ a, (k a).Does R

namespace Does

variable {R : Store → Store → Prop} {p : Program α} {f : α → Program β}

theorem bind (h : p.Does R) (hf : ∀ a, (f a).Does R) : (p.bind f).Does R := by
  induction p with
  | done a => exact hf a
  | step g k ih => exact ⟨h.1, fun b => ih b (h.2 b) hf⟩
  | clock k ih => exact fun time => ih time (h time) hf
  | random k ih => exact fun word => ih word (h word) hf
  | loop body limit a k _ ih => exact ⟨h.1, fun b => ih b (h.2 b) hf⟩

/-- **What each step does, a whole run does.** -/
theorem run (h : p.Does R) (refl : ∀ s, R s s) (trans : ∀ {s t u}, R s t → R t u → R s u)
    (w : World) : R w.platform.store (p.run w).2.platform.store := by
  induction p generalizing w with
  | done a => exact refl _
  | step g k ih =>
    exact trans (h.1 w.platform) (ih _ (h.2 _) { w with platform := (g w.platform).2 })
  | clock k ih => exact ih _ (h _) { w with supply := w.supply.readClock.2 }
  | random k ih => exact ih _ (h _) { w with supply := w.supply.draw.2 }
  | loop body limit a k ihbody ih =>
    have looped : ∀ (n : Nat) (a : _) (w : World),
        R w.platform.store (rounds (fun a w => (body a).run w) n a w).2.platform.store := by
      intro n
      induction n with
      | zero => exact fun a w => refl _
      | succ n ihn =>
        intro a w
        rw [rounds]
        split
        · exact trans (ihbody a (h.1 a) w) (ihn _ _)
        · exact ihbody a (h.1 a) w
    exact trans (looped _ _ _) (ih _ (h.2 _) _)

theorem onStore {g : Store → α × Store} (h : ∀ s, R s (g s).2) : (Program.onStore g).Does R :=
  ⟨fun p => h p.store, fun _ => trivial⟩

theorem update {g : Store → Store} (h : ∀ s, R s (g s)) : (Program.update g).Does R := onStore h

theorem query {g : Store → α} (refl : ∀ s, R s s) : (Program.query g).Does R := onStore refl

theorem count {c : Counter} {n : Nat} (refl : ∀ s, R s s) : (Program.count c n).Does R :=
  ⟨fun p => refl p.store, fun _ => trivial⟩

theorem observe {service : ServiceId} {duration : Float} (refl : ∀ s, R s s) :
    (Program.observe service duration).Does R :=
  ⟨fun p => refl p.store, fun _ => trivial⟩

theorem addProviders {xs : List Provider} (refl : ∀ s, R s s) :
    (Program.addProviders xs).Does R :=
  ⟨fun p => refl p.store, fun _ => trivial⟩

theorem done (a : α) : (Program.done a).Does R := trivial

theorem now : Program.now.Does R := fun _ => trivial

theorem freshId {digits : Nat} : (Program.freshId digits).Does R := fun _ => trivial

theorem randomWord : Program.randomWord.Does R := fun _ => trivial

theorem repeatWhile {body : σ → Program (Bool × σ)} {limit : Platform → Nat} {start : σ}
    (h : ∀ a, (body a).Does R) : (Program.repeatWhile body limit start).Does R :=
  ⟨h, fun _ => trivial⟩

end Does

end Program

/-! ## Nothing is forgotten -/

namespace Store

/-- The sealed secret of a credential. -/
def sealed? (s : Store) (id : CredentialId) : Option String :=
  (s.credential? id).map (·.sealedSecret)

/-- No session is forgotten, and every sealed secret is as it was. -/
structure Retains (s t : Store) : Prop where
  sessions : ∀ id, (s.session? id).isSome = true → (t.session? id).isSome = true
  secrets : ∀ id, t.sealed? id = s.sealed? id

namespace Retains

variable {s t u : Store}

theorem refl (s : Store) : s.Retains s := ⟨fun _ h => h, fun _ => rfl⟩

theorem trans (h : s.Retains t) (h' : t.Retains u) : s.Retains u :=
  ⟨fun id known => h'.sessions id (h.sessions id known),
    fun id => (h'.secrets id).trans (h.secrets id)⟩

/-- A credential takes the place of one with the same sealed secret. -/
theorem addCredential {c d : Credential} (known : s.credential? d.id = some c)
    (same : d.sealedSecret = c.sealedSecret) : s.Retains (s.addCredential d) where
  sessions _ h := h
  secrets id := by
    rw [sealed?, sealed?, credential?_addCredential]
    split
    · rename_i hid
      rw [← hid, known]
      exact congrArg some same
    · rfl

theorem insertSession (y : Session) : s.Retains { s with sessions := s.sessions.insert y } where
  sessions id h := by
    rw [session?_insert]
    split
    · rfl
    · exact h
  secrets _ := rfl

theorem checkout (s : Store) (id : CredentialId) (now : Millis) :
    s.Retains (s.checkout id now).2 := by
  unfold Store.checkout
  cases known : s.credential? id with
  | none => exact refl s
  | some c =>
    dsimp only
    split
    · exact addCredential (credential?_of_id_eq known (c.id_occupy now)) rfl
    · exact refl s

theorem checkin (s : Store) (id : CredentialId) : s.Retains (s.checkin id) := by
  unfold Store.checkin
  cases known : s.credential? id with
  | none => exact refl s
  | some c => exact addCredential (credential?_of_id_eq known c.id_release) rfl

theorem disable (s : Store) (id : CredentialId) : s.Retains (s.disable id).2 := by
  rcases s.disable_cases id with h | ⟨c, known, h⟩
  · rw [h]
    exact refl s
  · rw [h]
    exact addCredential known rfl

theorem applyEvent (s : Store) (id : SessionId) (e : Session.Event) :
    s.Retains (s.applyEvent id e).2 := by
  rcases s.applyEvent_cases id e with h | ⟨x, y, -, -, h⟩
  · rw [h]
    exact refl s
  · rw [h]
    exact insertSession y

theorem addSession (s : Store) (x : Session) : s.Retains (s.addSession x).2 :=
  ⟨(insertSession _).sessions, fun _ => rfl⟩

theorem appendUsage (s : Store) (r : UsageRecord) : s.Retains (s.appendUsage r) :=
  ⟨fun _ h => h, fun _ => rfl⟩

theorem addUser (s : Store) (u : User) : s.Retains (s.addUser u) := ⟨fun _ h => h, fun _ => rfl⟩

theorem addService (s : Store) (x : Service) : s.Retains (s.addService x) :=
  ⟨fun _ h => h, fun _ => rfl⟩

end Retains

end Store

/-! ## The operations -/

/-- `R` allows every change that requests, ends and sweeps make in one step. -/
structure Store.Permits (R : Store → Store → Prop) : Prop where
  refl : ∀ s, R s s
  checkout : ∀ s id now, R s (Store.checkout s id now).2
  checkin : ∀ s id, R s (Store.checkin s id)
  applyEvent : ∀ s id e, R s (Store.applyEvent s id e).2
  addSession : ∀ s x, R s (Store.addSession s x).2
  appendUsage : ∀ s r, R s (Store.appendUsage s r)

namespace Store.Permits

open Program

variable {R : Store → Store → Prop} (permits : Permits R)
include permits

theorem doesCheckout (id : CredentialId) : (Vault.checkout id).Does R :=
  .bind .now fun now => .onStore fun s => permits.checkout s id now

theorem doesCheckoutFirst (cs : List Credential) : (Vault.checkoutFirst cs).Does R := by
  induction cs with
  | nil => exact .done _
  | cons c rest ih =>
    refine .bind (permits.doesCheckout c.id) fun taken => ?_
    cases taken with
    | none => exact ih
    | some c => exact .done _

theorem doesCheckin (id : CredentialId) : (Vault.checkin id).Does R :=
  .update fun s => permits.checkin s id

theorem doesApplyEvent (id : SessionId) (e : Session.Event) :
    (onStore (·.applyEvent id e)).Does R :=
  .onStore fun s => permits.applyEvent s id e

theorem doesDrainRound (service : ServiceId) (n : Nat) :
    (Broker.drainRound service n).Does R := by
  refine .bind (.query permits.refl) fun head => ?_
  cases head with
  | none => exact .done _
  | some x =>
    refine .bind (.query permits.refl) fun candidates =>
      .bind (permits.doesCheckoutFirst _) fun taken => ?_
    cases taken with
    | none => exact .done _
    | some c =>
      refine .bind .now fun now => .bind (permits.doesApplyEvent _ _) fun moved => ?_
      split
      · exact .done _
      · exact .bind (permits.doesCheckin _) fun _ => .done _

theorem doesDrainQueue (service : ServiceId) : (Broker.drainQueue service).Does R := by
  refine .bind (.repeatWhile (permits.doesDrainRound service)) fun n => ?_
  dsimp only
  split
  · exact .bind (.count permits.refl) fun _ => .done _
  · exact .done _

theorem doesAdmitNew (x : Session) (now : Millis) : (Broker.admitNew x now).Does R := by
  refine .bind (.query permits.refl) fun candidate => ?_
  cases candidate with
  | none => exact .done _
  | some c =>
    refine .bind (permits.doesCheckout _) fun taken => ?_
    cases taken with
    | none => exact .done _
    | some c => exact .done _

theorem doesRequestSession (user : UserId) (service : ServiceId) :
    (Broker.requestSession user service).Does R := by
  refine .bind (.query permits.refl) fun known => ?_
  cases known with
  | none => exact .done _
  | some definition =>
    refine .bind .now fun now => .bind .freshId fun id =>
      .bind (permits.doesAdmitNew _ _) fun x =>
        .bind (.onStore fun s => permits.addSession s x) fun stored => ?_
    dsimp only
    split
    · exact .bind (permits.doesDrainQueue service) fun _ =>
        .bind (.query permits.refl) fun settled =>
          .bind (.count permits.refl) fun _ => .done _
    · exact .bind (.done _) fun settled => .bind (.count permits.refl) fun _ => .done _

theorem doesRecordSession (x : Session) : (Billing.recordSession x).Does R := by
  refine .bind (.query permits.refl) fun known => ?_
  cases known with
  | none => exact .done _
  | some definition =>
    exact .bind .now fun now => .bind .freshId fun id =>
      .bind (.update fun s => permits.appendUsage s _) fun _ =>
        .bind (.observe permits.refl) fun _ => .done _

theorem doesReleaseAndBill (x : Session) : (Broker.releaseAndBill x).Does R := by
  have bill : ∀ f : Except Failure UsageRecord → Program (Option UsageRecord),
      (∀ r, (f r).Does R) → ((Billing.recordSession x).bind f).Does R :=
    fun f h => .bind (permits.doesRecordSession x) h
  unfold Broker.releaseAndBill
  cases x.credential with
  | none =>
    refine bill _ fun r => ?_
    cases r <;> exact .done _
  | some c =>
    refine .bind (permits.doesCheckin c) fun _ => bill _ fun r => ?_
    cases r <;> exact .done _

theorem doesEndSession (id : SessionId) : (Broker.endSession id).Does R := by
  refine .bind .now fun now => .bind (permits.doesApplyEvent _ _) fun moved => ?_
  split
  · exact .bind (permits.doesReleaseAndBill _) fun record =>
      .bind (permits.doesDrainQueue _) fun _ => .done _
  · exact .done _

theorem doesExpireSessions (limit now : Millis) (xs : List Session) :
    (Broker.expireSessions limit now xs).Does R := by
  induction xs with
  | nil => exact .done _
  | cons x rest ih =>
    rw [Broker.expireSessions]
    split
    · refine .bind (permits.doesApplyEvent _ _) fun moved => ?_
      split
      · exact .bind (permits.doesReleaseAndBill _) fun _ => .bind ih fun _ => .done _
      · exact ih
    · exact ih

theorem doesExpireHolding (limit now : Millis) (cs : List Credential) :
    (Broker.expireHolding limit now cs).Does R := by
  induction cs with
  | nil => exact .done _
  | cons c rest ih =>
    exact .bind (.query permits.refl) fun held =>
      .bind (permits.doesExpireSessions _ _ _) fun here => .bind ih fun _ => .done _

theorem doesSweepServices (services : List Service) :
    (Broker.sweepServices services).Does R := by
  induction services with
  | nil => exact .done _
  | cons service rest ih =>
    have overdue : (Broker.expireOverdue service).Does R :=
      .bind .now fun now => .bind (.query permits.refl) fun cs => permits.doesExpireHolding _ _ _
    refine .bind overdue fun expired => ?_
    split
    · exact ih
    · exact .bind (.count permits.refl) fun _ => .bind (permits.doesDrainQueue _) fun _ =>
        .bind ih fun _ => .done _

theorem doesEnforceLimits : Broker.enforceLimits.Does R :=
  .bind (.query permits.refl) fun services => permits.doesSweepServices services

theorem doesSweepCycle : Broker.sweepCycle.Does R :=
  .bind permits.doesEnforceLimits fun _ => .bind (.count permits.refl) fun _ => .done _

end Store.Permits

/-! ## The operations that forget nothing -/

namespace Program

variable {α : Type}

/-- No step of the program forgets a session or touches a sealed secret. -/
abbrev Retains (p : Program α) : Prop := p.Does Store.Retains

theorem Retains.run {p : Program α} (h : p.Retains) (w : World) :
    w.platform.store.Retains (p.run w).2.platform.store :=
  Does.run h Store.Retains.refl Store.Retains.trans w

theorem retains_query (f : Store → α) : (query f).Retains := .query Store.Retains.refl

end Program

open Program

/-- Requests, ends and sweeps forget nothing. -/
theorem Store.Retains.permits : Store.Permits Store.Retains where
  refl := .refl
  checkout := .checkout
  checkin := .checkin
  applyEvent := .applyEvent
  addSession := .addSession
  appendUsage := .appendUsage

theorem retains_disable (id : CredentialId) : (Vault.disable id).Retains :=
  .onStore fun s => .disable s id

theorem retains_register (username : String) : (Accounts.register username).Retains := by
  refine .bind (retains_query _) fun known => ?_
  cases known with
  | some u => exact .done _
  | none =>
    exact .bind .freshId fun id => .bind .now fun now =>
      .bind (.update fun s => .addUser s _) fun _ => .done _

end SlotBroker
