import SlotBroker.Accounts
import SlotBroker.Broker
import SlotBroker.Proofs.Undisturbed

/-!
# What does not look at secrets

Two worlds are akin if they differ at most in the sealed secrets of their credentials and in their
providers. `p.Agree R q` says that `p` and `q`, run in akin worlds, give results that `R` relates,
and leave akin worlds. Everything that is done with slots, sessions, bills and users agrees with
itself, and so does the issue and the rotation of credentials whatever the secrets and the master
keys are: nothing but a login asks what a sealed secret is.

Results:
* `Store.Akin.addCredential`, `Store.Akin.checkout`, ...: each atomic step keeps stores akin.
* `Agree.bind`: programs that agree, one after the other.
* **`agree_requestSession`**, `agree_endSession`, `agree_sweepCycle`, **`agree_storeCredential`**,
  `agree_rotate`, ...: the operations.
-/

namespace SlotBroker

/-! ## Stores -/

namespace Credential

/-- The credential without its sealed secret. -/
def bare (c : Credential) : Credential := { c with sealedSecret := "" }

variable {c d : Credential}

theorem id_eq_of_bare (h : c.bare = d.bare) : c.id = d.id := by
  have same := congrArg Credential.id h
  exact same

theorem hasCapacity_eq_of_bare (h : c.bare = d.bare) : c.hasCapacity = d.hasCapacity := by
  have same := congrArg Credential.hasCapacity h
  exact same

end Credential

/-- The stores are the same but for the sealed secrets. -/
structure Store.Akin (s t : Store) : Prop where
  services : s.services = t.services
  credentials : s.credentials.entries.map Credential.bare =
    t.credentials.entries.map Credential.bare
  users : s.users = t.users
  sessions : s.sessions = t.sessions
  sequence : s.sequence = t.sequence
  ledger : s.ledger = t.ledger

namespace Store.Akin

theorem refl (s : Store) : s.Akin s := ⟨rfl, rfl, rfl, rfl, rfl, rfl⟩

variable {s t : Store} (h : s.Akin t)
include h

theorem credential?_eq (id : CredentialId) :
    (s.credential? id).map Credential.bare = (t.credential? id).map Credential.bare := by
  have found := congrArg (List.find? fun c : Credential => decide (Keyed.key c = id)) h.credentials
  rwa [List.find?_map, List.find?_map] at found

/-- A credential is known in both stores or in none. -/
theorem credential?_cases (id : CredentialId) :
    s.credential? id = none ∧ t.credential? id = none ∨
      ∃ c d, s.credential? id = some c ∧ t.credential? id = some d ∧ c.bare = d.bare := by
  have same := h.credential?_eq id
  cases left : s.credential? id with
  | none =>
    rw [left] at same
    exact .inl ⟨rfl, Option.map_eq_none_iff.1 same.symm⟩
  | some c =>
    rw [left] at same
    obtain ⟨d, right, bare⟩ := Option.map_eq_some_iff.1 same.symm
    exact .inr ⟨c, d, rfl, right, bare.symm⟩

theorem filter_eq {p : Credential → Bool} (blind : ∀ c, p c.bare = p c) :
    (s.credentials.entries.filter p).map Credential.bare =
      (t.credentials.entries.filter p).map Credential.bare := by
  have same := congrArg (List.filter p) h.credentials
  rw [List.filter_map, List.filter_map] at same
  have p_bare : p ∘ Credential.bare = p := funext blind
  rwa [p_bare] at same

theorem firstAvailable_eq (a : ServiceId) :
    (s.firstAvailable a).map Credential.bare = (t.firstAvailable a).map Credential.bare := by
  have found := congrArg (List.find? fun c : Credential => c.service = a && c.hasCapacity)
    h.credentials
  rwa [List.find?_map, List.find?_map] at found

theorem addCredential {c d : Credential} (same : c.bare = d.bare) :
    (s.addCredential c).Akin (t.addCredential d) :=
  { h with
    credentials := by
      change (placeIn c _).map _ = (placeIn d _).map _
      rw [map_placeIn_comm Credential.bare fun _ => rfl,
        map_placeIn_comm Credential.bare fun _ => rfl, same, h.credentials] }

theorem checkout (id : CredentialId) (now : Millis) :
    (s.checkout id now).1.map Credential.bare = (t.checkout id now).1.map Credential.bare ∧
      (s.checkout id now).2.Akin (t.checkout id now).2 := by
  unfold Store.checkout
  rcases h.credential?_cases id with ⟨left, right⟩ | ⟨c, d, left, right, same⟩
  · rw [left, right]
    exact ⟨rfl, h⟩
  · rw [left, right]
    dsimp only
    rw [Credential.hasCapacity_eq_of_bare same]
    have occupied : (c.occupy now).bare = (d.occupy now).bare :=
      congrArg (fun c => (c.occupy now).bare) same
    split
    · exact ⟨congrArg some occupied, h.addCredential occupied⟩
    · exact ⟨rfl, h⟩

theorem checkin (id : CredentialId) : (s.checkin id).Akin (t.checkin id) := by
  unfold Store.checkin
  rcases h.credential?_cases id with ⟨left, right⟩ | ⟨c, d, left, right, same⟩
  · rw [left, right]
    exact h
  · rw [left, right]
    exact h.addCredential (congrArg (fun c => c.release.bare) same)

theorem disable (id : CredentialId) :
    (s.disable id).1 = (t.disable id).1 ∧ (s.disable id).2.Akin (t.disable id).2 := by
  unfold Store.disable
  rcases h.credential?_cases id with ⟨left, right⟩ | ⟨c, d, left, right, same⟩
  · rw [left, right]
    exact ⟨rfl, h⟩
  · rw [left, right]
    exact ⟨rfl, h.addCredential (congrArg (fun c => c.disable.bare) same)⟩

/-- Credentials may be put under different secrets. -/
theorem rotate (id : CredentialId) (sealedSecret sealedSecret' : String) :
    (s.rotate id sealedSecret).1 = (t.rotate id sealedSecret').1 ∧
      (s.rotate id sealedSecret).2.Akin (t.rotate id sealedSecret').2 := by
  unfold Store.rotate
  rcases h.credential?_cases id with ⟨left, right⟩ | ⟨c, d, left, right, same⟩
  · rw [left, right]
    exact ⟨rfl, h⟩
  · rw [left, right]
    exact ⟨rfl, h.addCredential same⟩

theorem session?_eq (id : SessionId) : s.session? id = t.session? id := by
  rw [session?, h.sessions, session?]

theorem service?_eq (id : ServiceId) : s.service? id = t.service? id := by
  rw [service?, h.services, service?]

theorem insertSession (y : Session) :
    Akin { s with sessions := s.sessions.insert y } { t with sessions := t.sessions.insert y } :=
  { h with sessions := by rw [h.sessions] }

theorem applyEvent (id : SessionId) (e : Session.Event) :
    (s.applyEvent id e).1 = (t.applyEvent id e).1 ∧
      (s.applyEvent id e).2.Akin (t.applyEvent id e).2 := by
  unfold Store.applyEvent
  rw [h.session?_eq]
  cases t.session? id with
  | none => exact ⟨rfl, h⟩
  | some x =>
    dsimp only
    cases x.apply e with
    | none => exact ⟨rfl, h⟩
    | some y => exact ⟨rfl, h.insertSession y⟩

theorem addSession (x : Session) :
    (s.addSession x).1 = (t.addSession x).1 ∧ (s.addSession x).2.Akin (t.addSession x).2 := by
  unfold Store.addSession
  rw [h.sequence]
  exact ⟨rfl, { h with sessions := by rw [h.sessions], sequence := rfl }⟩

theorem sessionsMatching_eq (p : Session → Bool) : s.sessionsMatching p = t.sessionsMatching p := by
  rw [sessionsMatching, h.sessions, sessionsMatching]

theorem queue_eq (a : ServiceId) : s.queue a = t.queue a := h.sessionsMatching_eq _

theorem queueDepth_eq (a : ServiceId) : s.queueDepth a = t.queueDepth a := by
  rw [queueDepth, h.sessions, queueDepth]

theorem counts_eq : s.counts = t.counts := by
  have size := congrArg List.length h.credentials
  rw [List.length_map, List.length_map] at size
  unfold counts Table.size
  rw [h.services, size, h.sessions, h.ledger]

end Store.Akin

/-! ## Programs -/

/-- The worlds are the same but for the sealed secrets and the providers. -/
structure World.Akin (w v : World) : Prop where
  store : w.store.Akin v.store
  metrics : w.platform.metrics = v.platform.metrics
  supply : w.supply = v.supply

theorem World.Akin.refl (w : World) : w.Akin w := ⟨.refl _, rfl, rfl⟩

/-- Both end in the same fault, or both give values that `R` relates. -/
inductive Both {ε α β : Type} (R : α → β → Prop) : Except ε α → Except ε β → Prop
  | fault (e : ε) : Both R (.error e) (.error e)
  | value {a : α} {b : β} : R a b → Both R (.ok a) (.ok b)

theorem Both.bind {ε α β γ δ : Type} {R : α → β → Prop} {S : γ → δ → Prop} {x : Except ε α}
    {y : Except ε β} {f : α → Except ε γ} {g : β → Except ε δ} (h : Both R x y)
    (hf : ∀ a b, R a b → Both S (f a) (g b)) : Both S (x >>= f) (y >>= g) := by
  cases h with
  | fault e => exact .fault e
  | value related => exact hf _ _ related

theorem Both.bind_same {ε α γ δ : Type} {S : γ → δ → Prop} {x : Except ε α}
    {f : α → Except ε γ} {g : α → Except ε δ} (hf : ∀ a, Both S (f a) (g a)) :
    Both S (x >>= f) (x >>= g) := by
  cases x with
  | error e => exact .fault e
  | ok a => exact hf a

theorem Both.of_eq {ε α : Type} {x y : Except ε α} (h : x = y) : Both Eq x y := by
  subst h
  cases x with
  | error e => exact .fault e
  | ok a => exact .value rfl

theorem Both.eq {ε α : Type} {x y : Except ε α} (h : Both Eq x y) : x = y := by
  cases h with
  | fault e => rfl
  | value same => exact congrArg Except.ok same

namespace Program

variable {α β γ δ σ : Type} {R : α → β → Prop} {S : γ → δ → Prop}

/-- Run in akin worlds, the programs give results that `R` relates, and leave akin worlds. -/
def Agree (p : Program α) (R : α → β → Prop) (q : Program β) : Prop :=
  ∀ w v : World, w.Akin v → R (p.run w).1 (q.run v).1 ∧ (p.run w).2.Akin (q.run v).2

namespace Agree

theorem done {a : α} {b : β} (h : R a b) : (Program.done a).Agree R (.done b) :=
  fun _ _ akin => ⟨h, akin⟩

theorem bind {p : Program α} {q : Program β} {f : α → Program γ} {g : β → Program δ}
    (h : p.Agree R q) (hf : ∀ a b, R a b → (f a).Agree S (g b)) :
    (p.bind f).Agree S (q.bind g) := by
  intro w v akin
  rw [run_bind, run_bind]
  obtain ⟨related, akin⟩ := h w v akin
  exact hf _ _ related _ _ akin

theorem weaken {R' : α → β → Prop} {p : Program α} {q : Program β} (h : p.Agree R q)
    (le : ∀ {a b}, R a b → R' a b) : p.Agree R' q := fun w v akin =>
  (h w v akin).imp_left le

/-- What holds of every result of the first program may be added to the relation. -/
theorem and_run {P : α → Prop} {p : Program α} {q : Program β} (h : p.Agree R q)
    (holds : ∀ w, P (p.run w).1) : p.Agree (fun a b => R a b ∧ P a) q := fun w v akin =>
  (h w v akin).imp_left fun related => ⟨related, holds w⟩

/-- What agrees on its result goes on with it. -/
theorem bind_eq {p q : Program α} {f : α → Program γ} {g : α → Program δ} (h : p.Agree Eq q)
    (hf : ∀ a, (f a).Agree S (g a)) : (p.bind f).Agree S (q.bind g) :=
  h.bind fun a b same => by
    subst same
    exact hf a

theorem ite {c : Prop} [Decidable c] {p p' : Program α} {q q' : Program β} (h : p.Agree R q)
    (h' : p'.Agree R q') : (if c then p else p').Agree R (if c then q else q') := by
  split
  · exact h
  · exact h'

theorem onStore {f : Store → α × Store} {g : Store → β × Store}
    (h : ∀ {s t}, s.Akin t → R (f s).1 (g t).1 ∧ (f s).2.Akin (g t).2) :
    (Program.onStore f).Agree R (Program.onStore g) := fun _ _ akin =>
  have ⟨related, store⟩ := h akin.store
  ⟨related, ⟨store, akin.metrics, akin.supply⟩⟩

theorem query {f : Store → α} {g : Store → β} (h : ∀ {s t}, s.Akin t → R (f s) (g t)) :
    (Program.query f).Agree R (Program.query g) :=
  onStore fun akin => ⟨h akin, akin⟩

theorem update {f g : Store → Store} (h : ∀ {s t}, s.Akin t → (f s).Akin (g t)) :
    (Program.update f).Agree Eq (Program.update g) :=
  onStore fun akin => ⟨rfl, h akin⟩

theorem count (c : Counter) (n : Nat) : (Program.count c n).Agree Eq (.count c n) := fun _ _ akin =>
  ⟨rfl, akin.store, congrArg (·.increment c (UInt64.ofNat n)) akin.metrics, akin.supply⟩

theorem observe (a : ServiceId) (duration : Float) :
    (Program.observe a duration).Agree Eq (.observe a duration) := fun _ _ akin =>
  ⟨rfl, akin.store, congrArg (·.observe a duration) akin.metrics, akin.supply⟩

theorem exposition : Program.exposition.Agree Eq .exposition := fun _ _ akin =>
  ⟨congrArg Metrics.lines akin.metrics, akin.store, congrArg Metrics.settle akin.metrics,
    akin.supply⟩

theorem now : Program.now.Agree Eq .now := fun _ _ akin =>
  ⟨congrArg (·.readClock.1) akin.supply, akin.store, akin.metrics,
    congrArg (·.readClock.2) akin.supply⟩

theorem freshId (digits : Nat) :
    (Program.freshId digits).Agree Eq (.freshId digits) := fun _ _ akin =>
  ⟨congrArg (fun s : Supply => Ident.hex digits s.draw.1) akin.supply, akin.store, akin.metrics,
    congrArg (·.draw.2) akin.supply⟩

theorem repeatWhile {body : σ → Program (Bool × σ)} {limit : Platform → Nat} {start : σ}
    (h : ∀ a, (body a).Agree Eq (body a))
    (bound : ∀ {w v : World}, w.Akin v → limit w.platform = limit v.platform) :
    (Program.repeatWhile body limit start).Agree Eq (Program.repeatWhile body limit start) := by
  intro w v akin
  rw [run_repeatWhile, run_repeatWhile, bound akin]
  generalize limit v.platform = n
  induction n generalizing start w v with
  | zero => exact ⟨rfl, akin⟩
  | succ n ih =>
    obtain ⟨same, after⟩ := h start w v akin
    rw [rounds, rounds, same]
    split
    · exact ih _ _ after
    · exact ⟨rfl, after⟩

end Agree

end Program

open Program

/-! ## What is done with slots -/

/-- Credentials that are the same but for their sealed secrets, or none at all. -/
abbrev SameBare (c d : Option Credential) : Prop := c.map Credential.bare = d.map Credential.bare

/-- What goes on with a credential, if there is one. -/
theorem Program.Agree.bind_bare {γ δ : Type} {S : γ → δ → Prop} {p q : Program (Option Credential)}
    {f : Option Credential → Program γ} {g : Option Credential → Program δ} (h : p.Agree SameBare q)
    (absent : (f none).Agree S (g none))
    (present : ∀ c d, c.bare = d.bare → (f (some c)).Agree S (g (some d))) :
    (p.bind f).Agree S (q.bind g) := by
  refine .bind h fun taken taken' same => ?_
  cases taken with
  | none =>
    obtain rfl := Option.map_eq_none_iff.1 same.symm
    exact absent
  | some c =>
    obtain ⟨d, rfl, bare⟩ := Option.map_eq_some_iff.1 same.symm
    exact present c d bare.symm

theorem agree_checkout (id : CredentialId) :
    (Vault.checkout id).Agree SameBare (Vault.checkout id) :=
  .bind_eq .now fun now => .onStore fun akin => akin.checkout id now

theorem agree_checkoutFirst {cs ds : List Credential}
    (same : cs.map Credential.bare = ds.map Credential.bare) :
    (Vault.checkoutFirst cs).Agree SameBare (Vault.checkoutFirst ds) := by
  induction cs generalizing ds with
  | nil =>
    obtain rfl := List.map_eq_nil_iff.1 same.symm
    exact .done rfl
  | cons c rest ih =>
    obtain ⟨d, rest', rfl, head, tail⟩ := List.map_eq_cons_iff.1 same.symm
    unfold Vault.checkoutFirst
    rw [Credential.id_eq_of_bare head.symm]
    exact .bind_bare (agree_checkout d.id) (ih tail.symm) fun _ _ bare => .done (congrArg some bare)

theorem agree_checkin (id : CredentialId) : (Vault.checkin id).Agree Eq (Vault.checkin id) :=
  .update fun akin => akin.checkin id

theorem agree_drainRound (a : ServiceId) (n : Nat) :
    (Broker.drainRound a n).Agree Eq (Broker.drainRound a n) := by
  refine .bind_eq (.query fun akin => by rw [akin.queue_eq]) fun head => ?_
  cases head with
  | none => exact .done rfl
  | some x =>
    refine .bind (.query fun akin => akin.filter_eq fun _ => rfl) fun cs ds same =>
      .bind_bare (agree_checkoutFirst same) (.done rfl) fun c d bare => ?_
    dsimp only
    rw [Credential.id_eq_of_bare bare]
    exact .bind_eq .now fun now => .bind_eq (.onStore fun akin => akin.applyEvent _ _)
      fun moved => .ite (.done rfl) (.bind_eq (agree_checkin d.id) fun _ => .done rfl)

theorem agree_drainQueue (a : ServiceId) : (Broker.drainQueue a).Agree Eq (Broker.drainQueue a) :=
  .bind_eq (.repeatWhile (agree_drainRound a) fun akin => by
      rw [Broker.drainLimit, akin.store.queueDepth_eq, Broker.drainLimit]) fun _ =>
    .ite (.bind_eq (.count _ _) fun _ => .done rfl) (.done rfl)

theorem agree_admitNew (x : Session) (now : Millis) :
    (Broker.admitNew x now).Agree Eq (Broker.admitNew x now) := by
  refine .bind_bare (.query fun akin => akin.firstAvailable_eq x.service) (.done rfl)
    fun c d bare => ?_
  dsimp only
  rw [Credential.id_eq_of_bare bare]
  refine .bind_bare (agree_checkout d.id) (.done rfl) fun c d bare => ?_
  dsimp only
  rw [Credential.id_eq_of_bare bare]
  exact .done rfl

/-! ## Requests and ends -/

theorem agree_requestSession (user : UserId) (a : ServiceId) :
    (Broker.requestSession user a).Agree Eq (Broker.requestSession user a) := by
  refine .bind_eq (.query fun akin => akin.service?_eq a) fun known => ?_
  cases known with
  | none => exact .done rfl
  | some definition =>
    refine .bind_eq .now fun now => .bind_eq (.freshId _) fun id =>
      .bind_eq (agree_admitNew _ _) fun x => .bind_eq (.onStore fun akin => akin.addSession x)
        fun stored => ?_
    have counted : ∀ settled : Session,
        ((Program.count (.requested a settled.state.label) 1).bind fun _ =>
          (Program.done (Except.ok settled) : Program (Except Failure Session))).Agree Eq
        ((Program.count (.requested a settled.state.label) 1).bind fun _ => .done (.ok settled)) :=
      fun settled => .bind_eq (.count _ _) fun _ => .done rfl
    dsimp only
    split
    · exact .bind_eq (agree_drainQueue a) fun _ =>
        .bind_eq (.query fun akin => by rw [akin.session?_eq]) counted
    · exact counted stored

theorem agree_recordSession (x : Session) :
    (Billing.recordSession x).Agree Eq (Billing.recordSession x) := by
  refine .bind_eq (.query fun akin => akin.service?_eq _) fun known => ?_
  cases known with
  | none => exact .done rfl
  | some definition =>
    refine .bind_eq .now fun now => .bind_eq (.freshId _) fun id =>
      .bind_eq (.update fun akin => ?_) fun _ => .bind_eq (.observe _ _) fun _ => .done rfl
    exact { akin with ledger := by rw [Store.appendUsage, akin.ledger, Store.appendUsage] }

theorem agree_releaseAndBill (x : Session) :
    (Broker.releaseAndBill x).Agree Eq (Broker.releaseAndBill x) := by
  have billed : ∀ {k : Except Failure UsageRecord → Program (Option UsageRecord)},
      (∀ r, (k r).Agree Eq (k r)) →
        ((Billing.recordSession x).bind k).Agree Eq ((Billing.recordSession x).bind k) :=
    fun h => .bind_eq (agree_recordSession x) h
  unfold Broker.releaseAndBill
  cases x.credential with
  | none =>
    refine billed fun r => ?_
    cases r <;> exact .done rfl
  | some c =>
    refine .bind_eq (agree_checkin c) fun _ => billed fun r => ?_
    cases r <;> exact .done rfl

theorem agree_endSession (id : SessionId) :
    (Broker.endSession id).Agree Eq (Broker.endSession id) := by
  refine .bind_eq .now fun now => .bind_eq (.onStore fun akin => akin.applyEvent id _)
    fun moved => ?_
  split
  · exact .bind_eq (agree_releaseAndBill _) fun _ =>
      .bind_eq (agree_drainQueue _) fun _ => .done rfl
  · exact .done rfl

/-! ## Sweeps -/

theorem agree_expireSessions (limit now : Millis) (xs : List Session) :
    (Broker.expireSessions limit now xs).Agree Eq (Broker.expireSessions limit now xs) := by
  induction xs with
  | nil => exact .done rfl
  | cons x rest ih =>
    rw [Broker.expireSessions]
    refine .ite (.bind_eq (.onStore fun akin => akin.applyEvent _ _) fun moved => ?_) ih
    split
    · exact .bind_eq (agree_releaseAndBill _) fun _ => .bind_eq ih fun _ => .done rfl
    · exact ih

theorem agree_expireHolding (limit now : Millis) {cs ds : List Credential}
    (same : cs.map Credential.bare = ds.map Credential.bare) :
    (Broker.expireHolding limit now cs).Agree Eq (Broker.expireHolding limit now ds) := by
  induction cs generalizing ds with
  | nil =>
    obtain rfl := List.map_eq_nil_iff.1 same.symm
    exact .done rfl
  | cons c rest ih =>
    obtain ⟨d, rest', rfl, head, tail⟩ := List.map_eq_cons_iff.1 same.symm
    have known : c.id = d.id := Credential.id_eq_of_bare head.symm
    unfold Broker.expireHolding
    rw [known]
    exact .bind_eq (.query fun akin => akin.sessionsMatching_eq _) fun held =>
      .bind_eq (agree_expireSessions _ _ held) fun here =>
        .bind_eq (ih tail.symm) fun _ => .done rfl

theorem agree_sweepServices (services : List Service) :
    (Broker.sweepServices services).Agree Eq (Broker.sweepServices services) := by
  induction services with
  | nil => exact .done rfl
  | cons definition rest ih =>
    have overdue : (Broker.expireOverdue definition).Agree Eq (Broker.expireOverdue definition) :=
      .bind_eq .now fun now => .bind (.query fun akin => akin.filter_eq fun _ => rfl)
        fun cs ds same => agree_expireHolding _ _ same
    exact .bind_eq overdue fun expired => .ite ih
      (.bind_eq (.count _ _) fun _ => .bind_eq (agree_drainQueue _) fun _ =>
        .bind_eq ih fun _ => .done rfl)

theorem agree_sweepCycle : Broker.sweepCycle.Agree Eq Broker.sweepCycle :=
  .bind_eq (.bind_eq (.query fun akin => by rw [akin.services]) agree_sweepServices) fun _ =>
    .bind_eq (.count _ _) fun _ => .done rfl

/-! ## Credentials and users -/

/-- **Whatever secrets credentials are issued with, under whatever keys**, they are the same but for
the sealed secrets. -/
theorem agree_storeCredential (key key' : Codec.Key) (a : ServiceId)
    (identity secret secret' : String) (tier : Tier) :
    (Vault.storeCredential key a identity secret tier).Agree
      (Both fun c d => c.bare = d.bare)
      (Vault.storeCredential key' a identity secret' tier) := by
  refine .bind_eq (.query fun akin => akin.service?_eq a) fun known => ?_
  cases known with
  | none => exact .done (.fault _)
  | some definition =>
    exact .bind_eq (.freshId _) fun id =>
      .bind_eq (.update fun akin => akin.addCredential rfl) fun _ => .done (.value rfl)

theorem agree_rotate (key key' : Codec.Key) (id : CredentialId) (secret secret' : String) :
    (Vault.rotate key id secret).Agree Eq (Vault.rotate key' id secret') :=
  .onStore fun akin => akin.rotate id _ _

theorem agree_disable (id : CredentialId) : (Vault.disable id).Agree Eq (Vault.disable id) :=
  .onStore fun akin => akin.disable id

theorem agree_register (username : String) :
    (Accounts.register username).Agree Eq (Accounts.register username) := by
  refine .bind_eq (.query fun akin => by rw [Store.userNamed?, akin.users, Store.userNamed?])
    fun known => ?_
  cases known with
  | some user => exact .done rfl
  | none =>
    exact .bind_eq (.freshId _) fun id => .bind_eq .now fun now =>
      .bind_eq (.update fun akin =>
        { akin with users := by rw [Store.addUser, akin.users, Store.addUser] }) fun _ => .done rfl

/-! ## Views -/

theorem agree_serviceStatus (a : ServiceId) :
    (Broker.serviceStatus a).Agree Eq (Broker.serviceStatus a) := by
  refine .bind_eq (.query fun akin => akin.service?_eq a) fun known => ?_
  cases known with
  | none => exact .done rfl
  | some definition =>
    refine .bind (R := fun cs ds : List Credential =>
        cs.map Credential.bare = ds.map Credential.bare)
      (.query fun akin => akin.filter_eq fun _ => rfl) fun cs ds same =>
        .bind_eq (.query fun akin => akin.queueDepth_eq a) fun depth => .done ?_
    -- all that the status shows of credentials is shown of them without their secrets
    have total := congrArg (fun xs => (List.filter (·.state != .disabled) xs).map (·.maxStreams))
      same
    have used := congrArg (List.map (·.active)) same
    have count := congrArg List.length same
    simp only [List.filter_map, List.map_map, List.length_map] at total used count
    congr 2
    · exact congrArg (List.foldl (· + ·) 0) total
    · exact congrArg (List.foldl (· + ·) 0) used

theorem agree_session (id : SessionId) : (Broker.session id).Agree Eq (Broker.session id) := by
  refine .bind_eq (.query fun akin => akin.session?_eq id) fun known => ?_
  cases known <;> exact .done rfl

theorem agree_queuePosition (id : SessionId) :
    (Broker.queuePosition id).Agree Eq (Broker.queuePosition id) := by
  refine .bind_eq (.query fun akin => akin.session?_eq id) fun known => ?_
  cases known with
  | none => exact .done rfl
  | some x =>
    exact .ite (.bind_eq (.query fun akin => akin.queue_eq _) fun _ => .done rfl) (.done rfl)

theorem agree_serviceRevenue (a : ServiceId) (since : Option Millis) :
    (Billing.serviceRevenue a since).Agree Eq (Billing.serviceRevenue a since) := by
  refine .bind_eq (.query fun akin => akin.service?_eq a) fun known => ?_
  cases known with
  | none => exact .done rfl
  | some definition =>
    exact .bind_eq (.query fun akin => by
      rw [Store.usageOfService, akin.ledger, Store.usageOfService]) fun _ => .done rfl

theorem agree_summary (since : Option Millis) :
    (Billing.summary since).Agree Eq (Billing.summary since) :=
  .bind_eq (.query fun akin => by rw [akin.services]) fun _ =>
    .bind_eq (.query fun akin => by rw [Store.usageSince, akin.ledger, Store.usageSince]) fun _ =>
      .done rfl

theorem agree_userBill (user : UserId) (start finish : Option Millis) :
    (Billing.userBill user start finish).Agree Eq (Billing.userBill user start finish) :=
  .bind_eq .now fun _ => .bind_eq (.query fun akin => by
    rw [Store.usageOfUser, akin.ledger, Store.usageOfUser]) fun _ => .done rfl

end SlotBroker
