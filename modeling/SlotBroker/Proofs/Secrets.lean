import SlotBroker.Demo
import SlotBroker.Proofs.Asked

/-!
# A credential reveals the secret last written to it

Secrets are written when a credential is issued and when one is rotated, by the operation itself,
by a request to the administration or by the demo. `Served key w log` are the worlds that activities
of all kinds lead to, with what was written on the way, latest first.

Results:
* `Operation.retains`: no step of any other operation forgets a credential or touches a sealed
  secret, in whatever order the steps of several operations are taken.
* `Activity.sealed`: what an activity does to the sealed secrets is what it writes.
* **`reveal_last_written`**: a stored credential reveals the secret that was last written to it, and
  what was never issued reveals nothing.
-/

namespace SlotBroker

open Codec Program

/-! ## Operations -/

/-- The operation hands over a secret. -/
def Operation.handsOver : Operation → Bool
  | .issue .. | .rotate .. => true
  | _ => false

/-- **No step of any other operation touches a sealed secret**, wherever it is taken. -/
theorem Operation.retains (key : Key) {op : Operation} (other : op.handsOver = false) :
    (op.program key).Retains := by
  have mapped : ∀ {α β : Type} (f : α → β) {p : Program α}, p.Retains → (f <$> p).Retains :=
    fun f p h => .bind h fun a => Does.done (f a)
  cases op with
  | request user service => exact mapped _ (Store.Retains.permits.doesRequestSession user service)
  | finish id => exact mapped _ (Store.Retains.permits.doesEndSession id)
  | sweep => exact mapped _ Store.Retains.permits.doesEnforceLimits
  | disable id => exact mapped _ (retains_disable id)
  | register username => exact mapped _ (retains_register username)
  | issue | rotate => cases other

/-- A secret that is handed over. -/
inductive Write where
  /-- With the credential that it came with when that was issued. -/
  | issued (credential : CredentialId) (secret : String)
  /-- With the credential that it is meant for, which may not exist. -/
  | rotated (credential : CredentialId) (secret : String)
  deriving DecidableEq

namespace Write

/-- The credential that the secret is for. -/
def credential : Write → CredentialId
  | issued id _ | rotated id _ => id

/-- The secret. -/
def secret : Write → String
  | issued _ s | rotated _ s => s

/-- The secret that a credential has after a write, given the one before. -/
def on (id : CredentialId) : Write → Option String → Option String
  | issued c s, old => if c = id then some s else old
  | rotated c s, old => if c = id then old.map fun _ => s else old

/-- The secret that a credential has after some writes, the latest first, given the one before. -/
def allOn (id : CredentialId) (log : List Write) (old : Option String) : Option String :=
  log.foldr (Write.on id) old

/-- The credential was issued. -/
def IssuedIn (log : List Write) (id : CredentialId) : Prop := ∃ secret, issued id secret ∈ log

/-- The last write to a credential. -/
def last? (log : List Write) (id : CredentialId) : Option Write :=
  log.find? fun x => x.credential = id

end Write

/-- What an operation writes: a credential that is issued gets its secret, and a rotation hands one
over whether or not there is such a credential. -/
def Operation.writes (key : Key) (w : World) : Operation → List Write
  | .issue service identity secret tier =>
    match ((Vault.storeCredential key service identity secret tier).run w).1 with
    | .ok c => [.issued c.id secret]
    | .error _ => []
  | .rotate id secret => [.rotated id secret]
  | _ => []

namespace Store

theorem sealed?_addCredential (s : Store) (c : Credential) (id : CredentialId) :
    (s.addCredential c).sealed? id = if c.id = id then some c.sealedSecret else s.sealed? id := by
  rw [sealed?, credential?_addCredential]
  split <;> rfl

theorem sealed?_rotate (s : Store) (c id : CredentialId) (text : String) :
    (s.rotate c text).2.sealed? id =
      if c = id then (s.sealed? id).map fun _ => text else s.sealed? id := by
  cases known : s.credential? c with
  | none =>
    have still : (s.rotate c text).2 = s := by simp only [Store.rotate, known]
    rw [still]
    split
    · rename_i same
      subst same
      rw [sealed?, known]
      rfl
    · rfl
  | some d =>
    have changed : (s.rotate c text).2 = s.addCredential (d.rotate text) := by
      simp only [Store.rotate, known]
    have hid : (d.rotate text).id = c := (credential?_eq_some_iff.1 known).2
    rw [changed, sealed?_addCredential, hid]
    split
    · rename_i same
      subst same
      rw [sealed?, known]
      rfl
    · rfl

end Store

section Writes

variable {key : Key} {w : World} {id : CredentialId} {plain : Option String}

/-- **What an operation does to the sealed secrets is what it writes.** -/
theorem Operation.sealed (key : Key) (op : Operation) (w : World)
    (h : w.store.sealed? id = plain.map key.conceal) :
    ((op.program key).run w).2.store.sealed? id =
      (Write.allOn id (op.writes key w) plain).map key.conceal := by
  cases op with
  | issue service identity secret tier =>
    rw [Operation.program, Program.run_map, Operation.writes]
    cases known : w.store.service? service with
    | none =>
      rw [run_storeCredential_of_unknown _ identity secret tier known]
      exact h
    | some definition =>
      rw [run_storeCredential _ identity secret tier known]
      generalize hc : w.issuing key service definition identity secret tier = c
      have hsealed : c.sealedSecret = key.conceal secret := by rw [← hc]; rfl
      dsimp only
      rw [World.store_withStore, Store.sealed?_addCredential, h, hsealed]
      change _ = Option.map key.conceal (if c.id = id then _ else _)
      split <;> rfl
  | rotate c secret =>
    rw [Operation.program, Program.run_map, Operation.writes]
    change (w.store.rotate c (key.conceal secret)).2.sealed? id = _
    rw [Store.sealed?_rotate, h]
    change _ = Option.map key.conceal (if c = id then _ else _)
    split
    · cases plain <;> rfl
    · rfl
  | request | finish | sweep | disable | register =>
    exact ((Operation.retains key rfl).run w |>.secrets id).trans h

end Writes

/-! ## The demo -/

namespace Demo

/-- What is written when credentials are issued for some accounts, up to the first that cannot
be. -/
def writes (key : Key) : List PooledAccount → World → List Write
  | [], _ => []
  | a :: rest, w =>
    match (Vault.storeCredential key a.service a.identity a.secret a.tier).run w with
    | (.ok c, v) => writes key rest v ++ [.issued c.id a.secret]
    | (.error _, _) => []

theorem retains_addMissingServices (services : List Service) :
    (addMissingServices services).Retains := by
  induction services with
  | nil => exact .done _
  | cons service rest ih =>
    refine .bind (retains_query _) fun known => ?_
    dsimp only
    split
    · exact .bind (.update fun s => .addService s service) fun _ => ih
    · exact ih

theorem retains_addMissingUsers (usernames : List String) :
    (addMissingUsers usernames).Retains := by
  induction usernames with
  | nil => exact .done _
  | cons username rest ih =>
    refine .bind (retains_query _) fun known => ?_
    dsimp only
    split
    · exact .bind .now fun now => .bind (.update fun s => .addUser s _) fun _ => ih
    · exact ih

variable {key : Key} {w : World} {id : CredentialId} {plain : Option String}

theorem sealed_issueAll (as : List PooledAccount) (h : w.store.sealed? id = plain.map key.conceal) :
    ((issueAll key as).run w).2.store.sealed? id =
      (Write.allOn id (writes key as w) plain).map key.conceal := by
  induction as generalizing w plain with
  | nil => exact h
  | cons a rest ih =>
    have issued := Operation.sealed key (.issue a.service a.identity a.secret a.tier) w h
    rw [Operation.program, Program.run_map, Operation.writes] at issued
    rw [issueAll, Program.bind_eq, Program.run_bind, writes]
    rcases hrun : (Vault.storeCredential key a.service a.identity a.secret a.tier).run w with
      ⟨_ | c, v⟩
    · rw [hrun] at issued
      exact issued
    · rw [hrun] at issued
      refine (ih issued).trans ?_
      rw [Write.allOn, Write.allOn, Write.allOn, List.foldr_append]

/-- Seeds the demo and puts its providers on the platform. -/
def start (key : Key) : Program Unit :=
  (seed key).bind fun
    | .ok providers => addProviders providers
    | .error _ => .done ()

theorem sealed_start (h : w.store.sealed? id = plain.map key.conceal) :
    ((start key).run w).2.store.sealed? id =
      (Write.allOn id (writes key accounts ((addMissingServices catalog).run w).2) plain).map
        key.conceal := by
  have services := ((retains_addMissingServices catalog).run w).secrets id
  unfold start seed
  simp only [Program.bind_eq, Program.bind_assoc]
  rw [Program.run_bind, Program.run_bind]
  -- what comes after the credentials touches none of them
  refine Eq.trans (Store.Retains.secrets (Retains.run ?_ _) id) (sealed_issueAll accounts
    (services.trans h))
  cases ((issueAll key accounts).run ((addMissingServices catalog).run w).2).1 with
  | error e => exact .done _
  | ok u =>
    cases u
    exact .bind (.bind (retains_addMissingUsers usernames) fun _ => .done _) fun
      | .ok providers => .addProviders Store.Retains.refl
      | .error _ => .done _

end Demo

/-! ## Activities -/

/-- What is done on a platform, by whomever. -/
inductive Activity where
  /-- A service is registered or an operation called. -/
  | command (c : Command)
  /-- A slot is taken, for no session. -/
  | checkout (id : CredentialId)
  /-- A slot is given back, by no session. -/
  | checkin (id : CredentialId)
  /-- A client sends a request. -/
  | clients (request : Http.Request)
  /-- The administration is sent a request. -/
  | administration (request : Http.Request)
  | seed
  /-- Something happens at the providers. -/
  | outside (providers : Table Provider)

namespace Activity

/-- The world after an activity. -/
def run (key : Key) : Activity → World → World
  | command c, w => c.run key w
  | checkout id, w => ((Vault.checkout id).run w).2
  | checkin id, w => ((Vault.checkin id).run w).2
  | clients request, w => ((Http.Public.handle request).run w).2
  | administration request, w => ((Http.Admin.handle key request).run w).2
  | seed, w => ((Demo.start key).run w).2
  | outside providers, w => { w with platform := { w.platform with providers := providers } }

/-- What an activity writes, the latest first. -/
def writes (key : Key) (w : World) : Activity → List Write
  | command (.call op) => op.writes key w
  | administration request =>
    match Http.Admin.asked? request with
    | some op => op.writes key w
    | none => []
  | seed => Demo.writes key Demo.accounts ((Demo.addMissingServices Demo.catalog).run w).2
  | command (.define _) | checkout _ | checkin _ | clients _ | outside _ => []

variable {key : Key} {w : World} {id : CredentialId} {plain : Option String}

/-- **What an activity does to the sealed secrets is what it writes.** -/
theorem sealed (key : Key) (a : Activity) (h : w.store.sealed? id = plain.map key.conceal) :
    (a.run key w).store.sealed? id = (Write.allOn id (a.writes key w) plain).map key.conceal := by
  cases a with
  | command c =>
    cases c with
    | define service => exact h
    | call op => exact op.sealed key w h
  | checkout c => exact (Retains.run (Store.Retains.permits.doesCheckout c) w |>.secrets id).trans h
  | checkin c => exact (Retains.run (Store.Retains.permits.doesCheckin c) w |>.secrets id).trans h
  | clients request => exact ((Http.retains_handle request w).secrets id).trans h
  | administration request =>
    rcases Http.Admin.store_run_handle key request w with store | ⟨none, retains⟩
    · rw [run, store, writes]
      cases Http.Admin.asked? request with
      | none => exact h
      | some op => exact op.sealed key w h
    · rw [run, writes, none, retains.secrets id]
      exact h
  | seed => exact Demo.sealed_start h
  | outside providers => exact h

end Activity

/-- The worlds that activities lead to, one complete before the next, from a platform on which no
credential is stored, with what was written on the way, the latest first. -/
inductive Served (key : Key) : World → List Write → Prop
  | start (w : World) (bare : ∀ id, w.store.credential? id = none) : Served key w []
  | next {w : World} {log : List Write} (a : Activity) : Served key w log →
      Served key (a.run key w) (a.writes key w ++ log)

theorem Write.allOn_append (id : CredentialId) (xs ys : List Write) (old : Option String) :
    allOn id (xs ++ ys) old = allOn id xs (allOn id ys old) :=
  List.foldr_append

/-- What is sealed is what was written. -/
theorem Served.sealed {key : Key} {w : World} {log : List Write} (h : Served key w log)
    (id : CredentialId) : w.store.sealed? id = (Write.allOn id log none).map key.conceal := by
  induction h with
  | start w bare =>
    rw [Store.sealed?, bare id]
    rfl
  | next a _ ih => rw [a.sealed key ih, Write.allOn_append]

namespace Write

theorem issuedIn_cons_issued {log : List Write} {c id : CredentialId} {secret : String} :
    IssuedIn (issued c secret :: log) id ↔ c = id ∨ IssuedIn log id := by
  simp only [IssuedIn, List.mem_cons, issued.injEq]
  constructor
  · rintro ⟨s, ⟨rfl, -⟩ | h⟩
    · exact .inl rfl
    · exact .inr ⟨s, h⟩
  · rintro (rfl | ⟨s, h⟩)
    · exact ⟨secret, .inl ⟨rfl, rfl⟩⟩
    · exact ⟨s, .inr h⟩

theorem issuedIn_cons_rotated {log : List Write} {c id : CredentialId} {secret : String} :
    IssuedIn (rotated c secret :: log) id ↔ IssuedIn log id := by
  simp [IssuedIn]

theorem last?_cons (x : Write) (log : List Write) (id : CredentialId) :
    last? (x :: log) id = if x.credential = id then some x else last? log id := by
  rw [last?, last?, List.find?_cons]
  by_cases h : x.credential = id <;> simp [h]

theorem allOn_cons (id : CredentialId) (x : Write) (log : List Write) (old : Option String) :
    allOn id (x :: log) old = x.on id (allOn id log old) := rfl

theorem on_of_ne {x : Write} {id : CredentialId} (h : x.credential ≠ id) (old : Option String) :
    x.on id old = old := by
  cases x <;> exact if_neg h

/-- A credential that was issued has the secret of its last write. -/
theorem allOn_of_issuedIn {id : CredentialId} {log : List Write} (h : IssuedIn log id) :
    ∃ x, last? log id = some x ∧ allOn id log none = some x.secret := by
  induction log with
  | nil =>
    obtain ⟨_, h⟩ := h
    cases h
  | cons x rest ih =>
    rw [last?_cons, allOn_cons]
    by_cases hc : x.credential = id
    · refine ⟨x, if_pos hc, ?_⟩
      cases x with
      | issued c secret => exact if_pos hc
      | rotated c secret =>
        obtain ⟨y, -, last⟩ := ih (issuedIn_cons_rotated.1 h)
        rw [last]
        exact if_pos hc
    · rw [if_neg hc, on_of_ne hc]
      refine ih ?_
      cases x with
      | issued c secret => exact (issuedIn_cons_issued.1 h).resolve_left hc
      | rotated c secret => exact issuedIn_cons_rotated.1 h

/-- What was never issued has no secret. -/
theorem allOn_of_not_issuedIn {id : CredentialId} {log : List Write} (h : ¬ IssuedIn log id) :
    allOn id log none = none := by
  induction log with
  | nil => rfl
  | cons x rest ih =>
    rw [allOn_cons]
    cases x with
    | issued c secret =>
      rw [issuedIn_cons_issued, not_or] at h
      rw [on_of_ne (x := issued c secret) h.1]
      exact ih h.2
    | rotated c secret =>
      rw [ih (mt issuedIn_cons_rotated.2 h), on]
      split <;> rfl

/-- Writes to others leave a secret as it is. -/
theorem allOn_of_others {id : CredentialId} {log : List Write}
    (others : ∀ x ∈ log, x.credential ≠ id) (old : Option String) : allOn id log old = old := by
  induction log with
  | nil => rfl
  | cons x rest ih =>
    rw [allOn_cons, on_of_ne (others x List.mem_cons_self)]
    exact ih fun y hy => others y (List.mem_cons_of_mem x hy)

end Write

/-- The secret that a store shows is the one that was sealed. -/
theorem secretIn_eq (key : Key) {s : Store} {id : CredentialId} {plain : Option String}
    (h : s.sealed? id = plain.map key.conceal) :
    Vault.secretIn key s id = plain.map Secret.mk := by
  unfold Vault.secretIn
  rw [Store.sealed?] at h
  cases known : s.credential? id with
  | none =>
    rw [known] at h
    cases plain with
    | none => rfl
    | some _ => cases h
  | some c =>
    rw [known] at h
    cases plain with
    | none => cases h
    | some secret =>
      have opens : key.reveal c.sealedSecret = .ok secret :=
        Key.reveal_eq_ok_iff.2 (Option.some.inj h)
      dsimp only
      rw [opens]
      rfl

/-- **A credential reveals the secret last written to it.** Whatever was done on a platform, through
the operations, by requests to either interface, by seeding the demo or at the providers: a
credential is stored if one was issued under its id, and it reveals exactly the secret that was
handed over last, when it was issued or when a rotation named it. What was never issued reveals
nothing. And whatever is done next, the sealed secret of a credential stays as it is unless a secret
is written to that very credential. -/
theorem reveal_last_written {key : Key} {w : World} {log : List Write} (h : Served key w log)
    (id : CredentialId) :
    ((w.store.credential? id).isSome = true ↔ Write.IssuedIn log id) ∧
    (Write.IssuedIn log id → ∃ x, Write.last? log id = some x ∧
      (Vault.reveal key id).run w = (some ⟨x.secret⟩, w)) ∧
    (¬ Write.IssuedIn log id → (Vault.reveal key id).run w = (none, w)) ∧
    ∀ a : Activity, (∀ x ∈ a.writes key w, x.credential ≠ id) →
      (a.run key w).store.sealed? id = w.store.sealed? id := by
  have held := h.sealed id
  have reveals := secretIn_eq key held
  have stored : (w.store.credential? id).isSome = (Write.allOn id log none).isSome := by
    have := congrArg Option.isSome held
    rwa [Store.sealed?, Option.isSome_map, Option.isSome_map] at this
  have issued : Write.IssuedIn log id → ∃ x, Write.last? log id = some x ∧
      Write.allOn id log none = some x.secret := Write.allOn_of_issuedIn
  refine ⟨⟨fun known => Classical.byContradiction fun never => ?_, fun hi => ?_⟩, fun hi => ?_,
    fun never => ?_, fun a others => ?_⟩
  · rw [stored, Write.allOn_of_not_issuedIn never] at known
    cases known
  · obtain ⟨x, -, last⟩ := issued hi
    rw [stored, last]
    rfl
  · obtain ⟨x, found, last⟩ := issued hi
    refine ⟨x, found, ?_⟩
    rw [Vault.reveal, Program.run_query, reveals, last]
    rfl
  · rw [Vault.reveal, Program.run_query, reveals, Write.allOn_of_not_issuedIn never]
    rfl
  · rw [a.sealed key held, held, Write.allOn_of_others others]

/-- What activities lead to on an empty platform. -/
def Activity.after (as : List Activity) : World × List Write :=
  as.foldl (fun r a => (a.run Scene.plainKey r.1, a.writes Scene.plainKey r.1 ++ r.2))
    ({ platform := {}, supply := { reading := fun _ => 0, word := UInt64.ofNat } }, [])

theorem served_after (as : List Activity) :
    Served Scene.plainKey (Activity.after as).1 (Activity.after as).2 := by
  have play : ∀ (r : World × List Write), Served Scene.plainKey r.1 r.2 →
      let t := as.foldl
        (fun r a => (a.run Scene.plainKey r.1, a.writes Scene.plainKey r.1 ++ r.2)) r
      Served Scene.plainKey t.1 t.2 := by
    induction as with
    | nil => exact fun r h => h
    | cons a rest ih => exact fun r h => ih _ (h.next a)
  exact play _ (.start _ fun _ => rfl)

/-- A secret that was given at first, replaced by an operation, and replaced by a request: the
account shows the last one, also after a verification. -/
theorem reveal_last_written_of_rotations :
    let id := "000000000000"
    let r := Activity.after
      [.command (.define oneSlot), .command (.call (.issue "films" "pool@films" "first" .basic)),
       .checkout id, .command (.call (.rotate id "second")),
       .administration
        { method := "POST", target := "/admin/credentials/000000000000/rotate",
          contentType := some "application/json", body := "\x7b\"secret\":\"third\"\x7d" },
       .administration
        { method := "POST", target := "/admin/credentials/000000000000/verify" }]
    r.2.map (·.secret) = ["third", "second", "first"] ∧
      ((Vault.reveal Scene.plainKey id).run r.1).1.map (·.expose) = some "third" := by
  intro id r
  have log : r.2 = [.rotated id "third", .rotated id "second", .issued id "first"] := by
    decide +kernel
  have reveals := (reveal_last_written (served_after _ : Served Scene.plainKey r.1 r.2) id).2.1
  rw [log] at reveals ⊢
  obtain ⟨x, found, run⟩ := reveals ⟨"first", by decide⟩
  have latest : Write.last? [.rotated id "third", .rotated id "second", .issued id "first"] id =
      some (.rotated id "third") := by decide
  obtain rfl := Option.some.inj (latest.symm.trans found)
  refine ⟨rfl, ?_⟩
  rw [run]
  rfl

end SlotBroker
