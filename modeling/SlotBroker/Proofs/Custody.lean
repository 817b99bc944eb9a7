import SlotBroker.Proofs.Orderly

/-!
# What the vault keeps, whoever calls it

Nothing obliges the callers of the vault to give back what they took and nothing else. Slots may be
checked in that nobody holds, twice, or of credentials that do not exist, and credentials may be
disabled at any time. `Deals key u log w` are the worlds that such calls lead to from `u`, in any
order, with what each call found and whether it was granted, latest first. Between the calls
anything may happen that leaves the credentials alone; services may get other caps.

The state of a credential and its counter say the same twice, and are changed by different calls.
`Credential.Sound` is what they agree on.

Results:
* `VaultCall.deals`: what a call can do.
* `Credential.Sound.occupy`, `Credential.Sound.release`: slots that are taken and given back leave
  the state and the counter in agreement.
* `Deals.sound`, `Deals.issued`, `Deals.retired`: what a run of calls keeps.
* **`vault_keeps_books`**: no counter leaves its bounds, and a disabled credential is never handed
  out again.
-/

namespace SlotBroker

open Codec

/-! ## Calls -/

/-- A call of the vault. -/
inductive VaultCall where
  | issue (service : ServiceId) (identity secret : String) (tier : Tier)
  | checkout (id : CredentialId)
  | checkin (id : CredentialId)
  | disable (id : CredentialId)
  | rotate (id : CredentialId) (secret : String)
  deriving DecidableEq

namespace VaultCall

/-- The program of a call, under a master key, with whether it is granted. A slot that is given back
is never refused. -/
def program (key : Key) : VaultCall → Program Bool
  | issue service identity secret tier =>
    Except.isOk <$> Vault.storeCredential key service identity secret tier
  | checkout id => Option.isSome <$> Vault.checkout id
  | checkin id => (fun _ => true) <$> Vault.checkin id
  | disable id => Vault.disable id
  | rotate id secret => Vault.rotate key id secret

/-- The credential that a call is about. -/
def target (w : World) : VaultCall → CredentialId
  | issue .. => Ident.hex Ident.shortDigits w.supply.draw.1
  | checkout id | checkin id | disable id | rotate id _ => id

/-- A credential is issued under an id that is not in use. -/
def Fresh (w : World) : VaultCall → Prop
  | issue .. => w.store.credential? (Ident.hex Ident.shortDigits w.supply.draw.1) = none
  | checkout _ | checkin _ | disable _ | rotate .. => True

instance (w : World) (call : VaultCall) : Decidable (call.Fresh w) :=
  match call with
  | issue .. => inferInstanceAs (Decidable (_ = none))
  | checkout _ | checkin _ | disable _ | rotate .. => inferInstanceAs (Decidable True)

/-- What a call that is granted makes of the credential that it is about. -/
def change (key : Key) (w : World) : VaultCall → Credential → Credential
  | issue .., c => c
  | checkout _, c => c.occupy (w.time 0)
  | checkin _, c => c.release
  | disable _, c => c.disable
  | rotate _ secret, c => c.rotate (key.conceal secret)

/-- The held slots of the credential that a call is about, as a number without end. -/
def count (granted : Bool) : VaultCall → Nat → Nat
  | checkout _, n => n + granted.toNat
  | checkin _, n => n - 1
  | issue .., n | disable _, n | rotate .., n => n

/-- The call is about a credential that is to be there. -/
def Amends : VaultCall → Prop
  | issue .. => False
  | checkout _ | checkin _ | disable _ | rotate .. => True

/-- What a call does. -/
inductive Does (key : Key) (w : World) : VaultCall → Bool × World → Prop
  | issued {service : ServiceId} {definition : Service} {identity secret : String} {tier : Tier}
      {v : World} (known : w.store.service? service = some definition)
      (store : v.store =
        w.store.addCredential (w.issuing key service definition identity secret tier)) :
      Does key w (.issue service identity secret tier) (true, v)
  | unregistered {service : ServiceId} {identity secret : String} {tier : Tier} {v : World}
      (store : v.store = w.store) : Does key w (.issue service identity secret tier) (false, v)
  | changed {call : VaultCall} {c : Credential} {v : World} (amends : call.Amends)
      (known : w.store.credential? (call.target w) = some c)
      (room : ∀ id, call = .checkout id → c.hasCapacity = true)
      (store : v.store = w.store.addCredential (call.change key w c)) : Does key w call (true, v)
  /-- The credential does not exist, or a slot is asked for and it has none. -/
  | refused {call : VaultCall} {v : World} (amends : call.Amends)
      (full : ∀ c, w.store.credential? (call.target w) = some c →
        ∃ id, call = .checkout id ∧ c.hasCapacity = false)
      (store : v.store = w.store) : Does key w call (false, v)
  /-- A slot is given back to a credential that does not exist. -/
  | missed {id : CredentialId} {v : World} (unknown : w.store.credential? id = none)
      (store : v.store = w.store) : Does key w (.checkin id) (true, v)

variable {key : Key} {w : World} {call : VaultCall}

/-- **A call does one of these.** -/
theorem does (key : Key) (w : World) (call : VaultCall) :
    Does key w call ((call.program key).run w) := by
  cases call with
  | issue service identity secret tier =>
    rw [program, Program.run_map]
    cases known : w.store.service? service with
    | none =>
      rw [run_storeCredential_of_unknown key identity secret tier known]
      exact .unregistered rfl
    | some definition =>
      rw [run_storeCredential key identity secret tier known]
      exact .issued known rfl
  | checkout id =>
    have run : ((program key (.checkout id)).run w) =
        ((w.store.checkout id (w.time 0)).1.isSome,
          (w.tick 1).withStore (w.store.checkout id (w.time 0)).2) := by
      rw [program, Program.run_map]
      rfl
    rw [run, Store.checkout]
    cases known : w.store.credential? id with
    | none => exact .refused trivial (fun c found => by cases known.symm.trans found) rfl
    | some c =>
      dsimp only
      by_cases room : c.hasCapacity = true
      · rw [if_pos room]
        exact .changed trivial known (fun _ _ => room) rfl
      · rw [if_neg room]
        refine .refused trivial (fun d found => ⟨id, rfl, ?_⟩) rfl
        obtain rfl := Option.some.inj (known.symm.trans found)
        simpa using room
  | checkin id =>
    have run : ((program key (.checkin id)).run w) = (true, w.withStore (w.store.checkin id)) := by
      rw [program, Program.run_map]
      rfl
    rw [run, Store.checkin]
    cases known : w.store.credential? id with
    | none => exact .missed known rfl
    | some c => exact .changed trivial known (by rintro _ ⟨⟩) rfl
  | disable id =>
    rw [program, Vault.disable, Program.run_onStore, Store.disable]
    cases known : w.platform.store.credential? id with
    | none => exact .refused trivial (fun c found => by cases known.symm.trans found) rfl
    | some c => exact .changed trivial known (by rintro _ ⟨⟩) rfl
  | rotate id secret =>
    rw [program, Vault.rotate, Program.run_onStore, Store.rotate]
    cases known : w.platform.store.credential? id with
    | none => exact .refused trivial (fun c found => by cases known.symm.trans found) rfl
    | some c => exact .changed trivial known (by rintro _ ⟨⟩) rfl

end VaultCall

/-! ## The state and the counter -/

/-- The state of a credential and its counter agree, and the counter is within the cap. -/
structure Credential.Sound (c : Credential) : Prop where
  capped : c.active ≤ c.maxStreams
  idle : c.state = .available → c.active = 0
  held : c.state = .checkedOut → 1 ≤ c.active

namespace Credential.Sound

variable {c : Credential}

theorem occupy (time : Millis) (room : c.hasCapacity = true) : (c.occupy time).Sound := by
  obtain ⟨more, within⟩ := active_occupy time room
  refine ⟨within, nofun, fun _ => UInt32.le_iff_toNat_le.2 ?_⟩
  rw [more]
  exact Nat.le_add_left 1 _

/-- The last slot that is given back makes a credential available, and no other does. -/
theorem release (h : c.Sound) : c.release.Sound := by
  have left : c.release.active.toNat = c.active.toNat - 1 := toNat_fewer c.active 1
  have capped := UInt32.le_iff_toNat_le.1 h.capped
  refine ⟨UInt32.le_iff_toNat_le.2 ?_, fun free => ?_, fun out => ?_⟩
  · rw [left]
    exact Nat.le_trans (Nat.sub_le _ _) capped
  · simp only [Credential.release] at free ⊢
    split at free
    · rename_i last
      exact last.1
    · rw [h.idle free]
      rfl
  · simp only [Credential.release] at out
    split at out
    · cases out
    · rename_i more
      have some : c.release.active ≠ 0 := fun none => more ⟨none, out⟩
      rw [UInt32.le_iff_toNat_le, UInt32.toNat_one]
      exact Nat.pos_of_ne_zero fun none => some (UInt32.toNat_inj.1 none)

theorem disable (h : c.Sound) : c.disable.Sound := ⟨h.capped, nofun, nofun⟩

theorem rotate (h : c.Sound) (secret : String) : (c.rotate secret).Sound :=
  ⟨h.capped, h.idle, h.held⟩

end Credential.Sound

namespace VaultCall

variable {key : Key} {w : World} {call : VaultCall} {c : Credential}

theorem sound_change (h : c.Sound) (room : ∀ id, call = .checkout id → c.hasCapacity = true) :
    (call.change key w c).Sound := by
  cases call with
  | issue => exact h
  | checkout id => exact .occupy _ (room id rfl)
  | checkin => exact h.release
  | disable => exact h.disable
  | rotate => exact h.rotate _

theorem id_change (key : Key) (w : World) (call : VaultCall) (c : Credential) :
    (call.change key w c).id = c.id := by
  cases call <;> rfl

/-- Neither the plan of a credential nor its cap ever changes. -/
theorem cap_change (key : Key) (w : World) (call : VaultCall) (c : Credential) :
    (call.change key w c).service = c.service ∧ (call.change key w c).identity = c.identity ∧
      (call.change key w c).tier = c.tier ∧ (call.change key w c).maxStreams = c.maxStreams := by
  cases call <;> exact ⟨rfl, rfl, rfl, rfl⟩

/-- The counter does not go around. -/
theorem active_change (room : ∀ id, call = .checkout id → c.hasCapacity = true) :
    (call.change key w c).active.toNat = call.count true c.active.toNat := by
  cases call with
  | checkout id => exact (Credential.active_occupy _ (room id rfl)).1
  | checkin => exact toNat_fewer c.active 1
  | issue | disable | rotate => rfl

theorem disabled_change (disabled : c.state = .disabled)
    (room : ∀ id, call = .checkout id → c.hasCapacity = true) :
    (call.change key w c).state = .disabled := by
  cases call with
  | checkout id => exact absurd disabled ((Credential.hasCapacity_iff c).1 (room id rfl)).1
  | checkin =>
    have out : ¬ (fewer c.active 1 = 0 ∧ c.state = .checkedOut) := fun h => by
      rw [disabled] at h
      cases h.2
    exact (if_neg out).trans disabled
  | disable => rfl
  | issue | rotate => exact disabled

/-- A call that is about a credential that is there issues none. -/
theorem Fresh.amends (fresh : call.Fresh w) (known : w.store.credential? (call.target w) = some c) :
    call.Amends := by
  cases call with
  | issue =>
    have unused : w.store.credential? (Ident.hex Ident.shortDigits w.supply.draw.1) = none := fresh
    cases unused.symm.trans known
  | checkout | checkin | disable | rotate => trivial

/-- What a call does, as its caller sees it and to every credential. -/
structure Exact (key : Key) (w : World) (call : VaultCall) (granted : Bool) (v : World) :
    Prop where
  /-- A slot is handed out exactly if the credential exists, is not disabled and is below its
  cap. -/
  checkout : ∀ id, call = .checkout id → (granted = true ↔
    ∃ c, w.store.credential? id = some c ∧ c.state ≠ .disabled ∧ c.active < c.maxStreams)
  /-- Only the count of the one credential changes, by one at most, and that it is disabled stays
  so. -/
  known : call.Amends → ∀ c, w.store.credential? (call.target w) = some c →
    ∃ d, v.store.credential? (call.target w) = some d ∧
      (d.service = c.service ∧ d.identity = c.identity ∧ d.tier = c.tier ∧
        d.maxStreams = c.maxStreams) ∧
      d.active.toNat = call.count granted c.active.toNat ∧
      (c.state = .disabled ∨ call = .disable (call.target w) → d.state = .disabled)
  others : ∀ id, id ≠ call.target w → v.store.credential? id = w.store.credential? id
  refused : granted = false → v.store = w.store
  unknown : call.Amends → w.store.credential? (call.target w) = none → v.store = w.store
  frame : ∃ credentials, v.store = { w.store with credentials := credentials }

/-- **A call, to the letter**, in any world. -/
theorem exact (key : Key) (w : World) (call : VaultCall) :
    Exact key w call ((call.program key).run w).1 ((call.program key).run w).2 := by
  have does := call.does key w
  generalize (call.program key).run w = r at does
  cases does with
  | issued known store =>
    refine ⟨nofun, nofun, fun id other => ?_, nofun, nofun, ⟨_, store⟩⟩
    rw [store, Store.credential?_addCredential]
    exact if_neg fun same => other same.symm
  | unregistered store =>
    exact ⟨nofun, nofun, fun id _ => by rw [store], fun _ => store, nofun, ⟨_, store⟩⟩
  | @changed _ c v amends known room store =>
    have own : (call.change key w c).id = call.target w :=
      (call.id_change key w c).trans (Store.credential?_eq_some_iff.1 known).2
    refine ⟨fun id here => iff_of_true rfl ?_, fun _ d found => ?_, fun id other => ?_, nofun,
      fun _ none => absurd (none.symm.trans known) nofun, ⟨_, store⟩⟩
    · subst here
      obtain ⟨on, below⟩ := (Credential.hasCapacity_iff c).1 (room id rfl)
      exact ⟨c, known, on, below⟩
    · obtain rfl := Option.some.inj (known.symm.trans found)
      refine ⟨_, ?_, call.cap_change key w c, active_change room, fun disabled => ?_⟩
      · rw [store, Store.credential?_addCredential, if_pos own]
      · rcases disabled with already | now
        · exact disabled_change already room
        · rw [now]
          rfl
    · rw [store, Store.credential?_addCredential, own]
      exact if_neg fun same => other same.symm
  | refused amends full store =>
    refine ⟨fun id here => iff_of_false nofun ?_, fun _ c known => ?_, fun id _ => by rw [store],
      fun _ => store, fun _ _ => store, ⟨_, store⟩⟩
    · rintro ⟨c, known, on, below⟩
      subst here
      obtain ⟨-, -, none⟩ := full c known
      rw [(Credential.hasCapacity_iff c).2 ⟨on, below⟩] at none
      cases none
    · obtain ⟨id, rfl, -⟩ := full c known
      refine ⟨c, by rw [store]; exact known, ⟨rfl, rfl, rfl, rfl⟩, rfl, ?_⟩
      rintro (already | now)
      · exact already
      · cases now
  | missed none store =>
    exact ⟨nofun, fun _ c known => absurd (none.symm.trans known) nofun,
      fun id _ => by rw [store], nofun, fun _ _ => store, ⟨_, store⟩⟩

end VaultCall

/-! ## Runs of calls -/

/-- A call in retrospect. -/
structure Deal where
  call : VaultCall
  /-- The credential that the call was about. -/
  target : CredentialId
  granted : Bool
  /-- The store that the call found. -/
  before : Store

/-- The worlds that calls of the vault lead to, in any order, with what each call found and whether
it was granted, latest first. -/
inductive Deals (key : Key) (u : World) : List Deal → World → Prop
  | refl : Deals key u [] u
  | call {log : List Deal} {w : World} (h : Deals key u log w) (call : VaultCall)
      (fresh : call.Fresh w) :
      Deals key u
        (⟨call, call.target w, ((call.program key).run w).1, w.store⟩ :: log)
        ((call.program key).run w).2
  /-- Something happens that leaves the credentials alone. -/
  | elsewhere {log : List Deal} {w : World} (h : Deals key u log w) (v : World)
      (same : v.store.credentials = w.store.credentials) : Deals key u log v

/-- The credential was issued by a call, with as many slots as its plan and its service allowed at
that time. -/
def Credential.IssuedBy (c : Credential) (log : List Deal) : Prop :=
  ∃ deal ∈ log, deal.target = c.id ∧ deal.granted = true ∧
    (∃ secret, deal.call = .issue c.service c.identity secret c.tier) ∧
    ∃ definition, deal.before.service? c.service = some definition ∧
      c.maxStreams = min c.tier.capacity definition.streamCap

/-- A credential that was disabled is disabled for good: the calls that have been made since have
handed out no slot of it. -/
structure Credential.Retired (c : Credential) (log : List Deal) (v : World) : Prop where
  disabled : ∃ d, v.store.credential? c.id = some d ∧ d.state = .disabled ∧ d.active ≤ c.active
  kept : ∀ deal ∈ log, deal.call = .checkout c.id → deal.granted = false

namespace Deals

variable {key : Key} {u w : World} {log : List Deal} {c : Credential}

/-- **What calls keep**: a property of credentials that a new one has, and that no call takes from
one that has it. -/
theorem induct {P : List Deal → Credential → Prop}
    (start : ∀ {c}, c ∈ u.store.credentials.entries → P [] c)
    (older : ∀ {log c} (deal : Deal), P log c → P (deal :: log) c)
    (issued : ∀ {log} {w : World} {service definition} {identity secret : String} {tier},
      w.store.service? service = some definition →
        P (⟨.issue service identity secret tier,
            (w.issuing key service definition identity secret tier).id, true, w.store⟩ :: log)
          (w.issuing key service definition identity secret tier))
    (changed : ∀ {log c} (call : VaultCall) (w : World),
      (∀ id, call = .checkout id → c.hasCapacity = true) → P log c → P log (call.change key w c))
    (h : Deals key u log w) {id : CredentialId} {c : Credential}
    (known : w.store.credential? id = some c) : P log c := by
  induction h generalizing id c with
  | refl => exact start (Store.credential?_eq_some_iff.1 known).1
  | @elsewhere log w _ v same ih =>
    rw [Store.credential?, same] at known
    exact ih known
  | @call log w _ call fresh ih =>
    have does := call.does key w
    generalize (call.program key).run w = r at does known ⊢
    cases does with
    | @issued service definition identity secret tier v registered store =>
      rw [store, Store.credential?_addCredential] at known
      split at known
      · rw [← Option.some.inj known]
        exact issued registered
      · exact older _ (ih known)
    | @changed _ d v amends found room store =>
      rw [store, Store.credential?_addCredential] at known
      split at known
      · rw [← Option.some.inj known]
        exact older _ (changed call w room (ih found))
      · exact older _ (ih known)
    | unregistered store | refused _ _ store | missed _ store =>
      rw [store] at known
      exact older _ (ih known)

/-- The state and the counter agree. -/
theorem sound (h : Deals key u log w) (bare : u.store.credentials.entries = []) {id : CredentialId}
    (known : w.store.credential? id = some c) : c.Sound := by
  refine h.induct (P := fun _ c => c.Sound) (fun stored => ?_) (fun _ sound => sound)
    (fun _ => ⟨UInt32.zero_le, fun _ => rfl, nofun⟩)
    (fun call w room sound => VaultCall.sound_change sound room) known
  rw [bare] at stored
  cases stored

/-- The cap is the one that the plan and the service set when the credential was issued. -/
theorem issued (h : Deals key u log w) (bare : u.store.credentials.entries = [])
    {id : CredentialId} (known : w.store.credential? id = some c) : c.IssuedBy log := by
  refine h.induct (P := fun log c => c.IssuedBy log) (fun stored => ?_)
    (fun deal ⟨first, mem, facts⟩ => ⟨first, List.mem_cons_of_mem deal mem, facts⟩)
    (fun registered => ⟨_, List.mem_cons_self, rfl, rfl, ⟨_, rfl⟩, _, registered, rfl⟩)
    (fun {log c} call w _ => ?_) known
  · rw [bare] at stored
    cases stored
  · obtain ⟨service, identity, tier, cap⟩ := call.cap_change key w c
    unfold Credential.IssuedBy
    rw [call.id_change, service, identity, tier, cap]
    exact fun kept => kept

/-- **A disabled credential is never handed out again.** -/
theorem retired (h : Deals key u log w) {id : CredentialId}
    (known : u.store.credential? id = some c) (disabled : c.state = .disabled) :
    c.Retired log w := by
  obtain rfl := (Store.credential?_eq_some_iff.1 known).2
  induction h with
  | refl => exact ⟨⟨c, known, disabled, UInt32.le_refl _⟩, nofun⟩
  | elsewhere _ v same ih =>
    refine ⟨?_, ih.kept⟩
    rw [Store.credential?, same]
    exact ih.disabled
  | @call log w _ call fresh ih =>
    obtain ⟨d, there, off, fewer⟩ := ih.disabled
    have exact := call.exact key w
    generalize (call.program key).run w = r at exact ⊢
    have full : call = .checkout c.id → r.1 = false := fun here => by
      rw [← Bool.not_eq_true, exact.checkout c.id here]
      rintro ⟨e, found, on, -⟩
      obtain rfl := Option.some.inj (there.symm.trans found)
      exact on off
    refine ⟨?_, List.forall_mem_cons.2 ⟨full, ih.kept⟩⟩
    by_cases here : c.id = call.target w
    · rw [here] at there ⊢
      obtain ⟨e, after, -, count, stays⟩ := exact.known (fresh.amends there) d there
      refine ⟨e, after, stays (.inl off), ?_⟩
      have atMost : call.count r.1 d.active.toNat ≤ d.active.toNat := by
        cases call with
        | checkout id =>
          rw [full (congrArg VaultCall.checkout here.symm)]
          exact Nat.le_refl _
        | checkin => exact Nat.sub_le _ _
        | issue | disable | rotate => exact Nat.le_refl _
      rw [UInt32.le_iff_toNat_le] at fewer ⊢
      omega
    · exact ⟨d, (exact.others c.id here).trans there, off, fewer⟩

end Deals

/-- **Whoever calls it, the vault keeps its books.** Let calls of the vault be made in any order,
with slots given back that nobody holds and credentials named that do not exist, from a platform
without credentials. Then the counter of every credential is within its cap, and the cap is the one
that its plan and its service set when it was issued; it is available only with no slot held, and
checked out only with some. What each call does is exact, in these worlds and in any other. And a
credential that is disabled stays so whatever calls follow: no slot of it is handed out, and its
counter never grows. -/
theorem vault_keeps_books {key : Key} {u w : World} {log : List Deal}
    (bare : u.store.credentials.entries = []) (h : Deals key u log w) :
    (∀ id c, w.store.credential? id = some c → c.Sound ∧ c.IssuedBy log) ∧
    (∀ (v : World) (call : VaultCall),
      call.Exact key v ((call.program key).run v).1 ((call.program key).run v).2) ∧
    ∀ id c, w.store.credential? id = some c → c.state = .disabled →
      ∀ {later : List Deal} {v : World}, Deals key w later v → c.Retired later v :=
  ⟨fun _ _ known => ⟨h.sound bare known, h.issued bare known⟩, fun v call => call.exact key v,
    fun _ _ known disabled _ _ rest => rest.retired known disabled⟩

/-- The log and the world after a call; a call that would draw an id in use is left out. -/
def VaultCall.play (key : Key) (r : List Deal × World) (call : VaultCall) : List Deal × World :=
  if call.Fresh r.2 then
    (⟨call, call.target r.2, ((call.program key).run r.2).1, r.2.store⟩ :: r.1,
      ((call.program key).run r.2).2)
  else r

/-- **A written list of calls leads to a world that calls lead to.** -/
theorem Deals.play {key : Key} {u : World} {r : List Deal × World} (h : Deals key u r.1 r.2)
    (calls : List VaultCall) :
    Deals key u (calls.foldl (VaultCall.play key) r).1 (calls.foldl (VaultCall.play key) r).2 := by
  induction calls generalizing r with
  | nil => exact h
  | cons call rest ih =>
    refine ih ?_
    unfold VaultCall.play
    split
    · exact h.call call ‹_›
    · exact h

/-- A service whose credentials have two slots at most, and no credential. -/
def vacantPair : World where
  platform.store := { services := Table.empty.insert { oneSlot with streamCap := 2 } }
  supply := { reading := UInt64.ofNat, word := UInt64.ofNat }

/-- A slot is given back that nobody holds, a third one is asked for, the credential is disabled
with both held, and then more slots are given back than it has. -/
def mismatched : List Deal × World :=
  List.foldl (VaultCall.play Scene.plainKey) ([], vacantPair)
    [.issue "films" "pool@films" "pass" .premium, .checkin "000000000000",
     .checkout "000000000000", .checkout "000000000000", .checkout "000000000000",
     .checkin "nobody", .disable "000000000000", .checkin "000000000000",
     .checkout "000000000000", .checkin "000000000000", .checkin "000000000000"]

/-- The third slot is refused, and so is the one that is asked for once the credential is
disabled. -/
theorem vault_keeps_books_mismatched :
    mismatched.1.map (·.granted) =
      [true, true, false, true, true, true, false, true, true, true, true] ∧
    ∃ c, mismatched.2.store.credential? "000000000000" = some c ∧ c.state = .disabled ∧
      c.active = 0 ∧ c.maxStreams = 2 ∧ c.Sound ∧ c.IssuedBy mismatched.1 := by
  have deals : Deals Scene.plainKey vacantPair mismatched.1 mismatched.2 := Deals.play .refl _
  have credential : (mismatched.2.store.credential? "000000000000").map
      (fun c => (c.state, c.active, c.maxStreams)) = some (.disabled, 0, 2) := by decide +kernel
  obtain ⟨c, known, facts⟩ := Option.map_eq_some_iff.1 credential
  simp only [Prod.mk.injEq] at facts
  exact ⟨by decide +kernel, c, known, facts.1, facts.2.1, facts.2.2,
    (vault_keeps_books rfl deals).1 _ c known⟩

end SlotBroker
