import Mathlib
import SlotBroker.Proofs.Indexing
import SlotBroker.Proofs.Sealing
import SlotBroker.Proofs.Usernames

/-!
# Seeding the demo on a platform in use

The demo may be seeded on any platform: one whose catalog has services of the demo under other
terms, one where users have the demo's names, one that has been seeded before. Seeding looks whether
a service or a name is there before it stores one, but it stores users under ids made of their
names, and credentials under ids that are drawn. An id that is taken would make somebody give way.
Drawn ids are taken as new; the ids made of names are shown to be.

Results:
* `Store.Enrolled`: no name is taken twice, and an id made of a name is the id of who has the name;
  `Activity.enrolled`: whatever is done on a platform keeps it so.
* `Demo.run_addMissingServices`, `Demo.run_issueAll`, `Demo.run_addMissingUsers`: what each part of
  a seeding stores comes after all that was stored before.
* `Provider.login_of_new`: who has never logged in is let in.
* **`seeding_adds`**: a seeding succeeds, leaves everything where it was, and the credentials that
  it issues are good at the providers that it gives.
-/

namespace SlotBroker

open Program
open Codec (Key)

/-! ## Users and their ids -/

namespace Store

variable {s t : Store}

/-- No two users have one name, and an id that is made of a name is that of who has the name. -/
structure Enrolled (s : Store) : Prop where
  apart : (s.users.entries.map (·.username)).Nodup
  own : ∀ x ∈ s.users.entries, ∀ name, x.id = "user-" ++ name → x.username = name

theorem Enrolled.of_sameUsers (h : s.Enrolled) (same : s.SameUsers t) : t.Enrolled := by
  obtain ⟨apart, own⟩ := h
  rw [← same] at apart own
  exact ⟨apart, own⟩

/-- What has nothing to do with users leaves them enrolled. -/
theorem Enrolled.run {α : Type} {w : World} (h : w.store.Enrolled) {p : Program α}
    (does : p.Does SameUsers) : (p.run w).2.store.Enrolled :=
  h.of_sameUsers (does.run (fun _ => rfl) (fun h h' => h'.trans h) w)

/-- Who is stored under a free name gives no reason for doubt, even if somebody gives way. -/
theorem Enrolled.addUser (h : s.Enrolled) {x : User} (free : s.userNamed? x.username = none)
    (own : ∀ name, x.id = "user-" ++ name → x.username = name) : (s.addUser x).Enrolled where
  apart := nodup_map_placeIn h.apart fun y hy same => by
    simpa [same] using List.find?_eq_none.1 free y hy
  own y hy := by
    rcases mem_placeIn hy with rfl | hy
    · exact own
    · exact h.own y hy

/-- An id made of a name that is free is not in use. -/
theorem Enrolled.user?_of_free (h : s.Enrolled) {name : String}
    (free : s.userNamed? name = none) : s.user? ("user-" ++ name) = none := by
  cases found : s.user? ("user-" ++ name) with
  | none => rfl
  | some x =>
    obtain ⟨mem, id⟩ := Table.find?_eq_some_iff.1 found
    have named : x.username = name := h.own x mem name id
    simpa [named] using List.find?_eq_none.1 free x mem

end Store

theorem enrolled_register (name : String) :
    (Accounts.register name).Ensures fun w v => w.store.Enrolled → v.store.Enrolled := by
  intro w h
  unfold Accounts.register
  simp only [Program.bind_eq, Program.pure_eq]
  rw [run_bind, run_query]
  cases free : w.store.userNamed? name with
  | some x => exact h
  | none =>
    exact h.addUser (x := ⟨_, name, _⟩) free fun made id =>
      absurd id (Ident.hex_ne_user _ _ made)

/-! ## What happens before -/

/-- Whatever comes of requests leaves the users enrolled. -/
theorem Store.Enrolled.allows :
    World.Allows fun w v => w.store.Enrolled → v.store.Enrolled where
  quiet quiet h := by rwa [quiet.store]
  trans h h' enrolled := h' (h enrolled)
  ends id _ h := h.run (Store.SameUsers.permits.doesEndSession id)
  sweeps _ h := h.run Store.SameUsers.permits.doesSweepCycle
  disables id w h := h.of_sameUsers (w.store.sameUsers_disable id)
  registers := enrolled_register

namespace Http

open Handling World

theorem enrolled_createSession (hole : String) (request : Request) :
    Handling.Ensures (fun w v => w.store.Enrolled → v.store.Enrolled)
      (Public.createSession hole request) := by
  have allows := Store.Enrolled.allows
  refine allows.bind (allows.looks (looks_bodyFields _ request)) fun _ => ?_
  split
  · dsimp only
    split
    · exact allows.throw_bind _ _
    · exact allows.bind
        (Allows.ofFailing fun _ h => h.run (Store.SameUsers.permits.doesRequestSession _ _))
        fun x => allows.looks (.bind (.lift (looks_placed x)) fun _ => .pure _)
  · exact allows.looks (.throw _)

end Http

namespace Http.Admin

variable {key : Key} {w : World} {request : Request}

/-- Issues and rotations have nothing to do with users. -/
theorem enrolled_after (h : w.store.Enrolled) {asked : Option Operation}
    (other : ∀ op ∈ asked, ∀ name, op ≠ .register name) : (after key w asked).Enrolled := by
  cases asked with
  | none => exact h
  | some op => exact h.run (op.sameUsers key (other op rfl))

theorem enrolled_addCredential (h : w.store.Enrolled) (hole : String) :
    ((addCredential key hole request).outcome w).2.store.Enrolled := by
  rw [store_addCredential]
  refine enrolled_after h fun op asked name same => ?_
  subst same
  unfold issueAsked? at asked
  repeat' split at asked
  all_goals cases asked

theorem enrolled_rotateCredential (h : w.store.Enrolled) (hole : String) :
    ((rotateCredential key hole request).outcome w).2.store.Enrolled := by
  rw [store_rotateCredential]
  refine enrolled_after h fun op asked name same => ?_
  subst same
  unfold rotationAsked? at asked
  repeat' split at asked
  all_goals cases asked

end Http.Admin

/-! ## The parts of a seeding -/

/-- The next short ids that will be drawn. -/
def World.nextIds (w : World) (n : Nat) : List String :=
  (List.range' w.supply.drawn n).map fun i => Ident.hex Ident.shortDigits (w.supply.word i)

/-- The world after some ids have been drawn. -/
def World.drew (w : World) (n : Nat) : World :=
  { w with supply := { w.supply with drawn := w.supply.drawn + n } }

theorem World.drew_succ (w : World) (n : Nat) : (w.drew 1).drew n = w.drew (n + 1) := by
  unfold drew
  rw [Nat.add_assoc, Nat.add_comm 1 n]

theorem World.nextIds_succ (w : World) (n : Nat) :
    w.nextIds (n + 1) = Ident.hex Ident.shortDigits w.supply.draw.1 :: (w.drew 1).nextIds n := by
  rw [nextIds, List.range'_succ, List.map_cons]
  rfl

theorem World.tick_succ (w : World) (n : Nat) : (w.tick 1).tick n = w.tick (n + 1) := by
  unfold tick
  rw [Nat.add_assoc, Nat.add_comm 1 n]

theorem World.time_tick (w : World) (k : Nat) : (w.tick 1).time k = w.time (k + 1) := by
  unfold time tick
  rw [Nat.add_assoc, Nat.add_comm 1 k]

namespace Demo

variable {key : Key} {w : World}

/-- The services of a list that a store does not have. -/
def missingServices (s : Store) (ds : List Service) : List Service :=
  ds.filter fun d => (s.service? d.id).isNone

/-- The names of a list that nobody has. -/
def missingNames (s : Store) (names : List String) : List String :=
  names.filter fun name => (s.userNamed? name).isNone

/-- **Missing services come after those that are there.** -/
theorem run_addMissingServices {ds : List Service} (apart : (ds.map (·.id)).Nodup) (w : World) :
    ∃ t, (addMissingServices ds).run w = ((), w.withStore { w.store with services := t }) ∧
      t.entries = w.store.services.entries ++ missingServices w.store ds := by
  induction ds generalizing w with
  | nil => exact ⟨w.store.services, rfl, (List.append_nil _).symm⟩
  | cons d rest ih =>
    obtain ⟨new, apart⟩ := List.nodup_cons.1 apart
    rw [addMissingServices, Program.bind_eq, run_bind, run_query, missingServices]
    cases known : w.store.service? d.id with
    | some old =>
      rw [List.filter_cons_of_neg (by rw [known]; exact Bool.false_ne_true)]
      exact ih apart w
    | none =>
      rw [List.filter_cons_of_pos (by rw [known]; rfl)]
      obtain ⟨t, run, entries⟩ := ih apart (w.withStore (w.store.addService d))
      have here : (w.store.addService d).services.entries = w.store.services.entries ++ [d] :=
        placeIn_of_new known
      -- the others are as unknown as they were
      have others : missingServices (w.store.addService d) rest =
          missingServices w.store rest := by
        refine List.filter_congr fun e he => ?_
        have other : ¬ d.id = e.id := fun same => new (List.mem_map.2 ⟨e, he, same.symm⟩)
        rw [Store.service?, Store.addService, Table.find?_insert]
        exact congrArg Option.isNone (if_neg other)
      rw [World.store_withStore, here, others, List.append_assoc] at entries
      exact ⟨t, run, entries⟩

/-- The credential that is issued for an account under an id. -/
def PooledAccount.credential (key : Key) (s : Store) (id : CredentialId) (a : PooledAccount) :
    Credential where
  id := id
  service := a.service
  identity := a.identity
  sealedSecret := key.conceal a.secret
  tier := a.tier
  maxStreams := (s.service? a.service).elim 0 fun d => min a.tier.capacity d.streamCap
  state := .available
  active := 0
  lastCheckout := none

/-- **Credentials for accounts of known services are issued**, and come after those that are
there. -/
theorem run_issueAll (key : Key) {as : List PooledAccount}
    (known : ∀ a ∈ as, (w.store.service? a.service).isSome = true)
    (apart : (w.nextIds as.length).Nodup)
    (unused : ∀ id ∈ w.nextIds as.length, w.store.credential? id = none) :
    ∃ t, (issueAll key as).run w =
        (.ok (), (w.drew as.length).withStore { w.store with credentials := t }) ∧
      t.entries = w.store.credentials.entries ++
        List.zipWith (PooledAccount.credential key w.store) (w.nextIds as.length) as := by
  induction as generalizing w with
  | nil => exact ⟨w.store.credentials, rfl, (List.append_nil _).symm⟩
  | cons a rest ih =>
    obtain ⟨d, hd⟩ := Option.isSome_iff_exists.1 (known a List.mem_cons_self)
    have issued : w.issuing key a.service d a.identity a.secret a.tier =
        a.credential key w.store (Ident.hex Ident.shortDigits w.supply.draw.1) := by
      rw [World.issuing, PooledAccount.credential, hd]
      rfl
    rw [List.length_cons, World.nextIds_succ] at apart unused ⊢
    obtain ⟨new, apart⟩ := List.nodup_cons.1 apart
    rw [issueAll, Program.bind_eq, run_bind, run_storeCredential key a.identity a.secret a.tier hd,
      issued]
    generalize hc : a.credential key w.store _ = c
    have id : c.id = Ident.hex Ident.shortDigits w.supply.draw.1 := by rw [← hc]; rfl
    have free : w.store.credential? c.id = none := by
      rw [id]
      exact unused _ List.mem_cons_self
    have here : (w.store.addCredential c).credentials.entries =
        w.store.credentials.entries ++ [c] := placeIn_of_new free
    -- the other ids are still not in use
    have unused : ∀ other ∈ (w.drew 1).nextIds rest.length,
        (w.store.addCredential c).credential? other = none := fun other mem => by
      have apart : ¬ c.id = other := fun same => new (id.symm.trans same ▸ mem)
      rw [Store.credential?_addCredential, if_neg apart]
      exact unused other (List.mem_cons_of_mem _ mem)
    obtain ⟨t, run, entries⟩ := ih (w := (w.drew 1).withStore (w.store.addCredential c))
      (fun b hb => known b (List.mem_cons_of_mem a hb)) apart unused
    rw [World.store_withStore, here, List.append_assoc] at entries
    refine ⟨t, run.trans ?_, entries.trans ?_⟩
    · rw [← World.drew_succ w rest.length]
      rfl
    · rw [List.zipWith_cons_cons, hc]
      rfl

/-- The users that are stored for missing names. -/
def newcomers (w : World) (names : List String) : List User :=
  (missingNames w.store names).mapIdx fun k name =>
    { id := "user-" ++ name, username := name, createdAt := w.time k }

theorem username_newcomers (w : World) (names : List String) :
    (newcomers w names).map (·.username) = missingNames w.store names :=
  List.ext_getElem (by simp [newcomers]) fun i _ _ => by simp [newcomers]

theorem id_of_mem_newcomers {names : List String} {x : User} (h : x ∈ newcomers w names) :
    x.id = "user-" ++ x.username := by
  obtain ⟨k, _, rfl⟩ := List.mem_mapIdx.1 h
  rfl

/-- **Users for missing names come after those that are there**, and all are enrolled. -/
theorem run_addMissingUsers {names : List String} (apart : names.Nodup)
    (h : w.store.Enrolled) :
    ∃ t n, (addMissingUsers names).run w =
        ((), (w.tick n).withStore { w.store with users := t }) ∧
      t.entries = w.store.users.entries ++ newcomers w names ∧
      Store.Enrolled { w.store with users := t } := by
  induction names generalizing w with
  | nil => exact ⟨w.store.users, 0, rfl, (List.append_nil _).symm, h⟩
  | cons name rest ih =>
    obtain ⟨new, apart⟩ := List.nodup_cons.1 apart
    rw [addMissingUsers, Program.bind_eq, run_bind, run_query, newcomers, missingNames]
    cases known : w.store.userNamed? name with
    | some old =>
      rw [List.filter_cons_of_neg (by rw [known]; exact Bool.false_ne_true)]
      exact ih apart h
    | none =>
      rw [List.filter_cons_of_pos (by rw [known]; rfl), List.mapIdx_cons]
      let x : User := ⟨"user-" ++ name, name, w.time 0⟩
      have last : (w.store.addUser x).users.entries = w.store.users.entries ++ [x] :=
        w.store.entries_addUser x (h.user?_of_free known)
      have enrolled : (w.store.addUser x).Enrolled :=
        h.addUser known fun other made => (String.append_right_inj _).1 made
      obtain ⟨t, n, run, entries, enrolled⟩ :=
        ih (w := (w.tick 1).withStore (w.store.addUser x)) apart enrolled
      -- the others are as free as they were
      have others : missingNames (w.store.addUser x) rest = missingNames w.store rest := by
        refine List.filter_congr fun other mem => ?_
        have apart : ¬ name = other := fun same => new (same ▸ mem)
        rw [Store.userNamed?_of_last last, if_neg apart, Option.or_none]
      refine ⟨t, n + 1, run.trans ?_, entries.trans ?_, enrolled⟩
      · rw [← World.tick_succ w n]
        rfl
      · have clock : ∀ k, ((w.tick 1).withStore (w.store.addUser x)).time k = w.time (k + 1) :=
          w.time_tick
        rw [World.store_withStore, last, newcomers, World.store_withStore, others,
          List.append_assoc]
        simp only [clock]
        rfl

end Demo

/-! ## Platforms in use -/

section Platforms

variable {key : Key} {w : World}

/-- A seeding leaves the users enrolled. -/
theorem Demo.enrolled_start (h : w.store.Enrolled) : ((start key).run w).2.store.Enrolled := by
  have services := h.run (sameUsers_addMissingServices catalog)
  have issued := services.run (sameUsers_issueAll key accounts)
  unfold start seed
  simp only [Program.bind_eq, Program.bind_assoc]
  rw [run_bind, run_bind]
  generalize (issueAll key accounts).run ((addMissingServices catalog).run w).2 = r at issued ⊢
  cases r.1 with
  | error e => exact issued
  | ok u =>
    obtain ⟨t, n, run, -, enrolled⟩ := run_addMissingUsers (show usernames.Nodup by decide) issued
    dsimp only
    rw [run_bind, run_bind, run]
    exact enrolled

/-- **Whatever is done on a platform leaves the users enrolled.** -/
theorem Activity.enrolled (key : Key) (a : Activity) (h : w.store.Enrolled) :
    (a.run key w).store.Enrolled := by
  cases a with
  | command c =>
    cases c with
    | define service => exact h.of_sameUsers rfl
    | call op =>
      by_cases registers : ∃ name, op = .register name
      · obtain ⟨name, rfl⟩ := registers
        rw [run, Command.run, Operation.program, run_map]
        exact enrolled_register name w h
      · exact h.run (op.sameUsers key fun name same => registers ⟨name, same⟩)
  | checkout id => exact h.run (Store.SameUsers.permits.doesCheckout id)
  | checkin id => exact h.run (Store.SameUsers.permits.doesCheckin id)
  | clients request =>
    exact Store.Enrolled.allows.clients
      (fun _ hole => Http.enrolled_createSession hole request w) h
  | administration request =>
    exact Store.Enrolled.allows.administration key
      (fun _ hole h => Http.Admin.enrolled_addCredential h hole)
      (fun _ _ hole h => Http.Admin.enrolled_rotateCredential h hole) h
  | seed => exact Demo.enrolled_start h
  | outside providers => exact h

/-- The worlds that activities lead to, one complete before the next, from an empty store in which
the services of some catalog are registered first. -/
inductive Founded (key : Key) : World → Prop
  | open (w : World) (empty : w.store = {}) (catalog : List Service) :
      Founded key ((Demo.registerServices catalog).run w).2
  | next {w : World} (a : Activity) : Founded key w → Founded key (a.run key w)

theorem Founded.foldl (h : Founded key w) (as : List Activity) :
    Founded key (as.foldl (fun w a => a.run key w) w) := by
  induction as generalizing w with
  | nil => exact h
  | cons a rest ih => exact ih (h.next a)

theorem Demo.sameUsers_registerServices (catalog : List Service) :
    (registerServices catalog).Does Store.SameUsers := by
  induction catalog with
  | nil => exact .done _
  | cons service rest ih => exact .bind (.update fun _ => rfl) fun _ => ih

/-- **The users of a platform in use are enrolled.** -/
theorem Founded.enrolled (h : Founded key w) : w.store.Enrolled := by
  induction h with
  | «open» w empty catalog =>
    have bare : w.store.Enrolled := by
      rw [empty]
      exact ⟨List.nodup_nil, fun x hx => nomatch hx⟩
    exact bare.run (Demo.sameUsers_registerServices catalog)
  | next a _ ih => exact a.enrolled key ih

end Platforms

/-! ## First logins -/

/-- **Who has never logged in is let in**, where any stream and any device are allowed at all. -/
theorem Provider.login_of_new {p : Provider} {identity secret : String}
    (known : p.accounts.find? identity = some { identity := identity, secret := secret })
    (streams : 0 < p.maxStreams) (devices : ∀ limit ∈ p.deviceLimit, 0 < limit)
    (device token : String) : (p.login identity secret device token).1 = .ok token := by
  have one : Account.distinct [device] = 1 := by
    rw [Account.distinct, List.eraseDups_cons]
    rfl
  have shared : p.tooMany [device] = false := by
    unfold tooMany
    cases limit : p.deviceLimit with
    | none => rfl
    | some n => exact decide_eq_false (by rw [one]; exact Nat.not_lt.2 (devices n limit))
  have recent : Account.recent { identity := identity, secret := secret } = [] := rfl
  rw [login, known]
  simp only [ne_eq, not_true_eq_false, if_false, List.length_nil, Nat.not_le.2 streams, recent,
    shared]
  rfl

namespace Demo

/-- The providers that a seeding gives. -/
def stocked : List Provider := providers.map (withAccounts · accounts)

/-- Each account of the demo is new at a provider that lets in who is. -/
theorem stocked_knows : ∀ a ∈ accounts, ∃ p ∈ stocked.find? fun p => decide (p.id = a.service),
    p.accounts.find? a.identity = some { identity := a.identity, secret := a.secret } ∧
      0 < p.maxStreams ∧ ∀ limit ∈ p.deviceLimit, 0 < limit := by
  decide +kernel

end Demo

/-! ## What a seeding leaves -/

namespace Demo

/-- What is promised of the credential that is issued for an account of the demo, in the world that
the seeding leaves and at the providers that it gives. -/
structure Issued (key : Key) (v : World) (ps : List Provider) (a : PooledAccount) (c : Credential) :
    Prop where
  /-- The credential is for the account, and nothing has been done with it. -/
  credential : c = a.credential key v.store c.id
  /-- It has as many slots as the tier allows, and the service as it is registered. -/
  cap : ∃ d, v.store.service? a.service = some d ∧
    c.maxStreams = min a.tier.capacity d.streamCap
  /-- Its secret is that of the account. -/
  secret : (Vault.reveal key c.id).run v = (some ⟨a.secret⟩, v)
  /-- The provider of its service lets it in, from any device. -/
  welcome : ∃ p ∈ ps.find? fun p => decide (p.id = c.service),
    ∀ device token, (p.login c.identity a.secret device token).1 = .ok token

/-- What a seeding leaves of the world before, and the providers that it gives. -/
structure Seeded (key : Key) (w v : World) (ps : List Provider) : Prop where
  /-- Services stay where they are, and those of the demo that were missing come after them. -/
  services : v.store.services.entries =
    w.store.services.entries ++ catalog.filter fun d => (w.store.service? d.id).isNone
  /-- Credentials stay where they are, and new ones for all accounts come after them. -/
  credentials : ∃ cs, v.store.credentials.entries = w.store.credentials.entries ++ cs ∧
    cs.map (·.id) = w.nextIds 8 ∧ List.Forall₂ (Issued key v ps) accounts cs
  /-- Users stay where they are, and those of the demo's names that nobody had come after them. -/
  users : ∃ xs, v.store.users.entries = w.store.users.entries ++ xs ∧
    xs.map (·.username) = usernames.filter (fun name => (w.store.userNamed? name).isNone) ∧
    ∀ x ∈ xs, x.id = "user-" ++ x.username
  /-- No two users have one name. -/
  apart : (v.store.users.entries.map (·.username)).Nodup
  sessions : v.store.sessions = w.store.sessions
  sequence : v.store.sequence = w.store.sequence
  ledger : v.store.ledger = w.store.ledger
  metrics : v.platform.metrics = w.platform.metrics
  providers : v.platform.providers = w.platform.providers

/-- After the missing services have been stored every service of an account is known. -/
theorem known_of_addMissing {s t : Store}
    (services : t.services.entries = s.services.entries ++ missingServices s catalog) :
    ∀ a ∈ accounts, (t.service? a.service).isSome = true := by
  intro a ha
  have named : a.service ∈ catalog.map (·.id) := by
    revert a
    decide
  obtain ⟨d, hd, same⟩ := List.mem_map.1 named
  rw [← same]
  have stored : ∃ e ∈ t.services.entries, e.id = d.id := by
    rw [services]
    cases known : s.service? d.id with
    | some e =>
      obtain ⟨mem, id⟩ := Table.find?_eq_some_iff.1 known
      exact ⟨e, List.mem_append_left _ mem, id⟩
    | none =>
      exact ⟨d, List.mem_append_right _ (List.mem_filter.2 ⟨hd, by rw [known]; rfl⟩), rfl⟩
  obtain ⟨e, mem, id⟩ := stored
  exact Option.isSome_iff_exists.2 ⟨e, Table.find?_eq_some_iff.2 ⟨mem, id⟩⟩

/-- **The run of a seeding to the letter.** -/
theorem run_seed (key : Key) {w : World} (h : w.store.Enrolled)
    (apart : (w.nextIds accounts.length).Nodup)
    (unused : ∀ id ∈ w.nextIds accounts.length, w.store.credential? id = none) :
    ∃ services credentials users n,
      let v := ((w.drew accounts.length).tick n).withStore
        { w.store with services := services, credentials := credentials, users := users }
      (seed key).run w = (.ok stocked, v) ∧
      services.entries = w.store.services.entries ++ missingServices w.store catalog ∧
      credentials.entries = w.store.credentials.entries ++
        List.zipWith (PooledAccount.credential key v.store) (w.nextIds accounts.length) accounts ∧
      users.entries = w.store.users.entries ++ newcomers w usernames ∧ v.store.Enrolled ∧
      ∀ a ∈ accounts, (v.store.service? a.service).isSome = true := by
  obtain ⟨services, runServices, hservices⟩ :=
    run_addMissingServices (show (catalog.map (·.id)).Nodup by decide) w
  have known := known_of_addMissing (s := w.store) (t := { w.store with services := services })
    hservices
  obtain ⟨credentials, runCredentials, hcredentials⟩ := run_issueAll key
    (w := w.withStore { w.store with services := services }) known apart unused
  obtain ⟨users, n, runUsers, husers, enrolled⟩ := run_addMissingUsers
    (w := (w.drew accounts.length).withStore
      { w.store with services := services, credentials := credentials })
    (show usernames.Nodup by decide) (h.of_sameUsers rfl)
  refine ⟨services, credentials, users, n, ?_, hservices, hcredentials, husers, enrolled, known⟩
  unfold seed
  simp only [Program.bind_eq, Program.pure_eq]
  rw [run_bind, runServices, run_bind, runCredentials]
  dsimp only
  rw [run_bind]
  exact congrArg (fun r : Unit × World => (Except.ok stocked, r.2)) runUsers

/-- A credential that is stored for an account keeps what is promised. -/
theorem issued_of_stored {key : Key} {v : World} {a : PooledAccount} (ha : a ∈ accounts)
    (known : (v.store.service? a.service).isSome = true) {id : CredentialId}
    (stored : a.credential key v.store id ∈ v.store.credentials.entries) :
    Issued key v stocked a (a.credential key v.store id) where
  credential := rfl
  cap := by
    obtain ⟨d, hd⟩ := Option.isSome_iff_exists.1 known
    refine ⟨d, hd, ?_⟩
    rw [PooledAccount.credential, hd]
    rfl
  secret := by
    have found : v.store.credential? id = some (a.credential key v.store id) :=
      Table.find?_of_mem stored
    have opens : key.reveal (key.conceal a.secret) = .ok a.secret := Key.reveal_eq_ok_iff.2 rfl
    change (Vault.secretIn key v.store id, v) = _
    rw [Vault.secretIn, found]
    dsimp only [PooledAccount.credential]
    rw [opens]
  welcome := by
    obtain ⟨p, found, account, streams, devices⟩ := stocked_knows a ha
    exact ⟨p, found, Provider.login_of_new account streams devices⟩

theorem forall₂_zipWith {ι α β : Type} {f : ι → α → β} {R : α → β → Prop} {is : List ι}
    {as : List α} (length : is.length = as.length)
    (each : ∀ i a, (i, a) ∈ is.zip as → R a (f i a)) :
    List.Forall₂ R as (List.zipWith f is as) := by
  induction is generalizing as with
  | nil =>
    obtain rfl := List.length_eq_zero_iff.1 length.symm
    exact .nil
  | cons i is ih =>
    cases as with
    | nil => cases length
    | cons a as =>
      exact .cons (each i a List.mem_cons_self)
        (ih (Nat.succ.inj length) fun j b hb => each j b (List.mem_cons_of_mem _ hb))

end Demo

/-- **Seeding only adds.** -/
theorem seeding_adds {key : Key} {w : World} (h : Founded key w)
    (apart : (w.nextIds 8).Nodup)
    (unused : ∀ id ∈ w.nextIds 8, w.store.credential? id = none) :
    ∃ ps v, (Demo.seed key).run w = (.ok ps, v) ∧ Demo.Seeded key w v ps := by
  obtain ⟨services, credentials, users, n, run, hservices, hcredentials, husers, enrolled, known⟩ :=
    Demo.run_seed key h.enrolled apart unused
  have length : (w.nextIds Demo.accounts.length).length = Demo.accounts.length := by
    rw [World.nextIds, List.length_map, List.length_range']
  rw [← List.map_uncurry_zip_eq_zipWith] at hcredentials
  refine ⟨_, _, run, ?_⟩
  exact
    { services := hservices
      credentials := by
        refine ⟨_, hcredentials, ?_, ?_⟩
        · rw [List.map_map]
          exact List.map_fst_zip length.le
        · rw [List.map_uncurry_zip_eq_zipWith]
          refine Demo.forall₂_zipWith length fun id a pair => ?_
          have ha : a ∈ Demo.accounts := (List.of_mem_zip pair).2
          refine Demo.issued_of_stored ha (known a ha) ?_
          exact hcredentials ▸ List.mem_append_right _ (List.mem_map.2 ⟨(id, a), pair, rfl⟩)
      users := ⟨_, husers, Demo.username_newcomers w _, fun _ => Demo.id_of_mem_newcomers⟩
      apart := enrolled.apart
      sessions := rfl
      sequence := rfl
      ledger := rfl
      metrics := rfl
      providers := rfl }

/-- A platform whose catalog has a service of the demo under other terms, with a user of one of the
demo's names and a running session. -/
def platformInUse : World :=
  List.foldl (fun w (a : Activity) => a.run Scene.plainKey w)
    ((Demo.registerServices [⟨"mock-hulu", "Our Hulu", 1, 1, 60⟩, oneSlot]).run
      { platform := {}, supply := { reading := UInt64.ofNat, word := UInt64.ofNat } }).2
    [.command (.call (.register "bob")), .command (.call (.issue "films" "house" "secret" .basic)),
      .command (.call (.request "ann" "films"))]

theorem seeding_adds_platformInUse :
    ∃ ps v, (Demo.seed Scene.plainKey).run platformInUse = (.ok ps, v) ∧
      v.store.services.entries.map (·.id) =
        ["mock-hulu", "films", "mock-netflix", "mock-disney", "mock-hbo", "mock-spotify"] ∧
      v.store.users.entries.map (·.username) = ["bob", "alice", "carol", "dave"] ∧
      v.store.credentials.size = 9 ∧
      (∃ c ∈ v.store.credentials.entries, c.service = "mock-hulu" ∧ c.maxStreams = 1) ∧
      v.store.sessions.entries.map (·.state) = [.active] := by
  have founded : Founded Scene.plainKey platformInUse := (Founded.open _ rfl _).foldl _
  obtain ⟨ps, v, run, seeded⟩ := seeding_adds founded (by decide +kernel) (by decide +kernel)
  obtain ⟨cs, credentials, -, issued⟩ := seeded.credentials
  obtain ⟨xs, users, newcomers, -⟩ := seeded.users
  refine ⟨ps, v, run, ?_, ?_, ?_, ?_, ?_⟩
  · rw [seeded.services]
    decide +kernel
  · rw [users, List.map_append, newcomers]
    decide +kernel
  · rw [Table.size, credentials, List.length_append, ← issued.length_eq]
    decide +kernel
  · obtain _ | ⟨_, _ | ⟨_, _ | ⟨hulu, _⟩⟩⟩ := issued
    obtain ⟨d, registered, cap⟩ := hulu.cap
    rw [Store.service?, Table.find?, seeded.services] at registered
    obtain rfl : d = ⟨"mock-hulu", "Our Hulu", 1, 1, 60⟩ :=
      Option.some.inj (registered.symm.trans (by decide +kernel))
    refine ⟨_, credentials ▸ List.mem_append_right _ (by simp), ?_, cap⟩
    rw [hulu.credential]
    rfl
  · rw [seeded.sessions]
    decide +kernel

end SlotBroker
