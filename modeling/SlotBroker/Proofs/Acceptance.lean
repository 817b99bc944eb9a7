import Mathlib
import SlotBroker.Settings.Load
import SlotBroker.Proofs.Indexing
import SlotBroker.Proofs.Secrets

/-!
# Settings that are accepted

Loading settings reads a file, checks what it states in a fixed order, and then looks for the master
key, in the environment first and in a file only then. It can stop at any of these. Here is when it
does not, what comes of it, and what the platform that is started from it can rely on: that no
service and so no credential is without a slot.

`Upholds I p` says of a program `p` that each of its steps leaves `I` true of the store where it was
true before, whatever others have done in between. So it is a promise for every order of steps.

Results:
* `Settings.resolveKey_eq_ok_iff`: which key is found.
* `Settings.load_eq_ok_iff`: which settings come of loading.
* `Upholds.turn`, `Upholds.run`: what each step upholds, a turn and a whole run do.
* `Operation.upholds`, `Demo.upholds_start`: no operation takes a service away or issues a
  credential without a slot.
* **`settings_accepted`**: exactly what is in order is accepted, under exactly one key, and every
  credential that is issued afterwards has a slot.
-/

namespace SlotBroker

open Program
open Codec (Key)

/-! ## What is accepted -/

/-- The settings that a file states are in order. -/
structure Draft.Sound (d : Draft) : Prop where
  connections : 0 < d.server.maxConnections
  interval : 0 < d.broker.sweepInterval
  streams : ∀ x ∈ d.services, 0 < x.streamCap

namespace Settings

variable {environment keyFile : Option String} {files : String → Except FileFault String}

/-- Where the master key comes from. -/
inductive KeyFrom (environment keyFile : Option String) (files : String → Except FileFault String) :
    Secret → Prop
  /-- The key of the environment is taken as it is. -/
  | environment {key : String} (set : environment = some key) (ne : key ≠ "") :
      KeyFrom environment keyFile files ⟨key⟩
  /-- Without one, the text of the key file is trimmed. -/
  | file {path text : String} (unset : ∀ key, environment = some key → key = "")
      (configured : keyFile = some path) (readable : files path = .ok text)
      (ne : Text.trim text ≠ "") : KeyFrom environment keyFile files ⟨Text.trim text⟩

theorem KeyFrom.expose_ne {secret : Secret} (h : KeyFrom environment keyFile files secret) :
    secret.expose ≠ "" := by
  cases h with
  | environment _ ne => exact ne
  | file _ _ _ ne => exact ne

theorem check_eq_ok_iff_sound {d : Draft} : check d = .ok () ↔ d.Sound := by
  rw [check_eq_ok_iff]
  simp only [← UInt64.pos_iff_ne_zero, ← UInt32.pos_iff_ne_zero]
  exact ⟨fun ⟨connections, interval, streams⟩ => ⟨connections, interval, streams⟩,
    fun ⟨connections, interval, streams⟩ => ⟨connections, interval, streams⟩⟩

/-- A key that is not set, or set to nothing, is passed over. -/
theorem filter_eq_none_iff :
    environment.filter (· ≠ "") = none ↔ ∀ key, environment = some key → key = "" := by
  cases environment <;> simp [Option.filter]

/-- **Which key is found.** -/
theorem resolveKey_eq_ok_iff {secret : Secret} :
    resolveKey environment keyFile files = .ok secret ↔
      KeyFrom environment keyFile files secret := by
  constructor
  · intro h
    unfold resolveKey at h
    split at h
    · next key set =>
      obtain ⟨set, ne⟩ := Option.filter_eq_some_iff.1 set
      cases h
      exact .environment set (by simpa using ne)
    · next unset =>
      split at h
      · cases h
      · next path =>
        split at h
        · cases h
        · next text readable =>
          split at h
          · cases h
          · next ne =>
            cases h
            exact .file (filter_eq_none_iff.1 unset) rfl readable ne
  · rintro (⟨set, ne⟩ | ⟨unset, configured, readable, ne⟩)
    · rw [set, resolveKey_of_environment ne]
    · unfold resolveKey
      rw [filter_eq_none_iff.2 unset, configured]
      dsimp only
      rw [readable]
      exact if_neg ne

variable {read? : String → Option Draft}

/-- What is read is checked, and then the key is looked for. -/
theorem load_of_stated {text : String} {d : Draft} (stated : read? text = some d) :
    load read? (.ok text) environment files =
      (check d).bind fun _ => (resolveKey environment d.broker.masterKeyFile files).map fun key =>
        { d with masterKey := key } := by
  dsimp only [load, Except.mapError, Bind.bind, Except.bind]
  rw [stated]
  rfl

theorem load_of_malformed {text : String} (malformed : read? text = none) :
    load read? (.ok text) environment files = .error .malformed := by
  dsimp only [load, Except.mapError, Bind.bind, Except.bind]
  rw [malformed]
  rfl

/-- **Which settings come of loading.** -/
theorem load_eq_ok_iff {file : Except FileFault String} {s : Settings} :
    load read? file environment files = .ok s ↔
      ∃ text, file = .ok text ∧ read? text = some s.toDraft ∧ s.toDraft.Sound ∧
        KeyFrom environment s.broker.masterKeyFile files s.masterKey := by
  constructor
  · intro h
    cases file with
    | error cause => cases h
    | ok text =>
      cases stated : read? text with
      | none =>
        rw [load_of_malformed stated] at h
        cases h
      | some d =>
        rw [load_of_stated stated] at h
        cases checked : check d with
        | error fault =>
          rw [checked] at h
          cases h
        | ok _ =>
          cases found : resolveKey environment d.broker.masterKeyFile files with
          | error fault =>
            rw [checked, found] at h
            cases h
          | ok key =>
            rw [checked, found] at h
            cases h
            exact ⟨text, rfl, stated, check_eq_ok_iff_sound.1 checked, resolveKey_eq_ok_iff.1 found⟩
  · rintro ⟨text, rfl, stated, sound, key⟩
    rw [load_of_stated stated, check_eq_ok_iff_sound.2 sound, resolveKey_eq_ok_iff.2 key]
    rfl

/-- **With a key in the environment the key file does not matter**, whatever becomes of the
settings. -/
theorem load_of_environment {key : String} (ne : key ≠ "") (file : Except FileFault String)
    (files files' : String → Except FileFault String) :
    load read? file (some key) files' = load read? file (some key) files := by
  cases file with
  | error cause => rfl
  | ok text =>
    cases stated : read? text with
    | none => rw [load_of_malformed stated, load_of_malformed stated]
    | some d =>
      rw [load_of_stated stated, load_of_stated stated, resolveKey_of_environment ne,
        resolveKey_of_environment ne]

end Settings

/-! ## What each step upholds -/

/-- Each step of the program leaves `I` true of the store where it was true before. -/
def Program.Upholds (I : Store → Prop) : {α : Type} → Program α → Prop
  | _, .done _ => True
  | _, .step f k => ∀ p, I p.store → I (f p).2.store ∧ (k (f p).1).Upholds I
  | _, .clock k => ∀ time, (k time).Upholds I
  | _, .random k => ∀ word, (k word).Upholds I
  | _, .loop body _ _ k => (∀ a, (body a).Upholds I) ∧ ∀ a, (k a).Upholds I

namespace Program.Upholds

variable {α β : Type} {I : Store → Prop} {p : Program α} {f : α → Program β}

theorem bind (h : p.Upholds I) (hf : ∀ a, (f a).Upholds I) : (p.bind f).Upholds I := by
  induction p with
  | done a => exact hf a
  | step g k ih => exact fun q hq => (h q hq).imp_right (ih _ · hf)
  | clock k ih => exact fun time => ih time (h time) hf
  | random k ih => exact fun word => ih word (h word) hf
  | loop body limit a k _ ih => exact ⟨h.1, fun b => ih b (h.2 b) hf⟩

/-- What is done by steps that keep `I` upholds it. -/
theorem of_does {R : Store → Store → Prop} (keeps : ∀ {s t}, I s → R s t → I t)
    (h : p.Does R) : p.Upholds I := by
  induction p with
  | done a => exact h
  | step g k ih => exact fun q hq => ⟨keeps hq (h.1 q), ih _ (h.2 _)⟩
  | clock k ih => exact fun time => ih time (h time)
  | random k ih => exact fun word => ih word (h word)
  | loop body limit a k ihbody ih => exact ⟨fun b => ihbody b (h.1 b), fun b => ih b (h.2 b)⟩

/-- What is seen where `I` is true may be relied on. -/
theorem query_bind {g : Store → α} (h : ∀ s, I s → (f (g s)).Upholds I) :
    ((query g).bind f).Upholds I :=
  fun q hq => ⟨hq, h q.store hq⟩

theorem update {g : Store → Store} (h : ∀ s, I s → I (g s)) : (Program.update g).Upholds I :=
  fun q hq => ⟨h q.store hq, trivial⟩

/-- **What each step upholds, a turn does.** -/
theorem turn (h : p.Upholds I) {digits : Nat} {drawn drawn' : List String} {q q' : Platform}
    {rest : Program α} (turn : p.Turn digits drawn q q' rest drawn') (hq : I q.store) :
    I q'.store ∧ rest.Upholds I := by
  cases turn with
  | step f k => exact h q hq
  | clock k time => exact ⟨hq, h time⟩
  | random k word fresh => exact ⟨hq, h word⟩
  | loop body limit s k =>
    refine ⟨hq, bind (h.1 s) fun r => ?_⟩
    split
    · exact ⟨h.1, h.2⟩
    · exact h.2 r.2

/-- **What each step upholds, a whole run does.** -/
theorem run (h : p.Upholds I) {w : World} (hw : I w.store) : I (p.run w).2.store := by
  induction p generalizing w with
  | done a => exact hw
  | step g k ih =>
    obtain ⟨here, after⟩ := h w.platform hw
    exact ih _ after (w := { w with platform := (g w.platform).2 }) here
  | clock k ih => exact ih _ (h _) (w := { w with supply := w.supply.readClock.2 }) hw
  | random k ih => exact ih _ (h _) (w := { w with supply := w.supply.draw.2 }) hw
  | loop body limit a k ihbody ih =>
    -- the rounds go on from wherever the last one ended
    have looped : ∀ (n : Nat) (a : _) (w : World), I w.store →
        I (rounds (fun a w => (body a).run w) n a w).2.store := by
      intro n
      induction n with
      | zero => exact fun a w hw => hw
      | succ n ihn =>
        intro a w hw
        rw [rounds]
        split
        · exact ihn _ _ (ihbody a (h.1 a) hw)
        · exact ihbody a (h.1 a) hw
    exact ih _ (h.2 _) (looped _ _ _ hw)

end Program.Upholds

/-! ## Slots for every service -/

namespace Store

variable {s t u : Store} {catalog : List Service}

/-- The services are the same, and no credential has other slots than one had before. -/
structure SameCaps (s t : Store) : Prop where
  services : t.services = s.services
  credentials : ∀ c ∈ t.credentials.entries, ∃ d ∈ s.credentials.entries,
    d.maxStreams = c.maxStreams

/-- The services of a catalog are registered, and no service or credential is without a slot. -/
structure Slotted (catalog : List Service) (s : Store) : Prop where
  known : ∀ x ∈ catalog, (s.service? x.id).isSome = true
  services : ∀ x ∈ s.services.entries, 0 < x.streamCap
  credentials : ∀ c ∈ s.credentials.entries, 0 < c.maxStreams

theorem SameCaps.refl (s : Store) : s.SameCaps s := ⟨rfl, fun c hc => ⟨c, hc, rfl⟩⟩

theorem SameCaps.of_eq (services : t.services = s.services)
    (credentials : t.credentials = s.credentials) : s.SameCaps t :=
  ⟨services, fun c hc => ⟨c, credentials ▸ hc, rfl⟩⟩

/-- A credential gives way to itself in another state. -/
theorem SameCaps.addCredential {c d : Credential} (known : s.credential? d.id = some c)
    (same : d.maxStreams = c.maxStreams) : s.SameCaps (s.addCredential d) where
  services := rfl
  credentials e he := by
    rcases mem_placeIn he with rfl | he
    · exact ⟨c, Table.mem_of_find? known, same.symm⟩
    · exact ⟨e, he, rfl⟩

theorem sameCaps_disable (s : Store) (id : CredentialId) : s.SameCaps (s.disable id).2 := by
  rcases s.disable_cases id with h | ⟨c, known, h⟩
  · rw [h]
    exact .refl s
  · rw [h]
    exact .addCredential known rfl

theorem sameCaps_rotate (s : Store) (id : CredentialId) (secret : String) :
    s.SameCaps (s.rotate id secret).2 := by
  rcases s.rotate_cases id secret with h | ⟨c, known, h⟩
  · rw [h]
    exact .refl s
  · rw [h]
    exact .addCredential known rfl

/-- Requests, ends and sweeps leave all caps as they are. -/
theorem SameCaps.permits : Store.Permits SameCaps where
  refl := .refl
  checkout s id now := by
    unfold Store.checkout
    cases known : s.credential? id with
    | none => exact .refl s
    | some c =>
      dsimp only
      split
      · exact .addCredential (credential?_of_id_eq known (c.id_occupy now)) rfl
      · exact .refl s
  checkin s id := by
    unfold Store.checkin
    cases known : s.credential? id with
    | none => exact .refl s
    | some c => exact .addCredential (credential?_of_id_eq known c.id_release) rfl
  applyEvent s id e := by
    rcases s.applyEvent_cases id e with h | ⟨x, y, -, -, h⟩
    · rw [h]
      exact .refl s
    · rw [h]
      exact .of_eq rfl rfl
  addSession _ _ := .of_eq rfl rfl
  appendUsage _ _ := .of_eq rfl rfl

theorem Slotted.of_sameCaps (h : s.Slotted catalog) (same : s.SameCaps t) : t.Slotted catalog where
  known x hx := by
    rw [service?, same.services]
    exact h.known x hx
  services := same.services ▸ h.services
  credentials c hc := by
    obtain ⟨d, hd, caps⟩ := same.credentials c hc
    exact caps ▸ h.credentials d hd

/-- A service that has slots may be registered. -/
theorem Slotted.addService (h : s.Slotted catalog) {x : Service} (slots : 0 < x.streamCap) :
    (s.addService x).Slotted (x :: catalog) where
  known y hy := by
    rw [service?, Store.addService, Table.find?_insert]
    split
    · rfl
    · next apart =>
      rcases List.mem_cons.1 hy with rfl | hy
      · exact absurd rfl apart
      · exact h.known y hy
  services y hy := by
    rcases mem_placeIn hy with rfl | hy
    · exact slots
    · exact h.services y hy
  credentials := h.credentials

theorem Slotted.mono {catalog' : List Service} (h : s.Slotted catalog)
    (sub : ∀ x ∈ catalog', x ∈ catalog) : s.Slotted catalog' :=
  ⟨fun x hx => h.known x (sub x hx), h.services, h.credentials⟩

/-- A credential that has slots may be issued. -/
theorem Slotted.addCredential (h : s.Slotted catalog) {c : Credential} (slots : 0 < c.maxStreams) :
    (s.addCredential c).Slotted catalog where
  known := h.known
  services := h.services
  credentials d hd := by
    rcases mem_placeIn hd with rfl | hd
    · exact slots
    · exact h.credentials d hd

/-- A credential for a service that is registered gets a slot. -/
theorem Slotted.slots (h : s.Slotted catalog) {service : ServiceId} {definition : Service}
    (known : s.service? service = some definition) (tier : Tier) :
    0 < min tier.capacity definition.streamCap := by
  have cap := h.services definition (Table.mem_of_find? known)
  have plan : 0 < tier.capacity := by cases tier <;> decide
  change 0 < if tier.capacity ≤ definition.streamCap then _ else _
  split
  · exact plan
  · exact cap

end Store

/-! ## Operations and the demo -/

variable {catalog : List Service}

/-- What leaves all caps as they are upholds that there are slots. -/
theorem Program.Does.slotted {α : Type} {p : Program α} (h : p.Does Store.SameCaps) :
    p.Upholds (Store.Slotted catalog) :=
  .of_does Store.Slotted.of_sameCaps h

theorem upholds_storeCredential (key : Key) (service : ServiceId) (identity secret : String)
    (tier : Tier) : (Vault.storeCredential key service identity secret tier).Upholds
      (Store.Slotted catalog) := by
  refine .query_bind fun s hs => ?_
  cases known : s.service? service with
  | none => trivial
  | some definition =>
    -- whatever becomes of the service meanwhile, the cap is that of the definition seen
    exact fun word p hp => ⟨hp.addCredential (hs.slots known tier), trivial⟩

theorem sameCaps_register (username : String) :
    (Accounts.register username).Does Store.SameCaps := by
  refine .bind (.query .refl) fun known => ?_
  cases known with
  | some u => exact .done _
  | none =>
    exact .bind .freshId fun id => .bind .now fun now =>
      .bind (.update fun _ => .of_eq rfl rfl) fun _ => .done _

/-- **No operation takes a service away or issues a credential without a slot.** -/
theorem Operation.upholds (key : Key) (op : Operation) :
    (op.program key).Upholds (Store.Slotted catalog) := by
  have permits := Store.SameCaps.permits
  have mapped : ∀ {α β : Type} (f : α → β) {p : Program α}, p.Upholds (Store.Slotted catalog) →
      (f <$> p).Upholds (Store.Slotted catalog) :=
    fun f p h => .bind h fun _ => trivial
  cases op with
  | request user service => exact mapped _ (permits.doesRequestSession user service).slotted
  | finish id => exact mapped _ (permits.doesEndSession id).slotted
  | sweep => exact mapped _ permits.doesEnforceLimits.slotted
  | issue service identity secret tier =>
    exact mapped _ (upholds_storeCredential key service identity secret tier)
  | disable id => exact mapped _ (Does.onStore fun s => s.sameCaps_disable id).slotted
  | rotate id secret => exact mapped _ (Does.onStore fun s => s.sameCaps_rotate id _).slotted
  | register name => exact mapped _ (sameCaps_register name).slotted

namespace Demo

theorem upholds_addMissingServices {ds : List Service} (slots : ∀ d ∈ ds, 0 < d.streamCap) :
    (addMissingServices ds).Upholds (Store.Slotted catalog) := by
  induction ds with
  | nil => trivial
  | cons d rest ih =>
    have ih := ih fun e he => slots e (List.mem_cons_of_mem d he)
    refine .query_bind fun s hs => ?_
    split
    · refine .bind (.update fun t ht => ?_) fun _ => ih
      exact (ht.addService (slots d List.mem_cons_self)).mono fun x => List.mem_cons_of_mem d
    · exact ih

theorem upholds_issueAll (key : Key) (as : List PooledAccount) :
    (issueAll key as).Upholds (Store.Slotted catalog) := by
  induction as with
  | nil => trivial
  | cons a rest ih =>
    refine .bind (upholds_storeCredential key _ _ _ _) fun issued => ?_
    cases issued with
    | error e => trivial
    | ok c => exact ih

theorem sameCaps_addMissingUsers (names : List String) :
    (addMissingUsers names).Does Store.SameCaps := by
  induction names with
  | nil => exact .done _
  | cons name rest ih =>
    refine .bind (.query .refl) fun known => ?_
    dsimp only
    split
    · exact .bind .now fun now => .bind (.update fun _ => .of_eq rfl rfl) fun _ => ih
    · exact ih

/-- **No seeding takes a service away or issues a credential without a slot.** -/
theorem upholds_start (key : Key) : (start key).Upholds (Store.Slotted catalog) := by
  unfold start seed
  simp only [Program.bind_eq, Program.bind_assoc]
  refine .bind (upholds_addMissingServices (by decide)) fun _ =>
    .bind (upholds_issueAll key accounts) fun issued => ?_
  cases issued with
  | error e => trivial
  | ok u =>
    refine .bind (.bind (sameCaps_addMissingUsers usernames).slotted fun _ => trivial) fun r => ?_
    cases r with
    | error e => trivial
    | ok ps => exact fun q hq => ⟨hq, trivial⟩

/-- Registering services that have slots leaves every service and every credential with some. -/
theorem slotted_registerServices {ds : List Service} (slots : ∀ d ∈ ds, 0 < d.streamCap) {w : World}
    (h : w.store.Slotted catalog) :
    ((registerServices ds).run w).2.store.Slotted (ds ++ catalog) := by
  induction ds generalizing w catalog with
  | nil => exact h
  | cons d rest ih =>
    have here := h.addService (slots d List.mem_cons_self)
    refine (ih (fun e he => slots e (List.mem_cons_of_mem d he))
      (w := w.withStore (w.store.addService d)) here).mono fun x hx => ?_
    simp only [List.mem_append, List.mem_cons] at hx ⊢
    tauto

end Demo

/-! ## From the settings to the platform -/

/-- The key that secrets are sealed with. -/
def Settings.key (s : Settings) : Key := .ofPassphrase s.masterKey.expose

/-- What is done with accepted settings before anybody is served. -/
def Settings.start (s : Settings) : Program Unit := do
  Demo.registerServices s.services
  if s.broker.seedDemo then
    Demo.start s.key

theorem Settings.slotted_start {s : Settings} (sound : s.toDraft.Sound) {w : World}
    (empty : w.store = {}) : (s.start.run w).2.store.Slotted s.services := by
  have bare : w.store.Slotted [] := by
    rw [empty]
    exact ⟨nofun, nofun, nofun⟩
  have registered := Demo.slotted_registerServices sound.streams bare
  rw [List.append_nil] at registered
  unfold start
  simp only [Program.bind_eq]
  rw [run_bind]
  split
  · exact (Demo.upholds_start s.key).run registered
  · exact registered

/-- **In any order of steps every service and every credential keeps its slots.** -/
theorem Scene.slotted_of_reached {key : Key} {σ τ : Scene}
    (h : Relation.ReflTransGen (Scene.Next key) σ τ) (slotted : σ.store.Slotted catalog)
    (quiet : σ.calls = []) : τ.store.Slotted catalog := by
  suffices τ.store.Slotted catalog ∧
      ∀ c ∈ τ.calls, c.rest.Upholds (Store.Slotted catalog) from this.1
  -- a turn takes a step of one call, so the induction carries what is left of all of them
  induction h with
  | refl => exact ⟨slotted, fun c hc => by rw [quiet] at hc; cases hc⟩
  | tail _ step ih =>
    obtain ⟨stored, pending⟩ := ih
    cases step with
    | call op =>
      refine ⟨stored, fun c hc => ?_⟩
      rcases List.mem_append.1 hc with hc | hc
      · exact pending c hc
      · rw [List.mem_singleton.1 hc]
        exact op.upholds key
    | turn before after c p rest drawn here turn =>
      have mine := pending c (here ▸ List.mem_append_right _ List.mem_cons_self)
      obtain ⟨stored, mine⟩ := mine.turn turn stored
      refine ⟨stored, fun d hd => ?_⟩
      rcases List.mem_append.1 hd with hd | hd
      · exact pending d (here ▸ List.mem_append_left _ hd)
      · rcases List.mem_cons.1 hd with rfl | hd
        · exact mine
        · exact pending d (here ▸ List.mem_append_right _ (List.mem_cons_of_mem c hd))

/-! ## What is promised of accepted settings -/

/-- What is promised of settings that come of loading. -/
structure Settings.Promised (read? : String → Option Draft) (file : Except FileFault String)
    (environment : Option String) (files : String → Except FileFault String) (s : Settings) :
    Prop where
  /-- All but the key is as the file states it. -/
  stated : ∃ text, file = .ok text ∧ read? text = some s.toDraft
  sound : s.toDraft.Sound
  key : KeyFrom environment s.broker.masterKeyFile files s.masterKey
  ne : s.masterKey.expose ≠ ""
  /-- Whatever is done, in any order of steps, on a platform that is started from the settings: a
  credential for a service of the catalog is issued when it is asked for, and has a slot. -/
  issues : ∀ w : World, w.store = {} → ∀ σ, Relation.ReflTransGen (Scene.Next s.key)
    { platform := (s.start.run w).2.platform } σ → ∀ v : World, v.store = σ.store →
      ∀ x ∈ s.services, ∀ identity secret tier, ∃ c,
        ((Vault.storeCredential s.key x.id identity secret tier).run v).1 = .ok c ∧
          c.service = x.id ∧ 0 < c.maxStreams
  /-- Whatever is done, every credential that has been issued has a slot. -/
  slots : ∀ w : World, w.store = {} → ∀ σ, Relation.ReflTransGen (Scene.Next s.key)
    { platform := (s.start.run w).2.platform } σ →
      ∀ c ∈ σ.store.credentials.entries, 0 < c.maxStreams

/-- **Exactly what is in order is accepted, under exactly one key**, and what is accepted leaves no
credential without a slot. With a key in the environment the key file does not matter. -/
theorem settings_accepted (read? : String → Option Draft) (file : Except FileFault String)
    (environment : Option String) (files : String → Except FileFault String) :
    ((∃ s, Settings.load read? file environment files = .ok s) ↔
      ∃ text d, file = .ok text ∧ read? text = some d ∧ d.Sound ∧
        ((∃ key, environment = some key ∧ key ≠ "") ∨
          ∃ path text, d.broker.masterKeyFile = some path ∧ files path = .ok text ∧
            Text.trim text ≠ "")) ∧
    (∀ s, Settings.load read? file environment files = .ok s →
      s.Promised read? file environment files) ∧
    ∀ key, environment = some key → key ≠ "" → ∀ files',
      Settings.load read? file environment files' =
        Settings.load read? file environment files := by
  refine ⟨⟨?_, ?_⟩, fun s loaded => ?_, fun key set ne files' => ?_⟩
  · rintro ⟨s, loaded⟩
    obtain ⟨text, readable, stated, sound, key⟩ := Settings.load_eq_ok_iff.1 loaded
    refine ⟨text, s.toDraft, readable, stated, sound, ?_⟩
    generalize s.masterKey = secret at key
    cases key with
    | environment set ne => exact .inl ⟨_, set, ne⟩
    | file _ configured readable ne => exact .inr ⟨_, _, configured, readable, ne⟩
  · rintro ⟨text, d, readable, stated, sound, source⟩
    have key : ∃ secret, Settings.KeyFrom environment d.broker.masterKeyFile files secret := by
      by_cases set : ∃ key, environment = some key ∧ key ≠ ""
      · obtain ⟨key, set, ne⟩ := set
        exact ⟨_, .environment set ne⟩
      · obtain ⟨path, text, configured, readable, ne⟩ := source.resolve_left set
        exact ⟨_, .file (fun key here => by_contra fun ne => set ⟨key, here, ne⟩) configured
          readable ne⟩
    obtain ⟨secret, key⟩ := key
    exact ⟨{ d with masterKey := secret }, Settings.load_eq_ok_iff.2
      ⟨text, readable, stated, sound, key⟩⟩
  · obtain ⟨text, readable, stated, sound, key⟩ := Settings.load_eq_ok_iff.1 loaded
    have slotted : ∀ w : World, w.store = {} → ∀ σ, Relation.ReflTransGen (Scene.Next s.key)
        { platform := (s.start.run w).2.platform } σ → σ.store.Slotted s.services :=
      fun w empty σ reached =>
        Scene.slotted_of_reached reached (Settings.slotted_start sound empty) rfl
    refine ⟨⟨text, readable, stated⟩, sound, key, key.expose_ne, ?_,
      fun w empty σ reached => (slotted w empty σ reached).credentials⟩
    intro w empty σ reached v here x hx identity secret tier
    have slotted := slotted w empty σ reached
    obtain ⟨definition, known⟩ := Option.isSome_iff_exists.1 (slotted.known x hx)
    rw [run_storeCredential s.key identity secret tier (here ▸ known)]
    exact ⟨_, rfl, rfl, slotted.slots known tier⟩
  · rw [set]
    exact Settings.load_of_environment ne file files files'

/-- A file that names a key file and states one service. -/
def withKeyFile : String :=
  "[server]\nlisten_addr = \"127.0.0.1:80\"\nadmin_listen_addr = \"127.0.0.1:81\"\n" ++
  "[broker]\nmaster_key_file = \"key\"\n" ++
  "[[services]]\nid = \"films\"\nname = \"Films\"\nmonthly_cost_cents = 900\n" ++
  "max_concurrent_streams = 1\n"

theorem settings_accepted_withKeyFile :
    (∃ s, Settings.load Draft.ofText? (.ok withKeyFile) (some "") (fun _ => .ok " secret\n") =
        .ok s ∧ s.services = [oneSlot] ∧ s.masterKey.expose = "secret" ∧
      ∀ w : World, w.store = {} → ∃ c,
        ((Vault.storeCredential s.key "films" "house" "secret" .premium).run
          (s.start.run w).2).1 = .ok c ∧ 0 < c.maxStreams) ∧
    Settings.load Draft.ofText? (.ok withKeyFile) (some "other") (fun _ => .error .absent) =
      Settings.load Draft.ofText? (.ok withKeyFile) (some "other") (fun _ => .ok " secret\n") := by
  have stated : Draft.ofText? withKeyFile = some
      { server := ⟨.v4 #v[127, 0, 0, 1] 80, .v4 #v[127, 0, 0, 1] 81, 1000⟩
        broker := ⟨60, some "key", false⟩
        services := [oneSlot] } := by decide +kernel
  have trimmed : Text.trim " secret\n" = "secret" := by decide +kernel
  obtain ⟨accepts, promises, -⟩ := settings_accepted Draft.ofText? (.ok withKeyFile) (some "")
    fun _ => .ok " secret\n"
  obtain ⟨s, loaded⟩ := accepts.2 ⟨_, _, rfl, stated, ⟨by decide, by decide, by decide⟩,
    .inr ⟨_, _, rfl, rfl, by rw [trimmed]; decide⟩⟩
  have promised := promises s loaded
  obtain ⟨text, readable, same⟩ := promised.stated
  obtain rfl := Except.ok.inj readable
  have same := Option.some.inj (stated.symm.trans same)
  have services : s.services = [oneSlot] := by rw [← same]
  refine ⟨⟨s, loaded, services, ?_, fun w empty => ?_⟩, ?_⟩
  · have source := promised.key
    generalize s.masterKey = secret at source ⊢
    cases source with
    | environment set ne => exact absurd (Option.some.inj set).symm ne
    | file _ _ readable _ =>
      obtain rfl := Except.ok.inj readable
      exact trimmed
  · obtain ⟨c, issued, -, slots⟩ := promised.issues w empty _ .refl _ rfl oneSlot
      (by rw [services]; exact List.mem_singleton_self _) "house" "secret" .premium
    exact ⟨c, issued, slots⟩
  · exact (settings_accepted Draft.ofText? (.ok withKeyFile) (some "other")
      fun _ => .ok " secret\n").2.2 "other" rfl (by decide) _

end SlotBroker
