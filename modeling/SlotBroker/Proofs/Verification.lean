import Mathlib.Data.Finset.Card
import SlotBroker.Proofs.Logins
import SlotBroker.Proofs.Secrets

/-!
# What a verification does to a credential

A verification logs in at the provider of a credential, from a device of its own, and closes the
stream again if it gets one. It disables the credential if the login is refused for good. That
happens where nobody could log in, because the account is unknown or has another secret. It also
happens where everybody else still can: on an account that has as many devices as it may have, the
device of the verification is one too many.

Results:
* `Account.distinct_cons`: a device that is not among others counts as one more.
* `Provider.permanent_iff`, `Provider.condemns_tried`: when a login is refused for good, and that
  trying it changes nothing about that.
* `Http.run_tryLogin`, `Http.outcome_verifyCredential`: a verification is a login and the end of its
  stream at the provider, to the letter.
* `Http.verified_handle`: it disables the credential exactly if the login is refused for good.
* **`Http.verifications_settle`**: however often a credential is verified in a row, the store is
  left as the first verification left it.
* **`verification_disables_iff`**: a verification disables a credential exactly if the account is
  unknown, has another secret, or has no room for the device of the verification.
* `healthy_disabled`: so it may disable a credential whose account is not taken for shared.
-/

namespace SlotBroker

open Codec Program

/-! ## One device more -/

namespace Account

theorem distinct_eq_card (devices : List String) : distinct devices = devices.toFinset.card := by
  have same : devices.eraseDups.toFinset = devices.toFinset := by
    ext d
    simp only [List.mem_toFinset, List.mem_eraseDups]
  rw [← same, List.toFinset_card_of_nodup (nodup_eraseDups devices), distinct]

/-- **A device that is not among others counts as one more.** -/
theorem distinct_cons (device : String) (devices : List String) :
    distinct (device :: devices) =
      if device ∈ devices then distinct devices else distinct devices + 1 := by
  rw [distinct_eq_card, distinct_eq_card, List.toFinset_cons]
  split
  · rename_i seen
    rw [Finset.insert_eq_of_mem (List.mem_toFinset.2 seen)]
  · rename_i new
    rw [Finset.card_insert_of_notMem (mt List.mem_toFinset.1 new)]

end Account

/-! ## Logins that are refused for good -/

namespace Provider

variable {p start : Provider} {identity secret device token : String}

/-- Nobody can log in to an account with the secret: there is none, or it has another secret. -/
def Rejects (p : Provider) (identity secret : String) : Prop :=
  ∀ a, p.accounts.find? identity = some a → a.secret ≠ secret

/-- The account has a stream to spare, but with the device it would be taken for shared. -/
def Crowds (p : Provider) (identity device : String) : Prop :=
  ∃ a, p.accounts.find? identity = some a ∧ a.streams.length < p.maxStreams ∧
    p.tooMany (device :: a.recent) = true

/-- A login with the secret from the device is refused for good. -/
def Condemns (p : Provider) (identity secret device : String) : Prop :=
  p.Rejects identity secret ∨ p.Crowds identity device

/-- The account has a stream to spare. It has as many devices as it may have, and this is none of
them. -/
def Crowded (p : Provider) (identity device : String) : Prop :=
  ∃ a, p.accounts.find? identity = some a ∧ a.streams.length < p.maxStreams ∧
    device ∉ a.recent ∧ p.deviceLimit = some (Account.distinct a.recent)

/-- **A login is refused for good** exactly where the provider condemns it. -/
theorem permanent_iff :
    (∃ f, (p.login identity secret device token).1 = .error f ∧ f.isPermanent = true) ↔
      p.Condemns identity secret device := by
  unfold login Condemns Rejects Crowds
  cases known : p.accounts.find? identity with
  | none => exact iff_of_true ⟨_, rfl, rfl⟩ (.inl fun a found => by cases found)
  | some a =>
    simp only [Option.some.injEq, forall_eq', exists_eq_left']
    split
    · rename_i wrong
      exact iff_of_true ⟨_, rfl, rfl⟩ (.inl wrong)
    · rename_i right
      split
      · rename_i full
        refine iff_of_false ?_ (not_or.2 ⟨right, fun room => Nat.not_lt.2 full room.1⟩)
        rintro ⟨f, refused, permanent⟩
        cases refused
        cases permanent
      · rename_i room
        split
        · rename_i shared
          exact iff_of_true ⟨_, rfl, rfl⟩ (.inr ⟨Nat.not_le.1 room, shared⟩)
        · rename_i few
          refine iff_of_false ?_ (not_or.2 ⟨right, fun shared => few shared.2⟩)
          rintro ⟨f, refused, -⟩
          cases refused

/-- The provider after a login whose stream is closed at once. -/
def tried (p : Provider) (identity secret device token : String) : Provider :=
  match p.login identity secret device token with
  | (.error _, q) => q
  | (.ok opened, q) => (q.endStream identity opened).2

/-- **Trying a login** is refused and changes nothing, or it lets the device in and closes the stream
it opened. -/
theorem tried_cases (p : Provider) (identity secret device token : String) :
    (∃ f, (p.login identity secret device token).1 = .error f ∧
      p.tried identity secret device token = p) ∨
    ∃ a, p.accounts.find? identity = some a ∧ a.secret = secret ∧
      p.tooMany (device :: a.recent) = false ∧
      (p.login identity secret device token).1 = .ok token ∧
      p.tried identity secret device token =
        { p with accounts := p.accounts.insert ((a.opened device token).closed token) } := by
  unfold tried
  rcases p.login_cases identity secret device token with
    ⟨f, refused⟩ | ⟨a, found, right, -, few, accepted⟩
  · rw [refused]
    exact .inl ⟨f, rfl, rfl⟩
  · have own : a.identity = identity := Table.find?_key found
    have opened : (p.accounts.insert (a.opened device token)).find? identity =
        some (a.opened device token) := by
      rw [Table.find?_insert]
      exact if_pos own
    have isOpen : token ∈ (a.opened device token).streams :=
      List.mem_append_right _ List.mem_cons_self
    have closed : (p.accounts.insert (a.opened device token)).insert
        ((a.opened device token).closed token) =
          p.accounts.insert ((a.opened device token).closed token) :=
      Table.insert_insert _ rfl
    rw [accepted]
    refine .inr ⟨a, found, right, few, rfl, ?_⟩
    dsimp only
    unfold endStream
    rw [opened]
    simp only [isOpen, if_true]
    rw [← closed]
    rfl

/-- Where the device would be one too many, nothing comes of trying it. -/
theorem tried_of_crowds (crowds : p.Crowds identity device) :
    p.tried identity secret device token = p := by
  obtain ⟨a, account, -, shared⟩ := crowds
  rcases p.tried_cases identity secret device token with
    ⟨-, -, same⟩ | ⟨b, account', -, few, -⟩
  · exact same
  · obtain rfl := Option.some.inj (account.symm.trans account')
    exact absurd (few.symm.trans shared) Bool.false_ne_true

theorem id_login : (p.login identity secret device token).2.id = p.id := by
  rcases p.login_cases identity secret device token with ⟨f, refused⟩ | ⟨a, -, -, -, -, accepted⟩
  · rw [refused]
  · rw [accepted]

theorem id_endStream : (p.endStream identity token).2.id = p.id := by
  rcases p.endStream_cases identity token with failed | ⟨a, -, -, ended⟩
  · rw [failed]
  · rw [ended]

theorem id_tried : (p.tried identity secret device token).id = p.id := by
  rcases p.tried_cases identity secret device token with ⟨-, -, same⟩ | ⟨a, -, -, -, -, tried⟩
  · rw [same]
  · rw [tried]

/-- **Trying a login changes nothing about what comes of it.** -/
theorem condemns_tried :
    (p.tried identity secret device token).Condemns identity secret device ↔
      p.Condemns identity secret device := by
  rcases p.tried_cases identity secret device token with
    ⟨-, -, tried⟩ | ⟨a, found, right, few, -, tried⟩
  · rw [tried]
  · have own : a.identity = identity := Table.find?_key found
    have after : (p.tried identity secret device token).accounts.find? identity =
        some ((a.opened device token).closed token) := by
      rw [tried, Table.find?_insert]
      exact if_pos own
    -- the device is among the last ones now, so it is not one more
    have still : p.tooMany (device :: ((a.opened device token).closed token).recent) = false :=
      tooMany_of_subset
        (List.cons_subset.2 ⟨List.mem_cons_self, a.recent_opened_subset device token⟩) few
    refine iff_of_false (not_or.2 ⟨fun rejects => rejects _ after right, ?_⟩)
      (not_or.2 ⟨fun rejects => rejects a found right, ?_⟩)
    · rintro ⟨b, found', -, shared⟩
      obtain rfl := Option.some.inj (after.symm.trans found')
      rw [tried] at shared
      exact Bool.false_ne_true (still.symm.trans shared)
    · rintro ⟨b, found', -, shared⟩
      obtain rfl := Option.some.inj (found.symm.trans found')
      exact Bool.false_ne_true (few.symm.trans shared)

end Provider

/-! ## Providers that visits lead to -/

namespace Visited

variable {start p : Provider} {visits : List (Visit × Bool)} {identity device token : String}

/-- A try is a login, with the end of its stream if it gets one. -/
theorem tried (h : Visited start p visits) (identity secret device token : String) :
    ∃ visits', Visited start (p.tried identity secret device token) visits' := by
  have login := h.next (.login identity secret (some device) "" token)
  rw [Visit.run] at login
  unfold Provider.tried
  dsimp only [Option.getD_some] at login
  generalize p.login identity secret device token = r at login ⊢
  rcases r with ⟨_ | opened, q⟩
  · exact ⟨_, login⟩
  · exact ⟨_, login.next (.endStream identity opened)⟩

/-- The last logins of an account are not too many devices. -/
theorem few (h : Visited start p visits) {a : Account}
    (found : p.accounts.find? identity = some a) :
    p.tooMany a.recent = false :=
  Provider.tooMany_eq_false_iff.2 fun n limit =>
    (h.tracks.known found).limited n (h.tracks.limit ▸ limit)

theorem not_flagged (h : Visited start p visits) (identity : String) :
    p.flagged identity = false := by
  unfold Provider.flagged
  cases found : p.accounts.find? identity with
  | none => rfl
  | some a => exact h.few found

/-- **A device is one too many exactly if it is new and the account has as many as it may have.** -/
theorem crowds_iff (h : Visited start p visits) :
    p.Crowds identity device ↔ p.Crowded identity device := by
  refine exists_congr fun a => and_congr_right fun found => and_congr_right fun _ => ?_
  have few := h.few found
  unfold Provider.tooMany at few ⊢
  cases limit : p.deviceLimit with
  | none => simp
  | some n =>
    rw [limit] at few
    have atMost : Account.distinct a.recent ≤ n := Nat.not_lt.1 (of_decide_eq_false few)
    simp only [decide_eq_true_eq, Option.some.injEq, Account.distinct_cons]
    split
    · rename_i seen
      exact iff_of_false (Nat.not_lt.2 atMost) fun new => new.1 seen
    · rename_i new
      rw [and_iff_right new]
      omega

/-- Where one device would be too many, those of the last logins are still let in. -/
theorem welcomes (h : Visited start p visits) (crowds : p.Crowds identity device) {a : Account}
    (found : p.accounts.find? identity = some a) :
    ∀ known ∈ a.recent, ∀ token, (p.login identity a.secret known token).1 = .ok token := by
  intro known recent token
  obtain ⟨b, found', room, -⟩ := crowds
  obtain rfl := Option.some.inj (found.symm.trans found')
  have few : p.tooMany (known :: a.recent) = false :=
    Provider.tooMany_of_subset (List.cons_subset.2 ⟨recent, List.Subset.refl _⟩) (h.few found)
  unfold Provider.login
  rw [found]
  dsimp only
  rw [if_neg (not_not.2 rfl), if_neg (Nat.not_le.2 room), if_neg (by simp [few])]

end Visited

/-! ## One verification -/

/-- The world with a provider put in the place of the one for its service. -/
def World.withProvider (w : World) (p : Provider) : World :=
  { w with platform := { w.platform with providers := w.platform.providers.insert p } }

theorem World.provider_withProvider (w : World) {p : Provider} {service : ServiceId}
    (own : p.id = service) :
    (w.withProvider p).platform.providers.find? service = some p := by
  rw [withProvider, Table.find?_insert]
  exact if_pos own

theorem World.withProvider_withProvider (w : World) {p q : Provider} (same : p.id = q.id) :
    (w.withProvider p).withProvider q = w.withProvider q := by
  unfold withProvider
  rw [Table.insert_insert _ same]

theorem Program.run_atProvider {α : Type} {w : World} {p : Provider} {service : ServiceId}
    (absent : α) (f : Provider → α × Provider)
    (found : w.platform.providers.find? service = some p) :
    (atProvider service absent f).run w = ((f p).1, w.withProvider (f p).2) := by
  unfold atProvider
  rw [Program.run, Program.run_done, found]
  rfl

namespace Http

variable {key : Key} {w v : World} {p : Provider} {c : Credential} {id : CredentialId}
  {request : Request}

/-- The request is to verify the credential. -/
def Request.AsksToVerify (request : Request) (id : CredentialId) : Prop :=
  request.method = "POST" ∧ ∃ piece, Text.percentDecoded? piece = some id ∧
    pathPieces? request.path = some ["admin", "credentials", piece, "verify"]

/-- What the verification of a credential goes by: the credential, the provider of its service, and
the secret that it shows. -/
structure Trial (key : Key) (w : World) (id : CredentialId) where
  credential : Credential
  provider : Provider
  secret : Secret
  known : w.store.credential? id = some credential
  found : w.platform.providers.find? credential.service = some provider
  shows : Vault.secretIn key w.store id = some secret

namespace Trial

/-- The token that the stream of the login gets. -/
def token (_ : Trial key w id) : String := Ident.token w.supply.draw.1

/-- What comes of the login. -/
def outcome (t : Trial key w id) : Except LoginFault String :=
  (t.provider.login t.credential.identity t.secret.expose Admin.verifyDevice t.token).1

/-- The provider after the login and the end of its stream. -/
def tried (t : Trial key w id) : Provider :=
  t.provider.tried t.credential.identity t.secret.expose Admin.verifyDevice t.token

/-- The world once the login has been tried. -/
def world (t : Trial key w id) : World :=
  { w with supply := w.supply.draw.2 }.withProvider t.tried

end Trial

/-- **A verification is a login and the end of its stream at the provider**, and nothing else. -/
theorem run_tryLogin (t : Trial key w id) :
    (Admin.tryLogin t.credential.service t.credential.identity t.secret).run w =
      (match t.outcome with
        | .error f => some f
        | .ok _ => none, t.world) := by
  have own : t.provider.id = t.credential.service := Table.find?_key t.found
  have drawn : (randomWord.run w).2.platform.providers.find? t.credential.service =
    some t.provider := t.found
  have token : Ident.token (randomWord.run w).1 = t.token := rfl
  have loggedIn := run_atProvider (.error .invalidCredentials)
    (fun p => p.login t.credential.identity t.secret.expose Admin.verifyDevice t.token) drawn
  have kept : (t.provider.login t.credential.identity t.secret.expose Admin.verifyDevice
    t.token).2.id = t.credential.service := Provider.id_login.trans own
  unfold Admin.tryLogin Trial.world Trial.outcome Trial.tried Provider.tried
  simp only [Program.bind_eq, Program.pure_eq]
  rw [Program.run_bind, Program.run_bind, token, loggedIn]
  generalize t.provider.login t.credential.identity t.secret.expose Admin.verifyDevice t.token =
    r at kept ⊢
  rcases r with ⟨f | opened, q⟩
  · rfl
  · dsimp only
    rw [Program.run_bind, run_atProvider false (fun q => q.endStream t.credential.identity opened)
      (World.provider_withProvider _ kept),
      World.withProvider_withProvider _ Provider.id_endStream.symm]
    rfl

section Steps

open Json

variable {service : ServiceId} {piece : String}

/-- The answer to a verification, and the world after it. -/
def Trial.judged (t : Trial key w id) : Response × World :=
  match t.outcome with
  | .ok _ =>
    (.ofJson 200 (record [("credential_id", text id), ("ok", bool true), ("disabled", bool false)]),
      t.world)
  | .error f =>
    (.ofJson 200 (record
      [("credential_id", text id), ("ok", bool false), ("error", text f.label),
       ("classification", text f.classification), ("disabled", bool f.isPermanent)]),
      if f.isPermanent then t.world.withStore (w.store.addCredential t.credential.disable)
      else t.world)

theorem outcome_pathId (named : Text.percentDecoded? piece = some id) (w : World) :
    (pathId piece).outcome w = (.ok id, w) := by
  unfold pathId
  rw [named]
  rfl

theorem outcome_hasProvider (service : ServiceId) (w : World) :
    (liftM (hasProvider service) : Handling Bool).outcome w =
      (.ok (w.platform.providers.find? service).isSome, w) := by
  rw [Handling.outcome_lift]
  rfl

theorem outcome_reveal (key : Key) (id : CredentialId) (w : World) :
    (liftM (Vault.reveal key id) : Handling (Option Secret)).outcome w =
      (.ok (Vault.secretIn key w.store id), w) := by
  rw [Handling.outcome_lift, Vault.reveal, Program.run_query]

/-- **A verification to the letter**, where there is all that it goes by. -/
theorem outcome_verifyCredential (t : Trial key w id)
    (named : Text.percentDecoded? piece = some id) (request : Request) :
    (Admin.verifyCredential key piece request).outcome w = (.ok t.judged.1, t.judged.2) := by
  unfold Admin.verifyCredential Trial.judged
  rw [Handling.outcome_bind_of_ok (outcome_pathId named w),
    Handling.outcome_bind_of_ok (outcome_credential t.known),
    Handling.outcome_bind_of_ok (outcome_hasProvider t.credential.service w), t.found,
    Option.isSome_some]
  dsimp only
  rw [if_pos rfl, Handling.outcome_bind_of_ok (outcome_reveal key id w), t.shows]
  dsimp only
  have run := run_tryLogin t
  cases login : t.outcome with
  | ok opened =>
    rw [login] at run
    rw [Handling.outcome_bind_of_ok (by rw [Handling.outcome_lift, run])]
    rfl
  | error f =>
    rw [login] at run
    rw [Handling.outcome_bind_of_ok (by rw [Handling.outcome_lift, run])]
    dsimp only
    by_cases forGood : f.isPermanent = true
    · have disabled : (liftM (Vault.disable id) : Handling Bool).outcome t.world =
          (.ok true, t.world.withStore (w.store.addCredential t.credential.disable)) := by
        rw [Handling.outcome_lift, Vault.disable, Program.run_onStore]
        rw [show t.world.platform.store.disable id = w.store.disable id from rfl, Store.disable,
          t.known]
        rfl
      rw [if_pos forGood, if_pos forGood, Handling.outcome_bind_of_ok disabled, forGood]
      rfl
    · rw [if_neg forGood, if_neg forGood,
        Handling.outcome_bind_of_ok (Handling.outcome_pure false t.world),
        Bool.not_eq_true _ |>.mp forGood]
      rfl

/-- Where something is missing that a verification goes by, it is refused. -/
theorem outcome_verifyCredential_of_isEmpty (none : IsEmpty (Trial key w id))
    (named : Text.percentDecoded? piece = some id) (request : Request) :
    ∃ e : Refusal, (Admin.verifyCredential key piece request).outcome w = (.error e, w) := by
  unfold Admin.verifyCredential
  rw [Handling.outcome_bind_of_ok (outcome_pathId named w)]
  cases known : w.store.credential? id with
  | none =>
    refine ⟨.failed (.credentialNotFound id), Handling.outcome_bind_of_error ?_⟩
    unfold Admin.credential
    rw [Handling.outcome_bind_of_ok (Handling.outcome_query _ w), known]
    rfl
  | some c =>
    rw [Handling.outcome_bind_of_ok (outcome_credential known),
      Handling.outcome_bind_of_ok (outcome_hasProvider c.service w)]
    cases found : w.platform.providers.find? c.service with
    | none => exact ⟨.noProvider c.service, rfl⟩
    | some p =>
      rw [Option.isSome_some]
      dsimp only
      rw [if_pos rfl, Handling.outcome_bind_of_ok (outcome_reveal key id w)]
      cases shows : Vault.secretIn key w.store id with
      | none => exact ⟨.failed (.secretUnreadable ("credential " ++ id)), rfl⟩
      | some secret => exact none.elim ⟨c, p, secret, known, found, shows⟩

end Steps

/-- The route of verifications. -/
def Admin.verifyRoute (key : Key) : Route where
  template := Admin.credentialTemplate "verify"
  actions := [(.post, Admin.verifyCredential key)]

/-- **A request to verify a credential** is answered with what comes of the verification, and
counted. -/
theorem run_handle_of_asksToVerify (key : Key) (asks : request.AsksToVerify id) (w : World) :
    ∃ piece, Text.percentDecoded? piece = some id ∧
      (Admin.handle key request).run w =
        let r := (Admin.verifyCredential key piece request).outcome w
        (Handling.respond request r.1,
          r.2.counted (Admin.verifyRoute key) (Handling.respond request r.1).status) := by
  obtain ⟨post, piece, named, path⟩ := asks
  have route : sought (Admin.routes key) request = some (Admin.verifyRoute key, piece) := by
    rw [sought, path]
    rfl
  have sent : ∀ r, sent request r = r := fun r => if_neg (by rw [post]; decide)
  refine ⟨piece, named, ?_⟩
  rw [Admin.handle, run_serve_of_action route (by rw [post]; rfl) rfl]
  dsimp only
  rw [sent]

/-! ## What a verification comes to -/

/-- The credential is stored, and its service has a provider. -/
structure Verifiable (w : World) (id : CredentialId) (c : Credential) (p : Provider) : Prop where
  known : w.store.credential? id = some c
  found : w.platform.providers.find? c.service = some p

/-- The credential shows a secret, and a login with it is refused for good. -/
def Condemned (key : Key) (w : World) (id : CredentialId) (c : Credential) (p : Provider) : Prop :=
  ∃ secret, Vault.secretIn key w.store id = some secret ∧
    p.Condemns c.identity secret.expose Admin.verifyDevice

/-- What a verification of a credential at a provider comes to. -/
structure Verified (key : Key) (id : CredentialId) (c : Credential) (p : Provider) (w v : World) :
    Prop where
  tried : ∀ secret, Vault.secretIn key w.store id = some secret →
    ∃ token, v.platform.providers.find? c.service =
      some (p.tried c.identity secret.expose Admin.verifyDevice token)
  untried : Vault.secretIn key w.store id = none →
    v.platform.providers.find? c.service = some p
  disabled : Condemned key w id c p → v.store = w.store.addCredential c.disable
  spared : ¬ Condemned key w id c p → v.store = w.store

/-- A login at the provider, and what is made of it, is a verification. -/
theorem Verified.of_login {secret : Secret} {token : String}
    (reveals : Vault.secretIn key w.store id = some secret)
    (tried : v.platform.providers.find? c.service =
      some (p.tried c.identity secret.expose Admin.verifyDevice token))
    (verdict :
      let refusedForGood := ∃ f, (p.login c.identity secret.expose Admin.verifyDevice token).1 =
        .error f ∧ f.isPermanent = true
      refusedForGood ∧ v.store = w.store.addCredential c.disable ∨
        ¬ refusedForGood ∧ v.store = w.store) :
    Verified key id c p w v := by
  have condemned : Condemned key w id c p ↔
      p.Condemns c.identity secret.expose Admin.verifyDevice := by
    simp only [Condemned, reveals, Option.some.injEq, exists_eq_left']
  dsimp only at verdict
  rw [Provider.permanent_iff, ← condemned] at verdict
  refine ⟨fun shown same => ?_, fun none => ?_, fun doomed => ?_, fun spared => ?_⟩
  · obtain rfl := Option.some.inj (reveals.symm.trans same)
    exact ⟨token, tried⟩
  · cases reveals.symm.trans none
  · exact (verdict.resolve_right fun h => h.1 doomed).2
  · exact (verdict.resolve_left fun h => spared h.1).2

/-- A trial is a verification: the provider tries the login, and the credential is disabled if it is
refused for good. -/
theorem Trial.verified (t : Trial key w id) :
    Verified key id t.credential t.provider w t.judged.2 := by
  have own : t.tried.id = t.credential.service :=
    Provider.id_tried.trans (Table.find?_key t.found)
  have tried : t.world.platform.providers.find? t.credential.service = some t.tried :=
    World.provider_withProvider _ own
  unfold Trial.judged
  cases login : t.outcome with
  | ok opened =>
    refine .of_login t.shows tried (.inr ⟨?_, rfl⟩)
    rintro ⟨f, refused, -⟩
    cases login.symm.trans refused
  | error f =>
    dsimp only
    split
    · rename_i forGood
      exact .of_login t.shows tried (.inl ⟨⟨f, login, forGood⟩, rfl⟩)
    · rename_i forNow
      refine .of_login t.shows tried (.inr ⟨?_, rfl⟩)
      rintro ⟨g, refused, forGood⟩
      obtain rfl := Except.error.inj (login.symm.trans refused)
      exact forNow forGood

/-- **A request to verify a credential does so**, and disables it exactly if its login is refused
for good. -/
theorem verified_handle (key : Key) (asks : request.AsksToVerify id) (h : Verifiable w id c p) :
    Verified key id c p w ((Admin.handle key request).run w).2 := by
  obtain ⟨piece, named, run⟩ := run_handle_of_asksToVerify key asks w
  suffices verified :
      Verified key id c p w ((Admin.verifyCredential key piece request).outcome w).2 by
    rw [run]
    exact ⟨verified.tried, verified.untried, verified.disabled, verified.spared⟩
  cases shows : Vault.secretIn key w.store id with
  | none =>
    have missing : IsEmpty (Trial key w id) := ⟨fun t => by cases shows.symm.trans t.shows⟩
    obtain ⟨e, refused⟩ := outcome_verifyCredential_of_isEmpty missing named request
    rw [refused]
    refine ⟨fun secret shown => ?_, fun _ => h.found, fun condemned => ?_, fun _ => rfl⟩
    · cases shows.symm.trans shown
    · obtain ⟨secret, shown, -⟩ := condemned
      cases shows.symm.trans shown
  | some secret =>
    let t : Trial key w id := ⟨c, p, secret, h.known, h.found, shows⟩
    rw [outcome_verifyCredential t named]
    exact t.verified

/-! ## Verifications in a row -/

/-- A disabled credential shows the secret it had. -/
theorem secretIn_of_disable (known : w.store.credential? id = some c) :
    Vault.secretIn key (w.store.addCredential c.disable) id = Vault.secretIn key w.store id := by
  have own : c.disable.id = id := (Store.credential?_eq_some_iff.1 known).2
  unfold Vault.secretIn
  rw [Store.credential?_addCredential, if_pos own, known]
  rfl

/-- The provider after a verification is the one before it, or that after a try with the secret. -/
theorem Verified.provider (h : Verified key id c p w v) :
    ∃ q, v.platform.providers.find? c.service = some q ∧
      (q = p ∨ ∃ secret token, Vault.secretIn key w.store id = some secret ∧
        q = p.tried c.identity secret.expose Admin.verifyDevice token) := by
  cases reveals : Vault.secretIn key w.store id with
  | none => exact ⟨p, h.untried reveals, .inl rfl⟩
  | some secret =>
    obtain ⟨token, found⟩ := h.tried secret reveals
    exact ⟨_, found, .inr ⟨secret, token, rfl, rfl⟩⟩

/-- After a verification a login is refused for good exactly if it was before. -/
theorem Verified.condemns (h : Verified key id c p w v) :
    ∃ q, v.platform.providers.find? c.service = some q ∧
      ∀ secret, Vault.secretIn key w.store id = some secret →
        (q.Condemns c.identity secret.expose Admin.verifyDevice ↔
          p.Condemns c.identity secret.expose Admin.verifyDevice) := by
  obtain ⟨q, found, rfl | ⟨secret, token, reveals, rfl⟩⟩ := h.provider
  · exact ⟨q, found, fun _ _ => .rfl⟩
  · refine ⟨_, found, fun shown same => ?_⟩
    obtain rfl := Option.some.inj (reveals.symm.trans same)
    exact Provider.condemns_tried

/-- **A second verification finds what the first one found**, and changes nothing more. -/
theorem Verifiable.again (h : Verifiable w id c p) (once : Verified key id c p w v) :
    ∃ d q, Verifiable v id d q ∧ ∀ u, Verified key id d q v u → u.store = v.store := by
  obtain ⟨q, found, same⟩ := once.condemns
  by_cases condemned : Condemned key w id c p
  · have store := once.disabled condemned
    have own : c.disable.id = id := (Store.credential?_eq_some_iff.1 h.known).2
    have known : v.store.credential? id = some c.disable := by
      rw [store, Store.credential?_addCredential, if_pos own]
    refine ⟨c.disable, q, ⟨known, found⟩, fun u twice => ?_⟩
    obtain ⟨secret, shown, doomed⟩ := condemned
    rw [twice.disabled ⟨secret, by rw [store, secretIn_of_disable h.known, shown],
      (same secret shown).2 doomed⟩]
    -- it is disabled already
    exact congrArg (fun t => { v.store with credentials := t })
      (Table.insert_eq_self (own ▸ known))
  · have store := once.spared condemned
    refine ⟨c, q, ⟨store ▸ h.known, found⟩, fun u twice => twice.spared ?_⟩
    rintro ⟨secret, shown, doomed⟩
    rw [store] at shown
    exact condemned ⟨secret, shown, (same secret shown).1 doomed⟩

/-- Where one verification changes nothing, any number of them changes nothing. -/
theorem Verifiable.settled (h : Verifiable w id c p)
    (settled : ∀ v, Verified key id c p w v → v.store = w.store) {requests : List Request}
    (asks : ∀ r ∈ requests, r.AsksToVerify id) :
    (requests.foldl (fun u r => ((Admin.handle key r).run u).2) w).store = w.store := by
  induction requests generalizing w c p with
  | nil => rfl
  | cons r rest ih =>
    have once := verified_handle key (asks r List.mem_cons_self) h
    obtain ⟨d, q, next, again⟩ := h.again once
    exact (ih next again fun r hr => asks r (List.mem_cons_of_mem _ hr)).trans (settled _ once)

/-- **However often a credential is verified in a row**, the store is left as the first verification
left it: a credential that has passed one passes them all. -/
theorem verifications_settle (key : Key) (h : Verifiable w id c p)
    (asks : request.AsksToVerify id) {more : List Request}
    (again : ∀ r ∈ more, r.AsksToVerify id) :
    let once := ((Admin.handle key request).run w).2
    (more.foldl (fun u r => ((Admin.handle key r).run u).2) once).store = once.store := by
  obtain ⟨d, q, next, settled⟩ := h.again (verified_handle key asks h)
  exact next.settled settled again

end Http

open Http

/-- **A verification disables a credential exactly if its account is unknown, has another secret
than the credential shows, or has no room for the device of the verification.** The last is so where
the account has a stream to spare and as many devices among its last logins as it may have, none of
them that of a verification. Otherwise the store is left as it was. Whatever the visits and however
many verifications there were before, the account is not taken for shared, neither before nor after;
and where the device of the verification is one too many, the provider is left as it was and every
device of the last logins is let in as before. -/
theorem verification_disables_iff {key : Key} {w : World} {id : CredentialId} {c : Credential}
    {p start : Provider} {visits : List (Visit × Bool)} (visited : Visited start p visits)
    (known : w.store.credential? id = some c)
    (found : w.platform.providers.find? c.service = some p)
    {request : Request} (asks : request.AsksToVerify id) :
    let v := ((Admin.handle key request).run w).2
    let condemned := ∃ secret, Vault.secretIn key w.store id = some secret ∧
      (p.Rejects c.identity secret.expose ∨ p.Crowded c.identity Admin.verifyDevice)
    (condemned → v.store = w.store.addCredential c.disable) ∧
    (¬ condemned → v.store = w.store) ∧
    p.flagged c.identity = false ∧
    (∃ q visits', v.platform.providers.find? c.service = some q ∧ Visited start q visits' ∧
      q.flagged c.identity = false) ∧
    (p.Crowded c.identity Admin.verifyDevice → v.platform.providers.find? c.service = some p ∧
      ∀ a, p.accounts.find? c.identity = some a → ∀ device ∈ a.recent, ∀ token,
        (p.login c.identity a.secret device token).1 = .ok token) := by
  intro v condemned
  have verified : Verified key id c p w v := verified_handle key asks ⟨known, found⟩
  have condemned_iff : condemned ↔ Condemned key w id c p := by
    refine exists_congr fun secret => and_congr_right fun _ => ?_
    rw [Provider.Condemns, visited.crowds_iff]
  refine ⟨fun h => verified.disabled (condemned_iff.1 h),
    fun h => verified.spared (mt condemned_iff.2 h), visited.not_flagged _, ?_, fun crowded => ?_⟩
  · obtain ⟨q, there, rfl | ⟨secret, token, -, rfl⟩⟩ := verified.provider
    · exact ⟨q, visits, there, visited, visited.not_flagged _⟩
    · obtain ⟨visits', after⟩ := visited.tried c.identity secret.expose Admin.verifyDevice token
      exact ⟨_, visits', there, after, after.not_flagged _⟩
  · have crowds := visited.crowds_iff.2 crowded
    refine ⟨?_, fun a => visited.welcomes crowds⟩
    obtain ⟨q, there, rfl | ⟨secret, token, -, rfl⟩⟩ := verified.provider
    · exact there
    · rw [there, Provider.tried_of_crowds crowds]

/-- An account for one device, which was used from a television. -/
def usedFromTelevision : Provider × List (Visit × Bool) :=
  Provider.after { id := "films", name := "Films", maxStreams := 1, deviceLimit := some 1 }
    [.register "pool@films" "pass", .login "pool@films" "pass" (some "tv") "" "evening",
     .endStream "pool@films" "evening"]

/-- A platform with a credential for the account. -/
def televisionPooled : World × List Write :=
  Activity.after
    [.command (.define oneSlot), .command (.call (.issue "films" "pool@films" "pass" .basic)),
     .outside (Table.empty.insert usedFromTelevision.1)]

/-- The request to verify the credential. -/
def televisionVerified : Request :=
  { method := "POST", target := "/admin/credentials/000000000000/verify" }

/-- The credential is free and shows the secret of the account, which may not have another device
and is not taken for shared. -/
theorem televisionPooled_sound :
    (∃ c, televisionPooled.1.store.credential? "000000000000" = some c ∧ c.service = "films" ∧
      c.identity = "pool@films" ∧ c.state = .available) ∧
    televisionPooled.1.platform.providers.find? "films" = some usedFromTelevision.1 ∧
    televisionVerified.AsksToVerify "000000000000" ∧
    Vault.secretIn Scene.plainKey televisionPooled.1.store "000000000000" = some ⟨"pass"⟩ ∧
    (∃ a, usedFromTelevision.1.accounts.find? "pool@films" = some a ∧ a.secret = "pass" ∧
      a.streams = [] ∧ a.recent = ["tv"]) := by
  have credential : (televisionPooled.1.store.credential? "000000000000").map
      (fun c => (c.service, c.identity, c.state)) = some ("films", "pool@films", .available) := by
    decide +kernel
  have account : (usedFromTelevision.1.accounts.find? "pool@films").map
      (fun a => (a.secret, a.streams, a.recent)) = some ("pass", [], ["tv"]) := by
    decide +kernel
  have shows : (Vault.secretIn Scene.plainKey televisionPooled.1.store "000000000000").map
      (·.expose) = some "pass" := by decide +kernel
  obtain ⟨c, known, facts⟩ := Option.map_eq_some_iff.1 credential
  obtain ⟨a, found, holds⟩ := Option.map_eq_some_iff.1 account
  obtain ⟨secret, reveals, plain⟩ := Option.map_eq_some_iff.1 shows
  simp only [Prod.mk.injEq] at facts holds
  refine ⟨⟨c, known, facts⟩, rfl, ⟨rfl, "000000000000", by decide +kernel, by decide +kernel⟩, ?_,
    a, found, holds⟩
  rw [reveals, ← plain]

/-- The device of a verification is one too many for the account. -/
theorem verification_disables_iff_televisionPooled :
    let v := ((Admin.handle Scene.plainKey televisionVerified).run televisionPooled.1).2
    (∃ c, televisionPooled.1.store.credential? "000000000000" = some c ∧
      v.store = televisionPooled.1.store.addCredential c.disable) ∧
    usedFromTelevision.1.flagged "pool@films" = false ∧
    v.platform.providers.find? "films" = some usedFromTelevision.1 ∧
    (usedFromTelevision.1.login "pool@films" "pass" "tv" "next").1 = .ok "next" := by
  obtain ⟨⟨c, known, service, identity, -⟩, found, asks, reveals, a, account, secret, streams,
    recent⟩ := televisionPooled_sound
  have visited : Visited _ usedFromTelevision.1 usedFromTelevision.2 := visited_after rfl _
  have crowded : usedFromTelevision.1.Crowded c.identity Admin.verifyDevice := by
    refine ⟨a, by rw [identity, account], ?_, by rw [recent]; decide, by rw [recent]; decide⟩
    rw [streams]
    decide
  obtain ⟨disables, -, unflagged, -, spared⟩ :=
    verification_disables_iff visited known (by rw [service]; exact found) asks
  obtain ⟨same, welcome⟩ := spared crowded
  rw [service] at same
  rw [identity] at unflagged welcome
  exact ⟨⟨c, known, disables ⟨_, reveals, .inr crowded⟩⟩, unflagged, same,
    secret ▸ welcome a account "tv" (by rw [recent]; decide) "next"⟩

/-- **A verification may disable a credential that shows the right secret of an account that is not
taken for shared.** -/
theorem healthy_disabled :
    ¬ ∀ (key : Key) (w : World) (log : List Write) (start p : Provider)
      (visits : List (Visit × Bool)) (id : CredentialId) (c d : Credential) (request : Request),
      Served key w log → Visited start p visits → w.store.credential? id = some c →
      w.platform.providers.find? c.service = some p → request.AsksToVerify id →
      c.state ≠ .disabled →
      ((Admin.handle key request).run w).2.store.credential? id = some d → d.state = .disabled →
      (∃ secret, Vault.secretIn key w.store id = some secret ∧
        p.Rejects c.identity secret.expose) ∨ p.flagged c.identity = true := by
  intro law
  obtain ⟨⟨c, known, service, identity, free⟩, found, asks, reveals, a, account, right, -⟩ :=
    televisionPooled_sound
  have disabled : (((Admin.handle Scene.plainKey televisionVerified).run
      televisionPooled.1).2.store.credential? "000000000000").map (·.state) = some .disabled := by
    decide +kernel
  obtain ⟨d, after, state⟩ := Option.map_eq_some_iff.1 disabled
  rcases law _ _ _ _ _ _ _ c d televisionVerified (served_after _ : Served _ _ televisionPooled.2)
    (visited_after rfl _ : Visited _ _ usedFromTelevision.2) known (by rw [service]; exact found)
    asks (by rw [free]; decide) after state with ⟨secret, shown, rejects⟩ | flagged
  · obtain rfl := Option.some.inj (reveals.symm.trans shown)
    rw [identity] at rejects
    exact rejects a account right
  · rw [identity] at flagged
    exact absurd flagged (by decide +kernel)

end SlotBroker
