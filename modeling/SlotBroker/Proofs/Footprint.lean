import Mathlib.Data.Multiset.Basic
import SlotBroker.Proofs.Draining
import SlotBroker.Proofs.Verification

/-!
# What a verification leaves behind

A verification gives a verdict, and that is to be all. Its login opens a stream and its end closes
one of the same token. The token may be that of a stream that was open already. Then the older of
the two is closed, but the tokens that are open are those that were open before, as often as before.

Results:
* `Account.perm_trial`: a stream that is opened and closed again leaves the tokens as they were.
* `Http.Trial.verdict`: whatever comes of the login, a trial ends with one of three verdicts.
* `Session.GoesOn.refl`: the end of a running session, on any platform.
* **`verification_footprint`**: whatever the platform and the providers hold, a verification leaves
  nothing but a device in the history of the account or a credential that is disabled, and no
  session notices.
-/

namespace SlotBroker

open Codec Program

/-! ## Open tokens -/

/-- **A stream that is opened and closed again** leaves the tokens as they were, be there another
stream of the same token or not. -/
theorem Account.perm_trial (a : Account) (device token : String) :
    ((a.opened device token).closed token).streams.Perm a.streams := by
  change ((a.streams ++ [token]).erase token).Perm a.streams
  have moved : (a.streams ++ [token]).Perm ([token] ++ a.streams) := List.perm_append_comm
  have front := moved.erase token
  rwa [List.singleton_append, List.erase_cons_head] at front

namespace Provider

/-- The tokens of the streams that an account has open, each as often as it is open. -/
def openTokens (p : Provider) (identity : String) : Option (Multiset String) :=
  (p.accounts.find? identity).map fun a => (a.streams : Multiset String)

/-- Where the streams of an account change their order only, the open tokens of every account are as
they were. -/
theorem openTokens_of_perm {p : Provider} {identity : String} {a : Account}
    {streams : List String} (found : p.accounts.find? identity = some a)
    (same : streams.Perm a.streams) (devices : List String) (other : String) :
    Provider.openTokens
      { p with accounts := p.accounts.insert { a with streams := streams, devices := devices } }
        other = p.openTokens other := by
  unfold openTokens
  rw [Table.find?_insert]
  split
  · rename_i here
    obtain rfl : identity = other := (Table.find?_key found).symm.trans here
    rw [found, Option.map_some, Option.map_some, Multiset.coe_eq_coe.2 same]
  · rfl

end Provider

/-- The tokens of the streams that an account at the provider of a service has open. -/
def World.openTokens (w : World) (service : ServiceId) (identity : String) :
    Option (Multiset String) :=
  (w.platform.providers.find? service).bind (·.openTokens identity)

section Providers

variable {w : World} {p q : Provider} {service : ServiceId}

/-- A provider that is there is put in its own place. -/
theorem World.withProvider_self (found : w.platform.providers.find? service = some p) :
    w.withProvider p = w := by
  have own : w.platform.providers.find? (Keyed.key p) = some p := by
    rw [Table.find?_key found, found]
  unfold withProvider
  rw [Table.insert_eq_self own]

theorem World.openTokens_withProvider (found : w.platform.providers.find? service = some p)
    (own : q.id = p.id) (same : ∀ identity, q.openTokens identity = p.openTokens identity)
    (other : ServiceId) (identity : String) :
    (w.withProvider q).openTokens other identity = w.openTokens other identity := by
  unfold World.openTokens withProvider
  rw [Table.find?_insert]
  split
  · rename_i here
    obtain rfl : service = other :=
      (Table.find?_key found).symm.trans (own.symm.trans here)
    rw [found, Option.bind_some, Option.bind_some, same]
  · rfl

theorem World.openTokens_of_eq {v : World} (same : v.platform.providers = w.platform.providers)
    (service : ServiceId) (identity : String) :
    v.openTokens service identity = w.openTokens service identity := by
  unfold World.openTokens
  rw [same]

end Providers

/-! ## The verdict -/

namespace Http

open Json

variable {key : Key} {w v : World} {id : CredentialId}

/-- The verdict of a trial: the answer, and what is left of it. -/
inductive Verdict (t : Trial key w id) : Response → World → Prop where
  /-- The login was let in. The account has the device in its history, and the same tokens open. -/
  | accepted {a : Account} {streams : List String} {v : World} (login : t.outcome = .ok t.token)
      (account : t.provider.accounts.find? t.credential.identity = some a)
      (same : streams.Perm a.streams)
      (left : World.Still
        (w.withProvider
          { t.provider with
            accounts := t.provider.accounts.insert
              { a with streams := streams, devices := a.devices ++ [Admin.verifyDevice] } }) v) :
      Verdict t
        (.ofJson 200
          (record [("credential_id", text id), ("ok", bool true), ("disabled", bool false)])) v
  /-- The login was refused for now. -/
  | transient {f : LoginFault} {v : World} (login : t.outcome = .error f)
      (forNow : f.isPermanent = false) (left : w.Still v) :
      Verdict t
        (.ofJson 200 (record
          [("credential_id", text id), ("ok", bool false), ("error", text f.label),
           ("classification", text "transient"), ("disabled", bool false)])) v
  /-- The login was refused for good. The credential hands out no slot any more. -/
  | permanent {f : LoginFault} {v : World} (login : t.outcome = .error f)
      (forGood : f.isPermanent = true)
      (left : World.Still
        (w.withStore (w.store.addCredential { t.credential with state := .disabled })) v) :
      Verdict t
        (.ofJson 200 (record
          [("credential_id", text id), ("ok", bool false), ("error", text f.label),
           ("classification", text "permanent"), ("disabled", bool true)])) v

theorem Verdict.counted {t : Trial key w id} {response : Response} (h : Verdict t response v)
    (route : Route) (status : Nat) : Verdict t response (v.counted route status) := by
  cases h with
  | accepted login account same left =>
    exact .accepted login account same (left.counted route status)
  | transient login forNow left => exact .transient login forNow (left.counted route status)
  | permanent login forGood left => exact .permanent login forGood (left.counted route status)

theorem Trial.verdict (t : Trial key w id) : Verdict t t.judged.1 t.judged.2 := by
  have drawn : ({ w with supply := w.supply.draw.2 } : World).platform.providers.find?
      t.credential.service = some t.provider := t.found
  rcases t.provider.tried_cases t.credential.identity t.secret.expose Admin.verifyDevice t.token with
    ⟨f, refused, tried⟩ | ⟨a, account, -, -, accepted, tried⟩
  · have login : t.outcome = .error f := refused
    have world : t.world = { w with supply := w.supply.draw.2 } := by
      rw [Trial.world, show t.tried = _ from tried, World.withProvider_self drawn]
    unfold Trial.judged
    rw [login, world]
    dsimp only
    cases forGood : f.isPermanent with
    | true =>
      have label : f.classification = "permanent" := if_pos forGood
      rw [label]
      exact .permanent login forGood ⟨rfl, rfl, rfl, rfl⟩
    | false =>
      have label : f.classification = "transient" := if_neg (by rw [forGood]; decide)
      rw [label]
      exact .transient login forGood ⟨rfl, rfl, rfl, rfl⟩
  · have login : t.outcome = .ok t.token := accepted
    unfold Trial.judged
    rw [login, Trial.world, show t.tried = _ from tried]
    exact .accepted login account (a.perm_trial Admin.verifyDevice t.token) ⟨rfl, rfl, rfl, rfl⟩

theorem Verdict.status {t : Trial key w id} {response : Response} (h : Verdict t response v) :
    response.status = 200 := by
  cases h <;> rfl

/-- The sessions, the services and the ledger are as they were, whatever the verdict. -/
theorem Verdict.store {t : Trial key w id} {response : Response} (h : Verdict t response v) :
    ∃ credentials, v.store = { w.store with credentials := credentials } := by
  cases h with
  | accepted _ _ _ left => exact ⟨_, left.store⟩
  | transient _ _ left => exact ⟨_, left.store⟩
  | permanent _ _ left => exact ⟨_, left.store⟩

/-- The open tokens of every account are as they were, whatever the verdict. -/
theorem Verdict.openTokens {t : Trial key w id} {response : Response} (h : Verdict t response v)
    (service : ServiceId) (identity : String) :
    v.openTokens service identity = w.openTokens service identity := by
  cases h with
  | @accepted a streams v _ account same left =>
    rw [World.openTokens_of_eq left.providers]
    refine World.openTokens_withProvider t.found ?own (fun other => ?same) service identity
    case own => rfl
    case same => exact Provider.openTokens_of_perm account same _ other
  | transient _ _ left => exact World.openTokens_of_eq left.providers service identity
  | permanent _ _ left => exact World.openTokens_of_eq left.providers service identity

end Http

/-! ## The end of a running session -/

section Ends

variable {w : World} {x : Session}

/-- The slot of a session whose service is gone is checked in, and no record of it is written. -/
theorem run_releaseAndBill_of_unknown {y : Session} (unknown : w.store.service? y.service = none) :
    (Broker.releaseAndBill y).run w = (none, w.withStore (w.store.giveBack y)) := by
  have unbilled : ∀ v : World, v.store.services = w.store.services →
      (Billing.recordSession y).run v = (.error (.serviceNotFound y.service), v) := by
    intro v same
    have unknown' : v.store.service? y.service = none := by
      rw [Store.service?, same]
      exact unknown
    unfold Billing.recordSession
    simp only [Program.bind_eq, Program.pure_eq]
    rw [Program.run_bind, Program.run_query, unknown']
    rfl
  unfold Broker.releaseAndBill Store.giveBack
  simp only [Program.bind_eq, Program.pure_eq]
  cases y.credential with
  | none =>
    change ((Billing.recordSession y).bind _).run w = _
    rw [Program.run_bind, unbilled w rfl]
    rfl
  | some c =>
    change ((Billing.recordSession y).bind _).run (w.withStore (w.store.checkin c)) = _
    rw [Program.run_bind, unbilled _ (w.store.services_checkin c)]
    rfl

/-- A session that has left its slot is billed if its service is registered. -/
theorem run_releaseAndBill_eq (y : Session) (w : World) : ∃ v,
    (Broker.releaseAndBill y).run w = ((w.store.service? y.service).map (w.bill y), v) ∧
      v.store.sessions = w.store.sessions ∧
      v.store.ledger = w.store.ledger ++ ((w.store.service? y.service).map (w.bill y)).toList := by
  obtain ⟨credentials, back⟩ := w.store.giveBack_eq y
  cases known : w.store.service? y.service with
  | none =>
    refine ⟨_, run_releaseAndBill_of_unknown known, ?_, ?_⟩
    · rw [World.store_withStore, back]
    · rw [World.store_withStore, back]
      exact (List.append_nil _).symm
  | some definition =>
    obtain ⟨v, run, -, store⟩ := run_releaseAndBill known
    refine ⟨v, run, ?_, ?_⟩
    · rw [store, back]
      rfl
    · rw [store, back]
      rfl

/-- A running session is not told from the first world to the second: it runs there as well, its end
ends it, and it is billed then if its service was registered in the first. -/
structure Session.GoesOn (x : Session) (w v : World) : Prop where
  runs : v.store.session? x.id = some x
  ends : ((Broker.endSession x.id).run v).2.store.session? x.id =
    some { x with state := .ended, endedAt := some (v.time 0) }
  record : ((Broker.endSession x.id).run v).1 = (w.store.service? x.service).map
    ((v.tick 1).bill { x with state := .ended, endedAt := some (v.time 0) })
  billed : ((Broker.endSession x.id).run v).2.store.ledger =
    w.store.ledger ++ ((Broker.endSession x.id).run v).1.toList

/-- **A running session that is ended** is over, and it is billed if its service is registered. -/
theorem Session.GoesOn.refl (found : w.store.session? x.id = some x) (runs : x.state = .active) :
    x.GoesOn w w := by
  have moved : x.apply (.finish (w.time 0)) =
      some { x with state := .ended, endedAt := some (w.time 0) } := by
    simp only [Session.apply, runs, Session.State.next, Option.map_some, if_true]
  have run := run_endSession_of_active found runs moved
  generalize hy : { x with state := .ended, endedAt := some (w.time 0) } = y at moved run
  have own : y.id = x.id := (Session.fixed_apply moved).1
  have serves : y.service = x.service := (Session.fixed_apply moved).2.2.1
  obtain ⟨v, billed, sessions, ledger⟩ := run_releaseAndBill_eq y
    ((w.tick 1).withStore { w.store with sessions := w.store.sessions.insert y })
  rw [billed] at run
  have left : v.store.session? x.id = some y := by
    rw [Store.session?, sessions]
    exact (Table.find?_insert _ _ _).trans (if_pos own)
  -- nobody who has ended is admitted by the drain that follows
  obtain ⟨ps, u, drains⟩ := exists_drains y.service v
  have drained := drains.drained
  have store := (run_drainQueue drains).2
  refine ⟨found, ?_, ?_, ?_⟩
  · rw [run, hy, store, drained.others x.id fun p hp same => ?_, left]
    obtain ⟨waiting, queued, -⟩ := drained.placed p hp
    rw [same, left] at waiting
    rw [← Option.some.inj waiting, ← hy] at queued
    cases queued
  · rw [run, hy, ← serves]
    rfl
  · rw [run, store, drained.ledger, ledger]
    rfl

/-- What a session has to do with is its service, the sessions and the ledger. -/
theorem Session.GoesOn.of_credentials {v : World} {credentials : Table Credential}
    (same : v.store = { w.store with credentials := credentials })
    (found : w.store.session? x.id = some x) (runs : x.state = .active) : x.GoesOn w v := by
  obtain ⟨stored, ends, record, billed⟩ :=
    Session.GoesOn.refl (w := v) (by rw [same]; exact found) runs
  rw [same] at record billed
  exact ⟨stored, ends, record, billed⟩

end Ends

open Http

/-- **A verification leaves nothing but its verdict.** Whatever the platform and the providers hold,
and whichever credential is verified: the tokens of the streams that each account has open are as
they were, each as often as before, even where the stream of the verification gets one that is open
already. The request is answered with an error exactly if the credential, the provider or the secret
is missing, and then nothing has changed. If the login is let in, the history of its account has one
device more, and that is all. If it is refused nothing has changed, but that the credential is
disabled if it was refused for good. Every session that runs goes on, and can be ended and billed as
before. -/
theorem verification_footprint (key : Key) (w : World) {id : CredentialId} {request : Request}
    (asks : request.AsksToVerify id) :
    let r := (Admin.handle key request).run w
    (∀ service identity, r.2.openTokens service identity = w.openTokens service identity) ∧
    (400 ≤ r.1.status ↔ IsEmpty (Trial key w id)) ∧
    (400 ≤ r.1.status → w.Still r.2 ∧ r.2.supply = w.supply) ∧
    (∀ t : Trial key w id, Verdict t r.1 r.2) ∧
    ∀ x, w.store.session? x.id = some x → x.state = .active → x.GoesOn w r.2 := by
  intro r
  obtain ⟨piece, named, run⟩ := run_handle_of_asksToVerify key asks w
  rcases isEmpty_or_nonempty (Trial key w id) with none | ⟨⟨t⟩⟩
  · obtain ⟨e, refused⟩ := outcome_verifyCredential_of_isEmpty none named request
    rw [refused] at run
    have still : w.Still r.2 := by
      rw [show r = _ from run]
      exact (World.Still.refl w).counted _ _
    have supply : r.2.supply = w.supply := by rw [show r = _ from run]; rfl
    have failed : 400 ≤ r.1.status := by
      rw [show r = _ from run]
      exact e.status_response _ ▸ e.le_status
    exact ⟨World.openTokens_of_eq still.providers, iff_of_true failed none,
      fun _ => ⟨still, supply⟩, none.elim, fun x => .of_credentials still.store⟩
  · have verdict : ∀ t : Trial key w id, Verdict t r.1 r.2 := fun t => by
      rw [show r = _ from run, outcome_verifyCredential t named]
      exact t.verdict.counted _ _
    have answered : r.1.status = 200 := (verdict t).status
    have fine : ¬ 400 ≤ r.1.status := by rw [answered]; decide
    obtain ⟨credentials, store⟩ := (verdict t).store
    exact ⟨(verdict t).openTokens, iff_of_false fine fun none => none.elim t,
      fun failed => absurd failed fine, verdict, fun x => .of_credentials store⟩

/-- A session runs on a credential whose account has two streams open. The login of the next
verification gets the token of the older one. -/
def tokenTaken : World :=
  (Activity.after
    [.command (.define oneSlot), .command (.call (.issue "films" "pool@films" "pass" .basic)),
     .command (.call (.request "ann" "films")),
     .outside (Table.empty.insert
      { id := "films", name := "Films", maxStreams := 4,
        accounts := Table.empty.insert
          { identity := "pool@films", secret := "pass", streams := ["tok-100002", "evening"],
            devices := ["tv"] } })]).1

/-- The request to verify the credential. -/
def tokenRetaken : Request :=
  { method := "POST", target := "/admin/credentials/000000000000/verify" }

/-- The older stream of the token is closed and the newer one stays, so the streams change their
order and no more; the session goes on. -/
theorem verification_footprint_tokenTaken :
    let r := (Admin.handle Scene.plainKey tokenRetaken).run tokenTaken
    let account (w : World) := (w.platform.providers.find? "films").bind
      (·.accounts.find? "pool@films")
    tokenRetaken.AsksToVerify "000000000000" ∧ r.1.status = 200 ∧
    (account r.2).map (fun a => (a.streams, a.devices)) =
      some (["evening", "tok-100002"], ["tv", Admin.verifyDevice]) ∧
    r.2.openTokens "films" "pool@films" = tokenTaken.openTokens "films" "pool@films" ∧
    ∃ x, tokenTaken.store.session? "0000000000000001" = some x ∧
      x.credential = some "000000000000" ∧ x.GoesOn tokenTaken r.2 := by
  intro r account
  have asks : tokenRetaken.AsksToVerify "000000000000" :=
    ⟨rfl, "000000000000", by decide +kernel, by decide +kernel⟩
  obtain ⟨tokens, -, -, -, goesOn⟩ := verification_footprint Scene.plainKey tokenTaken asks
  have running : (tokenTaken.store.session? "0000000000000001").map
      (fun x => (x.id, x.state, x.credential)) =
        some ("0000000000000001", .active, some "000000000000") := by decide +kernel
  obtain ⟨x, found, facts⟩ := Option.map_eq_some_iff.1 running
  simp only [Prod.mk.injEq] at facts
  refine ⟨asks, by decide +kernel, by decide +kernel, tokens _ _, x, found, facts.2.2, ?_⟩
  exact goesOn x (by rw [facts.1, found]) facts.2.1

end SlotBroker
