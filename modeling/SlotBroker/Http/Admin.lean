import SlotBroker.Accounts
import SlotBroker.Http.Route
import SlotBroker.Text.Blank

/-!
# The administration interface

Credentials are issued, disabled, rotated and verified here, sweeps run and users registered. No
answer holds a secret.

* `GET /admin/credentials`, `POST /admin/credentials`: all credentials, and a new one
* `POST /admin/credentials/{id}/disable`: no further slot of a credential
* `POST /admin/credentials/{id}/rotate`: another secret for a credential
* `POST /admin/credentials/{id}/verify`: a login at the provider with a credential
* `POST /admin/sweep`: a sweep now
* `POST /admin/users`: registers a user
-/

namespace SlotBroker.Http.Admin

open SlotBroker.Codec
open SlotBroker.Json

/-- The device that verification logs in from. -/
def verifyDevice : String := "pool-broker-verify"

/-- All credentials in order of issue. -/
def listCredentials : Action := fun _ _ => do
  let credentials ← Handling.query (·.credentials.entries)
  return .ofJson 200 (record [("credentials", list (credentials.map View.credential))])

/-- A new credential. Its tier is looked at first, then its identity, which must not be blank, and
its secret, which must not be empty, and last its service. -/
def addCredential (key : Key) : Action := fun _ request => do
  match ← bodyFields ["service_id", "identity", "secret", "tier"] request with
  | [.text service, .text identity, .text secret, .text tierName] =>
    let some tier := Tier.ofLabel? tierName
      | throw (.invalid (Tier.unknownMessage tierName))
    if Text.trim identity = "" || secret = "" then
      throw (.invalid "identity and secret must not be empty")
    let credential ←
      Handling.ofFailing (Vault.storeCredential key service identity secret tier)
    return .ofJson 201 (View.credential credential)
  | _ => throw (.unreadableBody .mismatched)

/-- A stored credential, refused if there is none. -/
def credential (id : CredentialId) : Handling Credential := do
  match ← Handling.query (·.credential? id) with
  | some c => return c
  | none => throw (.failed (.credentialNotFound id))

/-- Disables a credential. It keeps the slots that are held. -/
def disableCredential : Action := fun hole _ => do
  let id ← pathId hole
  unless ← Vault.disable id do throw (.failed (.credentialNotFound id))
  return .ofJson 200 (View.credential (← credential id))

/-- Puts a credential under another secret. An empty one is refused before the look for the
credential. -/
def rotateCredential (key : Key) : Action := fun hole request => do
  let id ← pathId hole
  match ← bodyFields ["secret"] request with
  | [.text secret] =>
    if secret = "" then throw (.invalid "secret must not be empty")
    unless ← Vault.rotate key id secret do throw (.failed (.credentialNotFound id))
    return .ofJson 200 (View.credential (← credential id))
  | _ => throw (.unreadableBody .mismatched)

/-- A login at the provider of a service with a stream of its own, which is closed again at once.
Gives the fault if the login is refused. -/
def tryLogin (service : ServiceId) (identity : String) (secret : Secret) :
    Program (Option LoginFault) := do
  let token := Ident.token (← Program.randomWord)
  let outcome ← Program.atProvider service (.error .invalidCredentials) fun p =>
    p.login identity secret.expose verifyDevice token
  match outcome with
  | .error fault => return some fault
  | .ok opened =>
    let _ ← Program.atProvider service false fun p => p.endStream identity opened
    return none

/-- Tries whether a credential logs in. One that never will is disabled. -/
def verifyCredential (key : Key) : Action := fun hole _ => do
  let id ← pathId hole
  let c ← credential id
  unless ← Program.hasProvider c.service do throw (.noProvider c.service)
  let some secret ← Vault.reveal key id
    | throw (.failed (.secretUnreadable ("credential " ++ id)))
  match ← tryLogin c.service c.identity secret with
  | none =>
    return .ofJson 200
      (record [("credential_id", text id), ("ok", bool true), ("disabled", bool false)])
  | some fault =>
    let disabled ← if fault.isPermanent then Vault.disable id else pure false
    return .ofJson 200
      (record
        [("credential_id", text id), ("ok", bool false), ("error", text fault.label),
         ("classification", text fault.classification), ("disabled", bool disabled)])

/-- Sweeps once, outside the series. -/
def sweepNow : Action := fun _ _ => do
  let expired ← Broker.sweepCycle
  return .ofJson 200 (record [("expired", list (expired.map text))])

/-- Registers a user under a name, trimmed. Who is registered already is answered alike. -/
def registerUser : Action := fun _ request => do
  match ← bodyFields ["username"] request with
  | [.text name] =>
    let username := Text.trim name
    if username = "" then throw (.invalid "username must not be empty")
    let user ← Accounts.register username
    return .ofJson 201 (View.user user)
  | _ => throw (.unreadableBody .mismatched)

/-- The routes of the administration. -/
def routes (key : Key) : List Route :=
  [{ template := [.word "admin", .word "credentials"],
     actions := [(.get, listCredentials), (.post, addCredential key)] },
   { template := [.word "admin", .word "credentials", .hole, .word "disable"],
     actions := [(.post, disableCredential)] },
   { template := [.word "admin", .word "credentials", .hole, .word "rotate"],
     actions := [(.post, rotateCredential key)] },
   { template := [.word "admin", .word "credentials", .hole, .word "verify"],
     actions := [(.post, verifyCredential key)] },
   { template := [.word "admin", .word "sweep"], actions := [(.post, sweepNow)] },
   { template := [.word "admin", .word "users"], actions := [(.post, registerUser)] }]

/-- The answer of the administration under a master key. -/
def handle (key : Key) (request : Request) : Program Response := serve (routes key) request

end SlotBroker.Http.Admin
