import SlotBroker.Codec.Seal
import SlotBroker.Program
import SlotBroker.Secret

/-!
# The vault: credentials, their slots and their secrets

Credentials are issued, checked out slot by slot and checked in again. The look for a free slot and
the taking of it are one atomic step, so no credential ever has more slots held than it has. Secrets
are kept sealed under the master key.
-/

namespace SlotBroker.Vault

open SlotBroker.Codec

/-- Issues a credential for a service. It has as many slots as its tier and the service allow. -/
def storeCredential (key : Key) (service : ServiceId) (identity secret : String) (tier : Tier) :
    Program (Except Failure Credential) := do
  let some definition ← Program.query (·.service? service)
    | return .error (.serviceNotFound service)
  let id ← Program.freshId Ident.shortDigits
  let credential : Credential :=
    { id := id
      service := service
      identity := identity
      sealedSecret := key.conceal secret
      tier := tier
      maxStreams := min tier.capacity definition.streamCap
      state := .available
      active := 0
      lastCheckout := none }
  Program.update (·.addCredential credential)
  return .ok credential

/-- Takes a slot of a credential, and gives the credential as it then is. The clock is read first,
whatever comes of it. -/
def checkout (id : CredentialId) : Program (Option Credential) := do
  let now ← Program.now
  Program.onStore (·.checkout id now)

/-- Takes a slot of the first of some credentials that still has one. -/
def checkoutFirst : List Credential → Program (Option Credential)
  | [] => return none
  | c :: rest => do
    match ← checkout c.id with
    | some taken => return some taken
    | none => checkoutFirst rest

/-- Gives a slot of a credential back. -/
def checkin (id : CredentialId) : Program Unit := Program.update (·.checkin id)

/-- Stops a credential from handing out slots and tells whether it exists. -/
def disable (id : CredentialId) : Program Bool := Program.onStore (·.disable id)

/-- Replaces the secret of a credential and tells whether the credential exists. -/
def rotate (key : Key) (id : CredentialId) (secret : String) : Program Bool :=
  Program.onStore (·.rotate id (key.conceal secret))

/-- The secret of a credential as a store has it, none where it does not open. -/
def secretIn (key : Key) (s : Store) (id : CredentialId) : Option Secret :=
  match s.credential? id with
  | none => none
  | some c =>
    match key.reveal c.sealedSecret with
    | .error _ => none
    | .ok secret => some ⟨secret⟩

/-- The secret of a credential. -/
def reveal (key : Key) (id : CredentialId) : Program (Option Secret) :=
  Program.query (secretIn key · id)

end SlotBroker.Vault
