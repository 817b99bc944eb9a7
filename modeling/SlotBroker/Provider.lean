import SlotBroker.Table

/-!
# Simulated providers

What a streaming provider looks like from outside: accounts with secrets, a cap on the streams that
an account may have open, and, where the provider watches for sharing, a limit on the number of
distinct devices among the last logins of an account.

A login is checked for its secret, then for a free stream, then for sharing. A refused login changes
nothing.

Results:
* `login_error`: a refused login leaves the provider as it was.
-/

namespace SlotBroker

/-- Why a provider refuses a login. -/
inductive LoginFault where
  | invalidCredentials
  | maxStreamsReached
  | sharingDetected
  deriving Repr, DecidableEq

namespace LoginFault

/-- The name of the fault. -/
def label : LoginFault → String
  | invalidCredentials => "invalid_credentials"
  | maxStreamsReached => "max_streams_reached"
  | sharingDetected => "sharing_detected"

/-- The fault in words. -/
def message : LoginFault → String
  | invalidCredentials => "invalid credentials"
  | maxStreamsReached => "max streams reached"
  | sharingDetected => "sharing detected"

/-- Trying again later can help only where the streams were used up. -/
def isPermanent : LoginFault → Bool
  | maxStreamsReached => false
  | invalidCredentials | sharingDetected => true

/-- The name of the class of the fault. -/
def classification (f : LoginFault) : String := if f.isPermanent then "permanent" else "transient"

end LoginFault

/-- An account at a provider. -/
structure Account where
  identity : String
  secret : String
  /-- The tokens of the open streams, oldest first. -/
  streams : List String := []
  /-- The devices of the successful logins, oldest first. -/
  devices : List String := []
  deriving Repr, DecidableEq

namespace Account

instance : Keyed Account := ⟨Account.identity⟩

/-- How many of the last logins are looked at for sharing. -/
def window : Nat := 20

/-- The devices of the last logins. -/
def recent (a : Account) : List String := a.devices.drop (a.devices.length - window)

/-- The number of distinct devices among some. -/
def distinct (devices : List String) : Nat := devices.eraseDups.length

end Account

/-- A simulated provider. -/
structure Provider where
  /-- The service whose accounts the provider keeps. -/
  id : String
  name : String
  /-- The most streams that an account may have open. -/
  maxStreams : Nat
  /-- The most distinct devices among the last logins, where the provider watches for sharing. -/
  deviceLimit : Option Nat := none
  accounts : Table Account := .empty

namespace Provider

instance : Keyed Provider := ⟨Provider.id⟩

/-- Opens an account without streams or logins, in the place of one with the same identity. -/
def register (p : Provider) (identity secret : String) : Provider :=
  { p with accounts := p.accounts.insert { identity := identity, secret := secret } }

/-- A set of devices that the provider takes for sharing. -/
def tooMany (p : Provider) (devices : List String) : Bool :=
  match p.deviceLimit with
  | none => false
  | some limit => limit < Account.distinct devices

/-- A login from a device. If it succeeds it opens the stream `token`. -/
def login (p : Provider) (identity secret device token : String) :
    Except LoginFault String × Provider :=
  match p.accounts.find? identity with
  | none => (.error .invalidCredentials, p)
  | some a =>
    if a.secret ≠ secret then (.error .invalidCredentials, p)
    else if p.maxStreams ≤ a.streams.length then (.error .maxStreamsReached, p)
    else if p.tooMany (device :: a.recent) then (.error .sharingDetected, p)
    else
      let a := { a with streams := a.streams ++ [token], devices := a.devices ++ [device] }
      (.ok token, { p with accounts := p.accounts.insert a })

/-- Closes the oldest stream with a token and tells whether there was one. -/
def endStream (p : Provider) (identity token : String) : Bool × Provider :=
  match p.accounts.find? identity with
  | none => (false, p)
  | some a =>
    if token ∈ a.streams then
      (true, { p with accounts := p.accounts.insert { a with streams := a.streams.erase token } })
    else (false, p)

/-- The number of streams that an account has open. -/
def openStreams (p : Provider) (identity : String) : Nat :=
  match p.accounts.find? identity with
  | none => 0
  | some a => a.streams.length

/-- The last logins of the account look like sharing. -/
def flagged (p : Provider) (identity : String) : Bool :=
  match p.accounts.find? identity with
  | none => false
  | some a => p.tooMany a.recent

theorem login_error {p : Provider} {identity secret device token : String} {f : LoginFault}
    (h : (p.login identity secret device token).1 = .error f) :
    (p.login identity secret device token).2 = p := by
  unfold login at h ⊢
  split
  · rfl
  · split
    · rfl
    · split
      · rfl
      · split
        · rfl
        · simp_all

end Provider

end SlotBroker
