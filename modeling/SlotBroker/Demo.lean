import SlotBroker.Vault

/-!
# The demo

A small catalog with pooled accounts, users, and providers that know the accounts. Seeding adds to
what is there: a service or user that exists keeps its definition.
-/

namespace SlotBroker.Demo

open SlotBroker.Codec

/-- The demo services. -/
def catalog : List Service :=
  [{ id := "mock-netflix", name := "Mock Netflix", monthlyCost := 1599, streamCap := 4 },
   { id := "mock-hulu", name := "Mock Hulu", monthlyCost := 1799, streamCap := 2 },
   { id := "mock-disney", name := "Mock Disney+", monthlyCost := 1399, streamCap := 4 },
   { id := "mock-hbo", name := "Mock HBO Max", monthlyCost := 1599, streamCap := 3 },
   { id := "mock-spotify", name := "Mock Spotify", monthlyCost := 1099, streamCap := 1 }]

/-- A pooled account of the demo. -/
structure PooledAccount where
  service : ServiceId
  identity : String
  secret : String
  tier : Tier
  deriving Repr, DecidableEq

/-- The demo accounts. -/
def accounts : List PooledAccount :=
  [⟨"mock-netflix", "pool-netflix-1@broker.local", "nf-pass-001", .premium⟩,
   ⟨"mock-netflix", "pool-netflix-2@broker.local", "nf-pass-002", .premium⟩,
   ⟨"mock-hulu", "pool-hulu-1@broker.local", "hu-pass-001", .standard⟩,
   ⟨"mock-disney", "pool-disney-1@broker.local", "dp-pass-001", .premium⟩,
   ⟨"mock-hbo", "pool-hbo-1@broker.local", "hb-pass-001", .premium⟩,
   ⟨"mock-spotify", "pool-spotify-1@broker.local", "sp-pass-001", .basic⟩,
   ⟨"mock-spotify", "pool-spotify-2@broker.local", "sp-pass-002", .basic⟩,
   ⟨"mock-spotify", "pool-spotify-3@broker.local", "sp-pass-003", .basic⟩]

/-- The demo usernames. -/
def usernames : List String := ["alice", "bob", "carol", "dave"]

/-- The demo providers, without accounts. -/
def providers : List Provider :=
  [{ id := "mock-netflix", name := "Mock Netflix", maxStreams := 4, deviceLimit := some 8 },
   { id := "mock-hulu", name := "Mock Hulu", maxStreams := 2 },
   { id := "mock-disney", name := "Mock Disney+", maxStreams := 4, deviceLimit := some 6 },
   { id := "mock-hbo", name := "Mock HBO Max", maxStreams := 3 },
   { id := "mock-spotify", name := "Mock Spotify", maxStreams := 1, deviceLimit := some 4 }]

/-- A provider with those of some accounts that are its own. -/
def withAccounts (p : Provider) (as : List PooledAccount) : Provider :=
  as.foldl (fun p a => if a.service = p.id then p.register a.identity a.secret else p) p

/-- Stores the services of a catalog. -/
def registerServices : List Service → Program Unit
  | [] => return ()
  | service :: rest => do
    Program.update (·.addService service)
    registerServices rest

/-- Stores those services of a list that are not there yet. -/
def addMissingServices : List Service → Program Unit
  | [] => return ()
  | service :: rest => do
    let known ← Program.query (·.service? service.id)
    if known.isNone then
      Program.update (·.addService service)
    addMissingServices rest

/-- Issues a credential for each of some accounts, up to the first that cannot be issued. -/
def issueAll (key : Key) : List PooledAccount → Program (Except Failure Unit)
  | [] => return .ok ()
  | a :: rest => do
    match ← Vault.storeCredential key a.service a.identity a.secret a.tier with
    | .error e => return .error e
    | .ok _ => issueAll key rest

/-- Adds those users of a list that are not there yet, under ids made of their names. -/
def addMissingUsers : List String → Program Unit
  | [] => return ()
  | username :: rest => do
    let known ← Program.query (·.userNamed? username)
    if known.isNone then
      let now ← Program.now
      let user : User := { id := "user-" ++ username, username := username, createdAt := now }
      Program.update (·.addUser user)
    addMissingUsers rest

/-- Seeds the demo and gives its providers, each with its accounts. -/
def seed (key : Key) : Program (Except Failure (List Provider)) := do
  addMissingServices catalog
  match ← issueAll key accounts with
  | .error e => return .error e
  | .ok () =>
    addMissingUsers usernames
    return .ok (providers.map (withAccounts · accounts))

end SlotBroker.Demo
