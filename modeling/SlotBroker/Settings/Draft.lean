import SlotBroker.Net.Address
import SlotBroker.Service
import SlotBroker.Toml.Reader

/-!
# Settings as a file states them

The settings that a TOML document states, before they are checked. What is not known is passed over,
and what is missing has a value to fall back on, where there is one. A list may stand for a table:
its items are the values of the known keys in their order.
-/

namespace SlotBroker

open SlotBroker.Net
open SlotBroker.Toml

/-- Where the interfaces listen. -/
structure ServerSettings where
  listenAddress : SocketAddress
  adminListenAddress : SocketAddress
  maxConnections : UInt64 := 1000
  deriving Repr, DecidableEq

/-- How the broker works. -/
structure BrokerSettings where
  /-- The seconds from one sweep to the next. -/
  sweepInterval : UInt64 := 60
  /-- The path of a file with the master key. -/
  masterKeyFile : Option String := none
  /-- The demo is added at the start. -/
  seedDemo : Bool := false
  deriving Repr, DecidableEq

/-- The settings that a file states. -/
structure Draft where
  server : ServerSettings
  broker : BrokerSettings := {}
  /-- The catalog at the start. -/
  services : List Service := []
  deriving Repr, DecidableEq

namespace Draft

/-- The values of some keys of a table, or of a list in the place of one. No known key stands in a
date. -/
def fields? (keys : List String) : Value → Option (List (Option Value))
  | .table _ entries => some (keys.map fun key => entries.lookup key)
  | .list items | .tables items => some (keys.mapIdx fun i _ => items[i]?)
  | .moment => some (keys.map fun _ => none)
  | _ => none

/-- A value that may be missing, with a reader for it. -/
def optional {α : Type} (fallback : α) (read : Value → Option α) : Option Value → Option α
  | none => some fallback
  | some v => read v

/-- A text. -/
def text? : Value → Option String
  | .text s => some s
  | _ => none

/-- A choice. -/
def flag? : Value → Option Bool
  | .flag b => some b
  | _ => none

/-- A whole number below a bound, and not below zero. -/
def natural? (bound : Nat) : Value → Option Nat
  | .whole n => if 0 ≤ n ∧ n < bound then some n.toNat else none
  | _ => none

/-- A number that fits a long word. -/
def word64? (v : Value) : Option UInt64 := (natural? UInt64.size v).map UInt64.ofNat

/-- A number that fits a word. -/
def word32? (v : Value) : Option UInt32 := (natural? UInt32.size v).map UInt32.ofNat

/-- An address. -/
def address? (v : Value) : Option SocketAddress := do SocketAddress.ofText? (← text? v)

/-- The table of the interfaces. Both addresses are required. -/
def server? (v : Value) : Option ServerSettings := do
  match ← fields? ["listen_addr", "admin_listen_addr", "max_connections"] v with
  | [listen, admin, connections] =>
    return { listenAddress := ← address? (← listen)
             adminListenAddress := ← address? (← admin)
             maxConnections := ← optional 1000 word64? connections }
  | _ => none

/-- The table of the broker. Nothing in it is required. -/
def broker? (v : Value) : Option BrokerSettings := do
  match ← fields? ["sweep_interval_secs", "master_key_file", "seed_demo"] v with
  | [interval, keyFile, demo] =>
    return { sweepInterval := ← optional 60 word64? interval
             masterKeyFile := ← optional none (fun v => (text? v).map some) keyFile
             seedDemo := ← optional false flag? demo }
  | _ => none

/-- A service of the catalog. Only its session limit may be missing. -/
def service? (v : Value) : Option Service := do
  match ← fields? ["id", "name", "monthly_cost_cents", "max_concurrent_streams",
      "max_session_duration_secs"] v with
  | [id, name, cost, cap, limit] =>
    return { id := ← text? (← id)
             name := ← text? (← name)
             monthlyCost := ← word64? (← cost)
             streamCap := ← word32? (← cap)
             sessionLimit := ← optional defaultSessionLimit word64? limit }
  | _ => none

/-- The catalog. -/
def services? : Value → Option (List Service)
  | .list items | .tables items => items.mapM service?
  | _ => none

/-- The settings that the text of a file states. -/
def ofText? (s : String) : Option Draft := do
  let entries ← entriesOf? s
  return { server := ← server? (← entries.lookup "server")
           broker := ← optional {} broker? (entries.lookup "broker")
           services := ← optional [] services? (entries.lookup "services") }

end Draft

end SlotBroker
