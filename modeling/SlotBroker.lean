import SlotBroker.Accounts
import SlotBroker.Billing
import SlotBroker.Broker
import SlotBroker.Clock
import SlotBroker.Codec.Base64
import SlotBroker.Codec.Seal
import SlotBroker.Codec.Sha256
import SlotBroker.Credential
import SlotBroker.Demo
import SlotBroker.Failure
import SlotBroker.Http.Admin
import SlotBroker.Http.MediaType
import SlotBroker.Http.Message
import SlotBroker.Http.Public
import SlotBroker.Http.Route
import SlotBroker.Ident
import SlotBroker.Json.Lexeme
import SlotBroker.Json.Record
import SlotBroker.Json.Value
import SlotBroker.Main
import SlotBroker.Metrics
import SlotBroker.Net.Address
import SlotBroker.Program
import SlotBroker.Proofs.Books
import SlotBroker.Proofs.Conduct
import SlotBroker.Proofs.Counters
import SlotBroker.Proofs.Courses
import SlotBroker.Proofs.Growth
import SlotBroker.Proofs.Headroom
import SlotBroker.Proofs.Interleaving
import SlotBroker.Proofs.Lifecycle
import SlotBroker.Proofs.Obeys
import SlotBroker.Proofs.Occupancy
import SlotBroker.Proofs.SingleBilling
import SlotBroker.Proofs.Stake
import SlotBroker.Proofs.Waiting
import SlotBroker.Provider
import SlotBroker.Quantity
import SlotBroker.Secret
import SlotBroker.Service
import SlotBroker.Session
import SlotBroker.Settings.Draft
import SlotBroker.Settings.Load
import SlotBroker.Store
import SlotBroker.Sweep
import SlotBroker.Table
import SlotBroker.Text.Blank
import SlotBroker.Text.Digits
import SlotBroker.Text.Percent
import SlotBroker.Text.Pieces
import SlotBroker.Text.Utf8
import SlotBroker.Toml.Lexeme
import SlotBroker.Toml.Reader
import SlotBroker.Toml.Value
import SlotBroker.Usage
import SlotBroker.Vault
import SlotBroker.View
import SlotBroker.Proofs.Undisturbed
import SlotBroker.Proofs.FirstCome
import SlotBroker.Proofs.Timeline
import SlotBroker.Proofs.Outcome
import SlotBroker.Proofs.Reclaiming
import SlotBroker.Proofs.Sealing
import SlotBroker.Proofs.Secrets
import SlotBroker.Proofs.Isolation
import SlotBroker.Proofs.Logins
import SlotBroker.Proofs.Usernames
import SlotBroker.Proofs.Reconciled
import SlotBroker.Proofs.Agreement
import SlotBroker.Proofs.Resealing
import SlotBroker.Proofs.Discretion
import SlotBroker.Proofs.Draining
import SlotBroker.Proofs.Sweeping
import SlotBroker.Proofs.Retail
import SlotBroker.Proofs.Verification
import SlotBroker.Proofs.Footprint
import SlotBroker.Proofs.Asking
import SlotBroker.Proofs.Custody
import SlotBroker.Proofs.Ranking
import SlotBroker.Proofs.Reporting
import SlotBroker.Proofs.Indexing
import SlotBroker.Proofs.Seeding
import SlotBroker.Proofs.Acceptance
