import SlotBroker.Quantity
import SlotBroker.Table

/-!
# Credentials

A credential is a pooled account of a service. It has a fixed number of slots, each of which one
session can hold. A disabled credential hands out no further slot and is never enabled again.

Results:
* `hasCapacity_iff`, **`hasCapacity_iff_spareSlots`**: a credential has capacity exactly when it has
  a spare slot.
* `active_occupy`: a checked-out slot raises the count by one and never past the cap.
-/

namespace SlotBroker

/-- The name of a credential. -/
abbrev CredentialId := String

/-- The plan of an account. -/
inductive Tier where
  | basic
  | standard
  | premium
  deriving Repr, DecidableEq

namespace Tier

/-- The streams that an account of the plan can have open at a time. -/
def capacity : Tier → UInt32
  | basic => 1
  | standard => 2
  | premium => 4

/-- The name of the plan. -/
def label : Tier → String
  | basic => "basic"
  | standard => "standard"
  | premium => "premium"

/-- The plan of a given name. -/
def ofLabel? : String → Option Tier
  | "basic" => some basic
  | "standard" => some standard
  | "premium" => some premium
  | _ => none

/-- What to say of a name that no plan has. -/
def unknownMessage (name : String) : String := "unknown tier: " ++ name

theorem ofLabel?_label (t : Tier) : ofLabel? t.label = some t := by cases t <;> rfl

end Tier

/-- Where a credential stands. -/
inductive CredentialState where
  /-- No slot is held. -/
  | available
  /-- Some slot is held. -/
  | checkedOut
  /-- No slot is handed out any more. -/
  | disabled
  deriving Repr, DecidableEq

namespace CredentialState

/-- The name of the state. -/
def label : CredentialState → String
  | available => "available"
  | checkedOut => "checked_out"
  | disabled => "disabled"

/-- The state of a given name. -/
def ofLabel? : String → Option CredentialState
  | "available" => some available
  | "checked_out" => some checkedOut
  | "disabled" => some disabled
  | _ => none

end CredentialState

/-- A pooled account. -/
structure Credential where
  id : CredentialId
  service : String
  /-- The account's name at the provider. -/
  identity : String
  /-- The account's secret, sealed under the master key. -/
  sealedSecret : String
  tier : Tier
  /-- The number of slots. -/
  maxStreams : UInt32
  state : CredentialState
  /-- The number of slots that are held. -/
  active : UInt32
  /-- When a slot was last checked out. -/
  lastCheckout : Option Millis
  deriving Repr, DecidableEq

namespace Credential

instance : Keyed Credential := ⟨Credential.id⟩

/-- A slot can be checked out. -/
def hasCapacity (c : Credential) : Bool := c.state != .disabled && c.active < c.maxStreams

/-- The number of slots that can be checked out. -/
def spareSlots (c : Credential) : UInt32 :=
  if c.state = .disabled then 0 else fewer c.maxStreams c.active

/-- The credential with one more slot held, checked out at `now`. -/
def occupy (c : Credential) (now : Millis) : Credential :=
  { c with active := c.active + 1, state := .checkedOut, lastCheckout := some now }

/-- The credential with one slot fewer held, if any is. The last slot returned makes it available
again unless it is disabled. -/
def release (c : Credential) : Credential :=
  let left := fewer c.active 1
  { c with
    active := left
    state := if left = 0 ∧ c.state = .checkedOut then .available else c.state }

/-- The credential that hands out no slot any more. -/
def disable (c : Credential) : Credential := { c with state := .disabled }

/-- The credential under another secret. -/
def rotate (c : Credential) (sealedSecret : String) : Credential :=
  { c with sealedSecret := sealedSecret }

theorem hasCapacity_iff (c : Credential) :
    c.hasCapacity = true ↔ c.state ≠ .disabled ∧ c.active < c.maxStreams := by
  simp [hasCapacity]

/-- **A credential has capacity exactly when a slot is spare.** -/
theorem hasCapacity_iff_spareSlots (c : Credential) :
    c.hasCapacity = true ↔ 0 < c.spareSlots.toNat := by
  rw [hasCapacity_iff, spareSlots]
  split
  · next h => exact ⟨fun hc => absurd h hc.1, fun hs => absurd hs (by decide)⟩
  · next h =>
    rw [toNat_fewer, UInt32.lt_iff_toNat_lt, Nat.sub_pos_iff_lt]
    exact ⟨And.right, fun hs => ⟨h, hs⟩⟩

theorem active_occupy {c : Credential} (now : Millis) (h : c.hasCapacity = true) :
    (c.occupy now).active.toNat = c.active.toNat + 1 ∧ (c.occupy now).active ≤ c.maxStreams := by
  have hlt := UInt32.lt_iff_toNat_lt.1 ((hasCapacity_iff c).1 h).2
  have hmax := c.maxStreams.toNat_lt
  have : (c.active + 1).toNat = c.active.toNat + 1 := by
    rw [UInt32.toNat_add, UInt32.toNat_one]
    omega
  refine ⟨this, UInt32.le_iff_toNat_le.2 ?_⟩
  simp only [occupy, this]
  omega

@[simp] theorem id_occupy (c : Credential) (now : Millis) : (c.occupy now).id = c.id := rfl

@[simp] theorem id_release (c : Credential) : c.release.id = c.id := rfl

@[simp] theorem id_disable (c : Credential) : c.disable.id = c.id := rfl

@[simp] theorem id_rotate (c : Credential) (s : String) : (c.rotate s).id = c.id := rfl

end Credential

end SlotBroker
