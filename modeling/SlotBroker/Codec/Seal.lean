import SlotBroker.Codec.Base64
import SlotBroker.Codec.Sha256
import SlotBroker.Text.Utf8

/-!
# Sealing secrets

A secret is sealed by masking its UTF-8 bytes with the key, which is repeated as often as needed,
and writing the masked bytes in Base64. The key is the digest of a passphrase.

Results:
* `mask_mask`: masking twice gives the bytes back.
* **`reveal_eq_ok_iff`**: a text unseals to a secret exactly if the secret seals to it. So every
  secret comes back, no two secrets seal alike, and no secret has a second sealed form.
-/

namespace SlotBroker.Codec

/-- The key that secrets are masked with. -/
structure Key where
  bytes : Vector UInt8 32
  deriving DecidableEq

/-- Why a sealed text does not open. -/
inductive SealFault where
  /-- The text is not Base64. -/
  | notBase64
  /-- The bytes under the mask are not UTF-8. -/
  | notUtf8
  deriving Repr, DecidableEq

/-- The fault in words. Where the text ceases to be Base64, which may be told after the words for
that, is left out. -/
def SealFault.message : SealFault → String
  | notBase64 => "invalid base64"
  | notUtf8 => "decoded bytes are not UTF-8"

namespace Key

/-- The key made from a passphrase. -/
def ofPassphrase (passphrase : String) : Key := ⟨Sha256.digest (Text.Utf8.bytes passphrase)⟩

/-- The byte of the endlessly repeated key at a position. -/
def byteAt (k : Key) (i : Nat) : UInt8 := k.bytes[i % 32]

/-- The bytes, each combined with the key's byte at its position. -/
def mask (k : Key) (bs : List UInt8) : List UInt8 := bs.mapIdx fun i b => b ^^^ k.byteAt i

/-- The sealed form of a secret. -/
def conceal (k : Key) (secret : String) : String :=
  String.ofList (Base64.encode (k.mask (Text.Utf8.bytes secret)))

/-- The secret that a sealed text holds. -/
def reveal (k : Key) (text : String) : Except SealFault String :=
  match Base64.decode text.toList with
  | none => .error .notBase64
  | some masked =>
    match Text.Utf8.ofBytes? (k.mask masked) with
    | none => .error .notUtf8
    | some secret => .ok secret

theorem mask_mask (k : Key) (bs : List UInt8) : k.mask (k.mask bs) = bs := by
  simp only [mask, List.mapIdx_mapIdx]
  apply List.ext_getElem (by simp)
  intro i _ _
  rw [List.getElem_mapIdx]
  exact (UInt8.xor_assoc ..).trans (by rw [UInt8.xor_self, UInt8.xor_zero])

/-- **A text unseals to a secret exactly if the secret seals to it.** -/
theorem reveal_eq_ok_iff {k : Key} {text secret : String} :
    k.reveal text = .ok secret ↔ text = k.conceal secret := by
  have key : k.reveal text = .ok secret ↔
      ∃ m, Base64.decode text.toList = some m ∧ Text.Utf8.ofBytes? (k.mask m) = some secret := by
    unfold reveal
    cases Base64.decode text.toList with
    | none => simp
    | some m => cases h : Text.Utf8.ofBytes? (k.mask m) <;> simp [h]
  rw [key]
  simp only [Base64.decode_eq_some_iff, Text.Utf8.ofBytes?_eq_some_iff]
  constructor
  · rintro ⟨m, ht, hm⟩
    rw [conceal, ← hm, mask_mask, ← ht, String.ofList_toList]
  · rintro rfl
    exact ⟨k.mask (Text.Utf8.bytes secret), by simp [conceal], mask_mask ..⟩

end Key

end SlotBroker.Codec
