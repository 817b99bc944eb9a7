/-!
# Identifiers from random words

Ids are runs of hexadecimal digits, login tokens and made-up devices a name and a number of fixed
width, all read off random words.

Results:
* `length_hex`: an id has as many digits as were asked for.
-/

namespace SlotBroker.Ident

/-- A hexadecimal digit in lower case. -/
def hexDigit (n : Nat) : Char := "0123456789abcdef".toList.getD (n % 16) '0'

/-- The last `digits` hexadecimal digits of a number, with leading zeros. -/
def hexDigits : Nat → Nat → List Char
  | 0, _ => []
  | digits + 1, n => hexDigits digits (n / 16) ++ [hexDigit n]

/-- The id with a number of digits that a word stands for. -/
def hex (digits : Nat) (word : UInt64) : String := String.ofList (hexDigits digits word.toNat)

/-- The digits of an id of a credential or a user. -/
def shortDigits : Nat := 12

/-- The digits of an id of a session or a usage record. -/
def longDigits : Nat := 16

/-- The login token that a word stands for: a number of six digits. -/
def token (word : UInt64) : String := "tok-" ++ toString (100000 + word.toNat % 900000)

/-- The device that a word stands for: a number of four digits. -/
def device (word : UInt64) : String := "device-" ++ toString (1000 + word.toNat % 9000)

theorem length_hexDigits (digits n : Nat) : (hexDigits digits n).length = digits := by
  induction digits generalizing n with
  | zero => rfl
  | succ digits ih => simp [hexDigits, ih]

theorem length_hex (digits : Nat) (word : UInt64) : (hex digits word).length = digits := by
  simp [hex, length_hexDigits]

end SlotBroker.Ident
