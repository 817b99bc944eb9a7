import SlotBroker.Text.Digits
import SlotBroker.Text.Pieces
import SlotBroker.Text.Utf8

/-!
# Percent-encoded text and forms

In a percent-encoded text `%` and two hexadecimal digits stand for a byte; a `%` without them stands
for itself. A form is a list of names and values: the pairs are parted by `&`, name and value by the
first `=`, and a `+` stands for a blank.
-/

namespace SlotBroker.Text

/-- The byte of two hexadecimal digits that are bytes themselves. -/
def hexByte? (a b : UInt8) : Option UInt8 := do
  let high ← digit? 16 (Char.ofNat a.toNat)
  let low ← digit? 16 (Char.ofNat b.toNat)
  return UInt8.ofNat (high * 16 + low)

/-- The bytes that percent-encoded bytes stand for. -/
def percentDecode : List UInt8 → List UInt8
  | 0x25 :: a :: b :: rest =>
    match hexByte? a b with
    | some byte => byte :: percentDecode rest
    | none => 0x25 :: percentDecode (a :: b :: rest)
  | byte :: rest => byte :: percentDecode rest
  | [] => []

/-- The text that a percent-encoded text stands for, none where that is not UTF-8. -/
def percentDecoded? (s : String) : Option String := Utf8.ofBytes? (percentDecode (Utf8.bytes s))

/-- The text of a name or value of a form. -/
def formText (bs : List UInt8) : String :=
  Utf8.ofBytesLossy (percentDecode (bs.map fun b => if b = 0x2B then 0x20 else b))

/-- The names and values of a form. -/
def formPairs (s : String) : List (String × String) :=
  ((pieces (· = 0x26) (Utf8.bytes s)).filter fun p => !p.isEmpty).map fun p =>
    (formText (p.takeWhile (· ≠ 0x3D)), formText ((p.dropWhile (· ≠ 0x3D)).drop 1))

/-- The number that a text of decimal digits writes, with or without a plus sign before it, if it is
below `bound`. -/
def natural? (bound : Nat) (s : String) : Option Nat :=
  let digits := match s.toList with
    | '+' :: rest => rest
    | cs => cs
  if digits.isEmpty then none else (number? 10 digits).filter (· < bound)

end SlotBroker.Text
