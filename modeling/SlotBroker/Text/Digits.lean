/-!
# Digits

Numbers as they are written with digits of some base, and decimal numbers with places after the
point and a power of ten.

Results:
* `number?_append_singleton`: another digit at the end counts for itself and moves the others up.
-/

namespace SlotBroker.Text

/-- The value of a digit of a base. Letters count from ten, in either case. -/
def digit? (base : Nat) (c : Char) : Option Nat :=
  let value :=
    if '0' ≤ c ∧ c ≤ '9' then some (c.toNat - '0'.toNat)
    else if 'a' ≤ c ∧ c ≤ 'z' then some (c.toNat - 'a'.toNat + 10)
    else if 'A' ≤ c ∧ c ≤ 'Z' then some (c.toNat - 'A'.toNat + 10)
    else none
  value.filter (· < base)

/-- The character is a digit of a base. -/
def isDigit (base : Nat) (c : Char) : Bool := (digit? base c).isSome

/-- The number that some digits write, zero if there are none. -/
def number? (base : Nat) (cs : List Char) : Option Nat :=
  cs.foldlM (fun n c => (digit? base c).map (n * base + ·)) 0

theorem number?_append_singleton (base : Nat) (cs : List Char) (c : Char) :
    number? base (cs ++ [c]) =
      (number? base cs).bind fun n => (digit? base c).map (n * base + ·) := by
  simp [number?, List.foldlM_append]

/-- A decimal number as it is written: `mantissa * 10 ^ (power - places)`, without its sign. -/
structure Decimal where
  /-- The digits before and after the point, read as one number. -/
  mantissa : Nat
  /-- How many of the digits stand after the point. -/
  places : Nat := 0
  power : Int := 0
  deriving Repr, DecidableEq

/-- The number is too large for a double: it rounds to no finite one. -/
def Decimal.overflows (d : Decimal) : Bool :=
  let exponent := d.power - d.places
  if d.mantissa = 0 then false
  else if 400 < exponent then true
  else if 0 ≤ exponent then 1 <<< 1024 - 1 <<< 970 ≤ d.mantissa * Nat.pow 10 exponent.toNat
  else if d.mantissa.log2 < exponent.natAbs then false
  else 1 <<< 1024 - 1 <<< 970 ≤ d.mantissa / Nat.pow 10 exponent.natAbs

end SlotBroker.Text
