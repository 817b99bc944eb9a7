import SlotBroker.Text.Digits

/-!
# Socket addresses

An address to listen on: an address of version 4 or 6 of the internet protocol and a channel on it,
a number. Reading is strict and takes the whole text. Writing gives one form for each address: small
letters, the longest run of zero groups left out, and an embedded address of version 4 in its own
form.
-/

namespace SlotBroker.Net

/-- An address of version 4. -/
abbrev Octets := Vector UInt8 4

/-- An address of version 6. -/
abbrev Groups := Vector UInt16 8

/-- An address with the number of a channel on it. -/
inductive SocketAddress where
  | v4 (address : Octets) (channel : UInt16)
  /-- The scope tells apart links with the same address; it is zero if there is none. -/
  | v6 (address : Groups) (scope : UInt32) (channel : UInt16)
  deriving Repr, DecidableEq

/-! ## Reading

What reads gives what was read and the rest of the text. -/

/-- A number of some base below a bound, with no more digits than are allowed. -/
def readBounded (base bound : Nat) (most : Option Nat) (cs : List Char) :
    Option (Nat × List Char) := do
  let digits := cs.takeWhile (Text.isDigit base)
  guard (!digits.isEmpty && most.all (digits.length ≤ ·))
  let n ← Text.number? base digits
  guard (n < bound)
  return (n, cs.dropWhile (Text.isDigit base))

/-- One of the four numbers of an address of version 4. No zero stands before another digit. -/
def readOctet (cs : List Char) : Option (UInt8 × List Char) :=
  match cs with
  | '0' :: c :: _ => if c.isDigit then none else octet
  | _ => octet
where
  /-- An octet whose first digit is in order. -/
  octet : Option (UInt8 × List Char) :=
    (readBounded 10 256 (some 3) cs).map fun r => (UInt8.ofNat r.1, r.2)

/-- What is read after a character. -/
def readAfter {α : Type} (c : Char) (read : List Char → Option (α × List Char)) :
    List Char → Option (α × List Char)
  | x :: rest => if x = c then read rest else none
  | [] => none

/-- An address of version 4. -/
def readOctets (cs : List Char) : Option (Octets × List Char) := do
  let (a, cs) ← readOctet cs
  let (b, cs) ← readAfter '.' readOctet cs
  let (c, cs) ← readAfter '.' readOctet cs
  let (d, cs) ← readAfter '.' readOctet cs
  return (#v[a, b, c, d], cs)

/-- Two octets as a group. -/
def group (high low : UInt8) : UInt16 := high.toUInt16 <<< 8 ||| low.toUInt16

/-- A group of an address of version 6. -/
def readGroup (cs : List Char) : Option (UInt16 × List Char) :=
  (readBounded 16 UInt16.size (some 4) cs).map fun r => (UInt16.ofNat r.1, r.2)

/-- What is read as a member of a row, after a colon if it is not the first. -/
def readMember {α : Type} (isFirst : Bool) (read : List Char → Option (α × List Char)) :
    List Char → Option (α × List Char) :=
  if isFirst then read else readAfter ':' read

/-- A row of groups. -/
structure Row where
  groups : List UInt16
  /-- The last two groups are written as an address of version 4. -/
  endsInOctets : Bool

/-- As many groups as there are, `most` at the most. Where two of them are left, an address of
version 4 may stand for both and ends the row. -/
def readRow : (most : Nat) → (isFirst : Bool) → List Char → Row × List Char
  | 0, _, cs => (⟨[], false⟩, cs)
  | most + 1, isFirst, cs =>
    match (if most = 0 then none else readMember isFirst readOctets cs) with
    | some (o, rest) => (⟨[group o[0] o[1], group o[2] o[3]], true⟩, rest)
    | none =>
      match readMember isFirst readGroup cs with
      | none => (⟨[], false⟩, cs)
      | some (g, rest) =>
        let r := readRow most false rest
        ({ r.1 with groups := g :: r.1.groups }, r.2)

/-- The address of eight groups. -/
def ofGroups? (gs : List UInt16) : Option Groups :=
  if h : gs.length = 8 then some ⟨gs.toArray, by simpa using h⟩ else none

/-- An address of version 6. Two colons stand for the zero groups that are missing, one at least. -/
def readGroups (cs : List Char) : Option (Groups × List Char) :=
  let (head, cs) := readRow 8 true cs
  if head.groups.length = 8 then (ofGroups? head.groups).map fun g => (g, cs)
  else if head.endsInOctets then none
  else
    match cs with
    | ':' :: ':' :: cs =>
      let (tail, cs) := readRow (7 - head.groups.length) true cs
      let zeros := List.replicate (8 - head.groups.length - tail.groups.length) 0
      (ofGroups? (head.groups ++ zeros ++ tail.groups)).map fun g => (g, cs)
    | _ => none

/-- A channel, after its colon. -/
def readChannel : List Char → Option (UInt16 × List Char) :=
  readAfter ':' fun cs => (readBounded 10 UInt16.size none cs).map fun r => (UInt16.ofNat r.1, r.2)

/-- The scope of an address, zero if none is given. -/
def readScope (cs : List Char) : UInt32 × List Char :=
  match readAfter '%' (readBounded 10 UInt32.size none) cs with
  | some (n, rest) => (UInt32.ofNat n, rest)
  | none => (0, cs)

namespace SocketAddress

/-- An address of version 4 with its channel. -/
def readV4 (cs : List Char) : Option (SocketAddress × List Char) := do
  let (address, cs) ← readOctets cs
  let (channel, cs) ← readChannel cs
  return (v4 address channel, cs)

/-- An address of version 6 in brackets with its channel. -/
def readV6 (cs : List Char) : Option (SocketAddress × List Char) := do
  let (address, cs) ← readAfter '[' readGroups cs
  let (scope, cs) := readScope cs
  let (channel, cs) ← readAfter ']' readChannel cs
  return (v6 address scope channel, cs)

/-- The address that a whole text writes. -/
def ofText? (s : String) : Option SocketAddress :=
  match (readV4 s.toList).orElse fun _ => readV6 s.toList with
  | some (a, []) => some a
  | _ => none

end SocketAddress

/-! ## Writing -/

/-- The text of an address of version 4. -/
def octetsText (o : Octets) : String := ".".intercalate (o.toList.map fun b => toString b)

/-- A run of zero groups. -/
structure ZeroRun where
  start : Nat := 0
  length : Nat := 0

/-- The longest run of zero groups, the first of several: `position` groups stand before, `current`
is the run that ends there and `best` the longest so far. -/
def longestZeroRun : (position : Nat) → (current best : ZeroRun) → List UInt16 → ZeroRun
  | _, _, best, [] => best
  | position, current, best, g :: gs =>
    if g = 0 then
      let current :=
        if current.length = 0 then { start := position, length := 1 }
        else { current with length := current.length + 1 }
      longestZeroRun (position + 1) current (if best.length < current.length then current else best)
        gs
    else longestZeroRun (position + 1) {} best gs

/-- The text of groups in a row. -/
def rowText (gs : List UInt16) : String :=
  ":".intercalate (gs.map fun g => String.ofList (Nat.toDigits 16 g.toNat))

/-- The text of an address of version 6. -/
def groupsText (a : Groups) : String :=
  match a.toList with
  | [0, 0, 0, 0, 0, 0xFFFF, g, h] =>
    "::ffff:" ++ octetsText #v[(g >>> 8).toUInt8, g.toUInt8, (h >>> 8).toUInt8, h.toUInt8]
  | gs =>
    let zeros := longestZeroRun 0 {} {} gs
    if zeros.length ≤ 1 then rowText gs
    else rowText (gs.take zeros.start) ++ "::" ++ rowText (gs.drop (zeros.start + zeros.length))

/-- The text of an address with its channel. -/
def SocketAddress.text : SocketAddress → String
  | v4 address channel => octetsText address ++ ":" ++ toString channel
  | v6 address scope channel =>
    let mark := if scope = 0 then "" else "%" ++ toString scope
    "[" ++ groupsText address ++ mark ++ "]:" ++ toString channel

end SlotBroker.Net
