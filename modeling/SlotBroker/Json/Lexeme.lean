import SlotBroker.Text.Digits

/-!
# The pieces of JSON text

Reading goes from left to right and takes no more of the text than it needs. There are two ways in
which it can fail: the text is malformed, or it is well formed as far as it was read but not what
was wanted. Which of the two it is depends on what comes first.
-/

namespace SlotBroker.Json

/-- Why a text is not read. -/
inductive Fault where
  /-- The text is not JSON. -/
  | malformed
  /-- The text is JSON as far as it was read, but something else was wanted. -/
  | mismatched
  deriving Repr, DecidableEq

/-- What was read, and the rest of the text. -/
abbrev Reading (α : Type) := Except Fault (α × List Char)

/-- The text after the blanks that JSON allows between its pieces. -/
def skipBlanks (cs : List Char) : List Char :=
  cs.dropWhile fun c => c = ' ' || c = '\t' || c = '\n' || c = '\r'

/-! ## Strings -/

/-- The character of a single-letter escape. -/
def escaped? : Char → Option Char
  | '"' => some '"'
  | '\\' => some '\\'
  | '/' => some '/'
  | 'b' => some '\x08'
  | 'f' => some '\x0c'
  | 'n' => some '\n'
  | 'r' => some '\r'
  | 't' => some '\t'
  | _ => none

/-- The number is the first half of a surrogate pair. -/
def isLeading (n : Nat) : Bool := 0xD800 ≤ n && n ≤ 0xDBFF

/-- The number is the second half of a surrogate pair. -/
def isTrailing (n : Nat) : Bool := 0xDC00 ≤ n && n ≤ 0xDFFF

/-- A string after its opening quote. Surrogates have to come in pairs. -/
def readString : List Char → Reading (List Char)
  | '"' :: rest => .ok ([], rest)
  | '\\' :: 'u' :: a :: b :: c :: d :: rest =>
    match Text.number? 16 [a, b, c, d] with
    | none => .error .malformed
    | some n =>
      if isTrailing n then .error .malformed
      else if isLeading n then
        match rest with
        | '\\' :: 'u' :: e :: f :: g :: h :: rest =>
          match Text.number? 16 [e, f, g, h] with
          | none => .error .malformed
          | some m =>
            if isTrailing m then
              (readString rest).map fun r =>
                (Char.ofNat (0x10000 + (n - 0xD800) * 0x400 + (m - 0xDC00)) :: r.1, r.2)
            else .error .malformed
        | _ => .error .malformed
      else (readString rest).map fun r => (Char.ofNat n :: r.1, r.2)
  | '\\' :: e :: rest =>
    match escaped? e with
    | none => .error .malformed
    | some c => (readString rest).map fun r => (c :: r.1, r.2)
  | c :: rest =>
    if c.toNat < 0x20 || c = '\\' then .error .malformed
    else (readString rest).map fun r => (c :: r.1, r.2)
  | [] => .error .malformed

/-- The text after a string whose opening quote has been read. What its escapes stand for does not
matter. -/
def skipString : List Char → Except Fault (List Char)
  | '"' :: rest => .ok rest
  | '\\' :: 'u' :: a :: b :: c :: d :: rest =>
    if (Text.number? 16 [a, b, c, d]).isSome then skipString rest else .error .malformed
  | '\\' :: e :: rest => if (escaped? e).isSome then skipString rest else .error .malformed
  | c :: rest => if c.toNat < 0x20 || c = '\\' then .error .malformed else skipString rest
  | [] => .error .malformed

/-! ## Numbers -/

/-- A number as it is written. -/
structure Number where
  negative : Bool
  size : Text.Decimal
  /-- The number is written without point and exponent. -/
  isWhole : Bool
  deriving Repr

/-- The digits at the head of a text, at least one, and the rest. -/
def readDigits (cs : List Char) : Reading (List Char) :=
  if (cs.takeWhile Char.isDigit).isEmpty then .error .malformed
  else .ok (cs.takeWhile Char.isDigit, cs.dropWhile Char.isDigit)

/-- The digits before the point: no zero stands before another digit. -/
def readWhole : List Char → Reading (List Char)
  | '0' :: c :: rest => if c.isDigit then .error .malformed else .ok (['0'], c :: rest)
  | cs => readDigits cs

/-- The digits after the point, if there is one. -/
def readFraction : List Char → Reading (Option (List Char))
  | '.' :: rest => (readDigits rest).map fun r => (some r.1, r.2)
  | cs => .ok (none, cs)

/-- The number that digits write. -/
def ofDigits (cs : List Char) : Nat := (Text.number? 10 cs).getD 0

/-- The exponent, if there is one. -/
def readPower : List Char → Reading (Option Int)
  | 'e' :: rest | 'E' :: rest =>
    match rest with
    | '-' :: rest => (readDigits rest).map fun r => (some (-(ofDigits r.1 : Int)), r.2)
    | '+' :: rest => (readDigits rest).map fun r => (some (ofDigits r.1 : Int), r.2)
    | rest => (readDigits rest).map fun r => (some (ofDigits r.1 : Int), r.2)
  | cs => .ok (none, cs)

/-- A number. -/
def readNumber (cs : List Char) : Except Fault (Number × List Char) := do
  let (negative, cs) := match cs with
    | '-' :: rest => (true, rest)
    | cs => (false, cs)
  let (before, cs) ← readWhole cs
  let (fraction, cs) ← readFraction cs
  let (power, cs) ← readPower cs
  let after := fraction.getD []
  return ({ negative := negative
            size :=
              { mantissa := ofDigits (before ++ after), places := after.length,
                power := power.getD 0 }
            isWhole := fraction.isNone && power.isNone }, cs)

/-! ## Whole values -/

/-- The text after a given word. -/
def skipWord : List Char → List Char → Except Fault (List Char)
  | [], cs => .ok cs
  | w :: ws, c :: cs => if w = c then skipWord ws cs else .error .malformed
  | _ :: _, [] => .error .malformed

mutual

/-- The text after a value of any kind, with enough fuel for the values nested in it. -/
def skipNested : Nat → List Char → Except Fault (List Char)
  | 0, _ => .error .malformed
  | fuel + 1, cs =>
    match skipBlanks cs with
    | '"' :: rest => skipString rest
    | '[' :: rest =>
      match skipBlanks rest with
      | ']' :: rest => .ok rest
      | rest => skipItems fuel rest
    | '{' :: rest =>
      match skipBlanks rest with
      | '}' :: rest => .ok rest
      | rest => skipMembers fuel rest
    | 'n' :: rest => skipWord "ull".toList rest
    | 't' :: rest => skipWord "rue".toList rest
    | 'f' :: rest => skipWord "alse".toList rest
    | c :: rest =>
      if c = '-' || c.isDigit then (readNumber (c :: rest)).map Prod.snd else .error .malformed
    | [] => .error .malformed

/-- The text after the items of a list, the closing bracket included. -/
def skipItems : Nat → List Char → Except Fault (List Char)
  | 0, _ => .error .malformed
  | fuel + 1, cs => do
    let cs ← skipNested fuel cs
    match skipBlanks cs with
    | ',' :: rest => skipItems fuel rest
    | ']' :: rest => .ok rest
    | _ => .error .malformed

/-- The text after the members of a record, the closing bracket included. -/
def skipMembers : Nat → List Char → Except Fault (List Char)
  | 0, _ => .error .malformed
  | fuel + 1, cs => do
    match skipBlanks cs with
    | '"' :: rest =>
      let cs ← skipString rest
      match skipBlanks cs with
      | ':' :: rest =>
        let cs ← skipNested fuel rest
        match skipBlanks cs with
        | ',' :: rest => skipMembers fuel rest
        | '}' :: rest => .ok rest
        | _ => .error .malformed
      | _ => .error .malformed
    | _ => .error .malformed

end

/-- The text after a value of any kind, however deep it is nested and whatever its strings and
numbers stand for. -/
def skipValue (cs : List Char) : Except Fault (List Char) := skipNested (cs.length + 1) cs

/-- What a value of an unwanted kind is refused for. Words, numbers and strings are read before they
are refused, so they may turn out malformed; of lists and records only the bracket is looked at. -/
def refusal (cs : List Char) : Fault :=
  match skipBlanks cs with
  | 'n' :: rest => judged (skipWord "ull".toList rest)
  | 't' :: rest => judged (skipWord "rue".toList rest)
  | 'f' :: rest => judged (skipWord "alse".toList rest)
  | '"' :: rest => judged (readString rest)
  | '[' :: _ => .mismatched
  | '{' :: _ => .mismatched
  | c :: rest =>
    if c = '-' || c.isDigit then
      match readNumber (c :: rest) with
      | .error e => e
      | .ok (n, _) => if n.size.overflows then .malformed else .mismatched
    else .malformed
  | [] => .malformed
where
  /-- The fault of a value that was read or not. -/
  judged {α : Type} : Except Fault α → Fault
    | .error e => e
    | .ok _ => .mismatched

end SlotBroker.Json
