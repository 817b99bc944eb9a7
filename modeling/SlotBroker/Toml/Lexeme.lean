import SlotBroker.Text.Digits
import SlotBroker.Text.Pieces
import SlotBroker.Toml.Value

/-!
# The pieces of TOML text

Blanks and comments, names, strings, and the values that are written as one word. What reads gives
what was read and the rest of the text.
-/

namespace SlotBroker.Toml

/-! ## Between the pieces -/

/-- The character parts the pieces of a line. -/
def isBlank (c : Char) : Bool := c = ' ' || c = '\t'

/-- The character may stand in comments and strings as it is. -/
def isPlain (c : Char) : Bool := c = '\t' || (0x20 ≤ c.toNat && c.toNat ≠ 0x7F)

/-- The text after some blanks. -/
def skipBlanks (cs : List Char) : List Char := cs.dropWhile isBlank

/-- The text after blanks, comments and ends of lines. -/
def skipLines (inComment : Bool) : List Char → List Char
  | '\n' :: rest => skipLines false rest
  | '\r' :: '\n' :: rest => skipLines false rest
  | c :: rest =>
    if inComment then
      if isPlain c then skipLines true rest else c :: rest
    else if isBlank c then skipLines false rest
    else if c = '#' then skipLines true rest
    else c :: rest
  | [] => []

/-- The text after the end of a line, before which a comment may stand. The end of the text ends a
line too. -/
def skipLineEnd (cs : List Char) : Option (List Char) :=
  let afterComment := match skipBlanks cs with
    | '#' :: rest => rest.dropWhile isPlain
    | cs => cs
  match afterComment with
  | [] => some []
  | '\n' :: rest => some rest
  | '\r' :: '\n' :: rest => some rest
  | _ => none

/-! ## Strings -/

/-- The character of a single-letter escape. -/
def escaped? : Char → Option Char
  | '"' => some '"'
  | '\\' => some '\\'
  | 'b' => some '\x08'
  | 'e' => some '\x1b'
  | 'f' => some '\x0c'
  | 'n' => some '\n'
  | 'r' => some '\r'
  | 't' => some '\t'
  | _ => none

/-- The character whose code some hexadecimal digits write. -/
def coded? (digits : List Char) : Option Char := do
  let n ← Text.number? 16 digits
  if n.isValidChar then return Char.ofNat n else none

/-- A character before what was read. -/
def before (c : Char) (r : Option (List Char × List Char)) : Option (List Char × List Char) :=
  r.map fun r => (c :: r.1, r.2)

/-- A string with escapes, after its opening quote. -/
def readQuoted : List Char → Option (List Char × List Char)
  | '"' :: rest => some ([], rest)
  | '\\' :: 'x' :: a :: b :: rest => do before (← coded? [a, b]) (readQuoted rest)
  | '\\' :: 'u' :: a :: b :: c :: d :: rest => do
    before (← coded? [a, b, c, d]) (readQuoted rest)
  | '\\' :: 'U' :: a :: b :: c :: d :: e :: f :: g :: h :: rest => do
    before (← coded? [a, b, c, d, e, f, g, h]) (readQuoted rest)
  | '\\' :: e :: rest => do before (← escaped? e) (readQuoted rest)
  | c :: rest => if isPlain c && c ≠ '\\' then before c (readQuoted rest) else none
  | [] => none

/-- A string without escapes, after its opening quote. -/
def readLiteral : List Char → Option (List Char × List Char)
  | '\'' :: rest => some ([], rest)
  | c :: rest => if isPlain c then before c (readLiteral rest) else none
  | [] => none

/-- The text begins with the end of a line. -/
def startsWithLineEnd : List Char → Bool
  | '\n' :: _ => true
  | '\r' :: '\n' :: _ => true
  | _ => false

/-- The character may stand as it is in a string of several lines, with what comes after it. -/
def isPlainLine (c : Char) (rest : List Char) : Bool := isPlain c || startsWithLineEnd (c :: rest)

/-- A string of several lines with escapes, after its opening quotes. Up to two quotes more than the
closing ones belong to the string. A backslash at the end of a line takes away all blanks and ends
of lines that follow; while it does so `joining` is true. -/
def readLongQuoted (joining : Bool) : List Char → Option (List Char × List Char)
  | '"' :: '"' :: '"' :: '"' :: '"' :: rest => some (['"', '"'], rest)
  | '"' :: '"' :: '"' :: '"' :: rest => some (['"'], rest)
  | '"' :: '"' :: '"' :: rest => some ([], rest)
  | '\\' :: 'x' :: a :: b :: rest => do before (← coded? [a, b]) (readLongQuoted false rest)
  | '\\' :: 'u' :: a :: b :: c :: d :: rest => do
    before (← coded? [a, b, c, d]) (readLongQuoted false rest)
  | '\\' :: 'U' :: a :: b :: c :: d :: e :: f :: g :: h :: rest => do
    before (← coded? [a, b, c, d, e, f, g, h]) (readLongQuoted false rest)
  | '\\' :: e :: rest =>
    if startsWithLineEnd (skipBlanks (e :: rest)) then readLongQuoted true rest
    else do before (← escaped? e) (readLongQuoted false rest)
  | c :: rest =>
    if c = '\\' || !isPlainLine c rest then none
    else if joining && (isBlank c || startsWithLineEnd (c :: rest)) then readLongQuoted true rest
    else before c (readLongQuoted false rest)
  | [] => none

/-- A string of several lines without escapes, after its opening quotes. -/
def readLongLiteral : List Char → Option (List Char × List Char)
  | '\'' :: '\'' :: '\'' :: '\'' :: '\'' :: rest => some (['\'', '\''], rest)
  | '\'' :: '\'' :: '\'' :: '\'' :: rest => some (['\''], rest)
  | '\'' :: '\'' :: '\'' :: rest => some ([], rest)
  | c :: rest => if isPlainLine c rest then before c (readLongLiteral rest) else none
  | [] => none

/-- The text after the end of a line, if it begins with one. -/
def skipFirstLineEnd : List Char → List Char
  | '\n' :: rest => rest
  | '\r' :: '\n' :: rest => rest
  | cs => cs

/-! ## Names -/

/-- The character may stand in a name without quotes. -/
def isBare (c : Char) : Bool := c.isAlphanum || c = '-' || c = '_'

/-- A name. -/
def readName (cs : List Char) : Option (String × List Char) :=
  match cs with
  | '"' :: rest => (readQuoted rest).map fun r => (String.ofList r.1, r.2)
  | '\'' :: rest => (readLiteral rest).map fun r => (String.ofList r.1, r.2)
  | cs =>
    if (cs.takeWhile isBare).isEmpty then none
    else some (String.ofList (cs.takeWhile isBare), cs.dropWhile isBare)

/-- A key as the names before the last and the last one, with enough fuel for the names. The rest
begins with no blank. -/
def readKey : Nat → List Char → Option ((List String × String) × List Char)
  | 0, _ => none
  | fuel + 1, cs => do
    let (name, cs) ← readName (skipBlanks cs)
    match skipBlanks cs with
    | '.' :: rest =>
      let ((path, last), rest) ← readKey fuel rest
      return ((name :: path, last), rest)
    | rest => return (([], name), rest)

/-! ## Numbers -/

/-- The digits of a number in which single underscores may stand between two digits. -/
def ungrouped? (base : Nat) (cs : List Char) : Option (List Char) :=
  let groups := Text.pieces (· = '_') cs
  if groups.all fun g => !g.isEmpty && g.all (Text.isDigit base) then some groups.flatten else none

/-- The number that digits of a base write. -/
def natural? (base : Nat) (cs : List Char) : Option Nat := do
  Text.number? base (← ungrouped? base cs)

/-- The text without its sign, and whether it is negative. -/
def unsigned : List Char → Bool × List Char
  | '-' :: rest => (true, rest)
  | '+' :: rest => (false, rest)
  | cs => (false, cs)

/-- No zero stands before another digit. -/
def startsWell : List Char → Bool
  | '0' :: rest => rest.isEmpty
  | cs => !cs.isEmpty

/-- The whole number that a word writes. It fits a word of 128 bits, with or without a sign. -/
def whole? (word : List Char) : Option Int := do
  let n ← magnitude? word
  if -(1 <<< 127) ≤ n ∧ n < 1 <<< 128 then return n else none
where
  /-- The number, however large. -/
  magnitude? : List Char → Option Int
    | '0' :: 'x' :: rest => (natural? 16 rest).map Int.ofNat
    | '0' :: 'o' :: rest => (natural? 8 rest).map Int.ofNat
    | '0' :: 'b' :: rest => (natural? 2 rest).map Int.ofNat
    | word =>
      let (negative, digits) := unsigned word
      if startsWell digits then
        (natural? 10 digits).map fun n => if negative then -(n : Int) else n
      else none

/-- The word writes a number with a point or an exponent, and one that a double can hold. -/
def isReal (word : List Char) : Bool :=
  let size := (unsigned word).2
  if size = "inf".toList || size = "nan".toList then true
  else
    let mantissa := size.takeWhile fun c => c ≠ 'e' && c ≠ 'E'
    let exponent := size.drop (mantissa.length + 1)
    let before := mantissa.takeWhile (· ≠ '.')
    let after := mantissa.drop (before.length + 1)
    let hasExponent := mantissa.length < size.length
    let hasPoint := before.length < mantissa.length
    let (negative, power) := unsigned exponent
    if !startsWell before || !(hasExponent || hasPoint) then false
    else
      match ungrouped? 10 before, (if hasPoint then ungrouped? 10 after else some []),
        (if hasExponent then natural? 10 power else some 0) with
      | some whole, some fraction, some n =>
        match Text.number? 10 (whole ++ fraction) with
        | some m =>
          !({ mantissa := m, places := fraction.length,
              power := if negative then -(n : Int) else n } : Text.Decimal).overflows
        | none => false
      | _, _, _ => false

/-! ## Dates and times -/

/-- The number of days of a month. -/
def daysIn (year month : Nat) : Nat :=
  if month = 2 then
    if year % 4 = 0 && (year % 100 ≠ 0 || year % 400 = 0) then 29 else 28
  else if month = 4 || month = 6 || month = 9 || month = 11 then 30
  else 31

/-- The text after a date. -/
def skipDate : List Char → Option (List Char)
  | y₁ :: y₂ :: y₃ :: y₄ :: '-' :: m₁ :: m₂ :: '-' :: d₁ :: d₂ :: rest => do
    let year ← Text.number? 10 [y₁, y₂, y₃, y₄]
    let month ← Text.number? 10 [m₁, m₂]
    let day ← Text.number? 10 [d₁, d₂]
    if 1 ≤ month ∧ month ≤ 12 ∧ 1 ≤ day ∧ day ≤ daysIn year month then return rest else none
  | _ => none

/-- The text after an hour and a minute. -/
def skipMinute : List Char → Option (List Char)
  | h₁ :: h₂ :: ':' :: m₁ :: m₂ :: rest => do
    let hour ← Text.number? 10 [h₁, h₂]
    let minute ← Text.number? 10 [m₁, m₂]
    if hour < 24 ∧ minute < 60 then return rest else none
  | _ => none

/-- The text after a time. Its seconds may be missing, and may have a fraction. -/
def skipTime (cs : List Char) : Option (List Char) := do
  match ← skipMinute cs with
  | ':' :: s₁ :: s₂ :: rest =>
    let second ← Text.number? 10 [s₁, s₂]
    if 60 < second then none
    match rest with
    | '.' :: rest =>
      if (rest.takeWhile Char.isDigit).isEmpty then none else return rest.dropWhile Char.isDigit
    | rest => return rest
  | rest => return rest

/-- The text is nothing, or an offset from the common time. -/
def isOffset : List Char → Bool
  | [] => true
  | ['Z'] => true
  | ['z'] => true
  | '+' :: rest => skipMinute rest = some []
  | '-' :: rest => skipMinute rest = some []
  | _ => false

/-- The word writes a date, a time or both. -/
def isMoment (word : List Char) : Bool :=
  match skipDate word with
  | some [] => true
  | some (c :: rest) => (c = 'T' || c = 't' || c = ' ') && (skipTime rest).any isOffset
  | none => skipTime word = some []

/-! ## Words -/

/-- The character may stand in a value that is written as one word. -/
def isInWord (c : Char) : Bool := isBare c || c = '+' || c = '.' || c = ':'

/-- The value that a word writes. -/
def ofWord? (word : List Char) : Option Value :=
  if word = "true".toList then some (.flag true)
  else if word = "false".toList then some (.flag false)
  else
    match whole? word with
    | some n => some (.whole n)
    | none =>
      if isReal word then some .real
      else if isMoment word then some .moment
      else none

/-- A value that is written as one word. A blank may stand between a date and a time. -/
def readWord (cs : List Char) : Option (Value × List Char) := do
  let word := cs.takeWhile isInWord
  match cs.dropWhile isInWord with
  | ' ' :: c :: rest =>
    if c.isDigit && skipDate word = some [] then
      let time := (c :: rest).takeWhile isInWord
      return (← ofWord? (word ++ ' ' :: time), (c :: rest).dropWhile isInWord)
    else return (← ofWord? word, ' ' :: c :: rest)
  | rest => return (← ofWord? word, rest)

end SlotBroker.Toml
