/-!
# Media types

A media type is a type, a subtype, perhaps a suffix after the subtype's last plus sign, and
parameters after semicolons. Blanks are allowed only before the name of a parameter and after a
quoted value.
-/

namespace SlotBroker.Http

/-- A media type without its parameters, in lower case. -/
structure MediaType where
  type : String
  subtype : String
  suffix : Option String
  deriving Repr, DecidableEq

namespace MediaType

/-- The character may stand in a name. -/
def isToken (c : Char) : Bool :=
  c.isAlphanum || "!#$%&'*+-.^_`|~".toList.contains c

/-- The character may stand in a quoted value. -/
def isQuotable (c : Char) : Bool := 0x20 ≤ c.toNat && c.toNat ≤ 0x7E && c ≠ '"'

/-- The text after the blanks and the semicolon that follow a quoted value. -/
def afterQuoted? (cs : List Char) : Option (List Char) :=
  match cs.dropWhile (· = ' ') with
  | [] => some []
  | ';' :: rest => some rest
  | _ => none

/-- The text after a parameter's value. -/
def afterValue? : List Char → Option (List Char)
  | '"' :: rest =>
    match rest.dropWhile isQuotable with
    | '"' :: after => if (rest.takeWhile isQuotable).isEmpty then none else afterQuoted? after
    | _ => none
  | cs =>
    match cs.dropWhile isToken with
    | [] => some []
    | ';' :: rest => if (cs.takeWhile isToken).isEmpty then none else some rest
    | _ => none

/-- The parameters are well formed, with enough fuel for them. -/
def parametersOk : Nat → List Char → Bool
  | 0, _ => false
  | fuel + 1, cs =>
    match cs.dropWhile (· = ' ') with
    | [] => true
    | cs =>
      match cs.dropWhile isToken with
      | '=' :: rest =>
        if (cs.takeWhile isToken).isEmpty then false
        else
          match afterValue? rest with
          | some rest => parametersOk fuel rest
          | none => false
      | _ => false

/-- Lower case, of ASCII letters. -/
def lower (cs : List Char) : String := String.ofList (cs.map Char.toLower)

/-- A subtype parted at its last plus sign, unless the subtype begins with that. -/
def parted (cs : List Char) : String × Option String :=
  let back := cs.reverse
  let head := ((back.dropWhile (· ≠ '+')).drop 1).reverse
  if head.isEmpty then (lower cs, none)
  else (lower head, some (lower (back.takeWhile (· ≠ '+')).reverse))

/-- The media type that a text writes. -/
def ofText? (s : String) : Option MediaType :=
  let cs := s.toList
  let type := cs.takeWhile isToken
  match cs.dropWhile isToken with
  | '/' :: rest =>
    if type.isEmpty then none
    else
      let subtype := rest.takeWhile isToken
      let (name, suffix) := parted subtype
      let made : MediaType := { type := lower type, subtype := name, suffix := suffix }
      match rest.dropWhile isToken with
      | [] => some made
      | ';' :: parameters =>
        if !subtype.isEmpty && parametersOk (parameters.length + 1) parameters then some made
        else none
      | _ => none
  | _ => none

/-- The media type is JSON or a dialect of it. -/
def isJson (m : MediaType) : Bool :=
  m.type = "application" && (m.subtype = "json" || m.suffix = some "json")

end MediaType

/-- The text names JSON or a dialect of it. Only printable ASCII does. -/
def namesJson (s : String) : Bool :=
  s.toList.all (fun c => (0x20 ≤ c.toNat && c.toNat ≤ 0x7E) || c = '\t') &&
    (MediaType.ofText? s).any MediaType.isJson

end SlotBroker.Http
