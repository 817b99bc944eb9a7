import SlotBroker.Json.Lexeme
import SlotBroker.Service
import SlotBroker.Credential

/-!
# Records read from JSON text

A record is read field by field in the order in which the fields stand in the text, and the first
fault decides. It may also be written as the list of its fields in their declared order. A field
that is not known is skipped; one that comes twice is a fault; one that is missing is a fault unless
it has a value of its own to fall back on.
-/

namespace SlotBroker.Json

/-- What a field holds. -/
inductive Kind where
  | text
  /-- A whole number below a bound. -/
  | natural (bound : Nat)
  deriving Repr, DecidableEq

/-- The value of a field. -/
inductive Scalar where
  | text (s : String)
  | natural (n : Nat)
  deriving Repr, DecidableEq

/-- A field of a record. -/
structure Field where
  name : String
  kind : Kind
  /-- The value if the field is missing. -/
  fallback : Option Scalar := none
  deriving Repr, DecidableEq

/-- A value of a wanted kind. -/
def readScalar (kind : Kind) (cs : List Char) : Except Fault (Scalar × List Char) :=
  match kind, skipBlanks cs with
  | .text, '"' :: rest => (readString rest).map fun r => (.text (String.ofList r.1), r.2)
  | .text, cs => .error (refusal cs)
  | .natural _, [] => .error .malformed
  | .natural bound, c :: rest =>
    if c = '-' || c.isDigit then
      match readNumber (c :: rest) with
      | .error e => .error e
      | .ok (n, rest) =>
        if n.size.overflows then .error .malformed
        else if n.negative || !n.isWhole || bound ≤ n.size.mantissa then .error .mismatched
        else .ok (.natural n.size.mantissa, rest)
    else .error (refusal (c :: rest))

/-- The values found so far, by the names of their fields. -/
abbrev Found := List (String × Scalar)

/-- The values of some fields in their order, with fallbacks for the missing ones. -/
def Found.values (found : Found) : List Field → Except Fault (List Scalar)
  | [] => .ok []
  | f :: fs => do
    match (found.lookup f.name).orElse fun _ => f.fallback with
    | none => .error .mismatched
    | some v => return v :: (← Found.values found fs)

/-- The name of a member, after its opening quote, and its value if it is that of a field. -/
def readMember (fields : List Field) (found : Found) (cs : List Char) :
    Except Fault (Found × List Char) := do
  let (name, cs) ← readString cs
  let name := String.ofList name
  let field := fields.find? fun f => f.name = name
  if field.isSome && (found.lookup name).isSome then throw .mismatched
  match skipBlanks cs with
  | ':' :: rest =>
    match field with
    | none => return (found, ← skipValue rest)
    | some f =>
      let (v, rest) ← readScalar f.kind rest
      return ((name, v) :: found, rest)
  | _ => throw .malformed

/-- The members after the first, up to the closing bracket, with enough fuel for them. -/
def readMembers (fields : List Field) : Nat → Found → List Char → Except Fault (Found × List Char)
  | 0, _, _ => .error .malformed
  | fuel + 1, found, cs =>
    match skipBlanks cs with
    | '}' :: rest => .ok (found, rest)
    | ',' :: rest =>
      match skipBlanks rest with
      | '"' :: rest => do
        let (found, rest) ← readMember fields found rest
        readMembers fields fuel found rest
      | _ => .error .malformed
    | _ => .error .malformed

/-- The values of the fields in a list, in their order. Fields at the end may be missing if they
have fallbacks. -/
def readPositional : List Field → Bool → List Char → Except Fault (List Scalar × List Char)
  | [], _, cs =>
    match skipBlanks cs with
    | ']' :: rest => .ok ([], rest)
    | _ => .error .malformed
  | f :: fs, isFirst, cs => do
    match skipBlanks cs with
    | ']' :: rest => return (← Found.values [] (f :: fs), rest)
    | [] => throw .malformed
    | c :: rest =>
      let cs ←
        if isFirst then pure (c :: rest)
        else if c = ',' then
          match skipBlanks rest with
          | ']' :: _ => throw .malformed
          | rest => pure rest
        else throw .malformed
      let (v, cs) ← readScalar f.kind cs
      let (vs, cs) ← readPositional fs false cs
      return (v :: vs, cs)

/-- The values of the fields of a record, in their declared order. -/
def readRecord (fields : List Field) (cs : List Char) : Except Fault (List Scalar × List Char) :=
  match skipBlanks cs with
  | '[' :: rest => readPositional fields true rest
  | '{' :: rest => do
    let (found, rest) ←
      match skipBlanks rest with
      | '}' :: rest => pure ([], rest)
      | '"' :: rest => do
        let (found, rest) ← readMember fields [] rest
        readMembers fields (rest.length + 1) found rest
      | _ => throw .malformed
    return (← Found.values found fields, rest)
  | cs => .error (refusal cs)

/-- What a reader reads from a whole text: only blanks may be left over. -/
def entire {α : Type} (read : List Char → Except Fault (α × List Char)) (s : String) :
    Except Fault α := do
  let (a, rest) ← read s.toList
  if (skipBlanks rest).isEmpty then return a else throw .malformed

/-- The values of the fields of a record that a whole text writes. -/
def recordOf (fields : List Field) (s : String) : Except Fault (List Scalar) :=
  entire (readRecord fields) s

/-! ## Services and tiers -/

/-- The fields of a service. -/
def serviceFields : List Field :=
  [{ name := "id", kind := .text }, { name := "name", kind := .text },
   { name := "monthly_cost_cents", kind := .natural UInt64.size },
   { name := "max_concurrent_streams", kind := .natural UInt32.size },
   { name := "max_session_duration_secs", kind := .natural UInt64.size,
     fallback := some (.natural defaultSessionLimit.toNat) }]

/-- The service that a text writes. -/
def serviceOf (s : String) : Except Fault Service := do
  match ← recordOf serviceFields s with
  | [.text id, .text name, .natural cost, .natural cap, .natural limit] =>
    return { id := id, name := name, monthlyCost := UInt64.ofNat cost,
             streamCap := UInt32.ofNat cap, sessionLimit := UInt64.ofNat limit }
  | _ => throw .mismatched

/-- A tier: its name, or a record with nothing under its name. -/
def readTier (cs : List Char) : Except Fault (Tier × List Char) :=
  match skipBlanks cs with
  | '"' :: rest => named rest
  | '{' :: rest =>
    match skipBlanks rest with
    | '"' :: rest => do
      let (tier, rest) ← named rest
      match skipBlanks rest with
      | ':' :: rest =>
        let rest ← skipWord "null".toList (skipBlanks rest)
        match skipBlanks rest with
        | '}' :: rest => return (tier, rest)
        | _ => throw .malformed
      | _ => throw .malformed
    | rest => .error (refusal rest)
  | cs => .error (refusal cs)
where
  /-- The tier whose name is read after an opening quote. -/
  named (cs : List Char) : Except Fault (Tier × List Char) := do
    let (name, rest) ← readString cs
    match Tier.ofLabel? (String.ofList name) with
    | some tier => return (tier, rest)
    | none => throw .mismatched

/-- The tier that a text writes. -/
def tierOf (s : String) : Except Fault Tier := entire readTier s

end SlotBroker.Json
