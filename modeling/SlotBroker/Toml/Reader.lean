import SlotBroker.Toml.Lexeme

/-!
# Documents of TOML

A document is a row of lines, each a header or a key with its value. Values may be nested as deep as
`maxDepth` says; keys and tables may be nested without a bound.
-/

namespace SlotBroker.Toml

/-- How deep lists and tables written in place may be nested. -/
def maxDepth : Nat := 80

/-- The text goes on with a quote three times over. -/
def startsLong (quote : Char) (cs : List Char) : Bool := cs.take 3 = [quote, quote, quote]

/-- A string of any kind. -/
def readText (cs : List Char) : Option (String × List Char) :=
  (if startsLong '"' cs then readLongQuoted false (skipFirstLineEnd (cs.drop 3))
    else if startsLong '\'' cs then readLongLiteral (skipFirstLineEnd (cs.drop 3))
    else if cs.head? = some '"' then readQuoted (cs.drop 1)
    else readLiteral (cs.drop 1)).map fun r => (String.ofList r.1, r.2)

mutual

/-- A value in which lists and tables are nested `depth` deep at the most, with enough fuel for its
parts. -/
def readValue : (fuel depth : Nat) → List Char → Option (Value × List Char)
  | 0, _, _ => none
  | fuel + 1, depth, cs =>
    match depth, cs with
    | 0, '[' :: _ => none
    | 0, '{' :: _ => none
    | depth + 1, '[' :: rest => (readItems fuel depth rest).map fun r => (.list r.1, r.2)
    | depth + 1, '{' :: rest =>
      (readMembers fuel depth [] rest).map fun r => (.table .inline r.1, r.2)
    | _, cs =>
      if cs.head? = some '"' || cs.head? = some '\'' then
        (readText cs).map fun r => (.text r.1, r.2)
      else readWord cs

/-- The items of a list up to its closing bracket. -/
def readItems : (fuel depth : Nat) → List Char → Option (List Value × List Char)
  | 0, _, _ => none
  | fuel + 1, depth, cs =>
    match skipLines false cs with
    | ']' :: rest => some ([], rest)
    | cs => do
      let (v, cs) ← readValue fuel depth cs
      match skipLines false cs with
      | ',' :: rest =>
        let (vs, rest) ← readItems fuel depth rest
        return (v :: vs, rest)
      | ']' :: rest => return ([v], rest)
      | _ => none

/-- The keys and values of a table written in place, up to its closing bracket. -/
def readMembers : (fuel depth : Nat) → Entries → List Char → Option (Entries × List Char)
  | 0, _, _, _ => none
  | fuel + 1, depth, es, cs =>
    match skipLines false cs with
    | '}' :: rest => some (es, rest)
    | cs => do
      let ((path, key), cs) ← readKey fuel cs
      match cs with
      | '=' :: rest =>
        let (v, rest) ← readValue fuel depth (skipBlanks rest)
        let es ← Entries.assignAt path key v .inline es
        match skipLines false rest with
        | ',' :: rest => readMembers fuel depth es rest
        | '}' :: rest => return (es, rest)
        | _ => none
      | _ => none

end

/-- The key of a header, with the closing brackets that stand after it. -/
def readHeader (closing : List Char) (cs : List Char) :
    Option ((List String × String) × List Char) := do
  let (key, rest) ← readKey (cs.length + 1) cs
  if rest.take closing.length = closing then return (key, rest.drop closing.length) else none

/-- A statement. -/
def readStatement (cs : List Char) : Option (Statement × List Char) :=
  match cs with
  | '[' :: '[' :: rest =>
    (readHeader [']', ']'] rest).map fun r => (.extend r.1.1 r.1.2, r.2)
  | '[' :: rest => (readHeader [']'] rest).map fun r => (.define r.1.1 r.1.2, r.2)
  | cs => do
    let ((path, key), rest) ← readKey (cs.length + 1) cs
    match rest with
    | '=' :: rest =>
      let (v, rest) ← readValue (rest.length + 1) maxDepth (skipBlanks rest)
      return (.assign path key v, rest)
    | _ => none

/-- The document that the lines of a text make of another, with enough fuel for the lines. -/
def readDocument : Nat → Document → List Char → Option Document
  | 0, _, _ => none
  | fuel + 1, d, cs =>
    match skipLines false cs with
    | [] => some d
    | cs => do
      let (s, rest) ← readStatement cs
      let rest ← skipLineEnd rest
      readDocument fuel (← d.add s) rest

/-- The keys and values of the document that a text writes. A byte-order mark may stand before it.
-/
def entriesOf? (s : String) : Option Entries :=
  let cs := match s.toList with
    | '\uFEFF' :: rest => rest
    | cs => cs
  (readDocument (cs.length + 1) {} cs).map Document.entries

end SlotBroker.Toml
