/-!
# Values of TOML

A value, and how the statements of a document build up its tables. What a table was made by decides
what may still be added to it: a table under a header is defined once, one that is only named on the
way to another may be defined later, one made by a dotted key takes further dotted keys, and one
written in place is closed.

Results:
* `assign_eq_none_of_lookup`: no key is given a value twice.
-/

namespace SlotBroker.Toml

/-- What a table was made by. -/
inductive Form where
  /-- A header of its own. -/
  | header
  /-- The header of a table below it. -/
  | implied
  /-- A dotted key. -/
  | dotted
  /-- It is written in place. -/
  | inline
  deriving Repr, DecidableEq

/-- A value. What a number with a point, or a date, stands for is not kept. -/
inductive Value where
  | text (s : String)
  | whole (n : Int)
  | real
  | flag (b : Bool)
  /-- A date, a time or both. -/
  | moment
  /-- A list written in place. -/
  | list (items : List Value)
  /-- The tables under headers of one name. -/
  | tables (items : List Value)
  | table (form : Form) (entries : List (String × Value))
  deriving Repr

/-- The keys and values of a table. -/
abbrev Entries := List (String × Value)

namespace Entries

/-- The entries with another value for a key that is there. -/
def replace (es : Entries) (key : String) (v : Value) : Entries :=
  es.map fun e => if e.1 = key then (key, v) else e

/-- Changes the table that a path leads to, and makes those on the way that are missing. The path
may go through the last of several tables under one name. A dotted key does not go through tables
with headers of their own. -/
def changeAt (dotted : Bool) (change : Form → Entries → Option Entries) :
    List String → Form → Entries → Option Entries
  | [], form, es => change form es
  | key :: path, _, es =>
    match es.lookup key with
    | none => do
      let form := if dotted then .dotted else .implied
      let inner ← changeAt dotted change path form []
      return es ++ [(key, .table form inner)]
    | some (.table form inner) => do
      if form = .inline || (dotted && form = .header) then none
      let inner ← changeAt dotted change path form inner
      return es.replace key (.table form inner)
    | some (.tables items) => do
      match items.getLast? with
      | some (.table form inner) =>
        let inner ← changeAt dotted change path form inner
        return es.replace key (.tables (items.dropLast ++ [.table form inner]))
      | _ => none
    | some _ => none

/-- Gives a new key a value. A table made by dotted keys and one made otherwise do not mix. -/
def assign (key : String) (v : Value) (dotted : Bool) (form : Form) (es : Entries) :
    Option Entries :=
  if (form = .dotted) = dotted && (es.lookup key).isNone then some (es ++ [(key, v)]) else none

/-- Gives the key at the end of a dotted key a value. -/
def assignAt (path : List String) (key : String) (v : Value) : Form → Entries → Option Entries :=
  changeAt (!path.isEmpty) (assign key v (!path.isEmpty)) path

/-- Defines a table under its header. -/
def define (key : String) (es : Entries) : Option Entries :=
  match es.lookup key with
  | none => some (es ++ [(key, .table .header [])])
  | some (.table .implied inner) => some (es.replace key (.table .header inner))
  | some _ => none

/-- Adds a table to those under one name. -/
def extend (key : String) (es : Entries) : Option Entries :=
  match es.lookup key with
  | none => some (es ++ [(key, .tables [.table .header []])])
  | some (.tables items) => some (es.replace key (.tables (items ++ [.table .header []])))
  | some _ => none

theorem assign_eq_none_of_lookup {key : String} {v w : Value} {dotted : Bool} {form : Form}
    {es : Entries} (h : es.lookup key = some w) : assign key v dotted form es = none := by
  simp [assign, h]

end Entries

/-- A line of a document. -/
inductive Statement where
  /-- A key with dots or without, and its value. -/
  | assign (path : List String) (key : String) (v : Value)
  /-- The header of a table. -/
  | define (path : List String) (key : String)
  /-- The header of one more table of a name. -/
  | extend (path : List String) (key : String)

/-- A document as far as it has been read. -/
structure Document where
  entries : Entries := []
  /-- The path of the table under whose header the next keys stand. -/
  current : List String := []

/-- The document with one more statement. -/
def Document.add (d : Document) : Statement → Option Document
  | .assign path key v => do
    let es ← Entries.changeAt false (Entries.assignAt path key v) d.current .header d.entries
    return { d with entries := es }
  | .define path key => do
    let es ← Entries.changeAt false (fun _ => Entries.define key) path .header d.entries
    return { entries := es, current := path ++ [key] }
  | .extend path key => do
    let es ← Entries.changeAt false (fun _ => Entries.extend key) path .header d.entries
    return { entries := es, current := path ++ [key] }

end SlotBroker.Toml
