/-!
# JSON values that are written

A value of the answers. Numbers are whole or real; the order of a record's fields is kept.
-/

namespace SlotBroker

/-- A JSON value. -/
inductive Json where
  | null
  | bool (b : Bool)
  | whole (n : Nat)
  | real (x : Float)
  | text (s : String)
  | list (xs : List Json)
  | record (fields : List (String × Json))

namespace Json

instance : Inhabited Json := ⟨null⟩

/-- The value of something that may be missing. -/
def optional {α : Type} (f : α → Json) : Option α → Json
  | none => null
  | some a => f a

/-- A whole number of sixty-four bits. -/
def word (n : UInt64) : Json := whole n.toNat

/-- A whole number of thirty-two bits. -/
def slots (n : UInt32) : Json := whole n.toNat

/-- A record with further fields at its end. Another value stays as it is. -/
def extend (more : List (String × Json)) : Json → Json
  | record fields => record (fields ++ more)
  | v => v

end Json

end SlotBroker
