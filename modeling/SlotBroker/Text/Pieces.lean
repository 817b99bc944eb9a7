/-!
# Pieces of a list

A list is cut where a predicate holds. There is one piece more than there are cuts.

Results:
* `length_pieces`: how many pieces there are.
-/

namespace SlotBroker.Text

/-- The pieces of a list between the places where `p` holds. -/
def pieces {α : Type} (p : α → Bool) : List α → List (List α)
  | [] => [[]]
  | x :: xs =>
    if p x then [] :: pieces p xs
    else
      match pieces p xs with
      | [] => [[x]]
      | first :: rest => (x :: first) :: rest

theorem length_pieces {α : Type} (p : α → Bool) (xs : List α) :
    (pieces p xs).length = xs.countP p + 1 := by
  induction xs with
  | nil => rfl
  | cons x xs ih =>
    by_cases h : p x = true
    · simp [pieces, h, ih]
    · cases hp : pieces p xs with
      | nil => simp [hp] at ih
      | cons a as => simp_all [pieces]

end SlotBroker.Text
