/-!
# Blank characters

The characters with the Unicode property `White_Space`, and texts without them at their ends.

Results:
* `isBlank_of_isWhitespace`: every blank of ASCII is one.
* `trim_eq_empty_iff`: a text trims to nothing exactly if it holds only blanks.
-/

namespace SlotBroker.Text

/-- The character has the property `White_Space`. -/
def isBlank (c : Char) : Bool :=
  (0x09 ≤ c.toNat && c.toNat ≤ 0x0D) || c.toNat = 0x20 || c.toNat = 0x85 || c.toNat = 0xA0 ||
    c.toNat = 0x1680 || (0x2000 ≤ c.toNat && c.toNat ≤ 0x200A) || c.toNat = 0x2028 ||
    c.toNat = 0x2029 || c.toNat = 0x202F || c.toNat = 0x205F || c.toNat = 0x3000

/-- The list without the blanks at its ends. -/
def trimmed (cs : List Char) : List Char :=
  ((cs.dropWhile isBlank).reverse.dropWhile isBlank).reverse

/-- The text without the blanks at its ends. -/
def trim (s : String) : String := String.ofList (trimmed s.toList)

theorem isBlank_of_isWhitespace {c : Char} (h : c.isWhitespace = true) : isBlank c = true := by
  simp only [Char.isWhitespace, Bool.or_eq_true, decide_eq_true_eq] at h
  rcases h with ((h | h) | h) | h <;> subst h <;> decide

theorem dropWhile_eq_nil_iff {α : Type} {p : α → Bool} {xs : List α} :
    xs.dropWhile p = [] ↔ ∀ x ∈ xs, p x = true := by
  induction xs with
  | nil => simp
  | cons x xs ih => cases h : p x <;> simp [h, ih]

theorem trim_eq_empty_iff {s : String} : trim s = "" ↔ ∀ c ∈ s.toList, isBlank c = true := by
  have h : trim s = "" ↔ trimmed s.toList = [] := by
    rw [trim, ← String.ofList_nil, String.ofList_inj]
  rw [h, trimmed, List.reverse_eq_nil_iff, dropWhile_eq_nil_iff, ← dropWhile_eq_nil_iff]
  simp only [List.mem_reverse, dropWhile_eq_nil_iff]
  constructor
  · intro h c hc
    by_cases hb : ∀ c ∈ s.toList.dropWhile isBlank, isBlank c = true
    · have hs := List.takeWhile_append_dropWhile (p := isBlank) (l := s.toList)
      rw [← hs, List.mem_append] at hc
      rcases hc with hc | hc
      · exact List.all_eq_true.1 (List.all_takeWhile (p := isBlank) (l := s.toList)) c hc
      · exact hb c hc
    · exact absurd h hb
  · intro h c hc
    exact h c ((List.dropWhile_sublist isBlank).subset hc)

end SlotBroker.Text
