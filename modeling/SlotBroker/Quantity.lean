/-!
# Quantities: words that stop at their ends

Times are milliseconds, costs are cents and slots are counts, all in machine words. Differences stop
at zero and products stop at the largest word.

Results:
* `toNat_minus`, `toNat_times`: the difference is the truncated one of the naturals, and the product
  is the exact one cut at `2 ^ 64 - 1`.
-/

namespace SlotBroker

/-- A point in time or a span of it, in milliseconds. -/
abbrev Millis := UInt64

/-- An amount of money in cents. -/
abbrev Cents := UInt64

/-- The difference, zero where `b` is the larger. -/
def minus (a b : UInt64) : UInt64 := if a ≤ b then 0 else a - b

/-- The product, the largest word where it does not fit. -/
def times (a b : UInt64) : UInt64 :=
  if a.toNat * b.toNat < UInt64.size then UInt64.ofNat (a.toNat * b.toNat)
  else UInt64.ofNat (UInt64.size - 1)

/-- The difference of two slot counts, zero where `b` is the larger. -/
def fewer (a b : UInt32) : UInt32 := if a ≤ b then 0 else a - b

theorem toNat_minus (a b : UInt64) : (minus a b).toNat = a.toNat - b.toNat := by
  unfold minus
  split
  · rename_i h
    have := UInt64.le_iff_toNat_le.1 h
    simp only [UInt64.toNat_zero]
    omega
  · rename_i h
    exact UInt64.toNat_sub_of_le _ _ (UInt64.not_le.1 h |> UInt64.le_of_lt)

theorem toNat_times (a b : UInt64) :
    (times a b).toNat = min (a.toNat * b.toNat) (UInt64.size - 1) := by
  unfold times
  split
  · rename_i h
    rw [UInt64.toNat_ofNat_of_lt' h]
    omega
  · rename_i h
    rw [UInt64.toNat_ofNat_of_lt' (by decide)]
    omega

theorem toNat_fewer (a b : UInt32) : (fewer a b).toNat = a.toNat - b.toNat := by
  unfold fewer
  split
  · rename_i h
    have := UInt32.le_iff_toNat_le.1 h
    simp only [UInt32.toNat_zero]
    omega
  · rename_i h
    exact UInt32.toNat_sub_of_le _ _ (UInt32.not_le.1 h |> UInt32.le_of_lt)

/-- A span of milliseconds in seconds. -/
def seconds (t : Millis) : Float := t.toFloat / 1000.0

/-- The sum of a list of amounts, from the left, starting at minus zero, which is what no amounts
add up to. -/
def total (xs : List Float) : Float := xs.foldl (· + ·) (-0.0)

end SlotBroker
