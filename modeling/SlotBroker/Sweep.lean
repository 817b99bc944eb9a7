/-!
# When sweeps are due

A sweep is due once every interval after the start, and none at the start itself.

Results:
* `due_add`: the sweeps of two spans in a row are those of both together.
-/

namespace SlotBroker

/-- The time since a series of sweeps began. -/
structure SweepTimer where
  /-- The milliseconds from one sweep to the next. -/
  interval : Nat
  elapsed : Nat := 0
  deriving Repr, DecidableEq

namespace SweepTimer

/-- The timer after a span. -/
def after (t : SweepTimer) (span : Nat) : SweepTimer := { t with elapsed := t.elapsed + span }

/-- The number of sweeps that fall due during a span. -/
def due (t : SweepTimer) (span : Nat) : Nat :=
  (t.elapsed + span) / t.interval - t.elapsed / t.interval

theorem due_add (t : SweepTimer) (a b : Nat) : t.due a + (t.after a).due b = t.due (a + b) := by
  simp only [due, after]
  have h1 : t.elapsed / t.interval ≤ (t.elapsed + a) / t.interval :=
    Nat.div_le_div_right (Nat.le_add_right ..)
  have h2 : (t.elapsed + a) / t.interval ≤ (t.elapsed + a + b) / t.interval :=
    Nat.div_le_div_right (Nat.le_add_right ..)
  rw [← Nat.add_assoc]
  omega

end SweepTimer

end SlotBroker
