import SlotBroker.Quantity

/-!
# A clock set by hand

The clock stands still until it is set or advanced. Advancing goes around at the end of the words,
and so does the conversion of a span of seconds.

Results:
* `advance_advance`: two advances are one by their sum.
-/

namespace SlotBroker

/-- A clock that moves only when told to. -/
structure ManualClock where
  now : Millis
  deriving Repr, DecidableEq

namespace ManualClock

/-- The clock showing a given time. -/
def set (_ : ManualClock) (now : Millis) : ManualClock := ⟨now⟩

/-- The clock moved on by a span. -/
def advance (c : ManualClock) (span : Millis) : ManualClock := ⟨c.now + span⟩

/-- A span of seconds in milliseconds. -/
def ofSeconds (s : UInt64) : Millis := s * 1000

theorem advance_advance (c : ManualClock) (a b : Millis) :
    (c.advance a).advance b = c.advance (a + b) := by
  simp [advance, UInt64.add_assoc]

end ManualClock

end SlotBroker
