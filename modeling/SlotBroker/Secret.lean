/-!
# Secrets

A secret is shown as a fixed mark wherever it might be printed; only `expose` gives the text.
-/

namespace SlotBroker

/-- A text that must not be shown. -/
structure Secret where
  /-- The text itself. -/
  expose : String

namespace Secret

/-- What is shown in place of a secret. -/
def mark : String := "[REDACTED]"

instance : ToString Secret := ⟨fun _ => mark⟩

instance : Repr Secret := ⟨fun _ _ => mark⟩

end Secret

end SlotBroker
