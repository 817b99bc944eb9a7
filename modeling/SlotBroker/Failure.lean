/-!
# What an operation of the broker can fail on

Only references to what does not exist and unreadable secrets are failures. A service without a free
slot is none: the session waits. Ending a session twice is none either.
-/

namespace SlotBroker

/-- Why an operation failed. -/
inductive Failure where
  | serviceNotFound (id : String)
  | sessionNotFound (id : String)
  | credentialNotFound (id : String)
  /-- A sealed secret does not open. -/
  | secretUnreadable (why : String)
  deriving Repr, DecidableEq

namespace Failure

/-- The name of the kind of failure. -/
def kind : Failure → String
  | serviceNotFound _ => "service_not_found"
  | sessionNotFound _ => "session_not_found"
  | credentialNotFound _ => "credential_not_found"
  | secretUnreadable _ => "secret_decode"

/-- The failure in words. -/
def message : Failure → String
  | serviceNotFound id => "service not found: " ++ id
  | sessionNotFound id => "session not found: " ++ id
  | credentialNotFound id => "credential not found: " ++ id
  | secretUnreadable why => "stored secret could not be decoded: " ++ why

end Failure

end SlotBroker
