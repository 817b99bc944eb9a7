import SlotBroker.Program

/-!
# Users

A user registers by name. Who is registered already is found and comes back.
-/

namespace SlotBroker.Accounts

/-- The user of a name, registered now if there is none. -/
def register (username : String) : Program User := do
  match ← Program.query (·.userNamed? username) with
  | some user => return user
  | none =>
    let id ← Program.freshId Ident.shortDigits
    let now ← Program.now
    let user : User := { id := id, username := username, createdAt := now }
    Program.update (·.addUser user)
    return user

end SlotBroker.Accounts
