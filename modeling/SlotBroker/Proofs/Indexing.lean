import Mathlib
import SlotBroker.Proofs.Handling
import SlotBroker.Proofs.Headroom
import SlotBroker.Proofs.QueueOrder

/-!
# Maps and the orders beside them

Services, credentials and users can be kept in two pieces: a map from keys to records, and a list of
the keys that says in which order they are told. Nothing ties the two. A write of the one has to see
to the other, and a reader passes over a key that has no record, so that a forgotten or a repeated
key would lose or double a record without a word.

`Inventory` is the store in this form, write by write. It is compared with the tables that the
store runs on, and with the history of the writes.

Results:
* `Touch.firsts`, `Touch.latest`: what a history leaves, read off the history.
* `Index.Told.touch`: a write keeps the two pieces in step, and in step with the table.
* `Index.Told.list_eq`: then the list is the table's.
* `Store.Stamped.change`: no two sessions have the same number while the numbers last.
* **`inventory_exact`**: after any history an index tells each record that was ever stored once, in
  its latest form, in order of the first ones, and the services that it tells are found.
-/

namespace SlotBroker

open Keyed (key)

/-! ## Histories of one kind of records -/

/-- What a write does to the records of one kind. -/
inductive Touch (α : Type) where
  /-- A record is stored, and one of its key gives way. -/
  | add (v : α)
  /-- The record of a key is changed, if there is one. -/
  | change (k : String) (f : α → α)

namespace Touch

variable {α : Type} [Keyed α]

/-- A change leaves records their keys. -/
def Keeps : Touch α → Prop
  | add _ => True
  | change _ f => ∀ v, key (f v) = key v

/-- What a write makes of the record of a key. -/
def on (k : String) (r : Option α) : Touch α → Option α
  | add v => if key v = k then some v else r
  | change k' f => if k' = k then r.map f else r

/-- The key of a record that is stored. -/
def added? : Touch α → Option String
  | add v => some (key v)
  | change .. => none

/-- The latest record of a key. -/
def latest (ts : List (Touch α)) (k : String) : Option α := ts.foldl (on k) none

/-- The keys of all records that were stored, each once, in order of the first ones. -/
def firsts (ts : List (Touch α)) : List String := (ts.filterMap added?).eraseDups

/-- A write on a map. -/
def onMap (m : Std.HashMap String α) : Touch α → Std.HashMap String α
  | add v => m.insert (key v) v
  | change k f => m.modify k f

theorem getElem?_onMap (m : Std.HashMap String α) (t : Touch α) (k : String) :
    (t.onMap m)[k]? = t.on k m[k]? := by
  cases t with
  | add v =>
    rw [onMap, on, Std.HashMap.getElem?_insert]
    simp only [beq_iff_eq]
  | change k' f =>
    rw [onMap, on, Std.HashMap.getElem?_modify]
    by_cases same : k' = k
    · rw [if_pos same, if_pos (beq_iff_eq.2 same), same]
    · rw [if_neg same, if_neg fun h => same (beq_iff_eq.1 h)]

theorem latest_concat (ts : List (Touch α)) (t : Touch α) (k : String) :
    latest (ts ++ [t]) k = t.on k (latest ts k) :=
  List.foldl_concat ..

theorem firsts_concat_add (ts : List (Touch α)) (v : α) :
    firsts (ts ++ [add v]) = if key v ∈ firsts ts then firsts ts else firsts ts ++ [key v] := by
  have last : [add v].filterMap added? = [key v] := rfl
  unfold firsts
  rw [List.filterMap_append, last, List.eraseDups_append]
  simp only [List.mem_eraseDups]
  generalize ts.filterMap added? = ks
  by_cases known : key v ∈ ks
  · simp [List.removeAll, known]
  · simp [List.removeAll, known, List.eraseDups_cons]

theorem firsts_concat_change (ts : List (Touch α)) (k : String) (f : α → α) :
    firsts (ts ++ [change k f]) = firsts ts := by
  unfold firsts
  rw [List.filterMap_append]
  exact congrArg List.eraseDups (List.append_nil _)

end Touch

/-! ## Tables under a write -/

namespace Table

variable {α : Type} [Keyed α] {t : Table α}

/-- Changes the record of a key where there is one. -/
def modify (t : Table α) (k : String) (f : α → α) : Table α :=
  match t.find? k with
  | none => t
  | some v => t.insert (f v)

/-- A write on a table. -/
def touch (t : Table α) : Touch α → Table α
  | .add v => t.insert v
  | .change k f => t.modify k f

theorem mem_keys_iff {k : String} : k ∈ t.keys ↔ (t.find? k).isSome = true := by
  rw [Option.isSome_iff_exists]
  refine List.mem_map.trans (exists_congr fun v => ?_)
  rw [find?_eq_some_iff]

theorem find?_touch {w : Touch α} (keeps : w.Keeps) (k : String) :
    (t.touch w).find? k = w.on k (t.find? k) := by
  cases w with
  | add v => exact find?_insert t v k
  | change k' f =>
    rw [touch, modify, Touch.on]
    cases known : t.find? k' with
    | none =>
      by_cases same : k' = k
      · rw [if_pos same, ← same, known]
        rfl
      · rw [if_neg same]
    | some v =>
      have place : key (f v) = k' := (keeps v).trans (find?_key known)
      rw [find?_insert, place]
      by_cases same : k' = k
      · rw [if_pos same, if_pos same, ← same, known, Option.map_some]
      · rw [if_neg same, if_neg same]

theorem keys_modify {f : α → α} (keeps : ∀ v, key (f v) = key v) (k : String) :
    (t.modify k f).keys = t.keys := by
  unfold modify
  cases known : t.find? k with
  | none => rfl
  | some v =>
    have place : key (f v) = k := (keeps v).trans (find?_key known)
    have stored : k ∈ t.keys := mem_keys_iff.2 (by rw [known]; rfl)
    -- no key is added, since the record that gives way has it
    simp only [keys_insert, place, if_pos stored]

/-- A map that finds what a table finds has as many records. -/
theorem size_of_find? {m : Std.HashMap String α} (same : ∀ k, m[k]? = t.find? k) :
    m.size = t.size := by
  have perm : m.keys.Perm t.keys := (List.perm_ext_iff_of_nodup Std.HashMap.nodup_keys t.nodup).2
    fun k => by
      rw [Std.HashMap.mem_keys, Std.HashMap.mem_iff_isSome_getElem?, same]
      exact mem_keys_iff.symm
  rw [← Std.HashMap.length_keys, perm.length_eq, keys, List.length_map, size]

/-- A table tells what its keys find. -/
theorem filterMap_keys (t : Table α) : t.keys.filterMap t.find? = t.entries := by
  rw [keys, List.filterMap_map]
  refine (List.filterMap_congr fun v hv => ?_).trans (List.filterMap_some)
  exact find?_of_mem hv

end Table

/-! ## A map and an order -/

/-- Records in a map, and their keys in an order besides. Nothing but the writes ties the two. -/
structure Index (α : Type) where
  records : Std.HashMap String α := ∅
  /-- The keys, oldest first. -/
  order : List String := []

namespace Index

variable {α : Type} [Keyed α]

/-- Stores a record. Its key goes to the end of the order unless the map has it already. -/
def add (x : Index α) (v : α) : Index α where
  records := x.records.insert (key v) v
  order := if key v ∈ x.records then x.order else x.order ++ [key v]

/-- Changes the record of a key where there is one. -/
def modify (x : Index α) (k : String) (f : α → α) : Index α :=
  { x with records := x.records.modify k f }

/-- A write on an index. -/
def touch (x : Index α) : Touch α → Index α
  | .add v => x.add v
  | .change k f => x.modify k f

theorem records_touch (x : Index α) (w : Touch α) : (x.touch w).records = w.onMap x.records := by
  cases w <;> rfl

/-- The records in the order of their keys. A key that has no record is passed over. -/
def list (x : Index α) : List α := x.order.filterMap (x.records[·]?)

/-- The index, the table and the history of their writes tell the same. -/
structure Told (x : Index α) (t : Table α) (ts : List (Touch α)) : Prop where
  order : x.order = t.keys
  records : ∀ k, x.records[k]? = t.find? k
  /-- The keys stand in order of their first records. -/
  firsts : t.keys = Touch.firsts ts
  latest : ∀ k, t.find? k = Touch.latest ts k

namespace Told

variable {x : Index α} {t : Table α} {ts : List (Touch α)}

theorem empty : Told ({} : Index α) .empty [] where
  order := rfl
  records _ := Std.HashMap.getElem?_empty
  firsts := rfl
  latest _ := rfl

/-- **A write keeps an index, the table and their history in step.** -/
theorem touch (h : Told x t ts) {w : Touch α} (keeps : w.Keeps) :
    Told (x.touch w) (t.touch w) (ts ++ [w]) where
  order := by
    cases w with
    | add v =>
      have same : key v ∈ x.records ↔ key v ∈ t.keys := by
        rw [Std.HashMap.mem_iff_isSome_getElem?, h.records, Table.mem_keys_iff]
      simp only [Index.touch, add, Table.touch, Table.keys_insert, same, h.order]
    | change k f => exact h.order.trans (Table.keys_modify keeps k).symm
  records k := by rw [records_touch, Touch.getElem?_onMap, Table.find?_touch keeps, h.records]
  firsts := by
    cases w with
    | add v => rw [Touch.firsts_concat_add, ← h.firsts, Table.touch, Table.keys_insert]
    | change k f =>
      rw [Touch.firsts_concat_change, ← h.firsts, Table.touch, Table.keys_modify keeps]
  latest k := by rw [Table.find?_touch keeps, Touch.latest_concat, h.latest]

/-- A write that may not be one of these records. -/
theorem touch? (h : Told x t ts) {w : Option (Touch α)} (keeps : ∀ v ∈ w, v.Keeps) :
    Told (w.elim x x.touch) (w.elim t t.touch) (ts ++ w.toList) := by
  cases w with
  | none => rwa [Option.toList_none, List.append_nil]
  | some w => exact h.touch (keeps w rfl)

theorem nodup (h : Told x t ts) : x.order.Nodup := h.order ▸ t.nodup

/-- **The order has the keys of the map and no other.** -/
theorem mem_order_iff (h : Told x t ts) (k : String) : k ∈ x.order ↔ k ∈ x.records := by
  rw [h.order, Table.mem_keys_iff, Std.HashMap.mem_iff_isSome_getElem?, h.records]

theorem list_eq (h : Told x t ts) : x.list = t.entries := by
  rw [list, h.order, ← t.filterMap_keys]
  exact List.filterMap_congr fun k _ => h.records k

/-- **The list has each record that was ever stored once, in its latest form, in order of the first
ones.** -/
theorem map_some_list (h : Told x t ts) :
    x.list.map some = (Touch.firsts ts).map (Touch.latest ts) := by
  rw [h.list_eq, ← h.firsts, Table.keys, List.map_map]
  refine List.map_congr_left fun v hv => ?_
  exact (Table.find?_of_mem hv).symm.trans (h.latest (key v))

/-- No record is lost between the map and the list. -/
theorem length_list (h : Told x t ts) : x.list.length = x.records.size := by
  rw [Table.size_of_find? h.records, h.list_eq, Table.size]

end Told

end Index

/-! ## The writes of the store -/

namespace Store

/-- A write of the store. -/
inductive Change where
  | addService (service : Service)
  | addCredential (c : Credential)
  | addUser (u : User)
  | addSession (x : Session)
  /-- A slot of a credential is taken if it has one to spare. -/
  | checkout (id : CredentialId) (now : Millis)
  /-- A slot of a credential is given back. -/
  | checkin (id : CredentialId)
  | disable (id : CredentialId)
  | rotate (id : CredentialId) (sealedSecret : String)
  /-- An event happens to a session. -/
  | happen (id : SessionId) (e : Session.Event)
  | appendUsage (r : UsageRecord)

namespace Change

/-- What a write does to services. -/
def service? : Change → Option (Touch Service)
  | addService service => some (.add service)
  | _ => none

/-- What a write does to credentials. -/
def credential? : Change → Option (Touch Credential)
  | addCredential c => some (.add c)
  | checkout id now => some (.change id fun c => if c.hasCapacity then c.occupy now else c)
  | checkin id => some (.change id .release)
  | disable id => some (.change id .disable)
  | rotate id sealedSecret => some (.change id (·.rotate sealedSecret))
  | _ => none

/-- What a write does to users. -/
def user? : Change → Option (Touch User)
  | addUser u => some (.add u)
  | _ => none

/-- What a write does to sessions, where `last` is the number of the last one. -/
def session? (last : UInt64) : Change → Option (Touch Session)
  | addSession x => some (.add { x with sequence := last + 1 })
  | happen id e => some (.change id fun x => (x.apply e).getD x)
  | _ => none

/-- The number of the last session after a write. -/
def sequence (last : UInt64) : Change → UInt64
  | addSession _ => last + 1
  | _ => last

/-- The ledger after a write. -/
def ledger (rs : List UsageRecord) : Change → List UsageRecord
  | appendUsage r => rs ++ [r]
  | _ => rs

theorem keeps_service {c : Change} : ∀ w ∈ c.service?, w.Keeps := by
  cases c <;> simp [service?, Touch.Keeps]

theorem keeps_user {c : Change} : ∀ w ∈ c.user?, w.Keeps := by
  cases c <;> simp [user?, Touch.Keeps]

theorem keeps_credential {c : Change} : ∀ w ∈ c.credential?, w.Keeps := by
  intro w hw
  cases c <;> simp only [credential?, Option.mem_def, Option.some.injEq, reduceCtorEq] at hw
    <;> subst hw
  case addCredential => trivial
  case checkout =>
    intro c
    dsimp only
    split <;> rfl
  all_goals exact fun _ => rfl

theorem key_getD_apply (e : Session.Event) (x : Session) : key ((x.apply e).getD x) = key x := by
  cases moved : x.apply e with
  | none => rfl
  | some y => exact (Session.fixed_apply moved).1

theorem keeps_session {c : Change} {last : UInt64} : ∀ w ∈ c.session? last, w.Keeps := by
  intro w hw
  cases c <;> simp only [session?, Option.mem_def, Option.some.injEq, reduceCtorEq] at hw
    <;> subst hw
  case addSession => trivial
  case happen id e => exact key_getD_apply e

end Change

/-- The store after a write. -/
def change (s : Store) : Change → Store
  | .addService service => s.addService service
  | .addCredential c => s.addCredential c
  | .addUser u => s.addUser u
  | .addSession x => (s.addSession x).2
  | .checkout id now => (s.checkout id now).2
  | .checkin id => s.checkin id
  | .disable id => (s.disable id).2
  | .rotate id sealedSecret => (s.rotate id sealedSecret).2
  | .happen id e => (s.applyEvent id e).2
  | .appendUsage r => s.appendUsage r

/-- The store that some writes make of the empty one. -/
def after (cs : List Change) : Store := cs.foldl change {}

theorem after_concat (cs : List Change) (c : Change) : after (cs ++ [c]) = (after cs).change c :=
  List.foldl_concat ..

variable {s : Store}

/-- An update of a credential in the form of a look and an insertion. -/
theorem modifyCredential_eq (s : Store) (id : CredentialId) (f : Credential → Credential) :
    ({ s with credentials := s.credentials.modify id f } : Store) =
      match s.credential? id with
      | none => s
      | some c => s.addCredential (f c) := by
  unfold Table.modify credential?
  cases s.credentials.find? id <;> rfl

theorem checkout_snd (s : Store) (id : CredentialId) (now : Millis) :
    (s.checkout id now).2 = { s with
      credentials :=
        s.credentials.modify id fun c => if c.hasCapacity then c.occupy now else c } := by
  rw [modifyCredential_eq, checkout]
  cases known : s.credential? id with
  | none => rfl
  | some c =>
    obtain rfl : c.id = id := Table.find?_key known
    dsimp only
    split
    · rfl
    · rw [addCredential, Table.insert_eq_self (v := c) known]

theorem applyEvent_snd (s : Store) (id : SessionId) (e : Session.Event) :
    (s.applyEvent id e).2 =
      { s with sessions := s.sessions.modify id fun x => (x.apply e).getD x } := by
  rw [applyEvent, session?, Table.modify]
  cases known : s.sessions.find? id with
  | none => rfl
  | some x =>
    obtain rfl : x.id = id := Table.find?_key known
    cases moved : x.apply e with
    | none => simp only [moved, Option.getD_none, Table.insert_eq_self (v := x) known]
    | some y => simp only [moved, Option.getD_some]

/-- **What a write does to each part of the store.** -/
theorem change_eq (s : Store) (c : Change) :
    s.change c =
      { services := c.service?.elim s.services s.services.touch
        credentials := c.credential?.elim s.credentials s.credentials.touch
        users := c.user?.elim s.users s.users.touch
        sessions := (c.session? s.sequence).elim s.sessions s.sessions.touch
        sequence := c.sequence s.sequence
        ledger := c.ledger s.ledger } := by
  cases c with
  | checkout id now => exact checkout_snd s id now
  | checkin id => exact (modifyCredential_eq s id .release).symm
  | disable id =>
    refine Eq.trans ?_ (modifyCredential_eq s id .disable).symm
    rw [change, disable]
    cases s.credential? id <;> rfl
  | rotate id sealedSecret =>
    refine Eq.trans ?_ (modifyCredential_eq s id (·.rotate sealedSecret)).symm
    rw [change, rotate]
    cases s.credential? id <;> rfl
  | happen id e => exact applyEvent_snd s id e
  | addService | addCredential | addUser | addSession | appendUsage => rfl

/-! ## Numbers of sessions -/

/-- The numbers of the stored sessions are apart and end with the last one given out. -/
structure Stamped (s : Store) : Prop where
  apart : s.Apart
  le : ∀ x ∈ s.sessions.entries, x.sequence ≤ s.sequence

/-- A number that is not the last word has a next one. -/
theorem toNat_add_one {n : UInt64} (fits : n.toNat + 1 < UInt64.size) :
    (n + 1).toNat = n.toNat + 1 := by
  rw [UInt64.toNat_add, UInt64.toNat_one]
  exact Nat.mod_eq_of_lt fits

/-- **While the numbers last, a write leaves them apart.** -/
theorem Stamped.change (h : s.Stamped) (c : Change) (lasts : s.sequence.toNat + 1 < UInt64.size) :
    (s.change c).Stamped := by
  have next := toNat_add_one lasts
  -- a number that came round again could be that of a stored session
  have below : ∀ x ∈ s.sessions.entries, x.sequence < s.sequence + 1 := fun x hx => by
    have := UInt64.le_iff_toNat_le.1 (h.le x hx)
    exact UInt64.lt_iff_toNat_lt.2 (by omega)
  cases c with
  | addSession x =>
    refine ⟨nodup_map_placeIn h.apart fun y hy same => ?_, fun y hy => ?_⟩
    · exact absurd (below y hy) (by rw [same]; exact UInt64.lt_irrefl _)
    · rcases mem_placeIn hy with rfl | hy
      · exact UInt64.le_refl _
      · exact UInt64.le_of_lt (below y hy)
  | happen id e =>
    rcases applyEvent_cases s id e with same | ⟨x, y, found, moved, after⟩
    · rwa [Store.change, same]
    · have number : y.sequence = x.sequence := (Session.fixed_apply moved).2.2.2.2
      rw [Store.change, after]
      refine ⟨h.apart.insert (session?_id_of_apply found moved) number, fun z hz => ?_⟩
      rcases mem_placeIn hz with rfl | hz
      · rw [number]
        exact h.le x (session?_eq_some_iff.1 found).1
      · exact h.le z hz
  | _ =>
    rw [change_eq]
    exact ⟨h.apart, h.le⟩

end Store

/-! ## The store in maps and orders -/

/-- The store in maps and orders. Sessions have no order of their own. -/
structure Inventory where
  services : Index Service := {}
  credentials : Index Credential := {}
  users : Index User := {}
  sessions : Std.HashMap SessionId Session := ∅
  sequence : UInt64 := 0
  ledger : List UsageRecord := []

namespace Inventory

/-- A write on maps and orders. -/
def change (x : Inventory) : Store.Change → Inventory
  | .addService service => { x with services := x.services.add service }
  | .addCredential c => { x with credentials := x.credentials.add c }
  | .addUser u => { x with users := x.users.add u }
  | .addSession y =>
    let stored := { y with sequence := x.sequence + 1 }
    { x with sessions := x.sessions.insert y.id stored, sequence := x.sequence + 1 }
  | .checkout id now =>
    { x with credentials :=
        x.credentials.modify id fun c => if c.hasCapacity then c.occupy now else c }
  | .checkin id => { x with credentials := x.credentials.modify id .release }
  | .disable id => { x with credentials := x.credentials.modify id .disable }
  | .rotate id sealedSecret =>
    { x with credentials := x.credentials.modify id (·.rotate sealedSecret) }
  | .happen id e => { x with sessions := x.sessions.modify id fun y => (y.apply e).getD y }
  | .appendUsage r => { x with ledger := x.ledger ++ [r] }

/-- What some writes make of nothing. -/
def after (cs : List Store.Change) : Inventory := cs.foldl change {}

/-- How much the maps hold. -/
def counts (x : Inventory) : Store.Counts where
  services := x.services.records.size
  credentials := x.credentials.records.size
  sessions := x.sessions.size
  usageRecords := x.ledger.length

/-- **What a write does to each map and its order.** -/
theorem change_eq (x : Inventory) (c : Store.Change) :
    x.change c =
      { services := c.service?.elim x.services x.services.touch
        credentials := c.credential?.elim x.credentials x.credentials.touch
        users := c.user?.elim x.users x.users.touch
        sessions := (c.session? x.sequence).elim x.sessions (·.onMap x.sessions)
        sequence := c.sequence x.sequence
        ledger := c.ledger x.ledger } := by
  cases c <;> rfl

/-- Maps and orders, the store and the history of their writes tell the same. -/
structure Told (x : Inventory) (s : Store) (cs : List Store.Change) : Prop where
  services : x.services.Told s.services (cs.filterMap (·.service?))
  credentials : x.credentials.Told s.credentials (cs.filterMap (·.credential?))
  users : x.users.Told s.users (cs.filterMap (·.user?))
  sessions : ∀ id, x.sessions[id]? = s.session? id
  sequence : x.sequence = s.sequence
  ledger : x.ledger = s.ledger

variable {x : Inventory} {s : Store} {cs : List Store.Change}

/-- **A write keeps maps and orders, the store and their history in step.** -/
theorem Told.change (h : x.Told s cs) (c : Store.Change) :
    (x.change c).Told (s.change c) (cs ++ [c]) := by
  have last {α : Type} (f : Store.Change → Option α) :
      (cs ++ [c]).filterMap f = cs.filterMap f ++ (f c).toList := by
    rw [List.filterMap_append]
    cases hc : f c <;> simp [hc]
  rw [change_eq, Store.change_eq]
  exact
    { services := by
        rw [last]
        exact h.services.touch? Store.Change.keeps_service
      credentials := by
        rw [last]
        exact h.credentials.touch? Store.Change.keeps_credential
      users := by
        rw [last]
        exact h.users.touch? Store.Change.keeps_user
      sessions := fun id => by
        rw [h.sequence]
        cases touched : c.session? s.sequence with
        | none => exact h.sessions id
        | some w =>
          have found := Table.find?_touch (t := s.sessions)
            (Store.Change.keeps_session w touched) id
          exact (Touch.getElem?_onMap x.sessions w id).trans
            ((congrArg (w.on id) (h.sessions id)).trans found.symm)
      sequence := congrArg c.sequence h.sequence
      ledger := congrArg c.ledger h.ledger }

/-- **After any history maps and orders are in step with the store.** -/
theorem told_after (cs : List Store.Change) : (after cs).Told (Store.after cs) cs := by
  induction cs using List.reverseRecOn with
  | nil =>
    exact ⟨.empty, .empty, .empty, fun _ => Std.HashMap.getElem?_empty, rfl, rfl⟩
  | append_singleton cs c ih =>
    rw [Store.after_concat, after, List.foldl_concat]
    exact ih.change c

theorem Told.counts (h : x.Told s cs) : x.counts = s.counts := by
  unfold Inventory.counts Store.counts
  rw [Table.size_of_find? h.services.records, Table.size_of_find? h.credentials.records,
    Table.size_of_find? (t := s.sessions) h.sessions, h.ledger]

end Inventory

/-- **After fewer writes than there are numbers the sessions have numbers apart.** -/
theorem Store.stamped_after {cs : List Change} (few : cs.length < UInt64.size) :
    (after cs).Stamped ∧ (after cs).sequence.toNat ≤ cs.length := by
  induction cs using List.reverseRecOn with
  | nil => exact ⟨⟨List.nodup_nil, fun x hx => nomatch hx⟩, Nat.le_refl _⟩
  | append_singleton cs c ih =>
    rw [List.length_append, List.length_singleton] at few ⊢
    obtain ⟨stamped, counted⟩ := ih (Nat.lt_of_succ_lt few)
    have lasts : (after cs).sequence.toNat + 1 < UInt64.size := by omega
    rw [after_concat]
    refine ⟨stamped.change c lasts, ?_⟩
    rw [change_eq]
    cases c with
    | addSession x => exact (toNat_add_one lasts).trans_le (Nat.succ_le_succ counted)
    | _ => exact Nat.le_succ_of_le counted

/-! ## The services that are told -/

namespace Http

open Json

variable {w : World}

/-- The status of every known service is told. -/
theorem outcome_statuses {services : List Service}
    (known : ∀ v ∈ services, w.store.service? v.id = some v) :
    (Public.statuses services).outcome w =
      (.ok (services.map fun v => View.status (w.store.status v)), w) := by
  induction services with
  | nil => rfl
  | cons v rest ih =>
    have here : (Handling.ofFailing (Broker.serviceStatus v.id)).outcome w =
        (.ok (w.store.status v), w) := by
      rw [Handling.outcome_ofFailing, run_serviceStatus, known v List.mem_cons_self,
        looks_serviceStatus]
      rfl
    rw [Public.statuses, Handling.outcome_bind_of_ok here, Handling.outcome_bind_of_ok
      (ih fun u hu => known u (List.mem_cons_of_mem v hu)), Handling.outcome_pure, List.map_cons]

/-- **Asking for all services is answered with the status of each.** -/
theorem run_handle_listServices {request : Request} (get : request.method = "GET")
    (path : pathPieces? request.path = some ["services"]) (w : World) :
    ((Public.handle request).run w).1 =
      .ofJson 200 (record [("services", list
        (w.store.services.entries.map fun v => View.status (w.store.status v)))]) := by
  have route : sought Public.routes request =
      some ({ template := [.word "services"], actions := [(.get, Public.listServices)] }, "") := by
    rw [sought, path]
    rfl
  have answered : (Public.listServices "" request).outcome w =
      (.ok (.ofJson 200 (record [("services", list
        (w.store.services.entries.map fun v => View.status (w.store.status v)))])), w) := by
    rw [Public.listServices, Handling.outcome_bind_of_ok (Handling.outcome_query ..),
      Handling.outcome_bind_of_ok (outcome_statuses fun v hv => Table.find?_of_mem hv),
      Handling.outcome_pure]
  rw [Public.handle, run_serve_of_action route (by rw [get]; rfl) rfl, answered]
  simp only [sent, get]
  rfl

end Http

/-! ## After any history -/

/-- What is promised of an index, beside the table that the store runs on and the history of its
writes. -/
structure Index.Exact {α : Type} [Keyed α] (x : Index α) (t : Table α) (ts : List (Touch α)) :
    Prop where
  /-- No key stands in the order twice. -/
  nodup : x.order.Nodup
  /-- The order has the keys of the map and no other. -/
  keys : ∀ k, k ∈ x.order ↔ k ∈ x.records
  /-- The list has the latest record of each key that was ever stored, once, in order of the first
  ones. -/
  latest : x.list.map some = (Touch.firsts ts).map (Touch.latest ts)
  /-- The list is that of the running table. -/
  list_eq : x.list = t.entries
  /-- A record is found under its key as in the running table. -/
  find? : ∀ k, x.records[k]? = t.find? k
  /-- No record of the map is missing from the list. -/
  length : x.list.length = x.records.size

theorem Index.Told.exact {α : Type} [Keyed α] {x : Index α} {t : Table α} {ts : List (Touch α)}
    (h : x.Told t ts) : x.Exact t ts :=
  ⟨h.nodup, h.mem_order_iff, h.map_some_list, h.list_eq, h.records, h.length_list⟩

/-- What is promised of the store in maps and orders after some writes. -/
structure Inventory.Exact (x : Inventory) (s : Store) (cs : List Store.Change) : Prop where
  services : x.services.Exact s.services (cs.filterMap (·.service?))
  credentials : x.credentials.Exact s.credentials (cs.filterMap (·.credential?))
  users : x.users.Exact s.users (cs.filterMap (·.user?))
  /-- The counts are those of the running store, and the lengths of the lists. -/
  counts : x.counts = s.counts ∧ x.services.list.length = x.counts.services ∧
    x.credentials.list.length = x.counts.credentials
  /-- A session is found as in the running store. -/
  sessions : ∀ id, x.sessions[id]? = s.session? id
  /-- No two sessions have the same number. -/
  apart : ∀ {id id' : SessionId} {y y' : Session}, x.sessions[id]? = some y →
    x.sessions[id']? = some y' → y.sequence = y'.sequence → id = id'
  /-- No session has a number past the last. -/
  last : ∀ {id : SessionId} {y : Session}, x.sessions[id]? = some y → y.sequence ≤ x.sequence
  /-- How the slots of a listed service stand is told. -/
  found : ∀ w : World, w.store = s → ∀ v ∈ x.services.list,
    (Broker.serviceStatus v.id).run w = (.ok (s.status v), w)
  /-- Asking for all services does not fail. -/
  listed : ∀ w : World, w.store = s → ∀ request : Http.Request, request.method = "GET" →
    Http.pathPieces? request.path = some ["services"] →
    ((Http.Public.handle request).run w).1 = .ofJson 200 (Json.record
      [("services", Json.list (x.services.list.map fun v => View.status (s.status v)))])

/-- **After fewer writes than there are numbers**, maps and orders are in step: each list has every
record that was ever stored once, in its latest form and in order of the first ones, every service
that is listed is found, and no two sessions have the same number. -/
theorem inventory_exact {cs : List Store.Change} (few : cs.length < UInt64.size) :
    (Inventory.after cs).Exact (Store.after cs) cs := by
  have told := Inventory.told_after cs
  have stamped := (Store.stamped_after few).1
  have counts := told.counts
  have stored : ∀ {id y}, (Inventory.after cs).sessions[id]? = some y →
      y ∈ (Store.after cs).sessions.entries ∧ y.id = id := fun found => by
    rw [told.sessions] at found
    exact Store.session?_eq_some_iff.1 found
  refine
    { services := told.services.exact
      credentials := told.credentials.exact
      users := told.users.exact
      counts := ⟨counts, told.services.length_list, told.credentials.length_list⟩
      sessions := told.sessions
      apart := fun found found' same => ?_
      last := fun found => told.sequence ▸ stamped.le _ (stored found).1
      found := fun w here v hv => ?_
      listed := fun w here request get path => ?_ }
  · obtain ⟨mem, rfl⟩ := stored found
    obtain ⟨mem', rfl⟩ := stored found'
    exact congrArg Session.id (List.inj_on_of_nodup_map stamped.apart mem mem' same)
  · rw [told.services.list_eq] at hv
    have known : w.store.service? v.id = some v := by
      rw [here]
      exact Table.find?_of_mem hv
    refine Prod.ext ?_ (looks_serviceStatus v.id w)
    rw [run_serviceStatus, known, here]
    rfl
  · rw [Http.run_handle_listServices get path, here, told.services.list_eq]

/-- Writes that store a service, a user and a session again under ids that are taken, and that
change a credential and a session in between. -/
def storedAgain : List Store.Change :=
  [.addService ⟨"b", "B", 100, 1, 60⟩, .addService ⟨"a", "A", 100, 1, 60⟩,
    .addCredential ⟨"c", "b", "house", "sealed", .basic, 1, .available, 0, none⟩,
    .addUser ⟨"u", "ann", 1⟩, .addUser ⟨"v", "bob", 2⟩,
    .addSession { id := "x", user := "u", service := "b", queuedAt := 3 },
    .addSession { id := "y", user := "v", service := "b", queuedAt := 4 },
    .checkout "c" 5, .checkout "c" 6, .happen "x" (.start "c" 5), .happen "y" (.expire 6),
    .addService ⟨"b", "B again", 200, 2, 60⟩, .addUser ⟨"u", "anna", 7⟩,
    .addSession { id := "x", user := "u", service := "a", queuedAt := 8 },
    .checkin "c", .rotate "c" "sealed again", .disable "c", .disable "d"]

theorem inventory_exact_storedAgain :
    (Inventory.after storedAgain).services.list =
      [⟨"b", "B again", 200, 2, 60⟩, ⟨"a", "A", 100, 1, 60⟩] ∧
    (Inventory.after storedAgain).credentials.list =
      [⟨"c", "b", "house", "sealed again", .basic, 1, .disabled, 0, some 5⟩] ∧
    (Inventory.after storedAgain).users.list = [⟨"u", "anna", 7⟩, ⟨"v", "bob", 2⟩] ∧
    (Inventory.after storedAgain).counts = ⟨2, 1, 2, 0⟩ ∧
    ((Inventory.after storedAgain).sessions["x"]?.map (·.sequence)) = some 3 ∧
    ((Inventory.after storedAgain).sessions["y"]?.map (·.sequence)) = some 2 := by
  have exact := inventory_exact (show storedAgain.length < UInt64.size by decide)
  rw [exact.services.list_eq, exact.credentials.list_eq, exact.users.list_eq, exact.counts.1,
    exact.sessions, exact.sessions]
  decide +kernel

end SlotBroker
