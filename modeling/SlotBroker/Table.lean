/-!
# Tables: keyed records in order of first insertion

A `Table` is a list of records in which no key occurs twice. `insert` puts a record in the place of
the one with its key, and at the end if there is none, so a record keeps the place of its first
insertion for good.

Results:
* `map_placeIn`, `nodup_map_placeIn`, `map_placeIn_comm`: how a view of the records sees one that is
  put in.
* `keys_insert`: insertion adds the key at the end if it is new and changes no key otherwise.
* **`find?_insert`**: after `insert v` the key of `v` finds `v`, and every other key finds what it
  found before.
* `find?_eq_some_iff`: a table finds exactly its entries, each under its own key.
-/

namespace SlotBroker

/-- A record that carries its own key. -/
class Keyed (α : Type) where
  /-- The key a record is stored under. -/
  key : α → String

open Keyed

variable {α : Type} [Keyed α]

/-- The list with `v` in the place of the first record that has its key, or else at the end. -/
def placeIn (v : α) : List α → List α
  | [] => [v]
  | x :: xs => if key x = key v then v :: xs else x :: placeIn v xs

theorem keys_placeIn (v : α) (xs : List α) :
    (placeIn v xs).map key = if key v ∈ xs.map key then xs.map key else xs.map key ++ [key v] := by
  induction xs with
  | nil => simp [placeIn]
  | cons x xs ih =>
    by_cases h : key x = key v
    · simp [placeIn, h]
    · have h' : ¬ key v = key x := fun e => h e.symm
      simp only [placeIn, if_neg h, List.map_cons, ih, List.mem_cons, h', false_or]
      split <;> simp

theorem nodup_placeIn (v : α) {xs : List α} (h : (xs.map key).Nodup) :
    ((placeIn v xs).map key).Nodup := by
  rw [keys_placeIn]
  split
  · exact h
  · rename_i hv
    exact List.nodup_append.2 ⟨h, by simp, by
      intro a ha b hb e
      rw [List.mem_singleton] at hb
      exact hv (hb ▸ e ▸ ha)⟩

/-- A record that is there already is put in its own place. -/
theorem placeIn_eq_self {v : α} {xs : List α}
    (h : xs.find? (fun x => decide (key x = key v)) = some v) : placeIn v xs = xs := by
  induction xs with
  | nil => cases h
  | cons x xs ih =>
    rw [List.find?_cons] at h
    rw [placeIn]
    by_cases same : key x = key v
    · simp only [same, decide_true, Option.some.injEq] at h
      rw [if_pos same, h]
    · simp only [same, decide_false] at h
      rw [if_neg same, ih h]

/-- Of two records of one key that are put in one after the other the second stays. -/
theorem placeIn_placeIn {u v : α} (same : key u = key v) (xs : List α) :
    placeIn v (placeIn u xs) = placeIn v xs := by
  induction xs with
  | nil => exact if_pos same
  | cons x xs ih =>
    by_cases here : key x = key v
    · rw [placeIn, if_pos (here.trans same.symm), placeIn, if_pos same, placeIn, if_pos here]
    · rw [placeIn, if_neg fun h => here (h.trans same), placeIn, if_neg here, ih, placeIn,
        if_neg here]

theorem find?_placeIn (v : α) (xs : List α) (k : String) :
    (placeIn v xs).find? (fun x => decide (key x = k)) =
      if key v = k then some v else xs.find? fun x => decide (key x = k) := by
  induction xs with
  | nil => simp only [placeIn, List.find?_cons, List.find?_nil]; split <;> simp_all
  | cons x xs ih =>
    by_cases h : key x = key v
    · rw [placeIn, if_pos h, List.find?_cons, List.find?_cons]
      by_cases hk : key v = k <;> simp [h, hk]
    · rw [placeIn, if_neg h, List.find?_cons, ih, List.find?_cons]
      by_cases hx : key x = k
      · have hv : ¬ key v = k := fun e => h (hx.trans e.symm)
        simp [hx, hv]
      · simp [hx]

/-- A record of a new key is put at the end. -/
theorem placeIn_of_new {v : α} {xs : List α}
    (new : xs.find? (fun x => decide (key x = key v)) = none) : placeIn v xs = xs ++ [v] := by
  induction xs with
  | nil => rfl
  | cons x xs ih =>
    rw [List.find?_eq_none] at new
    have h : ¬ key x = key v := by simpa using new x List.mem_cons_self
    rw [placeIn, if_neg h, ih (List.find?_eq_none.2 fun y hy => new y (List.mem_cons_of_mem _ hy)),
      List.cons_append]

theorem mem_placeIn {v x : α} {xs : List α} (h : x ∈ placeIn v xs) : x = v ∨ x ∈ xs := by
  induction xs with
  | nil => exact .inl (List.mem_singleton.1 h)
  | cons y ys ih =>
    rw [placeIn] at h
    split at h
    · exact (List.mem_cons.1 h).imp_right (List.mem_cons_of_mem y)
    · rcases List.mem_cons.1 h with rfl | h
      · exact .inr List.mem_cons_self
      · exact (ih h).imp_right (List.mem_cons_of_mem y)

section Views

variable {β : Type}

/-- A record that gives way to one of the same value leaves the values as they are. -/
theorem map_placeIn (f : α → β) {v x : α} {xs : List α}
    (found : xs.find? (fun y => decide (key y = key v)) = some x) (same : f v = f x) :
    (placeIn v xs).map f = xs.map f := by
  induction xs with
  | nil => cases found
  | cons y ys ih =>
    by_cases h : key y = key v
    · rw [List.find?_cons_of_pos (by simpa using h)] at found
      obtain rfl := Option.some.inj found
      rw [placeIn, if_pos h, List.map_cons, List.map_cons, same]
    · rw [List.find?_cons_of_neg (by simpa using h)] at found
      rw [placeIn, if_neg h, List.map_cons, List.map_cons, ih found]

/-- A record of a new value leaves the values apart, whether one of its key gives way or not. -/
theorem nodup_map_placeIn {f : α → β} {v : α} {xs : List α} (apart : (xs.map f).Nodup)
    (new : ∀ x ∈ xs, f x ≠ f v) : ((placeIn v xs).map f).Nodup := by
  induction xs with
  | nil => exact List.pairwise_singleton _ _
  | cons y ys ih =>
    rw [List.map_cons, List.nodup_cons] at apart
    have others : ∀ x ∈ ys, f x ≠ f v := fun x hx => new x (List.mem_cons_of_mem y hx)
    rw [placeIn]
    split
    · refine List.nodup_cons.2 ⟨fun used => ?_, apart.2⟩
      obtain ⟨x, hx, same⟩ := List.mem_map.1 used
      exact others x hx same
    · refine List.nodup_cons.2 ⟨fun used => ?_, ih apart.2 others⟩
      obtain ⟨x, hx, same⟩ := List.mem_map.1 used
      rcases mem_placeIn hx with rfl | hx
      · exact new y List.mem_cons_self same.symm
      · exact apart.1 (List.mem_map.2 ⟨x, hx, same⟩)

/-- A view that keeps the keys keeps the places. -/
theorem map_placeIn_comm [Keyed β] (f : α → β) (keys : ∀ x, key (f x) = key x) (v : α)
    (xs : List α) : (placeIn v xs).map f = placeIn (f v) (xs.map f) := by
  induction xs with
  | nil => rfl
  | cons x xs ih =>
    rw [placeIn, List.map_cons, placeIn, keys, keys]
    split
    · rw [List.map_cons]
    · rw [List.map_cons, ih]

end Views

variable (α) in
/-- Records under distinct keys, in order of first insertion. -/
structure Table where
  /-- The records, oldest key first. -/
  entries : List α
  /-- No key occurs twice. -/
  nodup : (entries.map key).Nodup

namespace Table

/-- The table without records. -/
def empty : Table α := ⟨[], List.nodup_nil⟩

instance : Inhabited (Table α) := ⟨empty⟩

/-- The record stored under a key. -/
def find? (t : Table α) (k : String) : Option α :=
  t.entries.find? fun x => decide (key x = k)

/-- Stores a record, in the place of the one that has its key if there is one. -/
def insert (t : Table α) (v : α) : Table α := ⟨placeIn v t.entries, nodup_placeIn v t.nodup⟩

/-- The keys, oldest first. -/
def keys (t : Table α) : List String := t.entries.map key

/-- The number of records. -/
def size (t : Table α) : Nat := t.entries.length

@[ext] theorem ext {s t : Table α} (h : s.entries = t.entries) : s = t := by
  cases s; cases t; cases h; rfl

@[simp] theorem entries_empty : (empty : Table α).entries = [] := rfl

@[simp] theorem find?_empty (k : String) : (empty : Table α).find? k = none := rfl

@[simp] theorem keys_insert (t : Table α) (v : α) :
    (t.insert v).keys = if key v ∈ t.keys then t.keys else t.keys ++ [key v] :=
  keys_placeIn v t.entries

@[simp] theorem find?_insert (t : Table α) (v : α) (k : String) :
    (t.insert v).find? k = if key v = k then some v else t.find? k :=
  find?_placeIn v t.entries k

theorem insert_eq_self {t : Table α} {v : α} (h : t.find? (key v) = some v) : t.insert v = t :=
  ext (placeIn_eq_self h)

theorem insert_insert (t : Table α) {u v : α} (same : key u = key v) :
    (t.insert u).insert v = t.insert v :=
  ext (placeIn_placeIn same t.entries)

theorem find?_key {t : Table α} {k : String} {v : α} (h : t.find? k = some v) : key v = k := by
  simpa using List.find?_some h

theorem mem_of_find? {t : Table α} {k : String} {v : α} (h : t.find? k = some v) :
    v ∈ t.entries :=
  List.mem_of_find?_eq_some h

theorem find?_of_mem {t : Table α} {v : α} (h : v ∈ t.entries) : t.find? (key v) = some v := by
  obtain ⟨xs, hn⟩ := t
  simp only [find?] at h ⊢
  induction xs with
  | nil => cases h
  | cons x xs ih =>
    simp only [List.map_cons, List.nodup_cons, List.mem_map, not_exists, not_and] at hn
    rw [List.find?_cons]
    rcases List.mem_cons.1 h with rfl | h
    · simp
    · have hx : ¬ key x = key v := fun e => hn.1 v h e.symm
      simp only [hx, decide_false]
      exact ih hn.2 h

theorem find?_eq_some_iff {t : Table α} {k : String} {v : α} :
    t.find? k = some v ↔ v ∈ t.entries ∧ key v = k :=
  ⟨fun h => ⟨mem_of_find? h, find?_key h⟩, fun h => h.2 ▸ find?_of_mem h.1⟩

end Table

end SlotBroker
