import Mathlib
import SlotBroker.Proofs.QueueOrder

/-!
# The part of the store that belongs to one service

All services share one table of credentials, one of sessions, one counter and one ledger.
`Store.part s a` is what `s` holds of the service `a`: its definition, its credentials, its sessions
and its records, each in the order of the store. Sessions stand there without their numbers, since
the counter is shared. While the numbers ascend, the order of storing says all that they say.

Results:
* `part_addService`, `part_addCredential`, `part_insertSession`, `part_appendUsage`: what is written
  changes the part of the service that it belongs to, and no other.
* `session?_of_part_eq`, `credential?_of_part_eq`: what belongs to a service is found wherever the
  part of the service is the same.
* **`map_sessionsMatching`**: lists of sessions of one service are sorted the same without the
  numbers.
* `Numbered.ascending`, **`Ascending.projection_eq`**: while some id is left the numbers ascend, and
  then the order of the numbers is that of storing.
-/

namespace SlotBroker

/-! ## Sessions without their numbers -/

namespace Session

/-- The session without its number. -/
def unnumbered (x : Session) : Session := { x with sequence := 0 }

@[simp] theorem id_unnumbered (x : Session) : x.unnumbered.id = x.id := rfl

variable {x y x' : Session} {e : Event}

/-- Events do not care for numbers. -/
theorem apply_unnumbered (x : Session) (e : Event) :
    x.unnumbered.apply e = (x.apply e).map unnumbered := by
  simp only [apply, unnumbered, Option.map_map]
  cases e <;> rfl

/-- Sessions that are the same but for their numbers. -/
theorem eq_of_unnumbered_eq (h : x.unnumbered = x'.unnumbered) :
    x' = { x with sequence := x'.sequence } := by
  cases x
  cases x'
  cases h
  rfl

/-- What happens to a session happens to the same session under another number. -/
theorem apply_of_unnumbered_eq (h : x.unnumbered = x'.unnumbered) (moved : x.apply e = some y) :
    ∃ y', x'.apply e = some y' ∧ y.unnumbered = y'.unnumbered := by
  have both : x.unnumbered.apply e = x'.unnumbered.apply e := by rw [h]
  rw [apply_unnumbered, apply_unnumbered, moved, Option.map_some] at both
  obtain ⟨y', moved', same⟩ := Option.map_eq_some_iff.1 both.symm
  exact ⟨y', moved', same.symm⟩

theorem apply_eq_none_of_unnumbered_eq (h : x.unnumbered = x'.unnumbered)
    (ignored : x.apply e = none) : x'.apply e = none := by
  have both : x.unnumbered.apply e = x'.unnumbered.apply e := by rw [h]
  rw [apply_unnumbered, apply_unnumbered, ignored, Option.map_none] at both
  exact Option.map_eq_none_iff.1 both.symm

/-- The session asked no later. -/
def askedBy (x y : Session) : Bool := x.queuedAt ≤ y.queuedAt

end Session

/-! ## Some of the records -/

section Tables

variable {α : Type} [Keyed α]

/-- Among some of the records a key finds what it finds in the table, if that is among them. -/
theorem Table.find?_filter (t : Table α) (p : α → Bool) (k : String) :
    (t.entries.filter p).find? (fun x => decide (Keyed.key x = k)) = (t.find? k).filter p := by
  have some : ((t.entries.filter p).map Keyed.key).Nodup :=
    t.nodup.sublist (List.filter_sublist.map _)
  ext v
  change Table.find? ⟨t.entries.filter p, some⟩ k = .some v ↔ _
  rw [Table.find?_eq_some_iff, Option.filter_eq_some_iff, Table.find?_eq_some_iff, List.mem_filter]
  exact and_right_comm

/-- A record that is found stands alone between the records of other keys. -/
theorem Table.split_of_find? {t : Table α} {k : String} {v : α} (found : t.find? k = some v) :
    ∃ xs ys, t.entries = xs ++ v :: ys ∧ (∀ x ∈ xs, Keyed.key x ≠ k) ∧
      ∀ y ∈ ys, Keyed.key y ≠ k := by
  obtain ⟨here, xs, ys, split, before⟩ := List.find?_eq_some_iff_append.1 found
  refine ⟨xs, ys, split, fun x hx => by simpa using before x hx, fun y hy same => ?_⟩
  have distinct := t.nodup
  rw [split, List.map_append, List.map_cons, List.nodup_append] at distinct
  refine (List.nodup_cons.1 distinct.2.1).1 (List.mem_map.2 ⟨y, hy, same.trans ?_⟩)
  exact (of_decide_eq_true here).symm

/-- A record that gives way to one of the same kind changes the records of that kind alone. -/
theorem filter_placeIn (p : α → Bool) (v : α) (xs : List α)
    (same : ∀ x ∈ xs, Keyed.key x = Keyed.key v → p x = p v) :
    (placeIn v xs).filter p = if p v = true then placeIn v (xs.filter p) else xs.filter p := by
  induction xs with
  | nil => cases hv : p v <;> simp [placeIn, hv]
  | cons x xs ih =>
    have here := same x List.mem_cons_self
    have rest := ih fun y hy => same y (List.mem_cons_of_mem x hy)
    by_cases h : Keyed.key x = Keyed.key v
    · have kind := here h
      rw [placeIn, if_pos h]
      cases hv : p v
      · simp [hv, kind]
      · simp [hv, kind, placeIn, h]
    · rw [placeIn, if_neg h, List.filter_cons, rest, List.filter_cons]
      cases hx : p x <;> cases hv : p v <;> simp [placeIn, h]

end Tables

/-! ## Parts -/

/-- What belongs to one service. -/
structure Part where
  definition : Option Service := none
  /-- In order of issue. -/
  credentials : List Credential := []
  /-- In order of storing, without their numbers. -/
  sessions : List Session := []
  /-- In ledger order. -/
  records : List UsageRecord := []

namespace Part

/-- The part with a credential in its place. -/
def putCredential (p : Part) (c : Credential) : Part :=
  { p with credentials := placeIn c p.credentials }

/-- The part with a session in its place. -/
def putSession (p : Part) (x : Session) : Part := { p with sessions := placeIn x p.sessions }

/-- The part with one more record. -/
def addRecord (p : Part) (r : UsageRecord) : Part := { p with records := p.records ++ [r] }

end Part

namespace Store

/-- The part of the store that belongs to a service. -/
def part (s : Store) (a : ServiceId) : Part where
  definition := s.service? a
  credentials := s.credentialsOf a
  sessions := (s.sessions.entries.filter fun x => x.service = a).map Session.unnumbered
  records := s.ledger.filter fun r => r.service = a

variable {s t : Store} {a : ServiceId}

/-! ### What is written -/

theorem part_addService (s : Store) (d : Service) (a : ServiceId) :
    (s.addService d).part a =
      if d.id = a then { s.part a with definition := some d } else s.part a := by
  have found : (s.addService d).service? a = if d.id = a then some d else s.service? a :=
    Table.find?_insert s.services d a
  unfold part
  rw [found]
  split <;> rfl

/-- A credential that gives way to one of the same service changes the part of that service. -/
theorem part_addCredential {c : Credential}
    (same : ∀ d, s.credential? c.id = some d → d.service = c.service) (a : ServiceId) :
    (s.addCredential c).part a =
      if c.service = a then (s.part a).putCredential c else s.part a := by
  have placed : (s.addCredential c).credentialsOf a =
      if c.service = a then placeIn c (s.credentialsOf a) else s.credentialsOf a := by
    have kinds := filter_placeIn (fun d : Credential => decide (d.service = a)) c
      s.credentials.entries fun d hd key => by
        rw [same d (credential?_eq_some_iff.2 ⟨hd, key⟩)]
    simp only [decide_eq_true_eq] at kinds
    exact kinds
  unfold part
  rw [placed]
  split <;> rfl

/-- A session that gives way to one of the same service changes the part of that service. -/
theorem part_insertSession {y : Session}
    (same : ∀ x, s.session? y.id = some x → x.service = y.service) (a : ServiceId) :
    Store.part { s with sessions := s.sessions.insert y } a =
      if y.service = a then (s.part a).putSession y.unnumbered else s.part a := by
  have kinds := filter_placeIn (fun x : Session => decide (x.service = a)) y
    s.sessions.entries fun x hx key => by
      rw [same x (session?_eq_some_iff.2 ⟨hx, key⟩)]
  simp only [decide_eq_true_eq] at kinds
  have placed : ((placeIn y s.sessions.entries).filter fun x => decide (x.service = a)).map
      Session.unnumbered =
        if y.service = a then placeIn y.unnumbered (s.part a).sessions
        else (s.part a).sessions := by
    rw [kinds]
    split
    · exact map_placeIn_comm Session.unnumbered Session.id_unnumbered y _
    · rfl
  refine (congrArg (fun sessions => { s.part a with sessions := sessions }) placed).trans ?_
  split <;> rfl

theorem part_appendUsage (s : Store) (r : UsageRecord) (a : ServiceId) :
    (s.appendUsage r).part a = if r.service = a then (s.part a).addRecord r else s.part a := by
  have appended : (s.ledger ++ [r]).filter (fun r => r.service = a) =
      if r.service = a then (s.part a).records ++ [r] else (s.part a).records := by
    rw [List.filter_append, List.filter_cons]
    by_cases h : r.service = a <;> simp [h, part]
  refine (congrArg (fun records => { s.part a with records := records }) appended).trans ?_
  split <;> rfl

/-- A new session changes the part of its service. -/
theorem part_addSession {x : Session} (fresh : s.session? x.id = none) (a : ServiceId) :
    (s.addSession x).2.part a =
      if x.service = a then (s.part a).putSession x.unnumbered else s.part a :=
  part_insertSession (y := { x with sequence := s.sequence + 1 })
    (fun y hy => by cases fresh.symm.trans hy) a

/-! ### What is looked up -/

theorem find?_part_sessions (s : Store) (a : ServiceId) (id : SessionId) :
    ((s.part a).sessions.find? fun x => decide (Keyed.key x = id)) =
      ((s.session? id).filter fun x => x.service = a).map Session.unnumbered := by
  rw [session?, ← Table.find?_filter s.sessions, part, List.find?_map]
  rfl

/-- A session that belongs to a service is known wherever the part of the service is the same. -/
theorem session?_of_part_eq (h : s.part a = t.part a) {id : SessionId} {x : Session}
    (found : s.session? id = some x) (asks : x.service = a) :
    ∃ x', t.session? id = some x' ∧ x'.service = a ∧ x.unnumbered = x'.unnumbered := by
  have here := s.find?_part_sessions a id
  have there := t.find?_part_sessions a id
  rw [found, Option.filter_some, if_pos (decide_eq_true asks), h, there] at here
  obtain ⟨x', hx', same⟩ := Option.map_eq_some_iff.1 here
  obtain ⟨found', asks'⟩ := Option.filter_eq_some_iff.1 hx'
  exact ⟨x', found', of_decide_eq_true asks', same.symm⟩

theorem find?_part_credentials (s : Store) (a : ServiceId) (id : CredentialId) :
    ((s.part a).credentials.find? fun c => decide (Keyed.key c = id)) =
      (s.credential? id).filter fun c => c.service = a :=
  s.credentials.find?_filter (fun c => decide (c.service = a)) id

/-- A credential that belongs to a service is known wherever the part of the service is the same. -/
theorem credential?_of_part_eq (h : s.part a = t.part a) {id : CredentialId} {c : Credential}
    (known : s.credential? id = some c) (serves : c.service = a) : t.credential? id = some c := by
  have here := s.find?_part_credentials a id
  rw [known, Option.filter_some, if_pos (decide_eq_true serves), h, find?_part_credentials] at here
  exact (Option.filter_eq_some_iff.1 here).1

theorem service?_of_part_eq (h : s.part a = t.part a) : s.service? a = t.service? a :=
  congrArg Part.definition h

theorem credentialsOf_of_part_eq (h : s.part a = t.part a) :
    s.credentialsOf a = t.credentialsOf a :=
  congrArg Part.credentials h

theorem available_of_part_eq (h : s.part a = t.part a) : s.available a = t.available a := by
  rw [available_eq_filter, available_eq_filter, credentialsOf_of_part_eq h]

/-! ### Lists of sessions -/

/-- The sessions are stored in the order of their numbers, and no two have the same one. -/
def Ascending (s : Store) : Prop :=
  s.sessions.entries.Pairwise fun x y => x.sequence < y.sequence

/-- **Where the numbers ascend, sessions are sorted by the time of asking**, those who asked at the
same time in the order of storing. -/
theorem Ascending.sessionsMatching_eq (h : s.Ascending) (p : Session → Bool) :
    s.sessionsMatching p = (s.sessions.entries.filter p).mergeSort Session.askedBy := by
  have ascending : (s.sessions.entries.filter p).Pairwise fun x y => x.sequence < y.sequence :=
    List.Pairwise.sublist List.filter_sublist h
  unfold sessionsMatching
  generalize s.sessions.entries.filter p = xs at ascending
  have climbs : ∀ {x y : Session} {m n : Nat}, (x, m) ∈ xs.zipIdx → (y, n) ∈ xs.zipIdx → m < n →
      x.sequence < y.sequence := by
    intro x y m n hx hy lt
    obtain ⟨hm, xm⟩ := List.mem_zipIdx' hx
    obtain ⟨hn, yn⟩ := List.mem_zipIdx' hy
    rw [xm, yn]
    exact List.pairwise_iff_getElem.1 ascending m n hm hn lt
  -- a place in the list says the same as a number
  have places : ∀ i ∈ xs.zipIdx, ∀ j ∈ xs.zipIdx,
      List.zipIdxLE Session.askedBy i j = i.1.before j.1 := by
    rintro ⟨x, m⟩ hx ⟨y, n⟩ hy
    have order : x.sequence ≤ y.sequence ↔ m ≤ n := by
      rcases Nat.lt_trichotomy m n with lt | rfl | gt
      · exact iff_of_true (UInt64.le_of_lt (climbs hx hy lt)) lt.le
      · obtain ⟨-, xm⟩ := List.mem_zipIdx' hx
        obtain ⟨-, ym⟩ := List.mem_zipIdx' hy
        rw [xm, ym]
        exact iff_of_true (UInt64.le_refl _) le_rfl
      · exact iff_of_false (UInt64.not_le.2 (climbs hy hx gt)) gt.not_ge
    rw [Bool.eq_iff_iff, Session.before_iff, order, List.zipIdxLE, Session.askedBy]
    simp only [Session.askedBy, UInt64.lt_iff_toNat_lt, UInt64.le_iff_toNat_le,
      ← UInt64.toNat_inj, decide_eq_true_eq]
    grind
  have sorted := List.map_mergeSort places
  rwa [List.mergeSort_zipIdx, List.zipIdx_map_fst, eq_comm] at sorted

/-- **Lists of sessions of one service are sorted the same without the numbers.** -/
theorem map_sessionsMatching (h : s.Ascending) {p : Session → Bool}
    (asks : ∀ x ∈ s.sessions.entries, p x = true → x.service = a)
    (plain : ∀ x : Session, p x.unnumbered = p x) :
    (s.sessionsMatching p).map Session.unnumbered =
      ((s.part a).sessions.filter p).mergeSort Session.askedBy := by
  have compatible : ∀ x ∈ s.sessions.entries.filter p, ∀ y ∈ s.sessions.entries.filter p,
      x.askedBy y = x.unnumbered.askedBy y.unnumbered := fun _ _ _ _ => rfl
  rw [h.sessionsMatching_eq, List.map_mergeSort compatible, part, List.filter_map,
    List.filter_filter]
  congr 2
  refine List.filter_congr fun x hx => ?_
  rw [Function.comp_apply, plain]
  cases hp : p x with
  | false => rfl
  | true => rw [Bool.true_and, decide_eq_true (asks x hx hp)]

theorem queue_of_part_eq (h : s.part a = t.part a) (ascends : s.Ascending)
    (ascends' : t.Ascending) :
    (s.queue a).map Session.unnumbered = (t.queue a).map Session.unnumbered := by
  have asks : ∀ u : Store, ∀ x ∈ u.sessions.entries, x.waitsFor a = true → x.service = a :=
    fun u x _ waits => by
      simp only [Session.waitsFor, Bool.and_eq_true, decide_eq_true_eq] at waits
      exact waits.2
  rw [queue, queue, map_sessionsMatching ascends (asks s) fun _ => rfl,
    map_sessionsMatching ascends' (asks t) fun _ => rfl, h]

theorem queueDepth_of_part_eq (h : s.part a = t.part a) (ascends : s.Ascending)
    (ascends' : t.Ascending) : s.queueDepth a = t.queueDepth a := by
  have lengths := congrArg List.length (queue_of_part_eq h ascends ascends')
  rwa [List.length_map, List.length_map, ← queueDepth_eq_length, ← queueDepth_eq_length] at lengths

/-- A session that holds a slot of a credential is one of the credential's service. -/
theorem Coherent.service_of_holds (h : s.Coherent) {c : Credential} {x : Session}
    (known : s.credential? c.id = some c) (stored : x ∈ s.sessions.entries)
    (holds : x.holds c.id = true) : x.service = c.service := by
  simp only [Session.holds, Bool.and_eq_true, decide_eq_true_eq] at holds
  obtain ⟨d, hd, serves⟩ := h.bound (session?_eq_some_iff.2 ⟨stored, rfl⟩) holds.2
  obtain rfl := Option.some.inj (known.symm.trans hd)
  exact serves.symm

theorem sessionsHolding_of_part_eq (h : s.part a = t.part a) (coherent : s.Coherent)
    (coherent' : t.Coherent) (ascends : s.Ascending) (ascends' : t.Ascending) {c : Credential}
    (known : s.credential? c.id = some c) (serves : c.service = a) :
    (s.sessionsHolding c.id).map Session.unnumbered =
      (t.sessionsHolding c.id).map Session.unnumbered := by
  have known' := credential?_of_part_eq h known serves
  rw [sessionsHolding, sessionsHolding,
    map_sessionsMatching ascends (fun x hx holds =>
      (coherent.service_of_holds known hx holds).trans serves) fun _ => rfl,
    map_sessionsMatching ascends' (fun x hx holds =>
      (coherent'.service_of_holds known' hx holds).trans serves) fun _ => rfl, h]

/-! ### The numbers -/

/-- While some id is not in use, the numbers ascend. -/
theorem Numbered.ascending (h : s.Numbered) {word : UInt64}
    (unused : s.session? (Ident.hex Ident.longDigits word) = none) : s.Ascending := by
  have room := h.size_lt unused
  have numbers : (s.sessions.entries.map (·.sequence)).Pairwise (· < ·) := by
    rw [h.inOrder, List.pairwise_map]
    refine List.pairwise_lt_range.imp_of_mem fun {m n} _ hn lt => ?_
    rw [List.mem_range] at hn
    rw [UInt64.lt_iff_toNat_lt, UInt64.toNat_ofNat', UInt64.toNat_ofNat']
    omega
  exact List.pairwise_map.1 numbers

theorem Ascending.of_eq (h : s.Ascending) (same : t.sessions = s.sessions) : t.Ascending := by
  unfold Ascending
  rwa [same]

/-- An event leaves a session its number. -/
theorem Ascending.of_apply (h : s.Ascending) {id : SessionId} {x y : Session} {e : Session.Event}
    (found : s.session? id = some x) (moved : x.apply e = some y) :
    Store.Ascending { s with sessions := s.sessions.insert y } := by
  have numbers := map_placeIn (·.sequence) (v := y) (session?_id_of_apply found moved)
    (Session.fixed_apply moved).2.2.2.2
  have climbs : ((placeIn y s.sessions.entries).map (·.sequence)).Pairwise (· < ·) := by
    rw [numbers]
    exact List.pairwise_map.2 h
  exact List.pairwise_map.1 climbs

/-- What belongs to a service, its sessions in the order of their numbers. -/
def projection (s : Store) (a : ServiceId) : Part :=
  { s.part a with
    sessions := ((s.sessions.entries.filter fun x => x.service = a).mergeSort fun x y =>
      x.sequence ≤ y.sequence).map Session.unnumbered }

/-- **Sessions in the order of their numbers are sessions in the order of storing.** -/
theorem Ascending.projection_eq (h : s.Ascending) (a : ServiceId) :
    s.projection a = s.part a := by
  have sorted : (s.sessions.entries.filter fun x => x.service = a).Pairwise fun x y =>
      decide (x.sequence ≤ y.sequence) = true :=
    (List.Pairwise.sublist List.filter_sublist h).imp fun lt => decide_eq_true (UInt64.le_of_lt lt)
  unfold projection
  rw [List.mergeSort_of_pairwise sorted]
  rfl

end Store

end SlotBroker
