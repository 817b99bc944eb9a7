import SlotBroker.Proofs.Counters

/-!
# What the status of a service promises

Two ways of counting free slots stand side by side. A request looks for a credential that has one.
The status of a service takes the slots that are held from the slots of the credentials that are not
disabled, for the whole service at once, so that what is still held on disabled credentials hides as
many free slots of the others.

Results:
* `run_requestEach`: the requests that are admitted at once are the first ones, as many as there are
  spare slots.
* **`status_promises`**: the status shows the spare slots less those that are held on disabled
  credentials.
* `spare_slot_hidden`: so it may show none where the next request is admitted.
-/

namespace SlotBroker

/-! ## Sums over credentials -/

/-- What a record that is put into its place adds to a sum, and what the one before it took. -/
theorem sum_placeIn {α : Type} [Keyed α] (f : α → Nat) (v : α) (xs : List α) :
    ((placeIn v xs).map f).sum +
        ((xs.find? fun x => decide (Keyed.key x = Keyed.key v)).elim 0 f) =
      (xs.map f).sum + f v := by
  induction xs with
  | nil => simp [placeIn]
  | cons x xs ih =>
    by_cases h : Keyed.key x = Keyed.key v
    · rw [placeIn, if_pos h, List.find?_cons_of_pos (by simpa using h), Option.elim_some]
      simp only [List.map_cons, List.sum_cons]
      omega
    · rw [placeIn, if_neg h, List.find?_cons_of_neg (by simpa using h)]
      simp only [List.map_cons, List.sum_cons]
      omega

theorem sum_map_filter {α : Type} (p : α → Bool) (f : α → Nat) (xs : List α) :
    ((xs.filter p).map f).sum = (xs.map fun x => if p x = true then f x else 0).sum := by
  induction xs with
  | nil => rfl
  | cons x xs ih =>
    rw [List.filter_cons]
    split <;> simp_all

/-- A slot that is checked out is spare no more. -/
theorem Credential.spareSlots_occupy {c : Credential} (capacity : c.hasCapacity = true)
    (taken : Millis) : (c.occupy taken).spareSlots.toNat + 1 = c.spareSlots.toNat := by
  obtain ⟨enabled, free⟩ := (hasCapacity_iff c).1 capacity
  have lt := UInt32.lt_iff_toNat_lt.1 free
  have more := (active_occupy taken capacity).1
  have before : c.spareSlots.toNat = c.maxStreams.toNat - c.active.toNat := by
    rw [spareSlots, if_neg enabled, toNat_fewer]
  have after : (c.occupy taken).spareSlots.toNat = c.maxStreams.toNat - (c.active.toNat + 1) := by
    rw [spareSlots, if_neg (by simp [occupy]), toNat_fewer, more]
    rfl
  omega

namespace Store

/-- The sum of a quantity over the credentials of a service. -/
def tally (s : Store) (service : ServiceId) (f : Credential → Nat) : Nat :=
  ((s.credentialsOf service).map f).sum

/-- The slots of a service that can be checked out. -/
def spareSlots (s : Store) (service : ServiceId) : Nat := s.tally service (·.spareSlots.toNat)

/-- All slots of a service, also those of disabled credentials. -/
def slots (s : Store) (service : ServiceId) : Nat := s.tally service (·.maxStreams.toNat)

/-- The slots of a service but for those of disabled credentials. -/
def openSlots (s : Store) (service : ServiceId) : Nat :=
  s.tally service fun c => if c.state = .disabled then 0 else c.maxStreams.toNat

/-- The slots of a service that running sessions still hold on disabled credentials. -/
def draining (s : Store) (service : ServiceId) : Nat :=
  s.tally service fun c => if c.state = .disabled then s.holders c.id else 0

variable {s : Store} {service : ServiceId} {f g : Credential → Nat}

theorem tally_addCredential (s : Store) (service : ServiceId) (f : Credential → Nat)
    (v : Credential) :
    (s.addCredential v).tally service f +
        ((s.credential? v.id).elim 0 fun c => if c.service = service then f c else 0) =
      s.tally service f + if v.service = service then f v else 0 := by
  have sum := sum_placeIn (fun c : Credential => if c.service = service then f c else 0) v
    s.credentials.entries
  unfold tally credentialsOf
  rw [sum_map_filter, sum_map_filter]
  simp only [decide_eq_true_eq]
  exact sum

theorem tally_add : s.tally service (fun c => f c + g c) = s.tally service f + s.tally service g :=
  List.sum_map_add

theorem tally_congr (h : ∀ c, s.credential? c.id = some c → f c = g c) :
    s.tally service f = s.tally service g :=
  congrArg List.sum (List.map_congr_left fun c hc =>
    h c (credential?_eq_some_iff.2 ⟨(List.mem_filter.1 hc).1, rfl⟩))

theorem tally_le (h : ∀ c, s.credential? c.id = some c → f c ≤ g c) :
    s.tally service f ≤ s.tally service g :=
  List.sum_le_sum fun c hc => h c (credential?_eq_some_iff.2 ⟨(List.mem_filter.1 hc).1, rfl⟩)

/-- No slot is spare exactly if no credential has capacity. -/
theorem spareSlots_eq_zero_iff : s.spareSlots service = 0 ↔ s.available service = [] := by
  rw [available_eq_filter, List.filter_eq_nil_iff, spareSlots, tally, List.sum_eq_zero_iff]
  simp only [List.mem_map, forall_exists_index, and_imp, forall_apply_eq_imp_iff₂]
  refine forall₂_congr fun c _ => ?_
  rw [Credential.hasCapacity_iff_spareSlots]
  omega

/-- Of a service, too, a slot that is checked out is spare no more. -/
theorem spareSlots_occupy {c : Credential} (spare : c ∈ s.available service) (taken : Millis) :
    (s.addCredential (c.occupy taken)).spareSlots service + 1 = s.spareSlots service := by
  obtain ⟨known, asks, capacity⟩ := mem_available.1 spare
  have sum := tally_addCredential s service (·.spareSlots.toNat) (c.occupy taken)
  have fewer := Credential.spareSlots_occupy capacity taken
  rw [c.id_occupy, known, Option.elim_some, if_pos asks,
    if_pos (show (c.occupy _).service = service from asks)] at sum
  unfold spareSlots
  omega

end Store

/-! ## Requests in a row -/

/-- The request came back with a running session. -/
def isAdmitted : Except Failure Session → Bool
  | .ok x => x.state = .active
  | .error _ => false

/-- Some users ask for a service, one after the other. -/
def requestEach (service : ServiceId) : List UserId → World → List (Except Failure Session) × World
  | [], w => ([], w)
  | user :: rest, w =>
    let r := (Broker.requestSession user service).run w
    let rs := requestEach service rest r.2
    (r.1 :: rs.1, rs.2)

section Requests

variable {w : World} {service : ServiceId} {definition : Service}

/-- A request is admitted at once exactly if a slot is spare, and takes one then. -/
theorem requestSession_takes (user : UserId) (known : w.store.service? service = some definition) :
    let r := (Broker.requestSession user service).run w
    isAdmitted r.1 = decide (0 < w.store.spareSlots service) ∧
      r.2.store.service? service = some definition ∧
      r.2.store.spareSlots service = w.store.spareSlots service - 1 := by
  cases spare : (w.store.available service).head? with
  | none =>
    have full := List.head?_eq_none_iff.1 spare
    have none := Store.spareSlots_eq_zero_iff.2 full
    obtain ⟨v, run, result⟩ := run_requestSession_of_full user known full
    rw [run]
    refine ⟨by rw [none]; rfl, by rw [result]; exact known, ?_⟩
    rw [result, none]
    exact none
  | some c =>
    have free := List.mem_of_head? spare
    have taken := Store.spareSlots_occupy free (w.time 1)
    obtain ⟨v, run, result⟩ := run_requestSession_of_spare user known spare
    rw [run]
    refine ⟨(decide_eq_true (by omega)).symm, by rw [result]; exact known, ?_⟩
    rw [result]
    exact Nat.eq_sub_of_add_eq taken

/-- **The requests that are admitted at once are the first ones**, as many as there are spare
slots. -/
theorem run_requestEach (users : List UserId) (known : w.store.service? service = some definition) :
    (requestEach service users w).1.map isAdmitted =
      (List.range users.length).map fun i => decide (i < w.store.spareSlots service) := by
  induction users generalizing w with
  | nil => rfl
  | cons user rest ih =>
    obtain ⟨admitted, known', spare⟩ := requestSession_takes user known
    rw [requestEach, List.map_cons, admitted, ih known', spare, List.length_cons,
      List.range_succ_eq_map, List.map_cons, List.map_map]
    congr 1
    refine List.map_congr_left fun i _ => decide_eq_decide.2 ?_
    omega

end Requests

/-! ## The status -/

/-- What the status of a registered service shows. -/
def Store.status (s : Store) (definition : Service) : Broker.Status where
  service := definition.id
  name := definition.name
  monthlyCost := definition.monthlyCost
  totalSlots := UInt32.ofNat (s.openSlots definition.id)
  usedSlots := UInt32.ofNat (s.tally definition.id (·.active.toNat))
  queueDepth := (s.queue definition.id).length
  credentialCount := (s.credentialsOf definition.id).length

theorem run_serviceStatus (service : ServiceId) (w : World) :
    ((Broker.serviceStatus service).run w).1 =
      (w.store.service? service).elim (.error (.serviceNotFound service)) fun definition =>
        .ok (w.store.status definition) := by
  unfold Broker.serviceStatus
  simp only [Program.bind_eq, Program.pure_eq]
  rw [Program.run_bind, Program.run_query]
  cases known : w.store.service? service with
  | none => rfl
  | some definition =>
    obtain rfl : definition.id = service := Table.find?_key known
    have total := foldl_slots
      (((w.store.credentialsOf definition.id).filter fun c => c.state != .disabled).map
        (·.maxStreams))
    rw [List.map_map, sum_map_filter] at total
    simp only [bne_iff_ne, ne_eq, ite_not] at total
    simp only [Program.run_bind, Program.run_query, Program.run_done, Option.elim_some, total,
      sum_active, Store.queueDepth_eq_length]
    rfl

/-- How the slots of a registered service stand. -/
theorem run_serviceStatus_of_known {w : World} {service : ServiceId} {definition : Service}
    (known : w.store.service? service = some definition) : ∃ status,
    ((Broker.serviceStatus service).run w).1 = .ok status ∧
      status.totalSlots.toNat = w.store.openSlots service % 2 ^ 32 ∧
      status.usedSlots.toNat = w.store.tally service (·.active.toNat) % 2 ^ 32 := by
  obtain rfl : definition.id = service := Table.find?_key known
  refine ⟨w.store.status definition, ?_, UInt32.toNat_ofNat', UInt32.toNat_ofNat'⟩
  rw [run_serviceStatus, known, Option.elim_some]

namespace Store

variable {s : Store}

/-- The counters of a service show its running sessions. -/
theorem Settled.tally_active (h : s.Settled) (coherent : s.Coherent) (service : ServiceId) :
    s.tally service (·.active.toNat) = s.running service := by
  rw [coherent.running_eq]
  exact tally_congr fun c known => h.active_eq known

/-- What is spare besides what sessions hold is what is open besides what is draining. -/
theorem Settled.open_add_draining (h : s.Settled) (coherent : s.Coherent) (service : ServiceId) :
    s.openSlots service + s.draining service = s.spareSlots service + s.running service := by
  rw [← h.tally_active coherent service]
  unfold openSlots draining spareSlots
  rw [← tally_add, ← tally_add]
  refine tally_congr fun c known => ?_
  have cap := UInt32.le_iff_toNat_le.1 (h.capped known)
  have held := h.active_eq known
  rw [Credential.spareSlots]
  split
  · rw [UInt32.toNat_zero]
    omega
  · rw [toNat_fewer]
    omega

theorem openSlots_le_slots (s : Store) (service : ServiceId) :
    s.openSlots service ≤ s.slots service :=
  tally_le fun c _ => by
    split
    · exact Nat.zero_le _
    · exact Nat.le_refl _

theorem Settled.running_le_slots (h : s.Settled) (coherent : s.Coherent) (service : ServiceId) :
    s.running service ≤ s.slots service := by
  rw [← h.tally_active coherent service]
  exact tally_le fun c known => UInt32.le_iff_toNat_le.1 (h.capped known)

end Store

section Runs

variable {key : Codec.Key} {w : World} {past : List Moment}

/-- **The status shows the spare slots less those that are held on disabled credentials**, and of
requests in a row as many are admitted at once as there are spare slots. So where the status shows a
slot, the next request is admitted, and the other way around where no disabled credential is held.
All this is so as long as the slots of the service can be counted in a word. -/
theorem status_promises (h : Orderly key w past) {service : ServiceId} {definition : Service}
    (known : w.store.service? service = some definition) :
    (∀ users, (requestEach service users w).1.map isAdmitted =
      (List.range users.length).map fun i => decide (i < w.store.spareSlots service)) ∧
    ∃ status, ((Broker.serviceStatus service).run w).1 = .ok status ∧
      status.availableSlots.toNat =
        w.store.openSlots service % 2 ^ 32 - w.store.running service % 2 ^ 32 ∧
      (w.store.slots service < 2 ^ 32 →
        status.availableSlots.toNat = w.store.spareSlots service - w.store.draining service ∧
        ∀ user,
          (0 < status.availableSlots →
            isAdmitted ((Broker.requestSession user service).run w).1 = true) ∧
          (w.store.draining service = 0 →
            isAdmitted ((Broker.requestSession user service).run w).1 = true →
              0 < status.availableSlots)) := by
  refine ⟨fun users => run_requestEach users known, ?_⟩
  obtain ⟨status, answer, total, used⟩ := run_serviceStatus_of_known known
  rw [h.settled.tally_active h.coherent service] at used
  have available : status.availableSlots.toNat =
      w.store.openSlots service % 2 ^ 32 - w.store.running service % 2 ^ 32 := by
    rw [← total, ← used]
    exact toNat_fewer ..
  refine ⟨status, answer, available, fun fits => ?_⟩
  have opened := Nat.lt_of_le_of_lt (w.store.openSlots_le_slots service) fits
  have running := Nat.lt_of_le_of_lt (h.settled.running_le_slots h.coherent service) fits
  rw [Nat.mod_eq_of_lt opened, Nat.mod_eq_of_lt running] at available
  have balance := h.settled.open_add_draining h.coherent service
  refine ⟨by omega, fun user => ?_⟩
  rw [(requestSession_takes user known).1, decide_eq_true_iff, UInt32.lt_iff_toNat_lt,
    UInt32.toNat_zero]
  exact ⟨fun shows => by omega, fun none spare => by omega⟩

end Runs

/-- The only credential of a service is disabled while its slot is held, and another one is
issued. -/
def heldBesideFree : World × List Moment :=
  Command.after
    [.define oneSlot, .call (.issue "films" "house" "secret" .basic),
      .call (.request "ann" "films"), .call (.disable "000000000000"),
      .call (.issue "films" "flat" "secret" .basic)]

/-- The status shows no slot, and of the next two requests one is admitted. -/
theorem status_promises_heldBesideFree :
    (∃ status, ((Broker.serviceStatus "films").run heldBesideFree.1).1 = .ok status ∧
      status.availableSlots.toNat = 1 - 1) ∧
    (requestEach "films" ["bob", "cy"] heldBesideFree.1).1.map isAdmitted = [true, false] := by
  have known : heldBesideFree.1.store.service? "films" = some oneSlot := by decide +kernel
  have slots : heldBesideFree.1.store.slots "films" = 2 := by decide +kernel
  have spare : heldBesideFree.1.store.spareSlots "films" = 1 := by decide +kernel
  have draining : heldBesideFree.1.store.draining "films" = 1 := by decide +kernel
  have reached : Orderly Scene.plainKey heldBesideFree.1 heldBesideFree.2 := orderly_after _
  obtain ⟨admitted, status, answer, -, shows⟩ := status_promises reached known
  refine ⟨⟨status, answer, ?_⟩, (admitted ["bob", "cy"]).trans ?_⟩
  · rw [(shows (by rw [slots]; decide)).1, spare, draining]
  · rw [spare]
    rfl

/-- **What is held on disabled credentials hides free slots**: the status does not always show the
spare slots, and a request may be admitted where it shows none. -/
theorem spare_slot_hidden :
    (¬ ∀ (key : Codec.Key) (w : World) (past : List Moment), Orderly key w past →
      ∀ service status, ((Broker.serviceStatus service).run w).1 = .ok status →
        status.availableSlots.toNat = w.store.spareSlots service) ∧
    ¬ ∀ (key : Codec.Key) (w : World) (past : List Moment), Orderly key w past →
      ∀ service status, ((Broker.serviceStatus service).run w).1 = .ok status → ∀ user,
        isAdmitted ((Broker.requestSession user service).run w).1 = true →
          0 < status.availableSlots := by
  have known : heldBesideFree.1.store.service? "films" = some oneSlot := by decide +kernel
  have spare : heldBesideFree.1.store.spareSlots "films" = 1 := by decide +kernel
  have opened : heldBesideFree.1.store.openSlots "films" = 1 := by decide +kernel
  have held : heldBesideFree.1.store.tally "films" (·.active.toNat) = 1 := by decide +kernel
  obtain ⟨status, answer, total, used⟩ := run_serviceStatus_of_known known
  have none : status.availableSlots.toNat = 0 := by
    refine (toNat_fewer ..).trans ?_
    rw [total, used, opened, held, Nat.sub_self]
  have reached : Orderly Scene.plainKey heldBesideFree.1 heldBesideFree.2 := orderly_after _
  refine ⟨fun law => ?_, fun law => ?_⟩
  · have equal := law _ _ _ reached "films" status answer
    rw [none, spare] at equal
    cases equal
  · have shown := law _ _ _ reached "films" status answer "bob" (by
      rw [(requestSession_takes "bob" known).1, spare]
      rfl)
    have positive := UInt32.lt_iff_toNat_lt.1 shown
    rw [none] at positive
    cases positive

end SlotBroker
