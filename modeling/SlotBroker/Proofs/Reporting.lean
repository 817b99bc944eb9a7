import Mathlib
import SlotBroker.Proofs.Parts
import SlotBroker.Proofs.Timeline

/-!
# Reports that agree

The summary, the revenue of each service and the bills of the users are readings of one ledger, each
through a filter of its own. None of them loses a record and none counts one twice: what the filters
let through depends on what every run keeps of the ledger. Records are only written for services of
the catalog, which never loses a service, and where no reading of the clock goes back they stand in
the order of their times, so that a bill can be cut in two at any time.

Results:
* `flatMap_filter_perm`: the parts of a list under distinct keys that cover it make up the list.
* `filter_eq_append_of_sorted`: a sorted list is cut in two at any value.
* `Dated`: what holds of the ledger while times go forward; `Reclaim.dated`, `Course.dated`: steps
  keep it.
* **`reports_agree`**: the summary is made up of the revenues of the services, and of the bills of
  the users, and two bills in a row are one.
-/

namespace SlotBroker

/-! ## Parts of a list -/

section Parts

variable {α κ : Type} [DecidableEq κ]

/-- **The parts of a list under distinct keys that cover it make up the list.** -/
theorem flatMap_filter_perm (key : α → κ) {ks : List κ} (distinct : ks.Nodup) {xs : List α}
    (covered : ∀ x ∈ xs, key x ∈ ks) : (ks.flatMap fun k => xs.filter (key · = k)).Perm xs := by
  induction ks generalizing xs with
  | nil =>
    have none : xs = [] := List.eq_nil_iff_forall_not_mem.2 fun x hx => nomatch covered x hx
    rw [none]
    exact .refl _
  | cons k ks ih =>
    obtain ⟨new, distinct⟩ := List.nodup_cons.1 distinct
    -- the other keys do not see what has this one
    have others : (ks.flatMap fun k' => xs.filter (key · = k')) =
        ks.flatMap fun k' => (xs.filter fun x => !decide (key x = k)).filter (key · = k') := by
      refine List.flatMap_congr fun k' hk' => ?_
      rw [List.filter_filter]
      refine List.filter_congr fun x _ => ?_
      by_cases here : key x = k'
      · have apart : ¬ key x = k := fun same => new (same ▸ here ▸ hk')
        rw [decide_eq_true here, decide_eq_false apart]
        rfl
      · rw [decide_eq_false here]
        rfl
    rw [List.flatMap_cons, others]
    refine ((ih distinct fun x hx => ?_).append_left _).trans (List.filter_append_perm _ xs)
    obtain ⟨mem, apart⟩ := List.mem_filter.1 hx
    exact (List.mem_cons.1 (covered x mem)).resolve_left (by simpa using apart)

/-- **A sorted list is cut in two at any value.** -/
theorem filter_eq_append_of_sorted (time : α → Millis) (p : α → Bool) (b : Millis) {xs : List α}
    (sorted : xs.Pairwise fun x y => time x ≤ time y) :
    xs.filter p = xs.filter (fun x => p x && time x ≤ b) ++
      xs.filter (fun x => p x && b < time x) := by
  induction xs with
  | nil => rfl
  | cons x xs ih =>
    obtain ⟨first, sorted⟩ := List.pairwise_cons.1 sorted
    by_cases early : time x ≤ b
    · have late : ¬ b < time x := UInt64.not_lt.2 early
      rw [List.filter_cons, ih sorted, List.filter_cons, List.filter_cons]
      cases p x <;> simp [early, late]
    · -- all that come after are late too
      have late : ∀ y ∈ x :: xs, b < time y := by
        have here : b < time x := UInt64.not_le.1 early
        exact List.forall_mem_cons.2 ⟨here, fun y hy => UInt64.lt_of_lt_of_le here (first y hy)⟩
      have none : (x :: xs).filter (fun x => p x && time x ≤ b) = [] := by
        refine List.filter_eq_nil_iff.2 fun y hy => ?_
        simp [UInt64.not_le.2 (late y hy)]
      rw [none, List.nil_append]
      refine List.filter_congr fun y hy => ?_
      simp [late y hy]

end Parts

/-- Of the records of a table one has the key that it is found under. -/
theorem Table.filter_eq_of_find? {α : Type} [Keyed α] {t : Table α} {k : String} {v : α}
    (found : t.find? k = some v) : t.entries.filter (fun x => Keyed.key x = k) = [v] := by
  obtain ⟨xs, ys, split, before, after⟩ := Table.split_of_find? found
  have none : ∀ {zs : List α}, (∀ z ∈ zs, Keyed.key z ≠ k) →
      zs.filter (fun x => Keyed.key x = k) = [] := fun apart =>
    List.filter_eq_nil_iff.2 fun z hz => by simpa using apart z hz
  rw [split, List.filter_append, List.filter_cons_of_pos (by simpa using Table.find?_key found),
    none before, none after, List.nil_append]

/-! ## The ledger while times go forward -/

/-- What holds of the ledger while times go forward, up to the given reading of the clock. -/
structure Dated (limit : Nat) (w : World) : Prop where
  ordered : w.store.ledger.Pairwise fun r r' => r.recordedAt ≤ r'.recordedAt
  past : ∀ r ∈ w.store.ledger, w.IsPast limit r.recordedAt
  registered : ∀ r ∈ w.store.ledger, (w.store.service? r.service).isSome = true

section Steps

variable {limit : Nat} {w v : World}

/-- Nothing is written, and no service is lost. -/
theorem Dated.of_ledger_eq (h : Dated limit w) (passes : w.Passes v)
    (same : v.store.ledger = w.store.ledger)
    (kept : ∀ id, (w.store.service? id).isSome = true → (v.store.service? id).isSome = true) :
    Dated limit v where
  ordered := by
    rw [same]
    exact h.ordered
  past r hr := (h.past r (same ▸ hr)).later passes
  registered r hr := kept _ (h.registered r (same ▸ hr))

/-- A record that is written now is the latest. -/
theorem Dated.append {r : UsageRecord} {n : Nat} (h : Dated limit w)
    (forward : w.supply.Forward limit) (passes : w.Passes v) (since : w.supply.read ≤ n)
    (before : n < v.supply.read) (til : v.supply.read ≤ limit)
    (written : r.recordedAt = w.supply.reading n)
    (known : (w.store.service? r.service).isSome = true)
    (ledger : v.store.ledger = w.store.ledger ++ [r])
    (services : v.store.services = w.store.services) : Dated limit v where
  ordered := by
    rw [ledger]
    refine List.pairwise_append.2 ⟨h.ordered, List.pairwise_singleton _ _, fun x hx y hy => ?_⟩
    rw [List.mem_singleton.1 hy, written]
    exact h.past x hx n since (Nat.lt_of_lt_of_le before til)
  past x hx := by
    rcases List.mem_append.1 (ledger ▸ hx) with old | new
    · exact (h.past x old).later passes
    · rw [List.mem_singleton.1 new, written]
      intro m later below
      rw [passes.reading]
      exact forward n m (Nat.le_of_lt (Nat.lt_of_lt_of_le before later)) below
  registered x hx := by
    rw [Store.service?, services]
    rcases List.mem_append.1 (ledger ▸ hx) with old | new
    · exact h.registered x old
    · rw [List.mem_singleton.1 new]
      exact known

theorem Reclaim.dated {p q : Stage} (h : Reclaim p q) (coherent : p.store.Coherent)
    (forward : p.world.supply.Forward limit) (til : q.world.supply.read ≤ limit)
    (dated : Dated limit p.world) : Dated limit q.world := by
  have services := (h.keeps coherent).1.services
  have kept : ∀ id, (p.store.service? id).isSome = true → (q.store.service? id).isSome = true :=
    fun id known => by rwa [Store.service?, services]
  cases h with
  | rest same passes => exact dated.of_ledger_eq passes (congrArg Store.ledger same) kept
  | @vacate w v owed left x y e definition id n found _ known _ moved _ passes since before
      result =>
    have asks : y.service = x.service := (Session.fixed_apply moved).2.2.1
    refine dated.append (r := .ofSession id y definition (w.supply.reading n)) forward passes since
      before til rfl ?_ (by rw [result, Store.ledger_vacate]) services
    change (w.store.service? y.service).isSome = true
    rw [asks, known]
    rfl
  | grant => exact dated.of_ledger_eq ⟨rfl, Nat.le_add_right _ _⟩ rfl kept
  | drained => exact dated

theorem Reclaims.dated {p q : Stage} (h : Reclaims p q) (coherent : p.store.Coherent)
    (forward : p.world.supply.Forward limit) (til : q.world.supply.read ≤ limit)
    (dated : Dated limit p.world) : Dated limit q.world := by
  induction h with
  | refl => exact dated
  | tail steps step ih =>
    have forward' : Supply.Forward _ limit := fun m n => by
      rw [(Reclaims.passes steps).reading]
      exact forward m n
    exact step.dated (Reclaims.keeps steps coherent).2 forward' til
      (ih (step.passes.read.trans til))

theorem Course.dated (h : Course w v) (coherent : w.store.Coherent)
    (forward : w.supply.Forward limit) (til : v.supply.read ≤ limit) (dated : Dated limit w) :
    Dated limit v := by
  have services := (h.keeps coherent).1.services
  have kept : ∀ id, (w.store.service? id).isSome = true → (v.store.service? id).isSome = true :=
    fun id known => by rwa [Store.service?, services]
  have unwritten := fun same => dated.of_ledger_eq h.passes same kept
  cases h with
  | reclaimed steps => exact steps.dated coherent forward til dated
  | queued _ _ _ _ _ _ _ _ result | placed _ _ _ _ _ _ _ _ _ _ _ result
  | issued _ _ _ result | amended _ _ _ _ _ _ result | registered _ result =>
    exact unwritten (by rw [result]; rfl)
  | cancelled _ _ _ _ result => exact unwritten (by rw [result])

/-- Between any two commands, the ledger is in order if no reading went back. -/
theorem Orderly.dated {key : Codec.Key} {past : List Moment} (h : Orderly key w past)
    (forward : w.supply.Forward limit) (til : w.supply.read ≤ limit) : Dated limit w := by
  induction h with
  | start w bare =>
    have none : w.store.ledger = [] := by rw [bare]
    refine ⟨?_, ?_, ?_⟩ <;> rw [none]
    · exact .nil
    · exact nofun
    · exact nofun
  | @next w past c h fresh ih =>
    cases c with
    | define service =>
      refine (ih forward til).of_ledger_eq ⟨rfl, Nat.le_refl _⟩ rfl fun id known => ?_
      change ((w.store.addService service).service? id).isSome = true
      rw [Store.addService, Store.service?, Table.find?_insert]
      split
      · rfl
      · exact known
    | call op =>
      have course := op.course key fresh h.coherent
      have before : w.supply.Forward limit := fun m n => by
        rw [← course.passes.reading]
        exact forward m n
      exact course.dated h.coherent before til (ih before (course.passes.read.trans til))

end Steps

/-! ## The reports -/

/-- The last time that there is. -/
def lastMillis : Millis := UInt64.ofNat (UInt64.size - 1)

theorem le_lastMillis (t : Millis) : t ≤ lastMillis := by
  have bound := t.toNat_lt
  rw [UInt64.le_iff_toNat_le, lastMillis, UInt64.toNat_ofNat_of_lt' (by decide)]
  simp only [UInt64.size]
  omega

namespace World

/-- The records behind the revenue of a service, none where the catalog does not have it. -/
def earned (w : World) (service : ServiceId) (since? : Option Millis) : List UsageRecord :=
  match ((Billing.serviceRevenue service since?).run w).1 with
  | .ok revenue => revenue.records
  | .error _ => []

/-- The records of a user's bill. -/
def billed (w : World) (user : UserId) (start finish : Millis) : List UsageRecord :=
  ((Billing.userBill user (some start) (some finish)).run w).1.records

end World

/-- The users who occur in the ledger, each once. -/
def Store.billedUsers (s : Store) : List UserId := (s.ledger.map (·.user)).dedup

theorem toNat_foldl_add (xs : List UInt64) (a : UInt64)
    (fits : a.toNat + (xs.map (·.toNat)).sum < UInt64.size) :
    (xs.foldl (· + ·) a).toNat = a.toNat + (xs.map (·.toNat)).sum := by
  induction xs generalizing a with
  | nil => rfl
  | cons x xs ih =>
    rw [List.map_cons, List.sum_cons] at fits ⊢
    have add : (a + x).toNat = a.toNat + x.toNat := by
      rw [UInt64.toNat_add]
      exact Nat.mod_eq_of_lt (by simp only [UInt64.size] at fits; omega)
    rw [List.foldl_cons, ih (a + x) (by omega), add, Nat.add_assoc]

/-- A summary of everything since a time, and its breakdowns. -/
structure World.BrokenDown (w : World) (since? : Option Millis) (sum : Summary) : Prop where
  catalog : sum.services = w.store.services.entries
  /-- The summary is over the ledger since the time, in its order. -/
  records : sum.records = w.store.ledger.filter fun r => since?.getD 0 ≤ r.recordedAt
  /-- Every service of the catalog has a revenue. It is over the records of the service among those
  of the summary, in their order. -/
  revenue : ∀ d ∈ sum.services, ∃ revenue, ((Billing.serviceRevenue d.id since?).run w).1 =
    .ok revenue ∧ revenue.records = sum.records.filter (·.service = d.id)
  /-- The revenues of all services are over each record of the summary once. -/
  byService : (sum.services.flatMap fun d => w.earned d.id since?).Perm sum.records
  /-- The bill of a user since the time is over the records of the user among those of the summary,
  in their order. -/
  bill : ∀ user, w.billed user (since?.getD 0) lastMillis =
    sum.records.filter (·.user = user)
  /-- The bills of all users who occur in the ledger are over each record of the summary once. -/
  byUser : (w.store.billedUsers.flatMap fun user =>
    w.billed user (since?.getD 0) lastMillis).Perm sum.records
  /-- The service of a record is in the catalog of the summary, and there once. -/
  listed : ∀ r ∈ sum.records, ∃ d, sum.services.filter (·.id = r.service) = [d]
  /-- The monthly cost is that of all services of the catalog. -/
  cost : (sum.services.map (·.monthlyCost.toNat)).sum < UInt64.size →
    sum.monthlyCost.toNat = (sum.services.map (·.monthlyCost.toNat)).sum

section Reports

variable {limit : Nat} {w : World}

/-- The records of a service among those since a time. -/
theorem Store.usageOfService_eq (s : Store) (service : ServiceId) (since : Millis) :
    s.usageOfService service since = (s.usageSince since).filter (·.service = service) := by
  unfold usageOfService usageSince
  rw [List.filter_filter]
  rfl

/-- The records of a user among those since a time. -/
theorem Store.usageOfUser_eq (s : Store) (user : UserId) (since : Millis) :
    s.usageOfUser user since lastMillis = (s.usageSince since).filter (·.user = user) := by
  unfold usageOfUser usageSince
  rw [List.filter_filter]
  refine List.filter_congr fun r _ => ?_
  rw [UsageRecord.ofUserIn, decide_eq_true (le_lastMillis r.recordedAt), Bool.and_true]

theorem World.earned_eq {d : Service} (known : w.store.service? d.id = some d)
    (since? : Option Millis) : ((Billing.serviceRevenue d.id since?).run w).1 =
      .ok ⟨d.id, d.monthlyCost, w.store.usageOfService d.id (since?.getD 0)⟩ := by
  unfold Billing.serviceRevenue
  simp only [Program.bind_eq, Program.pure_eq]
  rw [Program.run_bind, Program.run_query, known]
  rfl

/-- **The summary is made up of the revenues, and of the bills.** -/
theorem Dated.brokenDown (h : Dated limit w) (since? : Option Millis) :
    w.BrokenDown since? ((Billing.summary since?).run w).1 := by
  have summary : ((Billing.summary since?).run w).1 =
      ⟨w.store.services.entries, w.store.usageSince (since?.getD 0)⟩ := rfl
  have known : ∀ d ∈ w.store.services.entries, w.store.service? d.id = some d :=
    fun d hd => Table.find?_of_mem hd
  have since : ∀ r ∈ w.store.usageSince (since?.getD 0), r ∈ w.store.ledger :=
    fun r hr => (List.mem_filter.1 hr).1
  have bill : ∀ user, w.billed user (since?.getD 0) lastMillis =
      (w.store.usageSince (since?.getD 0)).filter (·.user = user) :=
    fun user => w.store.usageOfUser_eq user _
  rw [summary]
  refine ⟨rfl, rfl, fun d hd => ⟨_, World.earned_eq (known d hd) since?, ?_⟩, ?_, bill, ?_,
    fun r hr => ?_, fun fits => ?_⟩
  · exact w.store.usageOfService_eq d.id _
  · have earned : (w.store.services.entries.flatMap fun d => w.earned d.id since?) =
        w.store.services.keys.flatMap fun k =>
          (w.store.usageSince (since?.getD 0)).filter (·.service = k) := by
      rw [Table.keys, List.flatMap_map]
      refine List.flatMap_congr fun d hd => ?_
      rw [World.earned, World.earned_eq (known d hd)]
      exact w.store.usageOfService_eq d.id _
    rw [earned]
    refine flatMap_filter_perm UsageRecord.service w.store.services.nodup fun r hr => ?_
    obtain ⟨d, hd⟩ := Option.isSome_iff_exists.1 (h.registered r (since r hr))
    obtain ⟨mem, hid⟩ := Table.find?_eq_some_iff.1 hd
    exact List.mem_map.2 ⟨d, mem, hid⟩
  · simp only [bill]
    exact flatMap_filter_perm UsageRecord.user (List.nodup_dedup _) fun r hr =>
      List.mem_dedup.2 (List.mem_map_of_mem (since r hr))
  · obtain ⟨d, hd⟩ := Option.isSome_iff_exists.1 (h.registered r (since r hr))
    exact ⟨d, Table.filter_eq_of_find? hd⟩
  · have sum := toNat_foldl_add (w.store.services.entries.map (·.monthlyCost)) 0
    simp only [List.map_map, UInt64.toNat_zero, Nat.zero_add] at sum
    exact sum fits

/-- **Two bills in a row are one.** -/
theorem Dated.billed_eq_append (h : Dated limit w) (user : UserId) {a b c : Millis} (start : a ≤ b)
    (cut : b < c) : w.billed user a c = w.billed user a b ++ w.billed user (b + 1) c := by
  have next : (b + 1).toNat = b.toNat + 1 := by
    have bound := c.toNat_lt
    rw [UInt64.lt_iff_toNat_lt] at cut
    rw [UInt64.toNat_add, UInt64.toNat_one]
    omega
  rw [UInt64.le_iff_toNat_le] at start
  rw [UInt64.lt_iff_toNat_lt] at cut
  have early : ∀ r : UsageRecord, (UsageRecord.ofUserIn user a c r && r.recordedAt ≤ b) =
      UsageRecord.ofUserIn user a b r := fun r => by
    simp only [UsageRecord.ofUserIn, UInt64.le_iff_toNat_le, ← Bool.decide_and, decide_eq_decide]
    exact ⟨fun ⟨⟨own, _⟩, til⟩ => ⟨own, til⟩, fun ⟨own, til⟩ => ⟨⟨own, by omega⟩, til⟩⟩
  have late : ∀ r : UsageRecord, (UsageRecord.ofUserIn user a c r && b < r.recordedAt) =
      UsageRecord.ofUserIn user (b + 1) c r := fun r => by
    simp only [UsageRecord.ofUserIn, UInt64.le_iff_toNat_le, UInt64.lt_iff_toNat_lt, next,
      ← Bool.decide_and, decide_eq_decide]
    exact ⟨fun ⟨⟨⟨own, _⟩, til⟩, after⟩ => ⟨⟨own, after⟩, til⟩,
      fun ⟨⟨own, after⟩, til⟩ => ⟨⟨⟨own, by omega⟩, til⟩, after⟩⟩
  have split := filter_eq_append_of_sorted (·.recordedAt) (UsageRecord.ofUserIn user a c) b
    h.ordered
  simp only [early, late] at split
  exact split

/-- **Every record is reported once.** -/
theorem reports_agree {key : Codec.Key} {past : List Moment} (h : Orderly key w past)
    (forward : ∀ m n, m ≤ n → n < w.supply.read → w.supply.reading m ≤ w.supply.reading n) :
    w.store.ledger.Pairwise (fun r r' => r.recordedAt ≤ r'.recordedAt) ∧
    (∀ since?, w.BrokenDown since? ((Billing.summary since?).run w).1) ∧
    ∀ user a b c, a ≤ b → b < c →
      w.billed user a c = w.billed user a b ++ w.billed user (b + 1) c := by
  have dated := h.dated forward (Nat.le_refl _)
  exact ⟨dated.ordered, dated.brokenDown, fun user a b c => dated.billed_eq_append user⟩

end Reports

/-- Another service whose credentials have one slot. -/
def songs : Service := { id := "songs", name := "Songs", monthlyCost := 500, streamCap := 1 }

/-- On a clock that shows the number of the reading, two users leave three records for two
services. -/
def threeRecords : World × List Moment :=
  [.define oneSlot, .define songs, .call (.issue "films" "house" "secret" .basic),
    .call (.issue "songs" "house" "secret" .basic), .call (.request "ann" "films"),
    .call (.request "bob" "songs"), .call (.request "ann" "songs"),
    .call (.finish "0000000000000002"), .call (.finish "0000000000000003"),
    .call (.finish "0000000000000004")].foldl (Command.play Scene.plainKey)
    ({ platform := {}, supply := { reading := UInt64.ofNat, word := UInt64.ofNat } }, [])

theorem reports_agree_threeRecords :
    (threeRecords.1.store.ledger.map fun r => (r.user, r.service, r.recordedAt)) =
      [("ann", "films", 6), ("bob", "songs", 8), ("ann", "songs", 12)] ∧
    (threeRecords.1.earned "films" (some 7) ++ threeRecords.1.earned "songs" (some 7)).Perm
      ((Billing.summary (some 7)).run threeRecords.1).1.records ∧
    (threeRecords.1.billed "bob" 7 lastMillis ++ threeRecords.1.billed "ann" 7 lastMillis).Perm
      ((Billing.summary (some 7)).run threeRecords.1).1.records ∧
    threeRecords.1.billed "ann" 0 12 =
      threeRecords.1.billed "ann" 0 6 ++ threeRecords.1.billed "ann" 7 12 := by
  have reached : Orderly Scene.plainKey threeRecords.1 threeRecords.2 :=
    Orderly.play (.start _ rfl) _
  have read : threeRecords.1.supply.read = 13 := by decide +kernel
  have clock : threeRecords.1.supply.reading = UInt64.ofNat := Command.reading_play ..
  have forward : ∀ m n, m ≤ n → n < threeRecords.1.supply.read →
      threeRecords.1.supply.reading m ≤ threeRecords.1.supply.reading n := by
    intro m n h below
    rw [read] at below
    rw [clock, UInt64.le_iff_toNat_le, UInt64.toNat_ofNat', UInt64.toNat_ofNat']
    omega
  obtain ⟨-, brokenDown, bills⟩ := reports_agree reached forward
  have parts := brokenDown (some 7)
  have services : threeRecords.1.store.services.entries = [oneSlot, songs] := by decide +kernel
  have users : threeRecords.1.store.billedUsers = ["bob", "ann"] := by decide +kernel
  have byService := parts.byService
  have byUser := parts.byUser
  rw [parts.catalog, services, List.flatMap_cons, List.flatMap_singleton] at byService
  rw [users, List.flatMap_cons, List.flatMap_singleton] at byUser
  exact ⟨by decide +kernel, byService, byUser, bills "ann" 0 6 12 (by decide) (by decide)⟩

end SlotBroker
