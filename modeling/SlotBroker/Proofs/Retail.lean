import Mathlib
import SlotBroker.Proofs.Headroom
import SlotBroker.Proofs.Timeline

/-!
# What a user can come to pay

The monthly cost of a service is spread over the seconds of a month of thirty days, so whoever has
one slot of it for a month is charged that cost, and not more. But a user may have several slots at
once, and is charged for each of them. The charge is bounded by the most slots that the user has had
at an instant, and by the slots of the service in any case.

All amounts are exact here.

Results:
* `costWithin_eq`: what sessions cost is what their summed time costs.
* `Timely.streams_le_slots`: nobody has more slots of a service at an instant than it has.
* **`user_cost_bounded`**: in a month a user is charged at most the monthly cost for each of the
  slots in use at an instant.
* `retail_exceeded`: so it may be twice the monthly cost.
-/

namespace SlotBroker

/-- The milliseconds of the month that a monthly cost is spread over. -/
def monthMillis : Nat := 2592000 * 1000

namespace Session

/-- The session had its slot and gave it back in a window, both ends included. -/
def within (x : Session) (a b : Nat) : Bool :=
  x.startedAt.any (a ≤ ·.toNat) && x.endedAt.any (·.toNat ≤ b)

/-- The milliseconds for which a finished session had its slot. -/
def span (x : Session) : Nat :=
  match x.startedAt, x.endedAt with
  | some started, some ended => ended.toNat - started.toNat
  | _, _ => 0

/-- What a finished session costs where a month costs so many cents. -/
def exactCost (x : Session) (monthly : Cents) : ℚ := x.span / 1000 * monthly.toNat / 2592000

/-- Of a session that lies in the window all of its time does. -/
theorem span_of_within {x : Session} {a b : Nat} (h : x.within a b = true) :
    x.span = x.slotTime a b := by
  simp only [within, Bool.and_eq_true, Option.any_eq_true, decide_eq_true_eq] at h
  obtain ⟨⟨started, hs, since⟩, ended, he, til⟩ := h
  simp only [span, slotTime, hs, he]
  rw [min_eq_left til, max_eq_left since]

/-- Who has started has been given a credential. -/
theorem Shaped.placed {x : Session} (h : x.Shaped) {began : Millis}
    (started : x.startedAt = some began) : x.credential.isSome = true := by
  have blank : ¬ x.Blank := fun none => by cases none.2.1.symm.trans started
  unfold Shaped at h
  split at h
  · exact absurd h blank
  · exact h.1
  · exact (h.resolve_left blank).1
  · exact h.1

end Session

namespace Store

/-- A user's finished sessions on a service that lie in a window. -/
def sessionsWithin (s : Store) (user : UserId) (service : ServiceId) (a b : Nat) : List Session :=
  s.sessions.entries.filter fun x => (x.user = user && x.service = service) && x.within a b

/-- The milliseconds for which they had their slots. -/
def timeWithin (s : Store) (user : UserId) (service : ServiceId) (a b : Nat) : Nat :=
  ((s.sessionsWithin user service a b).map (·.span)).sum

/-- What they cost where a month costs so many cents. -/
def costWithin (s : Store) (user : UserId) (service : ServiceId) (monthly : Cents) (a b : Nat) :
    ℚ :=
  ((s.sessionsWithin user service a b).map (·.exactCost monthly)).sum

/-- The slots of a service that a user has at an instant. -/
def streams (s : Store) (user : UserId) (service : ServiceId) (t : Nat) : Nat :=
  s.sessions.entries.countP fun x => (x.user = user && x.service = service) && x.runsAt t

variable {s : Store} {user : UserId} {service : ServiceId} {a b n : Nat}

/-- What sessions cost is what their summed time costs. -/
theorem costWithin_eq (s : Store) (user : UserId) (service : ServiceId) (monthly : Cents)
    (a b : Nat) : s.costWithin user service monthly a b =
      (s.timeWithin user service a b : ℚ) * monthly.toNat / monthMillis := by
  unfold costWithin timeWithin monthMillis
  induction s.sessionsWithin user service a b with
  | nil => simp
  | cons x xs ih =>
    rw [List.map_cons, List.sum_cons, ih, List.map_cons, List.sum_cons, Session.exactCost]
    push_cast
    ring

/-- A user with at most `n` slots at any instant of a window has them for at most `n` times its
length. -/
theorem timeWithin_le (room : ∀ t, a ≤ t → t < b → s.streams user service t ≤ n) :
    s.timeWithin user service a b ≤ n * (b - a) := by
  have inside : (s.sessionsWithin user service a b).map (·.span) =
      (s.sessionsWithin user service a b).map (·.slotTime a b) :=
    List.map_congr_left fun x hx =>
      Session.span_of_within (Bool.and_eq_true_iff.1 (List.mem_filter.1 hx).2).2
  unfold timeWithin
  rw [inside]
  refine sum_slotTime_le fun t since til => Nat.le_trans ?_ (room t since til)
  unfold sessionsWithin streams
  rw [List.countP_filter]
  refine List.countP_mono_left fun x _ here => ?_
  simp only [Bool.and_eq_true] at here ⊢
  exact ⟨here.2.1, here.1⟩

/-- In a window of a month or less, `n` slots cost at most `n` times the monthly cost. -/
theorem costWithin_le (monthly : Cents) (month : b - a ≤ monthMillis)
    (time : s.timeWithin user service a b ≤ n * (b - a)) :
    s.costWithin user service monthly a b ≤ n * monthly.toNat := by
  have bound : s.timeWithin user service a b ≤ n * monthMillis :=
    time.trans (Nat.mul_le_mul_left n month)
  rw [costWithin_eq, div_le_iff₀ (by simp [monthMillis]), mul_right_comm]
  refine mul_le_mul_of_nonneg_right ?_ (Nat.cast_nonneg _)
  exact_mod_cast bound

end Store

/-- **Nobody has more slots of a service at an instant than it has.** -/
theorem Timely.streams_le_slots {limit : Nat} {w : World} (h : Timely limit w)
    (coherent : w.store.Coherent) (user : UserId) (service : ServiceId) (t : Nat) :
    w.store.streams user service t ≤ w.store.slots service := by
  have distinct : ((w.store.credentialsOf service).map Keyed.key).Nodup :=
    w.store.credentials.nodup.sublist (List.filter_sublist.map _)
  have counted := sum_countP_credential (p := fun c x => x.occupies c t)
    (fun here => (Session.occupies_iff.1 here).1) distinct w.store.sessions.entries
  have each : ((w.store.credentialsOf service).map fun c => w.store.occupants c.id t).sum ≤
      w.store.slots service :=
    List.sum_le_sum fun c hc => h.room
      (Store.credential?_eq_some_iff.2 ⟨(List.mem_filter.1 hc).1, rfl⟩) t
  refine Nat.le_trans (List.countP_mono_left fun x hx here => ?_) (counted.symm.le.trans each)
  -- who has a slot has it on a credential of the service
  simp only [Bool.and_eq_true, decide_eq_true_eq] at here
  obtain ⟨⟨-, asks⟩, runs⟩ := here
  have stored : w.store.session? x.id = some x := Store.session?_eq_some_iff.2 ⟨hx, rfl⟩
  obtain ⟨began, started, -⟩ := (Option.any_eq_true _ _).1 (Bool.and_eq_true_iff.1 runs).1
  obtain ⟨c, bound⟩ := Option.isSome_iff_exists.1 ((coherent.shaped stored).placed started)
  obtain ⟨d, known, serves⟩ := coherent.bound stored bound
  obtain ⟨issued, rfl⟩ := Store.credential?_eq_some_iff.1 known
  refine List.any_eq_true.2 ⟨d, List.mem_filter.2 ⟨issued, decide_eq_true (serves.trans asks)⟩, ?_⟩
  rw [Session.occupies_eq, runs, Bool.and_true]
  exact decide_eq_true bound

/-- **What a user can come to pay.** Where the readings of the clock never go back, take any user,
any service at any monthly cost, and any window of a month or less. If the user never has more than
`n` slots of the service at once, then the finished sessions of the window took at most `n` times
its length and cost at most `n` times the monthly cost: with one slot at a time, no more than the
monthly cost. However many are used at once, no more is charged than for all slots of the
service. -/
theorem user_cost_bounded {key : Codec.Key} {w : World} {past : List Moment}
    (h : Orderly key w past)
    (forward : ∀ m n, m ≤ n → n < w.supply.read → w.supply.reading m ≤ w.supply.reading n)
    (user : UserId) (service : ServiceId) (monthly : Cents) {a b : Nat}
    (month : b - a ≤ monthMillis) :
    (∀ n, (∀ t, a ≤ t → t < b → w.store.streams user service t ≤ n) →
      w.store.timeWithin user service a b ≤ n * (b - a) ∧
        w.store.costWithin user service monthly a b ≤ n * monthly.toNat) ∧
    (∀ t, w.store.streams user service t ≤ w.store.slots service) ∧
    w.store.costWithin user service monthly a b ≤ w.store.slots service * monthly.toNat := by
  have timely := h.timely forward (Nat.le_refl _)
  have all := timely.streams_le_slots h.coherent user service
  refine ⟨fun n room => ?_, all, ?_⟩
  · have time := Store.timeWithin_le room
    exact ⟨time, Store.costWithin_le monthly month time⟩
  · exact Store.costWithin_le monthly month (Store.timeWithin_le fun t _ _ => all t)

/-- A service whose credentials may have two slots, and where a session may run for a month. -/
def twoSlots : Service :=
  { id := "films", name := "Films", monthlyCost := 900, streamCap := 2, sessionLimit := 2592000 }

/-- A user has both slots of the only credential for a month. -/
def twoForAMonth : World × List Moment :=
  [.call (.issue "films" "house" "secret" .standard), .call (.request "ann" "films"),
    .call (.request "ann" "films"), .call (.finish "0000000000000001"),
    .call (.finish "0000000000000002")].foldl (Command.play Scene.plainKey)
    ({ platform.store.services := Table.empty.insert twoSlots
       supply :=
        { reading := fun n => if n < 4 then 0 else 2592000000, word := UInt64.ofNat } }, [])

theorem twoForAMonth_orderly : Orderly Scene.plainKey twoForAMonth.1 twoForAMonth.2 :=
  .play (.start _ rfl) _

theorem twoForAMonth_forward (m n : Nat) (h : m ≤ n) (_ : n < twoForAMonth.1.supply.read) :
    twoForAMonth.1.supply.reading m ≤ twoForAMonth.1.supply.reading n := by
  have clock : twoForAMonth.1.supply.reading = fun n => if n < 4 then 0 else 2592000000 :=
    Command.reading_play ..
  rw [clock]
  dsimp only
  split <;> split <;> first | decide | omega

theorem user_cost_bounded_twoForAMonth :
    twoForAMonth.1.store.slots "films" = 2 ∧
      (∀ t, twoForAMonth.1.store.streams "ann" "films" t ≤ 2) ∧
      twoForAMonth.1.store.timeWithin "ann" "films" 0 monthMillis ≤ 2 * (monthMillis - 0) ∧
      twoForAMonth.1.store.costWithin "ann" "films" 900 0 monthMillis ≤ 2 * (900 : ℚ) := by
  have slots : twoForAMonth.1.store.slots "films" = 2 := by decide +kernel
  obtain ⟨each, all, cost⟩ := user_cost_bounded twoForAMonth_orderly twoForAMonth_forward "ann"
    "films" 900 (Nat.le_refl (monthMillis - 0))
  rw [slots] at all cost
  exact ⟨slots, all, (each 2 fun t _ _ => all t).1, by exact_mod_cast cost⟩

/-- **Somebody may pay more than the monthly cost** within a month, though the service has been the
same all along. -/
theorem retail_exceeded :
    ¬ ∀ (key : Codec.Key) (w : World) (past : List Moment) (definition : Service),
      Orderly key w past →
      (∀ m n, m ≤ n → n < w.supply.read → w.supply.reading m ≤ w.supply.reading n) →
      w.store.service? definition.id = some definition →
      (∀ m ∈ past, m.before.service? definition.id = some definition) →
      ∀ (user : UserId) (a b : Nat), b - a ≤ monthMillis →
        w.store.costWithin user definition.id definition.monthlyCost a b ≤
          definition.monthlyCost.toNat := by
  intro law
  have known : twoForAMonth.1.store.service? "films" = some twoSlots := by decide +kernel
  have unchanged : ∀ m ∈ twoForAMonth.2, m.before.service? "films" = some twoSlots := by
    decide +kernel
  have time : twoForAMonth.1.store.timeWithin "ann" "films" 0 monthMillis = 2 * monthMillis := by
    decide +kernel
  have cost := law _ _ _ twoSlots twoForAMonth_orderly twoForAMonth_forward known unchanged "ann" 0
    monthMillis (Nat.le_refl _)
  rw [Store.costWithin_eq, show twoSlots.id = "films" from rfl, time,
    show twoSlots.monthlyCost.toNat = 900 from rfl] at cost
  norm_num [monthMillis] at cost

end SlotBroker
