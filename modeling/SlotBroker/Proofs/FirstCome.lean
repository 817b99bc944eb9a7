import Mathlib
import SlotBroker.Proofs.QueueOrder
import SlotBroker.Proofs.Waiting

/-!
# First come, first served

Where operations do not overlap, a slot that becomes free goes to the head of the queue. A request
looks at the credentials only, so what keeps it from overtaking is that nobody waits while there is
a slot for him. Whoever ends a session sees to that by a drain. Whoever issues a credential does
not, although it brings slots: those who wait then are left beside them, and the next request
overtakes them.

Results:
* `Reclaims.tidy`, `Course.tidy`: an operation that ends has drained what it freed.
* `Reclaims.in_order`: reclaimed slots go to the heads of the queues.
* `Course.admits`: a session comes to run ahead of all that still wait, or as a new one on a slot
  that was free.
* **`admitted_in_order`**: a session that comes to run precedes all of its service that still wait,
  unless it is new and they were left waiting when its credential was issued.
* `late_request_overtakes`: that happens, so not every slot is given in the order of arrival.
-/

namespace SlotBroker

/-! ## Who comes to run -/

/-- From the one store to the other, the session has come to run. -/
structure Store.Admits (s t : Store) (a : Session) : Prop where
  runs : t.session? a.id = some a
  active : a.state = .active
  before : ∀ x, s.session? a.id = some x → x.state ≠ .active

instance (s t : Store) (a : Session) : Decidable (s.Admits t a) :=
  decidable_of_iff
    (t.session? a.id = some a ∧ a.state = .active ∧ ∀ x ∈ s.session? a.id, x.state ≠ .active)
    ⟨fun ⟨runs, active, before⟩ => ⟨runs, active, before⟩,
      fun h => ⟨h.runs, h.active, h.before⟩⟩

theorem Store.Admits.absurd {s t : Store} {a : Session} {P : Prop} (h : s.Admits t a)
    (same : s.session? a.id = some a) : P :=
  (h.before a same h.active).elim

/-- Only the session that is put into its place can have come to run. -/
theorem Store.Admits.eq_of_insert {s t : Store} {a y : Session} (h : s.Admits t a)
    (inserted : t.sessions = s.sessions.insert y) : a = y := by
  have runs := h.runs
  rw [Store.session?, inserted, Table.find?_insert] at runs
  split at runs
  · exact (Option.some.inj runs).symm
  · exact h.absurd runs

theorem Store.Admits.absurd_of_eq {s t : Store} {a : Session} {P : Prop} (h : s.Admits t a)
    (kept : t.sessions = s.sessions) : P := by
  have runs := h.runs
  rw [Store.session?, kept] at runs
  exact h.absurd runs

/-! ## What is left when an operation ends -/

/-- What holds of the store while slots are reclaimed: a session only waits beside a free slot if
its queue is yet to be drained, or if the slot's credential is younger. -/
structure Tidy (past : List Moment) (p : Store × Option ServiceId) : Prop where
  coherent : p.1.Coherent
  numbered : p.1.Numbered
  tended : ∀ {q c}, p.1.Spare q c → AddedAfter past c.id q.id ∨ p.2 = some q.service

section Reclaiming

variable {p q : Stage} {past : List Moment}

theorem Reclaim.mem_queue (h : Reclaim p q) {service : ServiceId} {b : Session}
    (hb : b ∈ q.store.queue service) : b ∈ p.store.queue service := by
  obtain ⟨hfind, waits, hservice⟩ := Store.mem_queue.1 hb
  obtain ⟨y, hy, leads⟩ := h.origin hfind
  obtain rfl := leads.eq_of_queued waits
  exact Store.mem_queue.2 ⟨hy, waits, hservice⟩

/-- **A slot is only freed for who is to be offered it.** -/
theorem Reclaim.tended (h : Reclaim p q) (coherent : p.store.Coherent) {b : Session}
    {c : Credential} (spare : q.store.Spare b c) : q.owed = some b.service ∨
      p.owed ≠ some b.service ∧ ∃ d, d.id = c.id ∧ p.store.Spare b d := by
  by_cases owes : q.owed = some b.service
  · exact .inl owes
  · refine .inr ?_
    have waited := Store.mem_queue.1 (h.mem_queue spare.mem_queue)
    cases h with
    | rest same =>
      unfold Stage.store at spare
      rw [same] at spare
      exact ⟨owes, c, rfl, spare⟩
    | @vacate w v owed left x y e definition id n found runs known ends moved before _ _ _ result =>
      have other : x.service ≠ b.service := fun e => owes (congrArg some e)
      unfold Stage.store at spare
      rw [result] at spare
      constructor
      · rcases before with rfl | rfl
        · exact (Option.some_ne_none _).symm
        · exact fun e => other (Option.some.inj e)
      · have known := (Store.credential?_giveBack _ y c.id).symm.trans spare.credential
        split at known
        · -- the slot that is given back is one of the session's service
          rename_i hy
          rw [(Session.Complete.of_apply (coherent.shaped found) runs moved).2] at hy
          obtain ⟨z, hz, hzs⟩ := coherent.bound found hy
          obtain ⟨d, hd, released⟩ := Option.map_eq_some_iff.1 known
          obtain rfl := Option.some.inj (hz.symm.trans hd)
          have same : c.service = z.service := by rw [← released]; rfl
          exact (other (hzs.symm.trans (same.symm.trans spare.service))).elim
        · exact ⟨c, rfl, waited.1, spare.waits, known, spare.capacity, spare.service⟩
    | @grant w service left h d head free =>
      have stored : (w.store.addCredential (d.occupy (w.time 0))).session? b.id = some b :=
        waited.1
      have occupied : (w.store.addCredential (d.occupy (w.time 0))).Spare b c :=
        ⟨stored, spare.waits, spare.credential, spare.capacity, spare.service⟩
      refine ⟨owes, ?_⟩
      rcases occupied.of_addCredential with rfl | before
      · obtain ⟨known, -, capacity⟩ := Store.mem_available.1 (List.mem_of_head? free)
        exact ⟨d, rfl, stored, spare.waits, known, capacity, spare.service⟩
      · exact ⟨c, rfl, before⟩
    | drained done =>
      refine ⟨fun e => ?_, c, rfl, spare⟩
      obtain rfl := Option.some.inj e
      rcases done with nobody | full
      · exact List.ne_nil_of_mem spare.mem_queue nobody
      · exact List.ne_nil_of_mem spare.mem_available full

theorem Reclaim.tidy (h : Reclaim p q) (tidy : Tidy past (p.store, p.owed)) :
    Tidy past (q.store, q.owed) where
  coherent := (h.keeps tidy.coherent).2
  numbered := h.numbered tidy.numbered
  tended {b c} spare := by
    rcases h.tended tidy.coherent spare with owes | ⟨owed, d, hid, before⟩
    · exact .inr owes
    · exact .inl (hid ▸ (tidy.tended before).resolve_right owed)

/-- **An operation that ends has drained what it freed.** -/
theorem Reclaims.tidy (h : Reclaims p q) (tidy : Tidy past (p.store, p.owed)) :
    Tidy past (q.store, q.owed) := by
  induction h with
  | refl => exact tidy
  | tail _ step ih => exact step.tidy ih

/-- Only the head of a queue comes to run. -/
theorem Reclaim.precedes (h : Reclaim p q) (numbered : p.store.Numbered) {a b : Session}
    (admitted : p.store.Admits q.store a) (hb : b ∈ q.store.queue a.service) : a.Precedes b := by
  have waited := h.mem_queue hb
  obtain ⟨stored, waits, -⟩ := Store.mem_queue.1 hb
  cases h with
  | rest same => exact admitted.absurd_of_eq (congrArg Store.sessions same)
  | @vacate _ _ _ _ _ y _ _ _ _ _ runs _ _ moved _ _ _ _ result =>
    have inserted : _ = _ := congrArg Store.sessions result
    rw [Store.sessions_vacate] at inserted
    obtain rfl := admitted.eq_of_insert inserted
    have terminal := Session.isTerminal_of_apply_active moved runs
    rw [admitted.active] at terminal
    cases terminal
  | @grant w service left h c head =>
    obtain rfl := admitted.eq_of_insert (y := h.started c.id (w.time 1)) rfl
    have asks := (Store.mem_queue.1 (List.mem_of_head? head)).2.2
    have ahead : h.Precedes b := by
      refine numbered.apart.precedes_of_head head (asks ▸ waited) ?_
      rintro rfl
      have runs := admitted.runs.symm.trans stored
      rw [← Option.some.inj runs] at waits
      cases waits
    exact ahead
  | drained => exact admitted.absurd_of_eq rfl

/-- **Reclaimed slots go to the heads of the queues.** -/
theorem Reclaims.in_order (h : Reclaims p q) (tidy : Tidy past (p.store, p.owed)) {a b : Session}
    (admitted : p.store.Admits q.store a) (hb : b ∈ q.store.queue a.service) :
    (p.store.session? a.id).isSome = true ∧ a.Precedes b := by
  induction h with
  | refl => exact admitted.absurd admitted.runs
  | @tail q r steps step ih =>
    obtain ⟨y, hy, leads⟩ := step.origin admitted.runs
    by_cases active : y.state = .active
    · obtain rfl := leads.eq_of_active active admitted.active
      exact ih ⟨hy, active, admitted.before⟩ (step.mem_queue hb)
    · obtain ⟨x, hx, -⟩ := Reclaims.origin steps hy
      have here : q.store.Admits r.store a := by
        refine ⟨admitted.runs, admitted.active, fun z hz => ?_⟩
        obtain rfl := Option.some.inj (hz.symm.trans hy)
        exact active
      exact ⟨Option.isSome_of_eq_some hx, step.precedes (Reclaims.tidy steps tidy).numbered here hb⟩

end Reclaiming

section Courses

variable {w v : World} {past : List Moment}

/-- A session only waits beside a free slot if the slot's credential is younger, or is issued by the
operation. -/
theorem Course.tended (h : Course w v) (tidy : Tidy past (w.store, none)) {b : Session}
    {c : Credential} (spare : v.store.Spare b c) : AddedAfter past c.id b.id ∨
      w.store.credential? c.id = none ∧ w.store.session? b.id = some b := by
  -- the slot was free before
  have younger : ∀ {d}, w.store.Spare b d → AddedAfter past d.id b.id := fun before =>
    (tidy.tended before).resolve_right (Option.some_ne_none _).symm
  cases h with
  | reclaimed steps => exact .inl (((steps.tidy tidy).tended spare).resolve_right
      (Option.some_ne_none _).symm)
  | queued _ _ _ _ _ _ _ full result =>
    rw [result] at spare
    rcases spare.of_addSession with rfl | before
    · exact absurd full (List.ne_nil_of_mem spare.mem_available)
    · exact .inl (younger before)
  | @placed x d _ _ _ _ _ runs _ _ _ _ _ free result =>
    rw [result] at spare
    rcases spare.of_addSession with rfl | occupied
    · cases runs.symm.trans spare.waits
    · rcases occupied.of_addCredential with rfl | before
      · obtain ⟨known, -, capacity⟩ := Store.mem_available.1 (List.mem_of_head? free)
        exact .inl (younger (d := d)
          ⟨occupied.session, spare.waits, known, capacity, spare.service⟩)
      · exact .inl (younger before)
  | cancelled _ _ _ moved result =>
    rw [result] at spare
    exact .inl (younger (spare.of_apply moved))
  | issued _ fresh _ result =>
    rw [result] at spare
    rcases spare.of_addCredential with rfl | before
    · exact .inr ⟨fresh, spare.session⟩
    · exact .inl (younger before)
  | @amended x y _ known same _ _ capacity result =>
    rw [result] at spare
    rcases spare.of_addCredential with rfl | before
    · have hid := (Store.credential?_eq_some_iff.1 known).2
      have service := same.symm.trans spare.service
      exact .inl (hid ▸ younger
        ⟨spare.session, spare.waits, hid ▸ known, capacity spare.capacity, service⟩)
    · exact .inl (younger before)
  | registered _ result =>
    rw [result] at spare
    exact .inl (younger
      ⟨spare.session, spare.waits, spare.credential, spare.capacity, spare.service⟩)

theorem Course.tidy (h : Course w v) (tidy : Tidy past (w.store, none)) (call : Nat) :
    Tidy (⟨call, w.store, v.store⟩ :: past) (v.store, none) where
  coherent := (h.keeps tidy.coherent).2
  numbered := h.numbered tidy.numbered
  tended {b c} spare := by
    rcases h.tended tidy spare with younger | ⟨fresh, waited⟩
    · exact .inl (younger.mono _)
    · exact .inl ⟨_, List.mem_cons_self, fresh, Option.isSome_of_eq_some spare.credential,
        Option.isSome_of_eq_some waited⟩

/-- **A session comes to run** ahead of all that still wait, or as a new one on a slot that was
free. -/
theorem Course.admits (h : Course w v) (tidy : Tidy past (w.store, none)) {a : Session}
    (admitted : w.store.Admits v.store a) :
    (w.store.session? a.id).isSome = true ∧ (∀ b ∈ v.store.queue a.service, a.Precedes b) ∨
    w.store.session? a.id = none ∧
      (∀ b ∈ v.store.queue a.service, b ∈ w.store.queue a.service) ∧
      ∃ c ∈ w.store.available a.service, a.credential = some c.id := by
  cases h with
  | reclaimed steps =>
    by_cases stored : (w.store.session? a.id).isSome = true
    · exact .inl ⟨stored, fun b hb => (steps.in_order tidy admitted hb).2⟩
    · obtain ⟨y, hy, -⟩ := steps.origin admitted.runs
      exact absurd (Option.isSome_of_eq_some hy) stored
  | queued _ _ _ waits _ _ _ _ result =>
    rw [result] at admitted
    obtain rfl := admitted.eq_of_insert rfl
    cases waits.symm.trans admitted.active
  | @placed x c word _ _ fresh _ runs _ _ _ _ bound free result =>
    rw [result] at admitted ⊢
    obtain rfl := admitted.eq_of_insert rfl
    refine .inr ⟨fresh, fun b hb => ?_, c, List.mem_of_head? free, bound⟩
    obtain ⟨stored, waits, asks⟩ := Store.mem_queue.1 hb
    rw [Store.session?_addSession] at stored
    split at stored
    · rw [← Option.some.inj stored] at waits
      cases runs.symm.trans waits
    · exact Store.mem_queue.2 ⟨stored, waits, asks⟩
  | cancelled _ _ waits moved result =>
    rw [result] at admitted
    obtain rfl := admitted.eq_of_insert rfl
    have after := Session.state_apply moved
    rw [waits, admitted.active] at after
    cases after
  | issued _ _ _ result | amended _ _ _ _ _ _ result | registered _ result =>
    exact admitted.absurd_of_eq (by rw [result]; rfl)

end Courses

/-! ## Orderly runs -/

section Runs

variable {key : Codec.Key} {w : World} {past : List Moment}

theorem Command.tidy {c : Command} (fresh : c.Fresh w) (tidy : Tidy past (w.store, none)) :
    Tidy (⟨past.length, w.store, (c.run key w).store⟩ :: past) ((c.run key w).store, none) := by
  cases c with
  | define service =>
    refine ⟨tidy.coherent.addService service, tidy.numbered.of_eq rfl rfl, fun spare => ?_⟩
    obtain ⟨hb, waits, known, capacity, same⟩ := spare
    exact (tidy.tended ⟨hb, waits, known, capacity, same⟩).imp_left (·.mono _)
  | call op => exact (op.course key fresh tidy.coherent).tidy tidy _

/-- **Between any two commands** nobody waits beside a free slot, but of a younger credential. -/
theorem Orderly.tidy (h : Orderly key w past) : Tidy past (w.store, none) := by
  induction h with
  | start w bare =>
    have start : Orderly key w [] := .start w bare
    refine ⟨start.coherent, start.numbered, fun spare => ?_⟩
    have stored := spare.session
    rw [bare, Store.session?, Table.find?_empty] at stored
    cases stored
  | next c _ fresh ih => exact Command.tidy fresh ih

/-- **Who comes to run precedes all of its service that still wait**, save that a new session may
leave behind who waited when its credential was issued. Where none is issued while somebody waits,
there is no exception, and a new session only comes to run if nobody waits. -/
theorem admitted_in_order (h : Orderly key w past) {c : Command} (fresh : c.Fresh w) {a : Session}
    (admitted : w.store.Admits (c.run key w).store a) :
    (∀ b ∈ (c.run key w).store.queue a.service,
      a.Precedes b ∨
        w.store.session? a.id = none ∧ ∃ d, a.credential = some d ∧ AddedAfter past d b.id) ∧
    ((∀ m ∈ past, m.Issues a.service → m.before.queue a.service = []) →
      (∀ b ∈ (c.run key w).store.queue a.service, a.Precedes b) ∧
        (w.store.session? a.id = none → w.store.queue a.service = [])) := by
  have tidy := h.tidy
  cases c with
  | define => exact admitted.absurd_of_eq rfl
  | call op =>
    rcases (op.course key fresh tidy.coherent).admits tidy admitted with
      ⟨stored, ahead⟩ | ⟨new, waited, d, free, bound⟩
    · refine ⟨fun b hb => .inl (ahead b hb), fun _ => ⟨ahead, fun new => ?_⟩⟩
      rw [new] at stored
      cases stored
    · -- who waits beside the slot is older than its credential
      have spare : ∀ b ∈ w.store.queue a.service, w.store.Spare b d := fun b hb => .of_mem hb free
      have younger : ∀ b ∈ w.store.queue a.service, AddedAfter past d.id b.id := fun b hb =>
        (tidy.tended (spare b hb)).resolve_right (Option.some_ne_none _).symm
      refine ⟨fun b hb => .inr ⟨new, d.id, bound, younger b (waited b hb)⟩, fun spared => ?_⟩
      have nobody : w.store.queue a.service = [] := by
        refine List.eq_nil_iff_forall_not_mem.2 fun b hb => ?_
        obtain ⟨m, hm, issues, before⟩ := (younger b hb).issued (spare b hb) h.past_evolves
        rw [(Store.mem_queue.1 hb).2.2] at issues before
        rw [spared m hm issues] at before
        cases before
      refine ⟨fun b hb => ?_, fun _ => nobody⟩
      have := waited b hb
      rw [nobody] at this
      cases this

end Runs

/-- A session as it waits for films at time zero. -/
def asking (id : SessionId) (user : UserId) (sequence : UInt64) : Session :=
  { id := id, user := user, service := "films", queuedAt := 0, sequence := sequence }

/-- A credential is issued, and three users ask for it. -/
def threeAsk : World × List Moment :=
  Command.after
    [.define oneSlot, .call (.issue "films" "house" "secret" .basic),
      .call (.request "ann" "films"), .call (.request "bob" "films"),
      .call (.request "cy" "films")]

theorem admitted_in_order_slotPassedOn :
    let bob := (asking "0000000000000002" "bob" 2).started "000000000000" 0
    let cy := asking "0000000000000003" "cy" 3
    let left := (Command.call (.finish "0000000000000001")).run Scene.plainKey threeAsk.1
    threeAsk.1.store.Admits left.store bob ∧ cy ∈ left.store.queue "films" ∧ bob.Precedes cy := by
  intro bob cy left
  let ann := (asking "0000000000000001" "ann" 1).started "000000000000" 0
  let gone := { ann with state := .ended, endedAt := some 0 }
  let freed := { threeAsk.1.store with sessions := threeAsk.1.store.sessions.insert gone }
  -- what is left by the bill, which no session or slot depends on
  have found : threeAsk.1.store.session? "0000000000000001" = some ann := by cbv
  have ended := Course.run_endSession (y := gone) found rfl (by cbv)
  obtain ⟨ledger, hledger⟩ := store_run_releaseAndBill gone ((threeAsk.1.tick 1).withStore freed)
  have clock := Program.reading_run (Broker.releaseAndBill gone)
    ((threeAsk.1.tick 1).withStore freed)
  generalize ((Broker.releaseAndBill gone).run ((threeAsk.1.tick 1).withStore freed)).2 = v
    at ended hledger clock
  obtain ⟨⟨store, metrics, providers⟩, ⟨reading, word, read, drawn⟩⟩ := v
  change store = { freed.giveBack gone with ledger := ledger } at hledger
  obtain rfl : reading = fun _ => 0 := clock.trans (Command.reading_after _)
  subst hledger
  have hleft : left = _ := (congrArg Prod.snd (Program.run_map _ _ _)).trans ended
  have runs : left.store.session? "0000000000000002" = some bob := by
    rw [hleft]
    cbv
  have stays : left.store.session? "0000000000000003" = some cy := by
    rw [hleft]
    cbv
  have waited : threeAsk.1.store.session? "0000000000000002" =
      some (asking "0000000000000002" "bob" 2) := by cbv
  have admitted : threeAsk.1.store.Admits left.store bob := by
    refine ⟨runs, rfl, fun x hx => ?_⟩
    rw [← Option.some.inj (waited.symm.trans hx)]
    decide
  have waits : cy ∈ left.store.queue "films" := Store.mem_queue.2 ⟨stays, rfl, rfl⟩
  have order := admitted_in_order (c := .call (.finish "0000000000000001")) (orderly_after _)
    trivial admitted
  refine ⟨admitted, waits, (order.1 cy waits).resolve_right fun new => ?_⟩
  cases waited.symm.trans new.1

/-- A user asks while there is no credential, and one is issued when he waits. -/
def lateIssue : World × List Moment :=
  Command.after
    [.define oneSlot, .call (.request "ann" "films"),
      .call (.issue "films" "house" "secret" .basic)]

/-- **Not every slot is given in the order of arrival**, not even where no clock goes back: the next
user who asks overtakes the one who waits beside the slot. -/
theorem late_request_overtakes :
    ¬ ∀ (key : Codec.Key) (w : World) (past : List Moment), Orderly key w past →
      (∀ m n, m ≤ n → w.supply.reading m ≤ w.supply.reading n) →
      ∀ c : Command, c.Fresh w → ∀ a, w.store.Admits (c.run key w).store a →
      ∀ b ∈ (c.run key w).store.queue a.service, a.Precedes b := by
  intro law
  have still : lateIssue.1.supply.reading = fun _ => 0 := Command.reading_after _
  have forward : ∀ m n, m ≤ n →
      lateIssue.1.supply.reading m ≤ lateIssue.1.supply.reading n := by
    intro m n _
    rw [still]
    exact UInt64.le_refl 0
  have overtakes := law Scene.plainKey lateIssue.1 lateIssue.2 (orderly_after _) forward
    (.call (.request "bob" "films")) (by decide +kernel)
    ((asking "0000000000000002" "bob" 2).started "000000000001" 0) (by decide +kernel)
    (asking "0000000000000000" "ann" 1) (Store.mem_queue.2 ⟨by decide +kernel, rfl, rfl⟩)
  exact absurd overtakes (by decide)

end SlotBroker
