import SlotBroker.Proofs.Obeys

/-!
# Every operation obeys

One rule for each program of the vault, the ledger and the broker, in the order in which they are
built from each other. A rule says with what stake the program may be started and with what stake
it goes on; the walk through the program is made here and nowhere else.

Results:
* `Obeys.drainQueue`: draining a queue discharges the duty to drain it.
* `Obeys.releaseAndBill`: the slot and the bill of a session that has left are settled.
* **`Operation.obeys`**: every operation obeys, and ends with nothing in hand.
-/

namespace SlotBroker

/-- The call has neither a slot nor a bill in hand. -/
def Stake.Clear (g : Stake) : Prop := g.slot = none ∧ g.bill = none

namespace Obeys

open Program

variable {β : Type} {digits : Nat} {g : Stake} {s : Store} {Q : β → Stake → Store → Prop}

/-! ## Slots -/

theorem checkout {c : CredentialId} {k : Option Credential → Program β} (hg : g.slot = none)
    (refused : ∀ t, s.Grows t → Obeys digits (k none) { g with duty := g.duty.pass c } t Q)
    (taken : ∀ t y, s.Grows t → t.credential? c = some y → y.id = c →
      Obeys digits (k (some y)) { g with slot := some c, duty := g.duty.renew } t Q) :
    Obeys digits ((Vault.checkout c).bind k) g s Q := by
  unfold Vault.checkout
  simp only [bind_eq, bind_assoc]
  refine now fun time => onStore (.checkout c time) (fun _ => rfl) fun t ht _ => ?_
  have fails : (∀ x, t.credential? c = some x → x.hasCapacity = false) →
      t.checkout c time = (none, t) := by
    intro h
    unfold Store.checkout
    cases hx : t.credential? c with
    | none => rfl
    | some x => simp [h x hx]
  cases hx : t.credential? c with
  | none =>
    have full : ∀ x, t.credential? c = some x → x.hasCapacity = false := by
      intro x h
      rw [hx] at h
      cases h
    rw [fails full]
    exact ⟨_, .refused full, fun _ => refused t ht⟩
  | some x =>
    cases hcap : x.hasCapacity with
    | false =>
      have full : ∀ x, t.credential? c = some x → x.hasCapacity = false := by
        intro y h
        rw [hx] at h
        rw [← Option.some.inj h]
        exact hcap
      rw [fails full]
      exact ⟨_, .refused full, fun _ => refused t ht⟩
    | true =>
      have hid : x.id = c := (Store.credential?_eq_some_iff.1 hx).2
      have hout : t.checkout c time = (some (x.occupy time), t.addCredential (x.occupy time)) := by
        simp only [Store.checkout, hx, hcap, if_true]
      rw [hout]
      refine ⟨_, .taken hx hcap hg, fun hgrow => taken _ _ (ht.trans hgrow) ?_ hid⟩
      rw [Store.credential?_addCredential]
      exact if_pos hid

theorem checkoutFirst {service : ServiceId} {cs : List Credential}
    {k : Option Credential → Program β} (hg : g.slot = none)
    (duty : g.duty = .tries service (cs.map (·.id)))
    (full : ∀ t, s.Grows t → Obeys digits (k none) { g with duty := .free } t Q)
    (taken : ∀ t c y, s.Grows t → c ∈ cs → t.credential? c.id = some y → y.id = c.id →
      Obeys digits (k (some y)) { g with slot := some c.id, duty := .drain service } t Q) :
    Obeys digits ((Vault.checkoutFirst cs).bind k) g s Q := by
  induction cs generalizing g s with
  | nil =>
    have hfree : g = { g with duty := .free } := by
      cases g
      simp only at duty
      rw [duty]
      rfl
    rw [hfree]
    exact full s (.refl s)
  | cons c rest ih =>
    rw [Vault.checkoutFirst]
    simp only [bind_eq, bind_assoc]
    refine checkout hg (fun t ht => ?_) fun t y ht hy hid => ?_
    · refine ih hg ?_ (fun u hu => full u (ht.trans hu)) fun u c' y hu hc' =>
        taken u c' y (ht.trans hu) (List.mem_cons_of_mem c hc')
      rw [duty, List.map_cons]
      exact Duty.pass_tries service c.id _
    · have := taken t c y ht List.mem_cons_self hy hid
      rw [← Duty.renew_tries service c.id (rest.map (·.id)), ← List.map_cons, ← duty] at this
      exact this

theorem checkin {c : CredentialId} {k : Unit → Program β} (hg : g.slot = some c)
    (known : ∀ t, s.Grows t → t.Coherent →
      ∃ x, t.credential? c = some x ∧ g.duty = .drain x.service)
    (given : ∀ t, s.Grows t → Obeys digits (k ()) { g with slot := none } t Q) :
    Obeys digits ((Vault.checkin c).bind k) g s Q := by
  refine update (.checkin c) (fun _ => rfl) fun t ht hc => ?_
  obtain ⟨x, hx, hduty⟩ := known t ht hc
  have hin : t.checkin c = t.addCredential x.release := by simp only [Store.checkin, hx]
  rw [hin]
  exact ⟨_, .returned hx hg hduty, fun hgrow => given _ (ht.trans hgrow)⟩

/-! ## The queue -/

/-- A slot in hand is offered to a session: it starts, or the slot goes back. -/
theorem offer {service : ServiceId} {head : Session} {c : CredentialId} {n : Nat}
    {Q : Bool × Nat → Stake → Store → Prop} (hg : g.slot = some c) (duty : g.duty = .drain service)
    (hhead : ∃ z, s.session? head.id = some z ∧ head.Leads z) (hserv : head.service = service)
    (hc : ∃ d, s.credential? c = some d ∧ d.service = service)
    (again : ∀ m t, s.Grows t → Q (true, m) { g with slot := none } t) :
    Obeys digits (Program.now.bind fun now =>
      (Program.onStore (·.applyEvent head.id (.start c now))).bind fun moved =>
        if moved.isSome = true then .done (true, n + 1)
        else (Vault.checkin c).bind fun _ => .done (true, n)) g s Q := by
  refine now fun time =>
    onStore (.applyEvent head.id (.start c time)) (fun _ => rfl) fun t ht _ => ?_
  have belongs : ∀ {u : Store}, s.Grows u →
      ∃ d, u.credential? c = some d ∧ d.service = service := by
    intro u hu
    obtain ⟨d, hd, hds⟩ := hc
    obtain ⟨e, he, hes⟩ := hu.credentials hd
    exact ⟨e, he, hes.trans hds⟩
  obtain ⟨z, hz, hlead⟩ := hhead
  obtain ⟨x, hx, hzx⟩ := ht.sessions hz
  cases hmove : x.apply (.start c time) with
  | none =>
    have hnone : t.applyEvent head.id (.start c time) = (none, t) := by
      simp only [Store.applyEvent, hx, hmove]
    rw [hnone]
    refine ⟨g, .ignored g hnone, fun _ => ?_⟩
    refine checkin hg (fun u hu _ => ?_) fun u hu => done fun v hv =>
      again n v ((ht.trans hu).trans hv)
    obtain ⟨d, hd, hds⟩ := belongs (ht.trans hu)
    exact ⟨d, hd, by rw [hds, duty]⟩
  | some y =>
    rw [Store.applyEvent_eq hx hmove]
    obtain ⟨d, hd, hds⟩ := belongs ht
    refine ⟨_, .started hx hmove hg hd ?_, fun hgrow => done fun u hu =>
      again (n + 1) u ((ht.trans hgrow).trans hu)⟩
    rw [hds, (hlead.trans hzx).fixed.2.2.1, hserv]

theorem drainRound {service : ServiceId} {n : Nat} {Q : Bool × Nat → Stake → Store → Prop}
    (hg : g.slot = none) (duty : g.duty = .drain service)
    (last : ∀ m t, s.Grows t → Q (false, m) { g with duty := .free } t)
    (more : ∀ m t, s.Grows t → Q (true, m) g t) :
    Obeys digits (Broker.drainRound service n) g s Q := by
  unfold Broker.drainRound
  simp only [bind_eq, pure_eq]
  refine ask fun t ht _ => ?_
  cases hq : (t.queue service).head? with
  | none =>
    exact ⟨_, .emptied duty (List.head?_eq_none_iff.1 hq), done fun u hu => last n u (ht.trans hu)⟩
  | some head =>
    refine ⟨g, .still _ g, ?_⟩
    obtain ⟨hmem, hwaits⟩ := Store.mem_sessionsMatching.1 (List.mem_of_head? hq)
    simp only [Session.waitsFor, Bool.and_eq_true, decide_eq_true_eq] at hwaits
    refine ask fun u hu _ => ⟨_, .surveyed duty, ?_⟩
    refine checkoutFirst hg rfl (fun v hv => done fun w hw =>
      last n w (((ht.trans hu).trans hv).trans hw)) fun v c y hv hc hy hid => ?_
    obtain ⟨hmemc, hcs⟩ := List.mem_filter.1 hc
    simp only [Bool.and_eq_true, decide_eq_true_eq] at hcs
    dsimp only
    rw [hid]
    refine offer rfl rfl ?_ hwaits.2 ?_ fun m w hw => ?_
    · exact (hu.trans hv).sessions (Store.session?_eq_some_iff.2 ⟨hmem, rfl⟩)
    · obtain ⟨d, hd, hds⟩ := hv.credentials (Store.credential?_eq_some_iff.2 ⟨hmemc, rfl⟩)
      exact ⟨d, hd, hds.trans hcs.1⟩
    · have hsame : { g with slot := none, duty := .drain service } = g := by
        rw [← hg, ← duty]
      have := more m w (((ht.trans hu).trans hv).trans hw)
      rwa [← hsame] at this

theorem drainQueue {service : ServiceId} {k : Nat → Program β} (hg : g.slot = none)
    (duty : g.duty = .drain service)
    (drained : ∀ n t, s.Grows t → Obeys digits (k n) { g with duty := .free } t Q) :
    Obeys digits ((Broker.drainQueue service).bind k) g s Q := by
  unfold Broker.drainQueue
  simp only [bind_eq, pure_eq, bind_assoc]
  refine repeatWhile (fun _ g' t => g' = g ∧ s.Grows t) ⟨rfl, .refl s⟩
    (fun _ _ _ _ h ht => ⟨h.1, h.2.trans ht⟩) fun n g' t h => ?_
  obtain ⟨rfl, ht⟩ := h
  refine drainRound hg duty (fun m u hu => ?_) fun m u hu => ⟨rfl, ht.trans hu⟩
  have after := drained m u (ht.trans hu)
  rw [if_neg Bool.false_ne_true]
  dsimp only
  split
  · rw [bind_assoc]
    exact count after
  · exact after

/-! ## Ends -/

theorem recordSession {y : Session} {k : Except Failure UsageRecord → Program β}
    (bill : g.bill = some y) (stored : s.session? y.id = some y)
    (finished : y.state.isTerminal = true)
    (recorded : ∀ id r t, s.Grows t →
      Obeys Ident.longDigits (k (.ok r)) { g with id := id, bill := none } t Q) :
    Obeys Ident.longDigits ((Billing.recordSession y).bind k) g s Q := by
  unfold Billing.recordSession
  simp only [bind_eq, pure_eq, bind_assoc]
  refine query fun t ht hc => ?_
  obtain ⟨service, hservice⟩ :=
    Option.isSome_iff_exists.1 (hc.registered (ht.session?_of_terminal stored finished))
  rw [hservice]
  simp only [bind_assoc]
  refine now fun time => freshId fun id => ?_
  refine update (.appendUsage (.ofSession id y service time)) (fun _ => rfl) fun u hu _ => ?_
  have priced : u.service? y.service = some service := by
    rwa [Store.service?, hu.services]
  exact ⟨_, .billed bill rfl priced,
    fun hgrow => observe (recorded (some id) _ _ ((ht.trans hu).trans hgrow))⟩

/-- The slot and the bill of a session that has left are settled; the queue is yet to be drained. -/
theorem releaseAndBill {y : Session} {k : Option UsageRecord → Program β}
    (slot : g.slot = y.credential) (bill : g.bill = some y) (duty : g.duty = .drain y.service)
    (stored : s.session? y.id = some y) (finished : y.state.isTerminal = true)
    (settled : ∀ r g' t, s.Grows t → g'.Clear → g'.duty = .drain y.service → g'.ended = g.ended →
      Obeys Ident.longDigits (k r) g' t Q) :
    Obeys Ident.longDigits ((Broker.releaseAndBill y).bind k) g s Q := by
  unfold Broker.releaseAndBill
  simp only [bind_eq, pure_eq]
  cases hcred : y.credential with
  | none =>
    simp only [bind_assoc]
    exact recordSession bill stored finished fun id r t ht =>
      settled (some r) _ t ht ⟨slot.trans hcred, rfl⟩ duty rfl
  | some c =>
    simp only [bind_assoc]
    refine checkin (slot.trans hcred) (fun t ht hc => ?_) fun t ht => ?_
    · obtain ⟨d, hd, hds⟩ := hc.bound (ht.session?_of_terminal stored finished) hcred
      exact ⟨d, hd, by rw [duty, hds]⟩
    · exact recordSession bill (ht.session?_of_terminal stored finished) finished fun id r u hu =>
        settled (some r) _ u (ht.trans hu) ⟨rfl, rfl⟩ duty rfl

/-- What a step that ends a running session leaves to do. -/
theorem leave {id : SessionId} {e : Session.Event} {x y : Session}
    {k : Option UsageRecord → Program β}
    {t : Store} (found : t.session? id = some x) (runs : x.state = .active)
    (moved : x.apply e = some y) (clear : g.Clear)
    (duty : g.duty = .free ∨ g.duty = .drain x.service)
    (overdue : ∀ time, e = .expire time →
      ∃ service, t.service? x.service = some service ∧ x.overdue service.limitMillis time = true)
    (settled : ∀ r g' u, t.Grows u → g'.Clear → g'.duty = .drain x.service →
      g'.ended = e.ends id g.ended → Obeys Ident.longDigits (k r) g' u Q) :
    ∃ g', Move (.applyEvent id e) t g { t with sessions := t.sessions.insert y } g' ∧
      (t.Grows { t with sessions := t.sessions.insert y } →
        Obeys Ident.longDigits ((Broker.releaseAndBill y).bind k) g'
          { t with sessions := t.sessions.insert y } Q) := by
  have hserv : y.service = x.service := (Session.fixed_apply moved).2.2.1
  refine ⟨_, .left found runs moved clear.1 clear.2 duty overdue, fun hgrow => ?_⟩
  refine releaseAndBill rfl rfl rfl ?_ (Session.isTerminal_of_apply_active moved runs)
    fun r g' u hu hclear hduty hended => ?_
  · rw [Store.session?_insert]
    exact if_pos rfl
  · exact settled r g' u (hgrow.trans hu) hclear (hduty.trans (by rw [hserv])) hended

theorem endSession {id : SessionId} (clear : g.Clear) (duty : g.duty = .free) :
    Obeys Ident.longDigits (Broker.endSession id) g s fun r g' _ =>
      g'.Clear ∧ g'.duty = .free ∧ ∀ record, r = some record → g'.ended = some id := by
  have nothing : ∀ t, Obeys Ident.longDigits (.done none) g t
      fun (r : Option UsageRecord) g' _ =>
        g'.Clear ∧ g'.duty = .free ∧ ∀ record, r = some record → g'.ended = some id :=
    fun _ => done fun _ _ => ⟨clear, duty, fun _ h => nomatch h⟩
  unfold Broker.endSession
  simp only [bind_eq, pure_eq]
  refine now fun time => onStore (.applyEvent id (.finish time)) (fun _ => rfl) fun t _ _ => ?_
  rcases t.applyEvent_cases id (.finish time) with ignored | ⟨x, y, hx, hmove, applied⟩
  · rw [ignored]
    exact ⟨g, .ignored g ignored, fun _ => nothing _⟩
  · rw [applied]
    cases hstate : x.state with
    | queued => exact ⟨g, .cancelled hx hstate hmove, fun _ => nothing _⟩
    | active =>
      refine leave hx hstate hmove clear (.inl duty) (fun _ h => nomatch h) ?_
      intro r g' u hu hclear hduty hended
      refine drainQueue hclear.1 ?_ fun _ v _ => done fun _ _ => ⟨hclear, rfl, fun _ _ => hended⟩
      rw [hduty, (Session.fixed_apply hmove).2.2.1]
    | ended | expired =>
      have := Session.isTerminal_eq_false_of_apply hmove
      rw [hstate] at this
      cases this

/-! ## The sweep -/

theorem expireSessions {service : Service} {now : Millis} {xs : List Session}
    {k : List SessionId → Program β} (clear : g.Clear)
    (duty : g.duty = .free ∨ g.duty = .drain service.id)
    (known : s.service? service.id = some service)
    (seen : ∀ x ∈ xs, x.state = .active ∧ x.service = service.id ∧
      ∃ z, s.session? x.id = some z ∧ x.Leads z)
    (expired : ∀ ids g' t, s.Grows t → g'.Clear → g'.ended = g.ended →
      (ids = [] ∧ g'.duty = g.duty ∨ ids ≠ [] ∧ g'.duty = .drain service.id) →
      Obeys Ident.longDigits (k ids) g' t Q) :
    Obeys Ident.longDigits ((Broker.expireSessions service.limitMillis now xs).bind k) g s Q := by
  induction xs generalizing g s k with
  | nil => exact expired [] g s (.refl s) clear rfl (.inl ⟨rfl, rfl⟩)
  | cons x rest ih =>
    obtain ⟨hrun, hserv, z, hz, hlead⟩ := seen x List.mem_cons_self
    have known' : ∀ {t : Store}, s.Grows t → t.service? service.id = some service := by
      intro t ht
      rwa [Store.service?, ht.services]
    have seen' : ∀ {t : Store}, s.Grows t → ∀ x ∈ rest, x.state = .active ∧
        x.service = service.id ∧ ∃ z, t.session? x.id = some z ∧ x.Leads z := by
      intro t ht w hw
      obtain ⟨h1, h2, v, hv, hwv⟩ := seen w (List.mem_cons_of_mem x hw)
      obtain ⟨v', hv', hvv'⟩ := ht.sessions hv
      exact ⟨h1, h2, v', hv', hwv.trans hvv'⟩
    rw [Broker.expireSessions]
    simp only [bind_eq, pure_eq]
    split
    · rename_i hover
      rw [bind_assoc]
      refine onStore (.applyEvent x.id (.expire now)) (fun _ => rfl) fun t ht _ => ?_
      obtain ⟨y, hy, hzy⟩ := ht.sessions hz
      cases hmove : y.apply (.expire now) with
      | none =>
        have hnone : t.applyEvent x.id (.expire now) = (none, t) := by
          simp only [Store.applyEvent, hy, hmove]
        rw [hnone]
        exact ⟨g, .ignored g hnone, fun hgrow => ih clear duty (known' ht) (seen' ht)
          fun ids g' u hu => expired ids g' u (ht.trans hu)⟩
      | some y' =>
        -- only a running session can expire, so it is the one that was overdue when looked at
        obtain rfl : y = x := (hlead.trans hzy).eq_of_active hrun (Session.active_of_expire hmove)
        rw [Store.applyEvent_eq hy hmove]
        dsimp only
        rw [bind_assoc]
        refine leave hy hrun hmove clear (hserv ▸ duty) (fun time he => ?_) ?_
        · cases he
          exact ⟨service, hserv ▸ known' ht, hover⟩
        · intro r g' u hu hclear hduty hended
          have htu := ht.trans hu
          rw [hserv] at hduty
          simp only [bind_assoc]
          refine ih hclear (.inr hduty) (known' htu) (seen' htu) fun ids g'' v hv hc he hd => ?_
          refine expired _ g'' v (htu.trans hv) hc (he.trans hended)
            (.inr ⟨List.cons_ne_nil _ _, ?_⟩)
          rcases hd with hd | hd
          · exact hd.2.trans hduty
          · exact hd.2
    · exact ih clear duty known (seen' (.refl s)) fun ids g' u hu => expired ids g' u hu

theorem expireHolding {service : Service} {now : Millis} {cs : List Credential}
    {k : List SessionId → Program β} (clear : g.Clear)
    (duty : g.duty = .free ∨ g.duty = .drain service.id)
    (known : s.service? service.id = some service)
    (seen : ∀ c ∈ cs, ∃ d, s.credential? c.id = some d ∧ d.service = service.id)
    (expired : ∀ ids g' t, s.Grows t → g'.Clear → g'.ended = g.ended →
      (ids = [] ∧ g'.duty = g.duty ∨ ids ≠ [] ∧ g'.duty = .drain service.id) →
      Obeys Ident.longDigits (k ids) g' t Q) :
    Obeys Ident.longDigits ((Broker.expireHolding service.limitMillis now cs).bind k) g s Q := by
  induction cs generalizing g s k with
  | nil => exact expired [] g s (.refl s) clear rfl (.inl ⟨rfl, rfl⟩)
  | cons c rest ih =>
    rw [Broker.expireHolding]
    simp only [bind_eq, pure_eq, bind_assoc]
    refine query fun t ht hc => ?_
    have known' : ∀ {u : Store}, t.Grows u → u.service? service.id = some service := by
      intro u hu
      rwa [Store.service?, (ht.trans hu).services]
    refine expireSessions clear duty (known' (.refl t)) (fun x hx => ?_)
      fun ids g' u hu hclear hended hduty => ?_
    · obtain ⟨hmem, hholds⟩ := Store.mem_sessionsMatching.1 hx
      simp only [Session.holds, Bool.and_eq_true, decide_eq_true_eq] at hholds
      have hx : t.session? x.id = some x := Store.session?_eq_some_iff.2 ⟨hmem, rfl⟩
      -- the session runs on a credential of the service, so it is the service's
      obtain ⟨d, hd, hds⟩ := hc.bound hx hholds.2
      obtain ⟨d₀, hd₀, hs₀⟩ := seen c List.mem_cons_self
      obtain ⟨d₁, hd₁, hs₁⟩ := ht.credentials hd₀
      obtain rfl := Option.some.inj (hd₁.symm.trans hd)
      exact ⟨hholds.1, by rw [← hds, hs₁, hs₀], x, hx, .refl x⟩
    · have hduty' : g'.duty = .free ∨ g'.duty = .drain service.id := by
        rcases hduty with h | h
        · rw [h.2]
          exact duty
        · exact .inr h.2
      refine ih hclear hduty' (known' hu) (fun c' hc' => ?_)
        fun ids' g'' v hv hclear' hended' hd => ?_
      · obtain ⟨d, hd, hds⟩ := seen c' (List.mem_cons_of_mem c hc')
        obtain ⟨d', hd', hds'⟩ := (ht.trans hu).credentials hd
        exact ⟨d', hd', hds'.trans hds⟩
      · refine expired (ids ++ ids') g'' v ((ht.trans hu).trans hv) hclear'
            (hended'.trans hended) ?_
        rcases hd with ⟨rfl, hd⟩ | ⟨hne, hd⟩
        · rw [List.append_nil, hd]
          exact hduty
        · exact .inr ⟨fun e => hne (List.append_eq_nil_iff.1 e).2, hd⟩

theorem sweepServices {services : List Service} {k : List SessionId → Program β} (clear : g.Clear)
    (duty : g.duty = .free) (known : ∀ x ∈ services, s.service? x.id = some x)
    (swept : ∀ ids g' t, s.Grows t → g'.Clear → g'.duty = .free → g'.ended = g.ended →
      Obeys Ident.longDigits (k ids) g' t Q) :
    Obeys Ident.longDigits ((Broker.sweepServices services).bind k) g s Q := by
  induction services generalizing g s k with
  | nil => exact swept [] g s (.refl s) clear duty rfl
  | cons service rest ih =>
    have known' : ∀ {t : Store}, s.Grows t → ∀ x ∈ service :: rest, t.service? x.id = some x := by
      intro t ht x hx
      rw [Store.service?, ht.services]
      exact known x hx
    rw [Broker.sweepServices]
    unfold Broker.expireOverdue
    simp only [bind_eq, pure_eq, bind_assoc]
    refine now fun time => query fun t ht _ => ?_
    refine expireHolding clear (.inl duty) (known' ht service List.mem_cons_self) (fun c hc => ?_)
      fun ids g' u hu hclear hended hduty => ?_
    · obtain ⟨hmem, hcs⟩ := List.mem_filter.1 hc
      exact ⟨c, Store.credential?_eq_some_iff.2 ⟨hmem, rfl⟩, of_decide_eq_true hcs⟩
    · have htu := ht.trans hu
      have rest' : ∀ {v : Store}, u.Grows v → ∀ x ∈ rest, v.service? x.id = some x :=
        fun hv x hx => known' (htu.trans hv) x (List.mem_cons_of_mem _ hx)
      split
      · rename_i hempty
        have hfree : g'.duty = .free := by
          rcases hduty with ⟨-, h⟩ | ⟨hne, -⟩
          · exact h.trans duty
          · exact absurd (List.isEmpty_iff.1 hempty) hne
        exact ih hclear hfree (rest' (.refl u))
          fun ids' g'' v hv hc hd he => swept ids' g'' v (htu.trans hv) hc hd (he.trans hended)
      · rename_i hsome
        have hdrain : g'.duty = .drain service.id := by
          rcases hduty with ⟨h, -⟩ | ⟨-, h⟩
          · exact absurd (List.isEmpty_iff.2 h) hsome
          · exact h
        simp only [bind_assoc]
        refine count (drainQueue hclear.1 hdrain fun _ v hv => ?_)
        refine ih hclear rfl (rest' hv) fun ids' g'' w hw hc hd he => ?_
        exact swept (ids ++ ids') g'' w ((htu.trans hv).trans hw) hc hd (he.trans hended)

theorem enforceLimits (clear : g.Clear) (duty : g.duty = .free) :
    Obeys Ident.longDigits Broker.enforceLimits g s fun _ g' _ => g'.Clear ∧ g'.duty = .free := by
  unfold Broker.enforceLimits
  simp only [bind_eq]
  refine query fun t _ _ => ?_
  rw [← Program.bind_done (Broker.sweepServices _)]
  refine sweepServices clear duty (fun x hx => Table.find?_of_mem hx) ?_
  exact fun ids g' u _ hc hd _ => done fun _ _ => ⟨hc, hd⟩

/-! ## Requests -/

theorem admitNew {session : Session} {now : Millis} {k : Session → Program β} (hg : g.slot = none)
    (duty : g.duty = .free) (waits : session.state = .queued) (blank : session.Blank)
    (waiting : ∀ t, s.Grows t → Obeys digits (k session) g t Q)
    (running : ∀ y c d t, s.Grows t → y.state = .active → y.Shaped → y.id = session.id →
      y.service = session.service → y.credential = some c → t.credential? c = some d →
      d.service = session.service → Obeys digits (k y) { g with slot := some c } t Q) :
    Obeys digits ((Broker.admitNew session now).bind k) g s Q := by
  unfold Broker.admitNew
  simp only [bind_eq, pure_eq, bind_assoc]
  refine query fun t ht _ => ?_
  cases hfirst : t.firstAvailable session.service with
  | none => exact waiting t ht
  | some candidate =>
    simp only [bind_assoc]
    obtain ⟨hmem, hprop⟩ := And.intro (List.mem_of_find?_eq_some hfirst) (List.find?_some hfirst)
    simp only [Bool.and_eq_true, decide_eq_true_eq] at hprop
    refine checkout hg (fun u hu => ?_) fun u y hu hy hid => ?_
    · rw [duty, Duty.pass_free, ← duty]
      exact waiting u (ht.trans hu)
    · rw [duty, Duty.renew_free, ← duty]
      obtain ⟨d, hd, hds⟩ := hu.credentials (Store.credential?_eq_some_iff.2 ⟨hmem, rfl⟩)
      have moved := Session.apply_start waits y.id now
      dsimp only
      rw [moved, Option.getD_some, hid]
      refine running _ candidate.id d u (ht.trans hu) rfl ?_ rfl rfl rfl hd (hds.trans hprop.1)
      rw [← hid]
      refine Session.Shaped.apply ?_ moved
      simp only [Session.Shaped, waits]
      exact blank

theorem requestSession {user : UserId} {service : ServiceId} (clear : g.Clear)
    (duty : g.duty = .free) :
    Obeys Ident.longDigits (Broker.requestSession user service) g s
      fun _ g' _ => g'.Clear ∧ g'.duty = .free := by
  unfold Broker.requestSession
  simp only [bind_eq, pure_eq]
  refine query fun t _ _ => ?_
  cases hserv : t.service? service with
  | none => exact done fun _ _ => ⟨clear, duty⟩
  | some definition =>
    refine now fun time => freshId fun id => ?_
    have answer : ∀ x g' u, g'.Clear → g'.duty = .free →
        Obeys Ident.longDigits
          ((Program.count (.requested service x.state.label) 1).bind fun _ => .done (.ok x)) g' u
          fun (_ : Except Failure Session) g' _ => g'.Clear ∧ g'.duty = .free :=
      fun _ _ _ hc hd => count (done fun _ _ => ⟨hc, hd⟩)
    have registered : ∀ {u : Store}, t.Grows u → (u.service? service).isSome = true := by
      intro u hu
      rw [Store.service?, hu.services]
      exact Option.isSome_of_eq_some hserv
    refine admitNew clear.1 duty rfl ⟨rfl, rfl, rfl⟩ (fun u hu => ?_)
      fun y c d u hu hrun hshaped hid hsame hcred hd hds => ?_
    · refine onStore (.addSession _) (fun _ => rfl) fun v hv _ => ?_
      refine ⟨_, .queued rfl rfl ⟨rfl, rfl, rfl⟩ (registered (hu.trans hv)) clear.1 duty,
        fun hgrow => ?_⟩
      have hwaits : (v.addSession { id, user, service, queuedAt := time }).1.state = .queued := rfl
      rw [if_pos hwaits]
      refine drainQueue clear.1 rfl fun _ w _ => query fun x _ _ => ?_
      exact answer _ _ x clear rfl
    · refine onStore (.addSession y) (fun _ => rfl) fun v hv _ => ?_
      obtain ⟨e, he, hes⟩ := hv.credentials hd
      refine ⟨_, .placed (congrArg some hid.symm) hrun hshaped ?_ hcred rfl he ?_, fun hgrow => ?_⟩
      · rw [hsame]
        exact registered (hu.trans hv)
      · rw [hes, hds, hsame]
      · have hruns : ¬ (v.addSession y).1.state = .queued := by
          simp only [Store.addSession, hrun, reduceCtorEq, not_false_eq_true]
        rw [if_neg hruns]
        exact answer _ _ _ ⟨rfl, clear.2⟩ duty

/-! ## Credentials and users -/

theorem storeCredential {key : Codec.Key} {service : ServiceId} {identity secret : String}
    {tier : Tier} {Q : Except Failure Credential → Stake → Store → Prop}
    (h : ∀ r id t, Q r { g with id := id } t) :
    Obeys Ident.shortDigits (Vault.storeCredential key service identity secret tier) g s Q := by
  unfold Vault.storeCredential
  simp only [bind_eq, pure_eq]
  refine query fun t _ _ => ?_
  cases t.service? service with
  | none => exact done fun u _ => h _ g.id u
  | some definition =>
    refine freshId fun id => update (.addCredential _) (fun _ => rfl) fun u _ _ => ?_
    exact ⟨_, .issued rfl rfl, fun _ => done fun v _ => h _ none v⟩

theorem disable {id : CredentialId} {Q : Bool → Stake → Store → Prop} (h : ∀ r t, Q r g t) :
    Obeys digits (Vault.disable id) g s Q := by
  unfold Vault.disable
  rw [← Program.bind_done (Program.onStore _)]
  refine onStore (.disable id) (fun _ => rfl) fun t _ _ => ?_
  rcases t.disable_cases id with hnone | ⟨c, known, hsome⟩
  · rw [hnone]
    exact ⟨g, .look (by rw [Deed.on, hnone]) fun _ h => (by cases h),
      fun _ => done fun u _ => h _ u⟩
  · rw [hsome]
    refine ⟨g, .amended (by rw [Deed.on, hsome]) (fun _ h => by cases h) known rfl rfl rfl ?_,
      fun _ => done fun u _ => h _ u⟩
    intro hcap
    simp [Credential.hasCapacity, Credential.disable] at hcap

theorem rotate {key : Codec.Key} {id : CredentialId} {secret : String}
    {Q : Bool → Stake → Store → Prop} (h : ∀ r t, Q r g t) :
    Obeys digits (Vault.rotate key id secret) g s Q := by
  unfold Vault.rotate
  rw [← Program.bind_done (Program.onStore _)]
  refine onStore (.rotate id (key.conceal secret)) (fun _ => rfl) fun t _ _ => ?_
  rcases t.rotate_cases id (key.conceal secret) with hnone | ⟨c, known, hsome⟩
  · rw [hnone]
    exact ⟨g, .look (by rw [Deed.on, hnone]) fun _ h => (by cases h),
      fun _ => done fun u _ => h _ u⟩
  · rw [hsome]
    exact ⟨g, .amended (by rw [Deed.on, hsome]) (fun _ h => by cases h) known rfl rfl rfl
      (fun hcap => hcap), fun _ => done fun u _ => h _ u⟩

theorem register {username : String} {Q : User → Stake → Store → Prop}
    (h : ∀ r id t, Q r { g with id := id } t) :
    Obeys Ident.shortDigits (Accounts.register username) g s Q := by
  unfold Accounts.register
  simp only [bind_eq, pure_eq]
  refine query fun t _ _ => ?_
  cases t.userNamed? username with
  | some user => exact done fun u _ => h _ g.id u
  | none =>
    refine freshId fun id => now fun time => update (.addUser _) (fun _ => rfl) fun u _ _ => ?_
    exact ⟨_, .registered, fun _ => done fun v _ => h _ (some id) v⟩

end Obeys

/-! ## The operations -/

/-- What a call has in hand when it is done with an answer: nothing, except that it knows the
session that it has a record of. -/
def Operation.Settles (op : Operation) (a : Answer) (g : Stake) : Prop :=
  g.Clear ∧ g.duty = .free ∧
    ∀ id record, op = .finish id → a = .record (some record) → g.ended = some id

/-- **Every operation obeys**, and ends with nothing in hand. -/
theorem Operation.obeys (key : Codec.Key) (op : Operation) (s : Store) :
    Obeys op.idDigits (op.program key) {} s fun a g _ => op.Settles a g := by
  have clear : Stake.Clear {} := ⟨rfl, rfl⟩
  -- only the call that ends a session for its user can know of a record
  have other : ∀ {a : Answer} {g : Stake}, g.Clear ∧ g.duty = .free →
      (∀ r, a ≠ .record r) → op.Settles a g :=
    fun h ha => ⟨h.1, h.2, fun _ _ _ e => absurd e (ha _)⟩
  cases op with
  | request user service =>
    exact .bind (Obeys.requestSession clear rfl |>.imp fun r g t h =>
      .done fun _ _ => other h fun _ e => by cases e)
  | finish id =>
    refine .bind (Obeys.endSession clear rfl |>.imp fun r g t h => .done fun _ _ => ?_)
    refine ⟨h.1, h.2.1, fun id' record hid ha => ?_⟩
    cases hid
    cases ha
    exact h.2.2 record rfl
  | sweep =>
    exact .bind (Obeys.enforceLimits clear rfl |>.imp fun r g t h =>
      .done fun _ _ => other h fun _ e => by cases e)
  | issue service identity secret tier =>
    exact .bind (Obeys.storeCredential fun r id t =>
      .done fun _ _ => other ⟨clear, rfl⟩ fun _ e => by cases e)
  | disable id =>
    exact .bind (Obeys.disable fun r t => .done fun _ _ => other ⟨clear, rfl⟩ fun _ e => by cases e)
  | rotate id secret =>
    exact .bind (Obeys.rotate fun r t => .done fun _ _ => other ⟨clear, rfl⟩ fun _ e => by cases e)
  | register username =>
    exact .bind (Obeys.register fun r id t =>
      .done fun _ _ => other ⟨clear, rfl⟩ fun _ e => by cases e)

end SlotBroker
