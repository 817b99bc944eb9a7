import SlotBroker.Proofs.Growth

/-!
# What a call has in hand, and what one step may do

Between two of its steps a call may owe something to the rest of the platform: a slot that it has
checked out and not yet passed on, the bill of a session that it has ended, the duty to drain a
queue. A `Stake` writes this down. It is bookkeeping of the proofs; no program reads it.

`Deed` names the atomic acts on the store, and `Move` says of each act when a call may do it and
what it does to the store and to the call's stake. Everything that is proved about all orders of
steps is proved by going through the cases of `Move` once.

Results:
* `Move.on_eq`: a move does to the store what its deed says.
* **`Move.grows`**: the store grows by every move.
* **`Move.coherent`**: every move keeps the store coherent.
* `Move.slot_of_checkin`: a slot is only checked in by a call that has one in hand.
-/

namespace SlotBroker

/-- An atomic act on the store. -/
inductive Deed where
  /-- A look at the store, or a step on something else. -/
  | look
  | checkout (credential : CredentialId) (now : Millis)
  | checkin (credential : CredentialId)
  | addSession (session : Session)
  | applyEvent (session : SessionId) (event : Session.Event)
  | appendUsage (record : UsageRecord)
  | addCredential (credential : Credential)
  | disable (credential : CredentialId)
  | rotate (credential : CredentialId) (sealedSecret : String)
  | addUser (user : User)

/-- The store after an act. -/
def Deed.on : Deed → Store → Store
  | look, s => s
  | checkout c now, s => (s.checkout c now).2
  | checkin c, s => s.checkin c
  | addSession x, s => (s.addSession x).2
  | applyEvent id e, s => (s.applyEvent id e).2
  | appendUsage r, s => s.appendUsage r
  | addCredential c, s => s.addCredential c
  | disable c, s => (s.disable c).2
  | rotate c sealedSecret, s => (s.rotate c sealedSecret).2
  | addUser u, s => s.addUser u

/-- What a call is bound to do about a queue. -/
inductive Duty where
  | free
  /-- The queue of the service is to be drained from the start of a round on. -/
  | drain (service : ServiceId)
  /-- A round is under way, in which these credentials are still to be tried. -/
  | trying (service : ServiceId) (left : List CredentialId)

namespace Duty

/-- The duty to try some credentials, none if there are none. -/
def tries (service : ServiceId) : List CredentialId → Duty
  | [] => free
  | c :: cs => trying service (c :: cs)

/-- The duty after a credential turned out to be full. -/
def pass (c : CredentialId) : Duty → Duty
  | trying service cs => tries service (cs.erase c)
  | d => d

/-- The duty after a slot was had: the round is not the last one. -/
def renew : Duty → Duty
  | trying service _ => drain service
  | d => d

/-- A slot of the credential that is free now will be offered to the queue of the service. -/
def Covers (service : ServiceId) (c : CredentialId) : Duty → Prop
  | free => False
  | drain s => s = service
  | trying s cs => s = service ∧ c ∈ cs

@[simp] theorem covers_free (service : ServiceId) (c : CredentialId) :
    ¬ free.Covers service c := fun h => h

@[simp] theorem covers_drain (s service : ServiceId) (c : CredentialId) :
    (drain s).Covers service c ↔ s = service := Iff.rfl

@[simp] theorem covers_tries (s service : ServiceId) (c : CredentialId) (cs : List CredentialId) :
    (tries s cs).Covers service c ↔ s = service ∧ c ∈ cs := by
  cases cs with
  | nil => simp [tries]
  | cons => rfl

theorem Covers.pass {service : ServiceId} {c d : CredentialId} {duty : Duty}
    (h : duty.Covers service c) (hne : c ≠ d) : (duty.pass d).Covers service c := by
  cases duty with
  | free => exact h
  | drain s => exact h
  | trying s cs => exact (covers_tries s service c _).2 ⟨h.1, (List.mem_erase_of_ne hne).2 h.2⟩

theorem Covers.renew {service : ServiceId} {c : CredentialId} {duty : Duty}
    (h : duty.Covers service c) : duty.renew.Covers service c := by
  cases duty with
  | free => exact h
  | drain s => exact h
  | trying s cs => exact h.1

theorem pass_tries (service : ServiceId) (c : CredentialId) (cs : List CredentialId) :
    (tries service (c :: cs)).pass c = tries service cs := by
  simp [tries, pass]

@[simp] theorem pass_free (c : CredentialId) : free.pass c = free := rfl

@[simp] theorem renew_free : free.renew = free := rfl

theorem renew_tries (service : ServiceId) (c : CredentialId) (cs : List CredentialId) :
    (tries service (c :: cs)).renew = drain service := rfl

end Duty

/-- What a call has in hand. -/
structure Stake where
  /-- An id it has drawn and not used yet. -/
  id : Option String := none
  /-- A credential of which it has a slot that no running session uses. -/
  slot : Option CredentialId := none
  /-- A session that it has ended or expired and not billed yet. -/
  bill : Option Session := none
  duty : Duty := .free
  /-- The session that it has ended, if it is the call of its user. -/
  ended : Option SessionId := none

/-- The session that an event ends on behalf of its user, after what was ended before. -/
def Session.Event.ends (id : SessionId) (before : Option SessionId) :
    Session.Event → Option SessionId
  | .finish _ => some id
  | _ => before

/-- **One step of a call**: the act, the store and the stake before it and after it. -/
inductive Move : Deed → Store → Stake → Store → Stake → Prop
  /-- Nothing changes. -/
  | look {d s g} (nothing : d.on s = s) (keeps : ∀ c, d ≠ .checkin c) : Move d s g s g
  /-- Nobody waits. -/
  | emptied {s g service} (duty : g.duty = .drain service) (empty : s.queue service = []) :
    Move .look s g s { g with duty := .free }
  /-- The credentials that have capacity now are to be tried. -/
  | surveyed {s g service} (duty : g.duty = .drain service) :
    Move .look s g s { g with duty := .tries service ((s.available service).map (·.id)) }
  /-- A credential has no slot to spare. -/
  | refused {s g c now} (full : ∀ x, s.credential? c = some x → x.hasCapacity = false) :
    Move (.checkout c now) s g s { g with duty := g.duty.pass c }
  /-- A slot is taken. -/
  | taken {s g c now x} (known : s.credential? c = some x) (spare : x.hasCapacity = true)
    (empty : g.slot = none) :
    Move (.checkout c now) s g (s.addCredential (x.occupy now))
      { g with slot := some c, duty := g.duty.renew }
  /-- A slot is given back, and the queue of its service will be looked at. -/
  | returned {s g c x} (known : s.credential? c = some x) (held : g.slot = some c)
    (duty : g.duty = .drain x.service) :
    Move (.checkin c) s g (s.addCredential x.release) { g with slot := none }
  /-- A new session joins the queue. -/
  | queued {s g x} (fresh : g.id = some x.id) (waits : x.state = .queued) (shaped : x.Shaped)
    (registered : (s.service? x.service).isSome = true) (empty : g.slot = none)
    (duty : g.duty = .free) :
    Move (.addSession x) s g (s.addSession x).2 { g with id := none, duty := .drain x.service }
  /-- A new session starts on a slot in hand. -/
  | placed {s g x c d} (fresh : g.id = some x.id) (runs : x.state = .active) (shaped : x.Shaped)
    (registered : (s.service? x.service).isSome = true) (bound : x.credential = some c)
    (held : g.slot = some c) (known : s.credential? c = some d) (same : d.service = x.service) :
    Move (.addSession x) s g (s.addSession x).2 { g with id := none, slot := none }
  /-- A waiting session starts on a slot in hand. -/
  | started {s g id x y c now d} (found : s.session? id = some x)
    (moved : x.apply (.start c now) = some y) (held : g.slot = some c)
    (known : s.credential? c = some d) (same : d.service = x.service) :
    Move (.applyEvent id (.start c now)) s g { s with sessions := s.sessions.insert y }
      { g with slot := none }
  /-- A waiting session is cancelled. -/
  | cancelled {s g id x y now} (found : s.session? id = some x) (waits : x.state = .queued)
    (moved : x.apply (.finish now) = some y) :
    Move (.applyEvent id (.finish now)) s g { s with sessions := s.sessions.insert y } g
  /-- A running session is ended, or expired if it is overdue. Its slot and its bill are now in the
  hands of the call, and so is the queue. -/
  | left {s g id e x y} (found : s.session? id = some x) (runs : x.state = .active)
    (moved : x.apply e = some y) (empty : g.slot = none) (settled : g.bill = none)
    (duty : g.duty = .free ∨ g.duty = .drain x.service)
    (overdue : ∀ t, e = .expire t →
      ∃ service, s.service? x.service = some service ∧ x.overdue service.limitMillis t = true) :
    Move (.applyEvent id e) s g { s with sessions := s.sessions.insert y }
      { g with
        slot := y.credential
        bill := some y
        duty := .drain y.service
        ended := e.ends id g.ended }
  /-- The bill in hand is written into the ledger. -/
  | billed {s g y r service now} (pending : g.bill = some y)
    (written : r = UsageRecord.ofSession r.id y service now)
    (priced : s.service? y.service = some service) :
    Move (.appendUsage r) s g (s.appendUsage r) { g with bill := none }
  /-- A new credential comes in, with no slot held. -/
  | issued {s g c} (fresh : g.id = some c.id) (idle : c.active = 0) :
    Move (.addCredential c) s g (s.addCredential c) { g with id := none }
  /-- A credential is disabled or gets another secret. -/
  | amended {d s g x y} (amends : d.on s = s.addCredential y) (keeps : ∀ c, d ≠ .checkin c)
    (known : s.credential? y.id = some x) (service : y.service = x.service)
    (active : y.active = x.active) (cap : y.maxStreams = x.maxStreams)
    (capacity : y.hasCapacity = true → x.hasCapacity = true) :
    Move d s g (s.addCredential y) g
  /-- A user is registered. -/
  | registered {s g u} : Move (.addUser u) s g (s.addUser u) g

namespace Move

variable {d : Deed} {s t : Store} {g g' : Stake}

/-- Looking changes nothing. -/
theorem still (s : Store) (g : Stake) : Move .look s g s g := look rfl fun _ h => nomatch h

theorem ignored {s : Store} {id : SessionId} {e : Session.Event} (g : Stake)
    (h : s.applyEvent id e = (none, s)) : Move (.applyEvent id e) s g s g :=
  look (by rw [Deed.on, h]) fun _ h => nomatch h

/-- **A move does to the store what its deed says.** -/
theorem on_eq (h : Move d s g t g') : t = d.on s := by
  cases h with
  | look nothing => exact nothing.symm
  | emptied => rfl
  | surveyed => rfl
  | @refused _ _ c now full =>
    simp only [Deed.on, Store.checkout]
    cases hc : s.credential? c with
    | none => rfl
    | some x => simp [full x hc]
  | taken known spare => simp only [Deed.on, Store.checkout, known, spare, if_true]
  | returned known => simp only [Deed.on, Store.checkin, known]
  | queued => rfl
  | placed => rfl
  | started found moved => simp only [Deed.on, Store.applyEvent_eq found moved]
  | cancelled found _ moved => simp only [Deed.on, Store.applyEvent_eq found moved]
  | left found _ moved => simp only [Deed.on, Store.applyEvent_eq found moved]
  | billed => rfl
  | issued => rfl
  | amended amends => exact amends.symm
  | registered => rfl

/-- A slot is only checked in by a call that has one of the credential in hand. -/
theorem slot_of_checkin {c : CredentialId} (h : Move (.checkin c) s g t g') :
    (∃ x, s.credential? c = some x) ∧ g.slot = some c := by
  cases h with
  | look _ keeps => exact absurd rfl (keeps c)
  | returned known held => exact ⟨⟨_, known⟩, held⟩
  | amended _ keeps => exact absurd rfl (keeps c)

end Move

/-! ## What a move keeps -/

namespace Store

/-- No session and no credential has the id. -/
def Unused (s : Store) (id : String) : Prop := s.session? id = none ∧ s.credential? id = none

end Store

namespace Move

variable {d : Deed} {s t : Store} {g g' : Stake}

/-- **The store grows by every move** of a call whose drawn id no session and no credential has. -/
theorem grows (h : Move d s g t g')
    (fresh : ∀ id, g.id = some id → s.Unused id) : s.Grows t := by
  have absent : ∀ {x : Session}, g.id = some x.id → ∀ z, s.session? x.id = some z →
      z.Leads { x with sequence := s.sequence + 1 } := by
    intro x hx z hz
    rw [(fresh _ hx).1] at hz
    cases hz
  have same : ∀ {c : CredentialId} {x y : Credential}, s.credential? c = some x → y.id = x.id →
      y.service = x.service → ∀ z, s.credential? y.id = some z → y.service = z.service := by
    intro c x y hc hy hs z hz
    rw [Store.credential?_of_id_eq hc hy] at hz
    rw [← Option.some.inj hz]
    exact hs
  cases h with
  | look | emptied | surveyed | refused => exact .refl s
  | taken known => exact .insertCredential (same known rfl rfl)
  | returned known => exact .insertCredential (same known rfl rfl)
  | queued hid => exact .insertSession rfl rfl rfl (absent hid)
  | placed hid => exact .insertSession rfl rfl rfl (absent hid)
  | started found moved => exact .of_apply found moved
  | cancelled found _ moved => exact .of_apply found moved
  | left found _ moved => exact .of_apply found moved
  | billed => exact .of_eq rfl rfl rfl
  | issued hid =>
    exact .insertCredential fun c hc => by rw [(fresh _ hid).2] at hc; cases hc
  | amended _ _ known service =>
    refine .insertCredential fun c hc => ?_
    rw [known] at hc
    rw [← Option.some.inj hc]
    exact service
  | registered => exact .of_eq rfl rfl rfl

/-- Only the id in hand comes into use, and then it is in hand no more. -/
theorem unused (h : Move d s g t g') {id : String} (hid : s.Unused id) :
    t.Unused id ∨ g.id = some id ∧ g'.id = none := by
  have session : ∀ {x : Session}, x.id = id → g.id = some x.id → g'.id = none →
      t.Unused id ∨ g.id = some id ∧ g'.id = none := by
    rintro x rfl hx hg
    exact .inr ⟨hx, hg⟩
  have other : ∀ {y : Session}, s.session? y.id ≠ none →
      Store.Unused { s with sessions := s.sessions.insert y } id := by
    intro y hy
    refine ⟨?_, hid.2⟩
    rw [Store.session?_insert, if_neg, hid.1]
    rintro rfl
    exact hy hid.1
  have moved : ∀ {i : SessionId} {e : Session.Event} {x y : Session}, s.session? i = some x →
      x.apply e = some y → Store.Unused { s with sessions := s.sessions.insert y } id := by
    intro i e x y found hy
    refine other ?_
    rw [Store.session?_id_of_apply found hy]
    exact Option.some_ne_none x
  have credential : ∀ {c y : Credential}, s.credential? y.id = some c →
      (s.addCredential y).Unused id := by
    intro c y hy
    refine ⟨hid.1, ?_⟩
    rw [Store.credential?_addCredential, if_neg, hid.2]
    rintro rfl
    rw [hid.2] at hy
    cases hy
  have same : ∀ {c : CredentialId} {x y : Credential}, s.credential? c = some x → y.id = x.id →
      (s.addCredential y).Unused id :=
    fun hx hy => credential (Store.credential?_of_id_eq hx hy)
  cases h with
  | look | emptied | surveyed | refused => exact .inl hid
  | taken known => exact .inl (same known rfl)
  | returned known => exact .inl (same known rfl)
  | @queued _ _ x hx =>
    by_cases hn : x.id = id
    · exact session hn hx rfl
    · exact .inl ⟨by rw [Store.session?_addSession, if_neg hn, hid.1], hid.2⟩
  | @placed _ _ x _ _ hx =>
    by_cases hn : x.id = id
    · exact session hn hx rfl
    · exact .inl ⟨by rw [Store.session?_addSession, if_neg hn, hid.1], hid.2⟩
  | started found hy => exact .inl (moved found hy)
  | cancelled found _ hy => exact .inl (moved found hy)
  | left found _ hy => exact .inl (moved found hy)
  | billed => exact .inl hid
  | @issued _ _ c hc =>
    by_cases hn : c.id = id
    · exact .inr ⟨hn ▸ hc, rfl⟩
    · exact .inl ⟨hid.1, by rw [Store.credential?_addCredential, if_neg hn, hid.2]⟩
  | amended _ _ known => exact .inl (credential known)
  | registered => exact .inl hid

/-- An id in hand stays the same until it is used. -/
theorem id_eq (h : Move d s g t g') : g'.id = g.id ∨ g'.id = none := by
  cases h <;> first | exact .inl rfl | exact .inr rfl

/-- **Every move keeps the store coherent.** -/
theorem coherent (h : Move d s g t g')
    (fresh : ∀ id, g.id = some id → s.Unused id) (hs : s.Coherent) : t.Coherent := by
  have hg := h.grows fresh
  cases h with
  | look | emptied | surveyed | refused => exact hs
  | taken => exact hs.of_grows hg rfl
  | returned => exact hs.of_grows hg rfl
  | queued _ waits shaped registered =>
    refine hs.insertSession rfl rfl rfl shaped (fun c hc => ?_) registered
    simp only [Session.Shaped, waits] at shaped
    simp [shaped.1] at hc
  | placed _ _ shaped registered bound _ known same =>
    refine hs.insertSession rfl rfl rfl shaped (fun c hc => ?_) registered
    rw [Option.some.inj (bound.symm.trans hc)] at known
    exact ⟨_, known, same⟩
  | started found moved _ known same =>
    refine hs.of_apply found moved fun c time he => ?_
    cases he
    exact ⟨_, known, same⟩
  | cancelled found _ moved => exact hs.of_apply found moved fun c time he => by cases he
  | left found runs moved =>
    refine hs.of_apply found moved fun c time he => ?_
    have hstate := Session.state_apply moved
    rw [he, runs] at hstate
    cases hstate
  | billed => exact hs.of_grows hg rfl
  | issued => exact hs.of_grows hg rfl
  | amended => exact hs.of_grows hg rfl
  | registered => exact hs.of_grows hg rfl

end Move

end SlotBroker
