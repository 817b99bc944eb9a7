import SlotBroker.Proofs.Twins

/-!
# Services do not see each other

All services live in one store, and the sweep goes through all of them. Still, what becomes of one
service depends only on the commands that are addressed to it and on the sweeps. A run is a list of
commands, one complete before the next begins. The clock stands still during each and may be set to
any time in between; the words that a command draws are fixed in advance. From such a run all
commands that are addressed to other services are left out, and the shorter run is compared with the
whole one.

Both runs have their own stores. The second one `Tracks` the first: it holds the same of the service
and nothing of any other. A command that is left out changes another part; one that is left in comes
to the same, since the worlds before it are twins. A sweep comes to the service after it has gone
through others, which draws words; these are left out with them.

Results:
* `Twins.command`: in twin worlds a command that is addressed to the service comes to the same.
* `Command.confined`: a command changes only the part of the service that it is addressed to.
* `Projected.sweep`: a sweep does for a service what it does where there is no other one.
* `Tracks.skip`, `Tracks.step`: what is left out or left in keeps the two stores together.
* **`services_isolated`**: after the shorter run the store holds the same of the service, and after
  each command in it the same shows of the service.
-/

namespace SlotBroker

/-! ## Runs -/

/-- The answer to a command that nobody interferes with; none where a service is registered. -/
def Command.answer (key : Codec.Key) : Command → World → Option Answer
  | define _, _ => none
  | call op, w => some ((op.program key).run w).1

/-- The service that a command is addressed to. A sweep and the registration of a user are addressed
to none, and neither is a command on an id that is not stored. -/
def Command.addressee (s : Store) : Command → Option ServiceId
  | define d => some d.id
  | call (.request _ a) => some a
  | call (.issue a _ _ _) => some a
  | call (.finish id) => (s.session? id).map (·.service)
  | call (.disable id) => (s.credential? id).map (·.service)
  | call (.rotate id _) => (s.credential? id).map (·.service)
  | call .sweep => none
  | call (.register _) => none

/-- Those of some ids that belong to sessions of a service. -/
def Store.idsOf (s : Store) (a : ServiceId) (ids : List SessionId) : List SessionId :=
  ids.filter fun id => (s.session? id).any fun x => x.service = a

/-- What an answer says of a service: a session but for its number, and of the ids of expired
sessions those that belong to the service. -/
def Answer.about (a : ServiceId) (s : Store) : Answer → Option Answer
  | session result => some (session (result.map Session.unnumbered))
  | record result => some (record result)
  | expired ids => some (expired (s.idsOf a ids))
  | credential result => some (credential result)
  | found known => some (found known)
  | user _ => none

/-- A command, the time that the clock shows meanwhile, and the random words for it. -/
structure Entry where
  time : Millis
  word : Nat → UInt64
  command : Command

/-- What shows of a service after a command: what the answer says of it, what the store holds of it,
its status, and the places of its sessions in the queue. -/
structure Glimpse where
  answer : Option Answer
  part : Part
  status : Except Failure Broker.Status
  places : List (Option Nat)

/-- What shows of a service in a world, with the last answer. -/
def World.glimpse (w : World) (a : ServiceId) (answer : Option Answer) : Glimpse where
  answer := answer.bind (Answer.about a w.store)
  part := w.store.projection a
  status := ((Broker.serviceStatus a).run w).1
  places := (w.store.projection a).sessions.map fun x => ((Broker.queuePosition x.id).run w).1

namespace Entry

variable (key : Codec.Key) (a : ServiceId)

/-- The world in which the command is run. -/
def world (e : Entry) (p : Platform) : World where
  platform := p
  supply := { reading := fun _ => e.time, word := e.word }

/-- The platform after the command. -/
def next (e : Entry) (p : Platform) : Platform := (e.command.run key (e.world p)).platform

/-- What shows of a service after the command. -/
def glimpse (e : Entry) (p : Platform) : Glimpse :=
  (e.command.run key (e.world p)).glimpse a (e.command.answer key (e.world p))

/-- The command is addressed to another service. -/
def isForeign (e : Entry) (p : Platform) : Bool := (e.command.addressee p.store).any (· ≠ a)

/-- The number of words that a command draws for others before it comes to a service. Only a sweep
draws any. -/
def wordsBefore (e : Entry) (p : Platform) : Nat :=
  match e.command with
  | .call .sweep =>
    ((Broker.sweepServices (p.store.services.entries.takeWhile fun d => d.id ≠ a)).run
      (e.world p)).2.supply.drawn
  | _ => 0

/-- The entry where other services are missing: it is left with the words that are not drawn for
them. -/
def narrowed (e : Entry) (p : Platform) : Entry :=
  { e with word := fun n => e.word (n + e.wordsBefore a p) }

/-- The platform after a run. -/
def after : List Entry → Platform → Platform
  | [], p => p
  | e :: es, p => after es (e.next key p)

/-- What shows of a service in the course of a run. -/
def glimpses : List Entry → Platform → List Glimpse
  | [], _ => []
  | e :: es, p => e.glimpse key a p :: glimpses es (e.next key p)

/-- The run without the commands that are addressed to other services, each with what shows of the
service after it in the whole run. -/
def kept : List Entry → Platform → List (Entry × Glimpse)
  | [], _ => []
  | e :: es, p =>
    if e.isForeign a p then kept es (e.next key p)
    else (e.narrowed a p, e.glimpse key a p) :: kept es (e.next key p)

/-- Each command of a run draws an id that is not in use. -/
def FreshFrom : List Entry → Platform → Prop
  | [], _ => True
  | e :: es, p => e.command.Fresh (e.world p) ∧ FreshFrom es (e.next key p)

instance decidableFreshFrom : (es : List Entry) → (p : Platform) → Decidable (FreshFrom key es p)
  | [], _ => inferInstanceAs (Decidable True)
  | e :: es, p =>
    have := decidableFreshFrom es (e.next key p)
    inferInstanceAs (Decidable (_ ∧ _))

end Entry

/-- The ids that a run draws are new, and at its end some id for a session is still left. The
counter of sessions wraps around only when none is. -/
structure FreshIds (key : Codec.Key) (run : List Entry) : Prop where
  fresh : Entry.FreshFrom key run {}
  unused : ∃ word,
    (Entry.after key run {}).store.session? (Ident.hex Ident.longDigits word) = none

/-! ## Commands for one service -/

/-- Two runs of a command: of the service the answers say the same and the stores hold the same, and
the second run changes no part of another service. -/
structure Matches (key : Codec.Key) (a : ServiceId) (c : Command) (w v : World) : Prop where
  answer : (c.answer key w).bind (Answer.about a (c.run key w).store) =
    (c.answer key v).bind (Answer.about a (c.run key v).store)
  part : (c.run key w).store.part a = (c.run key v).store.part a
  confined : Store.Confined a v.store (c.run key v).store

section Commands

variable {key : Codec.Key} {a : ServiceId} {w v : World} {c : Command} {op : Operation}

/-- Two runs of the program of an operation. -/
theorem Matches.of_run {α : Type} {p : Program α} {f : α → Answer} {r r' : α × World}
    (program : op.program key = f <$> p) (run : p.run w = r) (run' : p.run v = r')
    (answer : (f r.1).about a r.2.store = (f r'.1).about a r'.2.store)
    (part : r.2.store.part a = r'.2.store.part a)
    (confined : Store.Confined a v.store r'.2.store) : Matches key a (.call op) w v := by
  have ran : (op.program key).run w = (f r.1, r.2) := by rw [program, Program.run_map, run]
  have ran' : (op.program key).run v = (f r'.1, r'.2) := by rw [program, Program.run_map, run']
  refine ⟨?_, ?_, ?_⟩
  all_goals simp only [Command.answer, Command.run, ran, ran', Option.bind_some]
  · exact answer
  · exact part
  · exact confined

/-- The part of the service changes in the same way. -/
theorem Matches.of_changes {α : Type} {p : Program α} {f : α → Answer} {g : Part → Part}
    {r r' : α × World} (h : Twins a w v) (program : op.program key = f <$> p)
    (run : p.run w = r) (run' : p.run v = r')
    (answer : (f r.1).about a r.2.store = (f r'.1).about a r'.2.store)
    (left : Store.Changes a g w.store r.2.store) (right : Store.Changes a g v.store r'.2.store) :
    Matches key a (.call op) w v :=
  .of_run program run run' answer (by rw [left.part, right.part, h.part]) right.toConfined

theorem Twins.asking (h : Twins a w v) (user : UserId) : w.asking user a = v.asking user a := by
  unfold World.asking
  rw [h.word, h.time 0 0]

/-- A request for the service. -/
theorem Twins.request (h : Twins a w v) (key : Codec.Key) (user : UserId)
    (fresh : w.store.session? (w.asking user a).id = none)
    (fresh' : v.store.session? (v.asking user a).id = none) :
    Matches key a (.call (.request user a)) w v := by
  have services := Store.service?_of_part_eq h.part
  have slots := Store.available_of_part_eq h.part
  have asks := h.asking user
  rw [← asks] at fresh'
  cases known : w.store.service? a with
  | none =>
    exact .of_changes h rfl (run_requestSession_of_unknown user known)
      (run_requestSession_of_unknown user (services.symm.trans known)) rfl
      (h.left.works_refl a).toChanges (h.right.works_refl a).toChanges
  | some definition =>
    have known' := services.symm.trans known
    cases spare : (w.store.available a).head? with
    | none =>
      have full := List.head?_eq_none_iff.1 spare
      obtain ⟨u, run, store⟩ := run_requestSession_of_full user known full
      obtain ⟨u', run', store'⟩ := run_requestSession_of_full user known' (slots ▸ full)
      rw [← asks] at run' store'
      refine .of_changes h rfl run run' rfl
        (g := (·.putSession (w.asking user a).unnumbered)) ?_ ?_
      · rw [store]
        exact Store.changes_addSession fresh rfl
      · rw [store']
        exact Store.changes_addSession fresh' rfl
    | some c =>
      obtain ⟨listed, serves, -⟩ := Store.mem_available.1 (List.mem_of_head? spare)
      have listed' := Store.credential?_of_part_eq h.part listed serves
      obtain ⟨u, run, store⟩ := run_requestSession_of_spare user known spare
      obtain ⟨u', run', store'⟩ := run_requestSession_of_spare user known' (slots ▸ spare)
      rw [← asks, ← h.time 0 0, ← h.time 1 1] at run' store'
      have taken := (h.left.works_addCredential (d := c.occupy (w.time 1)) listed rfl
        serves).toChanges
      have taken' := (h.right.works_addCredential (d := c.occupy (w.time 1)) listed' rfl
        serves).toChanges
      refine .of_changes h rfl run run' rfl
        (g := (·.putSession ((w.asking user a).started c.id (w.time 0)).unnumbered) ∘
          (·.putCredential (c.occupy (w.time 1)))) ?_ ?_
      · rw [store]
        exact taken.trans (Store.changes_addSession fresh rfl)
      · rw [store']
        exact taken'.trans (Store.changes_addSession fresh' rfl)

theorem Twins.issuing (h : Twins a w v) (key : Codec.Key) (definition : Service)
    (identity secret : String) (tier : Tier) :
    w.issuing key a definition identity secret tier =
      v.issuing key a definition identity secret tier := by
  unfold World.issuing
  rw [h.word]

/-- A credential is issued for the service. -/
theorem Twins.issue (h : Twins a w v) (key : Codec.Key) (identity secret : String) (tier : Tier)
    (fresh : w.store.credential? (Ident.hex Ident.shortDigits w.supply.draw.1) = none)
    (fresh' : v.store.credential? (Ident.hex Ident.shortDigits v.supply.draw.1) = none) :
    Matches key a (.call (.issue a identity secret tier)) w v := by
  have services := Store.service?_of_part_eq h.part
  cases known : w.store.service? a with
  | none =>
    exact .of_changes h rfl (run_storeCredential_of_unknown key identity secret tier known)
      (run_storeCredential_of_unknown key identity secret tier (services.symm.trans known))
      rfl (h.left.works_refl a).toChanges (h.right.works_refl a).toChanges
  | some definition =>
    have new : ∀ c, w.store.credential? (w.issuing key a definition identity secret tier).id =
        some c → (w.issuing key a definition identity secret tier).service = c.service :=
      fun c stored => by cases fresh.symm.trans stored
    have new' : ∀ c, v.store.credential? (v.issuing key a definition identity secret tier).id =
        some c → (v.issuing key a definition identity secret tier).service = c.service :=
      fun c stored => by cases fresh'.symm.trans stored
    have issued := Store.changes_addCredential new rfl
    have issued' := Store.changes_addCredential new' rfl
    have run := run_storeCredential key identity secret tier known
    have run' := run_storeCredential key identity secret tier (services.symm.trans known)
    dsimp only at run run'
    rw [← h.issuing] at run' issued'
    exact .of_changes h rfl run run' rfl issued issued'

/-- A stored credential of the service gives way to another one. -/
theorem Twins.amend (h : Twins a w v) {id : CredentialId} {c d : Credential} {p : Program Bool}
    (program : op.program key = Answer.found <$> p)
    (run : ∀ u : World, u.store.credential? id = some c →
      p.run u = (true, u.withStore (u.store.addCredential d)))
    (known : w.store.credential? id = some c) (serves : c.service = a) (place : d.id = c.id)
    (same : d.service = c.service) : Matches key a (.call op) w v := by
  have known' := Store.credential?_of_part_eq h.part known serves
  exact .of_changes h program (run w known) (run v known') rfl
    (h.left.works_addCredential (Store.credential?_of_id_eq known place) same
      (same.trans serves)).toChanges
    (h.right.works_addCredential (Store.credential?_of_id_eq known' place) same
      (same.trans serves)).toChanges

/-- **In twin worlds a command that is addressed to the service comes to the same.** -/
theorem Twins.command (h : Twins a w v) (key : Codec.Key) (fresh : c.Fresh w) (fresh' : c.Fresh v)
    (here : c.addressee w.store = some a) : Matches key a c w v := by
  cases c with
  | define d =>
    obtain rfl : d.id = a := Option.some.inj here
    have left := Store.changes_addService (s := w.store) (d := d) rfl
    have right := Store.changes_addService (s := v.store) (d := d) rfl
    have parts := left.part
    rw [h.part, ← right.part] at parts
    exact ⟨rfl, parts, right.toConfined⟩
  | call op =>
    cases op with
    | request user b =>
      obtain rfl : b = a := Option.some.inj here
      exact h.request key user fresh fresh'
    | issue b identity secret tier =>
      obtain rfl : b = a := Option.some.inj here
      exact h.issue key identity secret tier fresh fresh'
    | finish id =>
      obtain ⟨x, found, asks⟩ := Option.map_eq_some_iff.1 here
      have same := h.endSession found asks
      exact .of_run rfl rfl rfl (congrArg (some ∘ Answer.record) same.answer) same.twins.part
        same.right
    | disable id =>
      obtain ⟨c, known, serves⟩ := Option.map_eq_some_iff.1 here
      refine h.amend rfl (fun u hu => ?_) known serves c.id_disable rfl
      rw [Vault.disable, Program.run_onStore, Store.disable,
        show u.platform.store.credential? id = _ from hu]
      rfl
    | rotate id secret =>
      obtain ⟨c, known, serves⟩ := Option.map_eq_some_iff.1 here
      refine h.amend rfl (fun u hu => ?_) known serves (c.id_rotate (key.conceal secret)) rfl
      rw [Vault.rotate, Program.run_onStore, Store.rotate,
        show u.platform.store.credential? id = _ from hu]
      rfl
    | sweep | register => cases here

/-- **A command changes only the part of the service that it is addressed to.** -/
theorem Command.confined (key : Codec.Key) (tidy : w.store.Tidy)
    (still : ∀ m n, w.supply.reading m = w.supply.reading n) (fresh : c.Fresh w)
    (here : c.addressee w.store = some a) : Store.Confined a w.store (c.run key w).store :=
  ((Twins.refl tidy still).command key fresh fresh here).confined

/-- A command that is addressed to no service and is not a sweep changes nothing of any. -/
theorem Twins.idle (h : Twins a w v) (key : Codec.Key) (idle : c.addressee w.store = none)
    (idle' : c.addressee v.store = none) (sweeps : c ≠ .call .sweep) : Matches key a c w v := by
  have rest := (h.left.works_refl a).toChanges
  have rest' := (h.right.works_refl a).toChanges
  cases c with
  | define => cases idle
  | call op =>
    cases op with
    | request | issue => cases idle
    | sweep => exact absurd rfl sweeps
    | finish id =>
      have ignored : ∀ u : World, (u.store.session? id).map (·.service) = none →
          (Broker.endSession id).run u = (none, u.tick 1) := fun u unknown =>
        run_endSession_of_ignored (by
          simp only [Store.applyEvent, Option.map_eq_none_iff.1 unknown])
      exact .of_changes h rfl (ignored w idle) (ignored v idle') rfl rest rest'
    | disable id =>
      have ignored : ∀ u : World, (u.store.credential? id).map (·.service) = none →
          (Vault.disable id).run u = (false, u) := fun u unknown => by
        rw [Vault.disable, Program.run_onStore, Store.disable,
          show u.platform.store.credential? id = _ from Option.map_eq_none_iff.1 unknown]
      exact .of_changes h rfl (ignored w idle) (ignored v idle') rfl rest rest'
    | rotate id secret =>
      have ignored : ∀ u : World, (u.store.credential? id).map (·.service) = none →
          (Vault.rotate key id secret).run u = (false, u) := fun u unknown => by
        rw [Vault.rotate, Program.run_onStore, Store.rotate,
          show u.platform.store.credential? id = _ from Option.map_eq_none_iff.1 unknown]
      exact .of_changes h rfl (ignored w idle) (ignored v idle') rfl rest rest'
    | register username =>
      have users : ∀ u : World, Store.Changes a id u.store
          ((Accounts.register username).run u).2.store := fun u => by
        unfold Accounts.register
        simp only [Program.bind_eq, Program.pure_eq]
        rw [Program.run_bind, Program.run_query]
        cases u.platform.store.userNamed? username with
        | none =>
          refine ⟨⟨Store.Grows.toEvolves ?_, fun _ _ => rfl⟩, rfl⟩
          exact .of_eq rfl rfl rfl
        | some => exact ⟨.refl a _, rfl⟩
      exact .of_changes h rfl rfl rfl rfl (users w) (users v)

end Commands

/-! ## A store without the other services -/

/-- The second store holds of the service what the first one holds, and nothing of any other. -/
structure Projected (a : ServiceId) (s t : Store) : Prop where
  part : s.part a = t.part a
  only : ∀ b, b ≠ a → t.part b = {}

namespace Projected

variable {a : ServiceId} {s t : Store} (h : Projected a s t)
include h

theorem asks {id : SessionId} {x : Session} (found : t.session? id = some x) : x.service = a := by
  have here := t.find?_part_sessions x.service id
  rw [found, Option.filter_some, if_pos (decide_eq_true rfl)] at here
  refine Classical.byContradiction fun other => ?_
  rw [h.only _ other] at here
  cases here

theorem serves {id : CredentialId} {c : Credential} (known : t.credential? id = some c) :
    c.service = a := by
  have here := t.find?_part_credentials c.service id
  rw [known, Option.filter_some, if_pos (decide_eq_true rfl)] at here
  refine Classical.byContradiction fun other => ?_
  rw [h.only _ other] at here
  cases here

theorem defined {d : Service} (stored : d ∈ t.services.entries) : d.id = a := by
  have here : (t.part d.id).definition = some d := Table.find?_of_mem stored
  refine Classical.byContradiction fun other => ?_
  rw [h.only _ other] at here
  cases here

theorem session?_eq_none {id : SessionId} (unknown : s.session? id = none) :
    t.session? id = none := by
  refine Option.eq_none_iff_forall_ne_some.2 fun x found => ?_
  obtain ⟨y, found', -⟩ := Store.session?_of_part_eq h.part.symm found (h.asks found)
  cases unknown.symm.trans found'

theorem credential?_eq_none {id : CredentialId} (unknown : s.credential? id = none) :
    t.credential? id = none := by
  refine Option.eq_none_iff_forall_ne_some.2 fun c known => ?_
  cases unknown.symm.trans (Store.credential?_of_part_eq h.part.symm known (h.serves known))

/-- A command that is not addressed to another service has the same addressee. -/
theorem addressee {c : Command} (own : ∀ b, c.addressee s = some b → b = a) :
    c.addressee t = c.addressee s := by
  have session : ∀ id, (∀ b, (s.session? id).map (·.service) = some b → b = a) →
      (t.session? id).map (·.service) = (s.session? id).map (·.service) := fun id own => by
    cases found : s.session? id with
    | none => rw [h.session?_eq_none found]
    | some x =>
      have asks := own x.service (by rw [found]; rfl)
      obtain ⟨y, found', asks', -⟩ := Store.session?_of_part_eq h.part found asks
      rw [found', Option.map_some, Option.map_some, asks, asks']
  have credential : ∀ id, (∀ b, (s.credential? id).map (·.service) = some b → b = a) →
      (t.credential? id).map (·.service) = (s.credential? id).map (·.service) := fun id own => by
    cases known : s.credential? id with
    | none => rw [h.credential?_eq_none known]
    | some c =>
      have serves := own c.service (by rw [known]; rfl)
      rw [Store.credential?_of_part_eq h.part known serves]
  cases c with
  | define => rfl
  | call op =>
    cases op with
    | request | issue | sweep | register => rfl
    | finish id => exact session id own
    | disable id => exact credential id own
    | rotate id => exact credential id own

end Projected

/-! ## Sweeps -/

namespace Store

variable {s : Store} {a : ServiceId} {ids : List SessionId}

theorem idsOf_append (s : Store) (a : ServiceId) (xs ys : List SessionId) :
    s.idsOf a (xs ++ ys) = s.idsOf a xs ++ s.idsOf a ys :=
  List.filter_append xs ys

theorem idsOf_eq_self (own : ∀ id ∈ ids, s.Owns a id) : s.idsOf a ids = ids := by
  refine List.filter_eq_self.2 fun id hid => ?_
  obtain ⟨x, found, asks⟩ := own id hid
  rw [found, Option.any_some, decide_eq_true asks]

theorem idsOf_eq_nil {t : Store} (later : t.Evolves s)
    (foreign : ∀ id ∈ ids, ∃ b, b ≠ a ∧ t.Owns b id) : s.idsOf a ids = [] := by
  refine List.filter_eq_nil_iff.2 fun id hid => ?_
  obtain ⟨b, other, owned⟩ := foreign id hid
  obtain ⟨x, found, asks⟩ := later.owns owned
  rw [found, Option.any_some, decide_eq_true_iff]
  exact fun same => other (asks.symm.trans same)

end Store

theorem run_enforceLimits (w : World) :
    Broker.enforceLimits.run w = (Broker.sweepServices w.store.services.entries).run w := by
  unfold Broker.enforceLimits
  rw [Program.bind_eq, Program.run_bind, Program.run_query]

/-- **A sweep does for a service what it does where there is no other one**, with the words that are
left when it comes to the service. -/
theorem Projected.sweep {a : ServiceId} {w v : World} (h : Projected a w.store v.store)
    (key : Codec.Key) (tidy : w.store.Tidy) (tidy' : v.store.Tidy)
    (clock : ∀ m n, w.supply.reading m = v.supply.reading n)
    (words : ∀ n, w.supply.word (((Broker.sweepServices
      (w.store.services.entries.takeWhile fun d => d.id ≠ a)).run w).2.supply.drawn + n) =
        v.supply.word (v.supply.drawn + n)) :
    Matches key a (.call .sweep) w v := by
  have still : ∀ m n, w.supply.reading m = w.supply.reading n := fun m n =>
    (clock m 0).trans (clock n 0).symm
  cases known : w.store.service? a with
  | none =>
    have others : ∀ d ∈ w.store.services.entries, d.id ≠ a := fun d hd same => by
      have found : w.store.service? d.id = some d := Table.find?_of_mem hd
      rw [same, known] at found
      cases found
    have nobody : v.store.services.entries = [] := by
      refine List.eq_nil_iff_forall_not_mem.2 fun d hd => ?_
      have found : v.store.service? d.id = some d := Table.find?_of_mem hd
      rw [h.defined hd, ← Store.service?_of_part_eq h.part, known] at found
      cases found
    have spared := spares_sweepServices tidy still others
    refine .of_run rfl (run_enforceLimits w) (run_enforceLimits v) ?_ ?_ ?_
    · rw [nobody]
      exact congrArg (some ∘ Answer.expired) (Store.idsOf_eq_nil (.refl _) spared.foreign)
    · rw [nobody]
      exact spared.part.trans h.part
    · rw [nobody]
      exact .refl a v.store
  | some d =>
    obtain rfl : d.id = a := Table.find?_key known
    obtain ⟨xs, ys, split, before, behind⟩ := Table.split_of_find? known
    have alone : v.store.services.entries = [d] := by
      obtain ⟨xs', ys', split', before', behind'⟩ :=
        Table.split_of_find? ((Store.service?_of_part_eq h.part).symm.trans known)
      have first : xs' = [] := List.eq_nil_iff_forall_not_mem.2 fun e he =>
        before' e he (h.defined (by simp [split', he]))
      have last : ys' = [] := List.eq_nil_iff_forall_not_mem.2 fun e he =>
        behind' e he (h.defined (by simp [split', he]))
      rw [split', first, last, List.nil_append]
    have ahead : (xs ++ d :: ys).takeWhile (fun e : Service => e.id ≠ d.id) = xs := by
      rw [List.takeWhile_append_of_pos fun e he => decide_eq_true (before e he : e.id ≠ d.id),
        List.takeWhile_cons_of_neg (by simp), List.append_nil]
    rw [split, ahead] at words
    -- the services before, the service itself, and the services behind
    have first := spares_sweepServices tidy still before
    have twins : Twins d.id ((Broker.sweepServices xs).run w).2 v := by
      refine ⟨first.tidy, tidy', first.part.trans h.part, ?_, ?_⟩
      · rw [Program.reading_run]
        exact clock
      · rw [Program.word_run]
        exact words
    have here := twins.sweepService (rfl : d.id = d.id)
    have last := spares_sweepServices here.twins.left
      (fun m n => (here.twins.clock m 0).trans (here.twins.clock n 0).symm) behind
    have run := run_enforceLimits w
    have run' := run_enforceLimits v
    rw [split, run_sweepServices_append] at run
    dsimp only at run
    rw [run_sweepServices_cons] at run
    rw [alone] at run'
    refine .of_run rfl run run' ?_ (last.part.trans here.twins.part) here.right
    have own := fun id hid => last.evolves.owns (here.owned id hid)
    have own' : ∀ id ∈ ((Broker.sweepServices [d]).run v).1,
        ((Broker.sweepServices [d]).run v).2.store.Owns d.id id := fun id hid => by
      rw [← here.answer] at hid
      obtain ⟨x, found, asks⟩ := here.owned id hid
      obtain ⟨x', found', asks', -⟩ := Store.session?_of_part_eq here.twins.part found asks
      exact ⟨x', found', asks'⟩
    dsimp only [Answer.about]
    rw [Store.idsOf_append, Store.idsOf_append,
      Store.idsOf_eq_nil (here.left.toEvolves.trans last.evolves) first.foreign,
      Store.idsOf_eq_self own, Store.idsOf_eq_nil (.refl _) last.foreign,
      Store.idsOf_eq_self own', List.nil_append, List.append_nil, here.answer]

/-! ## What shows of a service -/

section Views

variable {a : ServiceId} {w v : World}

theorem Store.status_of_part_eq {s t : Store} (h : s.part a = t.part a) (ascends : s.Ascending)
    (ascends' : t.Ascending) {d : Service} (of : d.id = a) : s.status d = t.status d := by
  subst of
  have depth := Store.queueDepth_of_part_eq h ascends ascends'
  rw [Store.queueDepth_eq_length, Store.queueDepth_eq_length] at depth
  unfold Store.status Store.openSlots Store.tally
  rw [Store.credentialsOf_of_part_eq h, depth]

theorem serviceStatus_of_part_eq (h : w.store.part a = v.store.part a)
    (ascends : w.store.Ascending) (ascends' : v.store.Ascending) :
    ((Broker.serviceStatus a).run w).1 = ((Broker.serviceStatus a).run v).1 := by
  rw [run_serviceStatus, run_serviceStatus, ← Store.service?_of_part_eq h]
  cases known : w.store.service? a with
  | none => rfl
  | some d =>
    rw [Option.elim_some, Option.elim_some,
      Store.status_of_part_eq h ascends ascends' (Table.find?_key known)]

theorem run_queuePosition (id : SessionId) (w : World) :
    ((Broker.queuePosition id).run w).1 = (w.store.session? id).bind fun x =>
      if x.state = .queued then (w.store.queue x.service).findIdx? fun y => y.id = id
      else none := by
  unfold Broker.queuePosition
  simp only [Program.bind_eq, Program.pure_eq]
  rw [Program.run_bind, Program.run_query]
  cases w.platform.store.session? id with
  | none => rfl
  | some x =>
    rw [Option.bind_some]
    dsimp only
    split <;> rfl

theorem queuePosition_of_part_eq (h : w.store.part a = v.store.part a)
    (ascends : w.store.Ascending) (ascends' : v.store.Ascending) {x : Session}
    (listed : x ∈ (w.store.part a).sessions) :
    ((Broker.queuePosition x.id).run w).1 = ((Broker.queuePosition x.id).run v).1 := by
  obtain ⟨y, hy, rfl⟩ := List.mem_map.1 listed
  obtain ⟨stored, asks⟩ := List.mem_filter.1 hy
  have asks := of_decide_eq_true asks
  have found : w.store.session? y.unnumbered.id = some y :=
    Store.session?_eq_some_iff.2 ⟨stored, rfl⟩
  obtain ⟨z, found', asks', same⟩ := Store.session?_of_part_eq h found asks
  have place : ∀ xs : List Session, xs.findIdx? (fun x => x.id = y.unnumbered.id) =
      (xs.map Session.unnumbered).findIdx? fun x => x.id = y.unnumbered.id := fun xs => by
    rw [List.findIdx?_map]
    rfl
  have state : y.unnumbered.state = z.unnumbered.state := by rw [same]
  rw [run_queuePosition, run_queuePosition, found, found', Option.bind_some, Option.bind_some,
    asks, asks', place (w.store.queue a), Store.queue_of_part_eq h ascends ascends',
    ← place (v.store.queue a), show y.state = z.state from state]

/-- What shows of a service depends on its part of the store. -/
theorem World.glimpse_eq {o o' : Option Answer} (h : w.store.part a = v.store.part a)
    (ascends : w.store.Ascending) (ascends' : v.store.Ascending)
    (answer : o.bind (Answer.about a w.store) = o'.bind (Answer.about a v.store)) :
    w.glimpse a o = v.glimpse a o' := by
  have places := List.map_congr_left fun x (hx : x ∈ (w.store.part a).sessions) =>
    queuePosition_of_part_eq h ascends ascends' hx
  unfold World.glimpse
  rw [answer, serviceStatus_of_part_eq h ascends ascends', ascends.projection_eq,
    ascends'.projection_eq, places, h]

end Views

/-! ## The two runs -/

/-- The second platform goes along with the first one: it holds the same of the service, and nothing
of any other. -/
structure Tracks (a : ServiceId) (p q : Platform) : Prop
    extends Projected a p.store q.store where
  coherent : p.store.Coherent
  numbered : p.store.Numbered
  coherent' : q.store.Coherent
  numbered' : q.store.Numbered

namespace Tracks

variable {key : Codec.Key} {a : ServiceId} {p q : Platform} {e : Entry} {word : UInt64}

/-- While some id is not in use, both stores are tidy. -/
theorem tidy (h : Tracks a p q)
    (unused : p.store.session? (Ident.hex Ident.longDigits word) = none) :
    p.store.Tidy ∧ q.store.Tidy :=
  ⟨⟨h.coherent, h.numbered.ascending unused⟩,
    ⟨h.coherent', h.numbered'.ascending (h.session?_eq_none unused)⟩⟩

/-- A command that is addressed to another service is passed over. -/
theorem skip (h : Tracks a p q) (fresh : e.command.Fresh (e.world p))
    (unused : p.store.session? (Ident.hex Ident.longDigits word) = none)
    (foreign : e.isForeign a p = true) : Tracks a (e.next key p) q := by
  obtain ⟨b, here, other⟩ := (Option.any_eq_true _ _).1 foreign
  have confined := Command.confined (w := e.world p) key (h.tidy unused).1 (fun _ _ => rfl) fresh
    here
  have part := confined.others a (of_decide_eq_true other).symm
  exact ⟨⟨part.trans h.part, h.only⟩, e.command.coherent key fresh h.coherent,
    e.command.numbered key fresh h.coherent h.numbered, h.coherent', h.numbered'⟩

/-- A command that is left in the run draws the same id as before. -/
theorem fresh (h : Tracks a p q) (fresh : e.command.Fresh (e.world p)) :
    e.command.Fresh ((e.narrowed a p).world q) := by
  obtain ⟨time, word, command⟩ := e
  cases command with
  | define => trivial
  | call op =>
    cases op with
    | request user service => exact h.session?_eq_none fresh
    | issue service identity secret tier => exact h.credential?_eq_none fresh
    | finish | sweep | disable | rotate | register => trivial

/-- A command that is left in the run comes to the same. -/
theorem lockstep (h : Tracks a p q) (key : Codec.Key) (fresh : e.command.Fresh (e.world p))
    (unused : p.store.session? (Ident.hex Ident.longDigits word) = none)
    (own : e.isForeign a p = false) :
    Matches key a e.command (e.world p) ((e.narrowed a p).world q) := by
  obtain ⟨tidy, tidy'⟩ := h.tidy unused
  by_cases sweeps : e.command = .call .sweep
  · rw [sweeps]
    refine h.sweep (w := e.world p) (v := (e.narrowed a p).world q) key tidy tidy'
      (fun _ _ => rfl) fun n => ?_
    have skips : e.wordsBefore a p = ((Broker.sweepServices
        (p.store.services.entries.takeWhile fun d => d.id ≠ a)).run
          (e.world p)).2.supply.drawn := by
      unfold Entry.wordsBefore
      rw [sweeps]
    change e.word _ = e.word (0 + n + e.wordsBefore a p)
    rw [skips, Nat.zero_add, Nat.add_comm]
    rfl
  · have none : e.wordsBefore a p = 0 := by
      unfold Entry.wordsBefore
      split
      · exact absurd ‹_› sweeps
      · rfl
    have twins : Twins a (e.world p) ((e.narrowed a p).world q) := by
      refine ⟨tidy, tidy', h.part, fun _ _ => rfl, fun n => ?_⟩
      change e.word (0 + n) = e.word (0 + n + e.wordsBefore a p)
      rw [none, Nat.add_zero]
    have addressees : ∀ b, e.command.addressee p.store = some b → b = a := fun b here =>
      by simpa using (Option.any_eq_false _ _).1 own b here
    cases here : e.command.addressee p.store with
    | none => exact twins.idle key here ((h.addressee addressees).trans here) sweeps
    | some b =>
      obtain rfl := addressees b here
      exact twins.command key fresh (h.fresh fresh) here

/-- **A command that is left in the run** keeps the platforms together and shows the same of the
service. -/
theorem step (h : Tracks a p q) (key : Codec.Key) (fresh : e.command.Fresh (e.world p))
    (unused : (e.next key p).store.session? (Ident.hex Ident.longDigits word) = none)
    (own : e.isForeign a p = false) :
    Tracks a (e.next key p) ((e.narrowed a p).next key q) ∧
      (e.narrowed a p).glimpse key a q = e.glimpse key a p := by
  have before := (e.command.evolves key fresh h.coherent).session?_eq_none unused
  have m := h.lockstep key fresh before own
  have tracks : Tracks a (e.next key p) ((e.narrowed a p).next key q) :=
    ⟨⟨m.part, fun b hb => (m.confined.others b hb).trans (h.only b hb)⟩,
      e.command.coherent key fresh h.coherent,
      e.command.numbered key fresh h.coherent h.numbered,
      e.command.coherent key (h.fresh fresh) h.coherent',
      e.command.numbered key (h.fresh fresh) h.coherent' h.numbered'⟩
  refine ⟨tracks, ?_⟩
  obtain ⟨⟨-, ascends⟩, ⟨-, ascends'⟩⟩ := tracks.tidy unused
  exact (World.glimpse_eq m.part ascends ascends' m.answer).symm

end Tracks

/-- No command of a run forgets anything. -/
theorem Entry.evolves_after {key : Codec.Key} {es : List Entry} {p : Platform}
    (fresh : Entry.FreshFrom key es p) (coherent : p.store.Coherent) :
    p.store.Evolves (Entry.after key es p).store := by
  induction es generalizing p with
  | nil => exact .refl p.store
  | cons e es ih =>
    exact (e.command.evolves key fresh.1 coherent).trans
      (ih fresh.2 (e.command.coherent key fresh.1 coherent))

/-- Two runs from platforms of which the second goes along with the first. -/
theorem Tracks.run {key : Codec.Key} {a : ServiceId} {es : List Entry} {p q : Platform}
    {word : UInt64} (h : Tracks a p q) (fresh : Entry.FreshFrom key es p)
    (unused : (Entry.after key es p).store.session? (Ident.hex Ident.longDigits word) = none) :
    Entry.glimpses key a ((Entry.kept key a es p).map (·.1)) q =
        (Entry.kept key a es p).map (·.2) ∧
      Tracks a (Entry.after key es p) (Entry.after key ((Entry.kept key a es p).map (·.1)) q) := by
  induction es generalizing p q with
  | nil => exact ⟨rfl, h⟩
  | cons e es ih =>
    have coherent := e.command.coherent key fresh.1 h.coherent
    have next := (Entry.evolves_after fresh.2 coherent).session?_eq_none unused
    unfold Entry.kept
    split
    · have before := (e.command.evolves key fresh.1 h.coherent).session?_eq_none next
      exact ih (h.skip fresh.1 before ‹_›) fresh.2 unused
    · rename_i own
      obtain ⟨tracks, glimpse⟩ := h.step key fresh.1 next (Bool.eq_false_of_not_eq_true own)
      obtain ⟨glimpses, final⟩ := ih tracks fresh.2 unused
      exact ⟨List.cons_eq_cons.2 ⟨glimpse, glimpses⟩, final⟩

/-- **Services are isolated from each other.** From a run of complete commands, each with the ids
that it draws fixed in advance, leave out all that are addressed to other services. At the end the
store holds the same of the service as after the whole run, and after every command that is left the
same shows of it as in the whole run: what the answer says of the service, its part of the store,
its status and the places in its queue. -/
theorem services_isolated (key : Codec.Key) (a : ServiceId) (run : List Entry)
    (fresh : FreshIds key run) :
    let kept := Entry.kept key a run {}
    let own := kept.map (·.1)
    Entry.glimpses key a own {} = kept.map (·.2) ∧
      (Entry.after key own {}).store.projection a =
        (Entry.after key run {}).store.projection a := by
  obtain ⟨fresh, word, unused⟩ := fresh
  have start : Tracks a {} {} :=
    ⟨⟨rfl, fun _ _ => rfl⟩, .of_bare rfl, .of_bare rfl, .of_bare rfl, .of_bare rfl⟩
  obtain ⟨glimpses, final⟩ := start.run fresh unused
  obtain ⟨⟨-, ascends⟩, ⟨-, ascends'⟩⟩ := final.tidy unused
  refine ⟨glimpses, ?_⟩
  rw [ascends.projection_eq, ascends'.projection_eq, final.part]

/-- Two services share a platform. A session of each runs and another one waits; the first session
of games is ended, and a sweep expires what runs by then. -/
def sharedRun : List Entry :=
  let commands : List (Millis × Command) :=
    [(0, .define { oneSlot with id := "games", name := "Games" }), (0, .define oneSlot),
      (0, .call (.issue "games" "attic" "secret" .basic)),
      (0, .call (.issue "films" "house" "secret" .basic)),
      (0, .call (.request "ann" "games")), (0, .call (.request "bob" "films")),
      (0, .call (.request "cy" "games")), (0, .call (.request "dan" "films")),
      (1000, .call (.finish "0000000000000040")), (20000000, .call .sweep)]
  commands.zipIdx.map fun ((time, command), i) =>
    { time := time, word := fun n => UInt64.ofNat (16 * i + n), command := command }

/-- The sweep bills a session of games before it comes to films. -/
theorem services_isolated_sharedRun :
    FreshIds Scene.plainKey sharedRun ∧
      let kept := Entry.kept Scene.plainKey "films" sharedRun {}
      let own := kept.map (·.1)
      kept.length = 5 ∧ Entry.glimpses Scene.plainKey "films" own {} = kept.map (·.2) ∧
        (Entry.after Scene.plainKey own {}).store.projection "films" =
          (Entry.after Scene.plainKey sharedRun {}).store.projection "films" := by
  have fresh : FreshIds Scene.plainKey sharedRun := ⟨by decide +kernel, 0, by decide +kernel⟩
  exact ⟨fresh, by decide +kernel, services_isolated Scene.plainKey "films" sharedRun fresh⟩

end SlotBroker
