import SlotBroker.Proofs.QueueOrder
import SlotBroker.Proofs.Secrets

/-!
# Usernames

Registering a user by name is a look for one of that name and, some steps later, an insertion. A
second registration of the same name that begins in between finds nobody either, and both are
stored: `registered_twice`. So usernames are unique only as long as nobody registers a name whose
registration is under way.

A `Crowd` is the platform together with everything asked of it, operations and seedings of the demo,
each with the rest of its program. In `Crowd.Next` they take their steps in any order, and a new one
may come in at any time, except that its names must not be under way.

`Enlists names p hand s Q` says of a program `p` that has drawn the id `hand` and has last seen the
store `s`: all that its steps do to the users is to store one at a time, of one of the names, that
nobody has, under the id in hand or one made of the name.

Results:
* **`registered_twice`**: two registrations that overlap may store two users of one name.
* `enlists_register`, `enlists_start`: what registrations and seedings do step by step.
* **`usernames_unique`**: if registrations of one name do not overlap, no two users ever have the
  same name, the order of the users does not matter to a look-up by name, and all registrations of a
  name answer with the same user.
-/

namespace SlotBroker

open Program

/-- Two registrations of one name, the second from its first step to its last between two steps of
the first. -/
def registeredTwice : Scene :=
  .after [.call (.register "ann"), .turn 0 0 0, .turn 0 0 1,
    .call (.register "ann"), .turn 1 0 0, .turn 1 0 2, .turn 1 5 0, .turn 1 0 0,
    .turn 0 7 0, .turn 0 0 0]

/-- **A name may be registered twice.** -/
theorem registered_twice :
    ∃ σ : Scene, σ.Reachable Scene.plainKey ∧ σ.Quiet ∧
      σ.store.users.entries.map User.username = ["ann", "ann"] :=
  ⟨registeredTwice, Scene.reachable_after _, Scene.quiet_of_all_isDone (by decide +kernel),
    by decide +kernel⟩

namespace Ident

theorem hexDigit_ne_u (n : Nat) : hexDigit n ≠ 'u' := by
  have all : ∀ k < 16, "0123456789abcdef".toList.getD k '0' ≠ 'u' := by decide
  exact all (n % 16) (Nat.mod_lt n (by decide))

theorem u_notMem_hexDigits (digits n : Nat) : 'u' ∉ hexDigits digits n := by
  induction digits generalizing n with
  | zero => exact List.not_mem_nil
  | succ digits ih =>
    rw [hexDigits, List.mem_append, not_or, List.mem_singleton]
    exact ⟨ih _, fun e => hexDigit_ne_u n e.symm⟩

/-- No id that is drawn is made of a name. -/
theorem hex_ne_user (digits : Nat) (word : UInt64) (name : String) :
    hex digits word ≠ "user-" ++ name := by
  intro h
  have chars := congrArg String.toList h
  rw [hex, String.toList_ofList, String.toList_append] at chars
  exact u_notMem_hexDigits digits word.toNat
    (chars ▸ List.mem_append_left _ (by decide))

end Ident

/-! ## The users of a store -/

namespace Store

variable {s t u : Store} {names : List String}

/-- The users are the same. -/
def SameUsers (s t : Store) : Prop := t.users = s.users

/-- The users of some names are the same. -/
def AgreeOn (names : List String) (s t : Store) : Prop :=
  ∀ name ∈ names, t.userNamed? name = s.userNamed? name

/-- Whoever was found by name is found again. -/
def Remembers (s t : Store) : Prop :=
  ∀ name x, s.userNamed? name = some x → t.userNamed? name = some x

theorem SameUsers.userNamed? (h : s.SameUsers t) (name : String) :
    t.userNamed? name = s.userNamed? name := by
  rw [Store.userNamed?, Store.userNamed?, h]

theorem SameUsers.remembers (h : s.SameUsers t) : s.Remembers t := fun name _ found =>
  (h.userNamed? name).trans found

theorem SameUsers.agreeOn (h : s.SameUsers t) : AgreeOn names s t := fun name _ =>
  h.userNamed? name

theorem AgreeOn.refl (names : List String) (s : Store) : AgreeOn names s s := fun _ _ => rfl

theorem AgreeOn.trans (h : AgreeOn names s t) (h' : AgreeOn names t u) : AgreeOn names s u :=
  fun name hname => (h' name hname).trans (h name hname)

/-- Requests, ends and sweeps have nothing to do with users. -/
theorem SameUsers.permits : Store.Permits SameUsers where
  refl _ := rfl
  checkout s id now := by
    unfold Store.checkout
    split
    · rfl
    · split <;> rfl
  checkin s id := by
    unfold Store.checkin
    split <;> rfl
  applyEvent s id e := by
    unfold Store.applyEvent
    split
    · rfl
    · split <;> rfl
  addSession _ _ := rfl
  appendUsage _ _ := rfl

theorem sameUsers_disable (s : Store) (id : CredentialId) : s.SameUsers (s.disable id).2 := by
  unfold Store.disable
  split <;> rfl

theorem sameUsers_rotate (s : Store) (id : CredentialId) (text : String) :
    s.SameUsers (s.rotate id text).2 := by
  unfold Store.rotate
  split <;> rfl

/-- A user whose id is new comes last. -/
theorem entries_addUser (s : Store) (x : User) (new : s.user? x.id = none) :
    (s.addUser x).users.entries = s.users.entries ++ [x] :=
  placeIn_of_new new

/-- Who comes last is found by name only if nobody else is. -/
theorem userNamed?_of_last {x : User} (last : t.users.entries = s.users.entries ++ [x])
    (name : String) :
    t.userNamed? name =
      (s.userNamed? name).or (if x.username = name then some x else none) := by
  rw [Store.userNamed?, Store.userNamed?, last, List.find?_append]
  by_cases h : x.username = name <;> simp [h]

/-- Who is stored under a name that was free is found by it, whoever he replaces. -/
theorem userNamed?_addUser {x : User} (free : s.userNamed? x.username = none) :
    (s.addUser x).userNamed? x.username = some x := by
  change (placeIn x s.users.entries).find? _ = _
  rw [Store.userNamed?] at free
  generalize s.users.entries = xs at free ⊢
  induction xs with
  | nil => simp [placeIn]
  | cons y ys ih =>
    rw [List.find?_eq_none] at free
    have hy : ¬ y.username = x.username := by simpa using free y List.mem_cons_self
    have rest := ih (List.find?_eq_none.2 fun z hz => free z (List.mem_cons_of_mem _ hz))
    rw [placeIn]
    split
    · simp
    · simpa [hy] using rest

end Store

/-! ## What a program does to the users -/

/-- The program stores nobody but users of some names that nobody has, each under the id in hand or
one made of the name, and ends in `Q`. -/
def Enlists (digits : Nat) (names : List String) : {α : Type} → Program α → Option String →
    Store → (α → Option String → Store → Prop) → Prop
  | _, .done a, hand, s, Q => Q a hand s
  | _, .step f k, hand, s, Q => ∀ p, Store.AgreeOn names s p.store →
    (p.store.SameUsers (f p).2.store ∧
      Enlists digits names (k (f p).1) hand (f p).2.store Q) ∨
    ∃ x : User, (f p).2.store.users = p.store.users.insert x ∧ x.username ∈ names ∧
      p.store.userNamed? x.username = none ∧
      ((hand = some x.id ∧ Enlists digits names (k (f p).1) none (f p).2.store Q) ∨
        (x.id = "user-" ++ x.username ∧
          Enlists digits names (k (f p).1) hand (f p).2.store Q))
  | _, .clock k, hand, s, Q => ∀ time, Enlists digits names (k time) hand s Q
  | _, .random k, _, s, Q =>
    ∀ word, Enlists digits names (k word) (some (Ident.hex digits word)) s Q
  | _, .loop body _ _ k, _, s, Q => (∀ a, (body a).Does Store.SameUsers) ∧
    ∀ a hand t, Store.AgreeOn names s t → Enlists digits names (k a) hand t Q

namespace Enlists

variable {α β σ : Type} {digits : Nat} {names : List String} {p : Program α}
  {f : α → Program β} {hand : Option String} {s t : Store}

/-- What others do to users of other names is no harm. -/
theorem stable {Q : α → Option String → Store → Prop} (h : Enlists digits names p hand s Q)
    (agree : (∀ a, p ≠ .done a) → Store.AgreeOn names s t)
    (ended : ∀ a hand, Q a hand s → Q a hand t) : Enlists digits names p hand t Q := by
  induction p generalizing hand with
  | done a => exact ended a hand h
  | step g k => exact fun q hq => h q ((agree nofun).trans hq)
  | clock k ih => exact fun time => ih time (h time) (fun _ => agree nofun) ended
  | random k ih => exact fun word => ih word (h word) (fun _ => agree nofun) ended
  | loop body limit a k => exact ⟨h.1, fun a hand u hu => h.2 a hand u ((agree nofun).trans hu)⟩

/-! ## Rules -/

variable {Q : β → Option String → Store → Prop}

/-- First something that has nothing to do with users. -/
theorem bind_of_does (does : p.Does Store.SameUsers)
    (h : ∀ a hand t, Store.AgreeOn names s t → Enlists digits names (f a) hand t Q) :
    Enlists digits names (p.bind f) hand s Q := by
  induction p generalizing hand s with
  | done a => exact h a hand s (.refl _ _)
  | step g k ih =>
    exact fun q hq => .inl ⟨does.1 q, ih _ (does.2 _) fun a hand t ht =>
      h a hand t ((hq.trans (does.1 q).agreeOn).trans ht)⟩
  | clock k ih => exact fun time => ih time (does time) h
  | random k ih => exact fun word => ih word (does word) h
  | loop body limit a k _ ih =>
    exact ⟨does.1, fun a hand t ht => ih a (does.2 a) fun b hand u hu =>
      h b hand u (ht.trans hu)⟩

theorem query {a : Store → α}
    (h : ∀ t, Store.AgreeOn names s t → Enlists digits names (f (a t)) hand t Q) :
    Enlists digits names ((Program.query a).bind f) hand s Q :=
  fun q hq => .inl ⟨rfl, h q.store hq⟩

/-- Storing a user whose name is free, under an id in hand or one made of the name. -/
theorem addUser {f : Unit → Program β} {x : User} (among : x.username ∈ names)
    (free : s.userNamed? x.username = none)
    (id : hand = some x.id ∨ x.id = "user-" ++ x.username)
    (h : ∀ hand t, t.userNamed? x.username = some x → Enlists digits names (f ()) hand t Q) :
    Enlists digits names ((Program.update (·.addUser x)).bind f) hand s Q := by
  intro q hq
  have free := (hq _ among).trans free
  have found := Store.userNamed?_addUser free
  exact .inr ⟨x, rfl, among, free, id.imp (⟨·, h _ _ found⟩) (⟨·, h _ _ found⟩)⟩

theorem unrolled {f : σ → Program β} {body : σ → Program (Bool × σ)} {limit : Platform → Nat}
    {a : σ} (h : Enlists digits names (.loop body limit a f) hand s Q) :
    Enlists digits names (.unrolled body limit a f) hand s Q := by
  refine bind_of_does (h.1 a) fun r hand t ht => ?_
  split
  · exact ⟨h.1, fun b hand u hu => h.2 b hand u (ht.trans hu)⟩
  · exact h.2 _ _ _ ht

end Enlists

/-- Who takes a turn is not done. -/
theorem Program.Turn.underway {α : Type} {digits : Nat} {drawn drawn' : List String}
    {p p' : Platform} {P P' : Program α} (h : P.Turn digits drawn p p' P' drawn') (a : α) :
    P ≠ .done a := by
  cases h <;> exact nofun

/-! ## Operations and the demo -/

theorem sameUsers_storeCredential (key : Codec.Key) (service : ServiceId)
    (identity secret : String) (tier : Tier) :
    (Vault.storeCredential key service identity secret tier).Does Store.SameUsers := by
  refine .bind (.query fun _ => rfl) fun known => ?_
  cases known with
  | none => exact .done _
  | some definition => exact .bind .freshId fun id => .bind (.update fun _ => rfl) fun _ => .done _

/-- All operations but a registration leave the users alone. -/
theorem Operation.sameUsers (key : Codec.Key) (op : Operation)
    (other : ∀ name, op ≠ .register name) : (op.program key).Does Store.SameUsers := by
  have mapped : ∀ {α β : Type} (f : α → β) {p : Program α}, p.Does Store.SameUsers →
      (f <$> p).Does Store.SameUsers :=
    fun f p h => .bind h fun a => .done (f a)
  cases op with
  | request user service =>
    exact mapped _ (Store.SameUsers.permits.doesRequestSession user service)
  | finish id => exact mapped _ (Store.SameUsers.permits.doesEndSession id)
  | sweep => exact mapped _ Store.SameUsers.permits.doesEnforceLimits
  | issue service identity secret tier =>
    exact mapped _ (sameUsers_storeCredential key service identity secret tier)
  | disable id => exact mapped _ (.onStore fun s => s.sameUsers_disable id)
  | rotate id secret => exact mapped _ (.onStore fun s => s.sameUsers_rotate id _)
  | register name => exact absurd rfl (other name)

/-- **A registration** stores the user if nobody has the name, and ends with whoever has it. -/
theorem enlists_register (name : String) (hand : Option String) (s : Store) :
    Enlists Ident.shortDigits [name] (some <$> Accounts.register name) hand s fun a _ t =>
      ∃ x, a = some x ∧ t.userNamed? name = some x := by
  change Enlists _ _ ((Accounts.register name).bind fun x => .done (some x)) _ _ _
  unfold Accounts.register
  simp only [Program.bind_eq, Program.bind_assoc]
  refine .query fun t ht => ?_
  cases found : t.userNamed? name with
  | some x => exact ⟨x, rfl, found⟩
  | none =>
    intro word time
    let x : User := ⟨Ident.hex Ident.shortDigits word, name, time⟩
    exact Enlists.addUser (x := x) (f := fun _ => .done (some x)) (List.mem_singleton.2 rfl) found
      (.inl rfl) fun hand u hu => show ∃ y, _ from ⟨x, rfl, hu⟩

namespace Demo

theorem sameUsers_addMissingServices (services : List Service) :
    (addMissingServices services).Does Store.SameUsers := by
  induction services with
  | nil => exact .done _
  | cons service rest ih =>
    refine .bind (.query fun _ => rfl) fun known => ?_
    dsimp only
    split
    · exact .bind (.update fun _ => rfl) fun _ => ih
    · exact ih

theorem sameUsers_issueAll (key : Codec.Key) (as : List PooledAccount) :
    (issueAll key as).Does Store.SameUsers := by
  induction as with
  | nil => exact .done _
  | cons a rest ih =>
    refine .bind (sameUsers_storeCredential key _ _ _ _) fun issued => ?_
    cases issued with
    | error e => exact .done _
    | ok c => exact ih

theorem enlists_addMissingUsers {α : Type} {digits : Nat} {names xs : List String}
    (sub : ∀ name ∈ xs, name ∈ names) {f : Unit → Program α} {hand : Option String} {s : Store}
    {Q : α → Option String → Store → Prop}
    (h : ∀ hand t, Enlists digits names (f ()) hand t Q) :
    Enlists digits names ((addMissingUsers xs).bind f) hand s Q := by
  induction xs generalizing hand s with
  | nil => exact h hand s
  | cons name rest ih =>
    have sub' := fun x hx => sub x (List.mem_cons_of_mem _ hx)
    rw [addMissingUsers, Program.bind_eq, Program.bind_assoc]
    refine .query fun t ht => ?_
    cases found : t.userNamed? name with
    | some x => exact ih sub'
    | none =>
      intro time
      exact Enlists.addUser (x := ⟨"user-" ++ name, name, time⟩) (sub name List.mem_cons_self)
        found (.inr rfl) fun hand u _ => ih sub'

/-- **A seeding of the demo** stores those demo users that nobody has the names of. -/
theorem enlists_start {α : Type} {digits : Nat} (key : Codec.Key) {f : Unit → Program α}
    {hand : Option String} {s : Store} {Q : α → Option String → Store → Prop}
    (h : ∀ hand t, Enlists digits usernames (f ()) hand t Q) :
    Enlists digits usernames ((start key).bind f) hand s Q := by
  unfold start seed
  simp only [Program.bind_eq, Program.bind_assoc]
  refine .bind_of_does (sameUsers_addMissingServices catalog) fun _ _ _ _ =>
    .bind_of_does (sameUsers_issueAll key accounts) fun issued hand t _ => ?_
  cases issued with
  | error e => exact h hand t
  | ok u =>
    cases u
    simp only [Program.bind_assoc]
    refine enlists_addMissingUsers (fun _ h => h) fun hand t => ?_
    exact .bind_of_does (.done _) fun r hand t _ => by
      cases r with
      | error e => exact h hand t
      | ok xs => exact .bind_of_does (.addProviders fun _ => rfl) fun _ hand u _ => h hand u

end Demo

/-! ## Tasks in any order -/

/-- What somebody may want of the platform: an operation, or the demo seeded. -/
inductive Task where
  | ask (op : Operation)
  | seed

namespace Task

/-- The names that users may be stored under on the way. -/
def names : Task → List String
  | ask (.register name) => [name]
  | ask _ => []
  | seed => Demo.usernames

/-- The digits of the ids that are drawn. -/
def digits : Task → Nat
  | ask op => op.idDigits
  | seed => Ident.shortDigits

/-- What is done, and the user that it answers with. -/
def program (key : Codec.Key) : Task → Program (Option User)
  | ask (.register name) => some <$> Accounts.register name
  | ask op => (fun _ => none) <$> op.program key
  | seed => (fun _ => none) <$> Demo.start key

/-- What holds when it is done: a registration answers with the user who has the name. -/
def Ends : Task → Option User → Store → Prop
  | ask (.register name), answer, s => ∃ x, answer = some x ∧ s.userNamed? name = some x
  | _, _, _ => True

theorem Ends.stable {task : Task} {answer : Option User} {s t : Store} (h : task.Ends answer s)
    (remembers : s.Remembers t) : task.Ends answer t := by
  cases task with
  | ask op =>
    cases op with
    | register name => exact h.imp fun x hx => ⟨hx.1, remembers name x hx.2⟩
    | request | finish | sweep | issue | disable | rotate => trivial
  | seed => trivial

theorem enlists (key : Codec.Key) (task : Task) (hand : Option String) (s : Store) :
    Enlists task.digits task.names (task.program key) hand s fun a _ t => task.Ends a t := by
  have mute : ∀ op : Operation, (∀ name, op ≠ .register name) → Enlists op.idDigits []
      ((fun _ => (none : Option User)) <$> op.program key) hand s fun _ _ _ => True :=
    fun op other => .bind_of_does (Operation.sameUsers key _ other) fun _ _ _ _ => trivial
  cases task with
  | ask op =>
    cases op with
    | register name => exact enlists_register name hand s
    | request user service => exact mute (.request user service) nofun
    | finish id => exact mute (.finish id) nofun
    | sweep => exact mute .sweep nofun
    | issue service identity secret tier =>
      exact mute (.issue service identity secret tier) nofun
    | disable id => exact mute (.disable id) nofun
    | rotate id secret => exact mute (.rotate id secret) nofun
  | seed => exact Demo.enlists_start key fun _ _ => trivial

end Task

/-- A task on its way, and what is left of it. -/
structure Job where
  task : Task
  rest : Program (Option User)

/-- The job is not done. -/
def Job.Underway (j : Job) : Prop := ∀ a, j.rest ≠ .done a

/-- The platform, the jobs in order of arrival, and all ids drawn. -/
structure Crowd where
  platform : Platform
  jobs : List Job := []
  drawn : List String := []

namespace Crowd

/-- The store of the platform. -/
abbrev store (c : Crowd) : Store := c.platform.store

/-- A task comes in, none of whose names is under way, or one of the jobs takes a turn. -/
inductive Next (key : Codec.Key) : Crowd → Crowd → Prop
  | come (c : Crowd) (task : Task)
      (apart : ∀ j ∈ c.jobs, j.Underway → j.task.names.Disjoint task.names) :
      Next key c { c with jobs := c.jobs ++ [⟨task, task.program key⟩] }
  | turn (c : Crowd) (i : Nat) (j : Job) (here : c.jobs[i]? = some j) (p : Platform)
      (rest : Program (Option User)) (drawn : List String)
      (turn : j.rest.Turn j.task.digits c.drawn c.platform p rest drawn) :
      Next key c { platform := p, jobs := c.jobs.set i { j with rest := rest }, drawn := drawn }

/-- What some order of steps leads to, from a platform without users. -/
inductive Reachable (key : Codec.Key) : Crowd → Prop
  | start (p : Platform) (bare : p.store.users = .empty) : Reachable key { platform := p }
  | next {c d : Crowd} : Reachable key c → Next key c d → Reachable key d

/-! ## What every turn keeps -/

/-- What is under way is about different names. -/
def Apart (jobs : List Job) : Prop :=
  ∀ (i k : Nat) (j l : Job), jobs[i]? = some j → jobs[k]? = some l → i ≠ k → j.Underway →
    l.Underway → j.task.names.Disjoint l.task.names

/-- Each job will go on as its task has to, from the id that it has in hand. -/
def GoOn (jobs : List Job) (hand : Nat → Option String) (s : Store) : Prop :=
  ∀ (i : Nat) (j : Job), jobs[i]? = some j →
    Enlists j.task.digits j.task.names j.rest (hand i) s fun a _ t => j.task.Ends a t

/-- What holds between any two turns, with the ids in hand. -/
structure Kept (c : Crowd) (hand : Nat → Option String) : Prop where
  /-- Usernames are unique. -/
  names : (c.store.users.entries.map User.username).Nodup
  /-- Ids were drawn or are made of the name. -/
  ids : ∀ x ∈ c.store.users.entries, x.id ∈ c.drawn ∨ x.id = "user-" ++ x.username
  /-- Ids that were drawn are not made of names. -/
  drawn : ∀ id ∈ c.drawn, ∀ name, id ≠ "user-" ++ name
  /-- An id in hand was drawn, and nobody has it. -/
  unused : ∀ i id, hand i = some id → id ∈ c.drawn ∧ c.store.user? id = none
  /-- No two have the same id in hand. -/
  single : ∀ i k id, hand i = some id → hand k = some id → i = k
  apart : Apart c.jobs
  goOn : GoOn c.jobs hand c.store

variable {c : Crowd} {i : Nat} {j : Job} {jobs : List Job} {hand hand' : Nat → Option String}
  {p : Platform} {rest : Program (Option User)} {s t : Store}

theorem getElem?_set_cases {l j' : Job} {k : Nat} (h : (jobs.set i j')[k]? = some l) :
    k = i ∧ l = j' ∨ k ≠ i ∧ jobs[k]? = some l := by
  rw [List.getElem?_set] at h
  split at h
  · rename_i same
    split at h
    · exact .inl ⟨same.symm, (Option.some.inj h).symm⟩
    · cases h
  · rename_i other
    exact .inr ⟨fun e => other e.symm, h⟩

theorem getElem?_concat_cases {l j' : Job} {k : Nat} (h : (jobs ++ [j'])[k]? = some l) :
    k = jobs.length ∧ l = j' ∨ jobs[k]? = some l := by
  rcases Nat.lt_trichotomy k jobs.length with lt | eq | gt
  · exact .inr (by rwa [List.getElem?_append_left lt] at h)
  · subst eq
    rw [List.getElem?_concat_length] at h
    exact .inl ⟨rfl, (Option.some.inj h).symm⟩
  · rw [List.getElem?_eq_none (by simpa using gt)] at h
    cases h

theorem Apart.set (apart : Apart jobs) (here : jobs[i]? = some j) (underway : j.Underway) :
    Apart (jobs.set i { j with rest := rest }) := by
  intro a b l m hl hm hab ul um
  rcases getElem?_set_cases hl with ⟨rfl, rfl⟩ | ⟨-, old⟩ <;>
    rcases getElem?_set_cases hm with ⟨rfl, rfl⟩ | ⟨-, old'⟩
  · exact absurd rfl hab
  · exact apart _ _ j m here old' hab underway um
  · exact apart _ _ l j old here hab ul underway
  · exact apart _ _ l m old old' hab ul um

theorem GoOn.set (goOn : GoOn jobs hand s) (same : ∀ k, k ≠ i → hand' k = hand k)
    (remembers : s.Remembers t)
    (agree : ∀ k l, jobs[k]? = some l → k ≠ i → l.Underway → Store.AgreeOn l.task.names s t)
    (enlists : Enlists j.task.digits j.task.names rest (hand' i) t fun a _ u => j.task.Ends a u) :
    GoOn (jobs.set i { j with rest := rest }) hand' t := by
  intro k l hl
  rcases getElem?_set_cases hl with ⟨rfl, rfl⟩ | ⟨hk, hl⟩
  · exact enlists
  · rw [same k hk]
    exact (goOn k l hl).stable (agree k l hl hk) fun a _ h => h.stable remembers

namespace Kept

/-- A turn that leaves the users alone. -/
theorem still (kept : c.Kept hand) (here : c.jobs[i]? = some j) (underway : j.Underway)
    (same : c.store.SameUsers p.store)
    (enlists : Enlists j.task.digits j.task.names rest (hand i) p.store fun a _ u =>
      j.task.Ends a u) :
    Kept { c with platform := p, jobs := c.jobs.set i { j with rest := rest } } hand where
  names := same ▸ kept.names
  ids := same ▸ kept.ids
  drawn := kept.drawn
  unused k id h := by
    obtain ⟨drawn, unused⟩ := kept.unused k id h
    refine ⟨drawn, ?_⟩
    rwa [Store.user?, same]
  single := kept.single
  apart := kept.apart.set here underway
  goOn := kept.goOn.set (fun _ _ => rfl) same.remembers (fun _ _ _ _ _ => same.agreeOn) enlists

/-- A turn that draws an id. -/
theorem drew (kept : c.Kept hand) (here : c.jobs[i]? = some j) (underway : j.Underway)
    {digits : Nat} {word : UInt64} (fresh : Ident.hex digits word ∉ c.drawn)
    (enlists : Enlists j.task.digits j.task.names rest (some (Ident.hex digits word)) c.store
      fun a _ u => j.task.Ends a u) :
    Kept { c with
      jobs := c.jobs.set i { j with rest := rest }
      drawn := Ident.hex digits word :: c.drawn }
      (Function.update hand i (some (Ident.hex digits word))) where
  names := kept.names
  ids x hx := (kept.ids x hx).imp_left (List.mem_cons_of_mem _)
  drawn id hid name := by
    rcases List.mem_cons.1 hid with rfl | hid
    · exact Ident.hex_ne_user digits word name
    · exact kept.drawn id hid name
  unused k id h := by
    by_cases hk : k = i
    · subst hk
      rw [Function.update_self] at h
      obtain rfl := Option.some.inj h
      refine ⟨List.mem_cons_self, Option.eq_none_iff_forall_ne_some.2 fun x hx => ?_⟩
      obtain ⟨mem, hid⟩ := Table.find?_eq_some_iff.1 hx
      rcases kept.ids x mem with drawn | named
      · exact fresh (hid ▸ drawn)
      · exact Ident.hex_ne_user digits word x.username (hid.symm.trans named)
    · rw [Function.update_of_ne hk] at h
      exact (kept.unused k id h).imp_left (List.mem_cons_of_mem _)
  single k l id hk hl := by
    by_cases ki : k = i <;> by_cases li : l = i
    · rw [ki, li]
    · rw [ki, Function.update_self] at hk
      rw [Function.update_of_ne li] at hl
      exact absurd (kept.unused l id hl).1 (Option.some.inj hk ▸ fresh)
    · rw [li, Function.update_self] at hl
      rw [Function.update_of_ne ki] at hk
      exact absurd (kept.unused k id hk).1 (Option.some.inj hl ▸ fresh)
    · rw [Function.update_of_ne ki] at hk
      rw [Function.update_of_ne li] at hl
      exact kept.single k l id hk hl
  apart := kept.apart.set here underway
  goOn := kept.goOn.set (fun k hk => Function.update_of_ne hk _ _) (fun _ _ h => h)
    (fun _ _ _ _ _ => .refl _ _) (by rwa [Function.update_self])

/-- A turn that stores a user of a free name. -/
theorem enrolled (kept : c.Kept hand) (here : c.jobs[i]? = some j) (underway : j.Underway)
    {x : User} (placed : p.store.users = c.store.users.insert x)
    (among : x.username ∈ j.task.names) (free : c.store.userNamed? x.username = none)
    (source : x.id ∈ c.drawn ∨ x.id = "user-" ++ x.username) (new : c.store.user? x.id = none)
    (others : ∀ k, k ≠ i → hand' k = hand k)
    (inHand : ∀ k id, hand' k = some id → hand k = some id ∧ id ≠ x.id)
    (enlists : Enlists j.task.digits j.task.names rest (hand' i) p.store fun a _ u =>
      j.task.Ends a u) :
    Kept { c with platform := p, jobs := c.jobs.set i { j with rest := rest } } hand' := by
  have last : p.store.users.entries = c.store.users.entries ++ [x] :=
    (congrArg Table.entries placed).trans (c.store.entries_addUser x new)
  have named := Store.userNamed?_of_last last
  exact
    { names := by
        rw [last, List.map_append, List.nodup_append]
        refine ⟨kept.names, List.nodup_singleton _, fun name hname other hother same => ?_⟩
        obtain ⟨y, hy, rfl⟩ := List.mem_map.1 hname
        rw [List.map_singleton, List.mem_singleton] at hother
        exact List.find?_eq_none.1 free y hy (decide_eq_true (same.trans hother))
      ids := fun y hy => by
        rcases List.mem_append.1 (last ▸ hy) with hy | hy
        · exact kept.ids y hy
        · rw [List.mem_singleton.1 hy]
          exact source
      drawn := kept.drawn
      unused := fun k id h => by
        obtain ⟨old, ne⟩ := inHand k id h
        obtain ⟨drawn, unused⟩ := kept.unused k id old
        refine ⟨drawn, ?_⟩
        rw [Store.user?, placed, Table.find?_insert, if_neg fun e => ne e.symm]
        exact unused
      single := fun k l id hk hl => kept.single k l id (inHand k id hk).1 (inHand l id hl).1
      apart := kept.apart.set here underway
      goOn := by
        refine kept.goOn.set others (fun name y found => ?_) (fun k l hl hk ul name hname => ?_)
          enlists
        · rw [named, found]
          rfl
        · -- the name is none of those that another job is about
          have other : x.username ≠ name := fun e =>
            kept.apart i k j l here hl (Ne.symm hk) underway ul among (e ▸ hname)
          rw [named, if_neg other, Option.or_none] }

/-- An id made of a free name is free. -/
theorem user?_user (kept : c.Kept hand) {x : User} (own : x.id = "user-" ++ x.username)
    (free : c.store.userNamed? x.username = none) : c.store.user? x.id = none := by
  refine Option.eq_none_iff_forall_ne_some.2 fun y hy => ?_
  obtain ⟨mem, hid⟩ := Table.find?_eq_some_iff.1 hy
  have hid : y.id = x.id := hid
  rcases kept.ids y mem with drawn | named
  · exact kept.drawn y.id drawn x.username (hid.trans own)
  · have same : y.username = x.username :=
      String.append_right_inj _ |>.1 (named.symm.trans (hid.trans own))
    exact List.find?_eq_none.1 free y mem (decide_eq_true same)

/-- **What a turn keeps.** -/
theorem turn (kept : c.Kept hand) (here : c.jobs[i]? = some j) {drawn : List String}
    (turn : j.rest.Turn j.task.digits c.drawn c.platform p rest drawn) :
    ∃ hand', Kept { platform := p, jobs := c.jobs.set i { j with rest := rest }, drawn := drawn }
      hand' := by
  have enlists := kept.goOn i j here
  have underway : j.Underway := turn.underway
  generalize hrest : j.rest = old at turn enlists
  cases turn with
  | clock k time => exact ⟨hand, kept.still here underway rfl (enlists time)⟩
  | random k word _ fresh => exact ⟨_, kept.drew here underway fresh (enlists word)⟩
  | loop body limit a k => exact ⟨hand, kept.still here underway rfl enlists.unrolled⟩
  | step f k =>
    rcases enlists c.platform (.refl _ _) with ⟨same, rest⟩ | ⟨x, placed, among, free, id⟩
    · exact ⟨hand, kept.still here underway same rest⟩
    · rcases id with ⟨own, rest⟩ | ⟨own, rest⟩
      · refine ⟨Function.update hand i none, kept.enrolled here underway placed among free
          (.inl (kept.unused i _ own).1) (kept.unused i _ own).2
          (fun k hk => Function.update_of_ne hk _ _) (fun k id h => ?_)
          (by rwa [Function.update_self])⟩
        by_cases hk : k = i
        · rw [hk, Function.update_self] at h
          cases h
        · rw [Function.update_of_ne hk] at h
          exact ⟨h, fun e => hk (kept.single k i id h (e ▸ own))⟩
      · refine ⟨hand, kept.enrolled here underway placed among free (.inr own)
          (kept.user?_user own free) (fun _ _ => rfl) (fun k id h => ⟨h, fun e => ?_⟩) rest⟩
        exact kept.drawn id (kept.unused k id h).1 x.username (e.trans own)

end Kept

/-- **What holds of every reachable crowd.** -/
theorem Reachable.kept {key : Codec.Key} (h : c.Reachable key) : ∃ hand, c.Kept hand := by
  induction h with
  | start p bare =>
    refine ⟨fun _ => none, ?_, ?_, nofun, nofun, nofun, nofun, nofun⟩
    · rw [bare]
      exact .nil
    · rw [bare]
      exact nofun
  | next _ step ih =>
    obtain ⟨hand, kept⟩ := ih
    cases step with
    | come task apart =>
      refine ⟨hand, { kept with apart := ?_, goOn := fun i j hj => ?_ }⟩
      · intro i k j l hj hl hik uj ul
        rcases getElem?_concat_cases hj with ⟨hi, rfl⟩ | hj <;>
          rcases getElem?_concat_cases hl with ⟨hk, rfl⟩ | hl
        · exact absurd (hi.trans hk.symm) hik
        · exact (apart l (List.mem_of_getElem? hl) ul).symm
        · exact apart j (List.mem_of_getElem? hj) uj
        · exact kept.apart i k j l hj hl hik uj ul
      · rcases getElem?_concat_cases hj with ⟨-, rfl⟩ | hj
        · exact task.enlists key _ _
        · exact kept.goOn i j hj
    | turn i j here p rest drawn turn => exact kept.turn here turn

end Crowd

/-- Where at most one has a property, the order does not matter to who is found by it. -/
theorem find?_eq_of_perm {α : Type} {p : α → Bool} {xs ys : List α} (perm : xs.Perm ys)
    (unique : ∀ a ∈ ys, ∀ b ∈ ys, p a = true → p b = true → a = b) : xs.find? p = ys.find? p := by
  cases hx : xs.find? p with
  | none =>
    rw [List.find?_eq_none] at hx
    exact (List.find?_eq_none.2 fun a ha => hx a (perm.mem_iff.2 ha)).symm
  | some a =>
    have mem := perm.mem_iff.1 (List.mem_of_find?_eq_some hx)
    have holds := List.find?_some hx
    obtain ⟨b, hb⟩ := Option.isSome_iff_exists.1 (List.find?_isSome.2 ⟨a, mem, holds⟩)
    rw [hb, unique a mem b (List.mem_of_find?_eq_some hb) holds (List.find?_some hb)]

/-- **Usernames are unique** as long as registrations of one name do not overlap: a look-up by name
does not depend on the order of the users, and whoever registers a name gets the one user who has
it. -/
theorem usernames_unique {key : Codec.Key} {c : Crowd} (h : c.Reachable key) :
    (∀ x ∈ c.store.users.entries, ∀ y ∈ c.store.users.entries, x.username = y.username → x = y) ∧
    (∀ xs : List User, xs.Perm c.store.users.entries → ∀ name,
      xs.find? (fun x => x.username = name) = c.store.userNamed? name) ∧
    ∀ j ∈ c.jobs, ∀ name answer, j.task = .ask (.register name) → j.rest = .done answer →
      ∃ x, answer = some x ∧ x.username = name ∧ c.store.userNamed? name = some x := by
  obtain ⟨hand, kept⟩ := h.kept
  have unique : ∀ x ∈ c.store.users.entries, ∀ y ∈ c.store.users.entries,
      x.username = y.username → x = y :=
    fun x hx y hy same => List.inj_on_of_nodup_map kept.names hx hy same
  refine ⟨unique, fun xs perm name => ?_, fun j hj name answer task ended => ?_⟩
  · exact find?_eq_of_perm perm fun a ha b hb hpa hpb =>
      unique a ha b hb ((of_decide_eq_true hpa).trans (of_decide_eq_true hpb).symm)
  · obtain ⟨i, hi⟩ := List.getElem?_of_mem hj
    have ends := kept.goOn i j hi
    rw [ended] at ends
    have ends : j.task.Ends answer c.store := ends
    rw [task] at ends
    obtain ⟨x, answered, found⟩ := ends
    refine ⟨x, answered, ?_, found⟩
    simpa using List.find?_some found

open Crowd in
/-- While ann is being registered the clock is read, and there bob is registered; then ann registers
once more, and gets the same answer. -/
theorem usernames_unique_nested :
    ∃ (c : Crowd) (ann bob : User), c.Reachable Scene.plainKey ∧
      c.store.users.entries = [bob, ann] ∧ ann.username ≠ bob.username ∧
      c.jobs.map Job.rest = [.done (some ann), .done (some bob), .done (some ann)] ∧
      [ann, bob].find? (fun x => x.username = "ann") = c.store.userNamed? "ann" := by
  have h : Reachable Scene.plainKey { platform := Scene.opening.platform } := .start _ rfl
  have h := h.next (.come _ (.ask (.register "ann")) nofun)
  have h := h.next (.turn _ 0 _ rfl _ _ _ (.step _ _ _))
  have h := h.next (.turn _ 0 _ rfl _ _ _ (.random _ 1 _ (by decide)))
  have h := h.next (.come _ (.ask (.register "bob"))
    (List.forall_mem_cons.2 ⟨fun _ => List.disjoint_singleton.2 (by decide), nofun⟩))
  have h := h.next (.turn _ 1 _ rfl _ _ _ (.step _ _ _))
  have h := h.next (.turn _ 1 _ rfl _ _ _ (.random _ 2 _ (by decide)))
  have h := h.next (.turn _ 1 _ rfl _ _ _ (.clock _ 5 _))
  have h := h.next (.turn _ 1 _ rfl _ _ _ (.step _ _ _))
  have h := h.next (.turn _ 0 _ rfl _ _ _ (.clock _ 7 _))
  have h := h.next (.turn _ 0 _ rfl _ _ _ (.step _ _ _))
  have h := h.next (.come _ (.ask (.register "ann")) (List.forall_mem_cons.2
    ⟨fun u => absurd rfl (u _), List.forall_mem_cons.2 ⟨fun u => absurd rfl (u _), nofun⟩⟩))
  have h := h.next (.turn _ 2 _ rfl _ _ _ (.step _ _ _))
  refine ⟨_, ⟨_, "ann", 7⟩, ⟨_, "bob", 5⟩, h, rfl, by decide, rfl, ?_⟩
  exact (usernames_unique h).2.1 _ (.swap _ _ _) "ann"

end SlotBroker
