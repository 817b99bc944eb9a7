import SlotBroker.Proofs.Refusals

/-!
# What requests do to the world

Few changes come of requests: sessions are ended and swept, credentials disabled, users registered.
A relation of worlds that allows these holds between the worlds before and after every request but
three: one for a session, one for a credential and one for a rotation. What these three change
depends on what they bring and on the ids that are drawn, so it is left to whoever asks.

Results:
* `World.Allows.bind`: what is allowed step by step is allowed in a row.
* **`World.Allows.clients`**, **`World.Allows.administration`**: a relation that allows the changes
  holds across a request.
-/

namespace SlotBroker

open Program

/-- `R` holds between the world that a program is run in and the one after it. -/
def Program.Ensures {α : Type} (R : World → World → Prop) (p : Program α) : Prop :=
  ∀ w, R w (p.run w).2

/-- The store, and what the metrics show besides the count of requests, are as they were. -/
structure World.Quiet (w v : World) : Prop where
  store : v.store = w.store
  recording : v.platform.metrics.recording = w.platform.metrics.recording
  metrics : v.platform.metrics.others = w.platform.metrics.others

theorem World.Quiet.refl (w : World) : w.Quiet w := ⟨rfl, rfl, rfl⟩

theorem World.Still.quiet {w v : World} (h : w.Still v) : w.Quiet v :=
  ⟨h.store, h.recording, h.metrics⟩

/-- `R` allows what comes of requests. -/
structure World.Allows (R : World → World → Prop) : Prop where
  quiet : ∀ {w v}, w.Quiet v → R w v
  trans : ∀ {u w v}, R u w → R w v → R u v
  ends : ∀ id, (Broker.endSession id).Ensures R
  sweeps : Broker.sweepCycle.Ensures R
  disables : ∀ id, (Vault.disable id).Ensures R
  registers : ∀ username, (Accounts.register username).Ensures R

namespace Http

/-- `R` holds between the world that an action is taken in and the one after it. -/
def Handling.Ensures {α : Type} (R : World → World → Prop) (x : Handling α) : Prop :=
  ∀ w, R w (x.outcome w).2

/-- Nobody but the providers sees a login. -/
theorem quiet_tryLogin (service : ServiceId) (identity : String) (secret : Secret) :
    (Admin.tryLogin service identity secret).Ensures World.Quiet := by
  have visit : ∀ {α : Type} (absent : α) (f : Provider → α × Provider) (w : World),
      w.Quiet ((atProvider service absent f).run w).2 := by
    intro α absent f w
    unfold atProvider
    rw [Program.run, Program.run_done]
    dsimp only
    cases w.platform.providers.find? service <;> exact ⟨rfl, rfl, rfl⟩
  intro w
  unfold Admin.tryLogin
  simp only [Program.bind_eq, Program.pure_eq]
  rw [Program.run_bind, Program.run_bind]
  have login := visit (.error .invalidCredentials) (fun p =>
    p.login identity secret.expose Admin.verifyDevice (Ident.token (randomWord.run w).1))
    (randomWord.run w).2
  generalize (atProvider service _ _).run (randomWord.run w).2 = r at login ⊢
  have visited : w.Quiet r.2 := ⟨login.store, login.recording, login.metrics⟩
  cases r.1 with
  | error fault => exact visited
  | ok opened =>
    dsimp only
    rw [Program.run_bind]
    have closed := visit false (fun p => p.endStream identity opened) r.2
    exact ⟨closed.store.trans visited.store, closed.recording.trans visited.recording,
      closed.metrics.trans visited.metrics⟩

end Http

namespace World.Allows

open Http Http.Handling

variable {R : World → World → Prop} {α β : Type} (allows : Allows R)
include allows

theorem refl (w : World) : R w w := allows.quiet (.refl w)

theorem looks {x : Handling α} (h : Handling.Looks x) : x.Ensures R := fun w => by
  rw [h w]
  exact allows.refl w

/-- What is allowed step by step is allowed in a row. -/
theorem bind {x : Handling α} {f : α → Handling β} (h : x.Ensures R)
    (hf : ∀ a, (f a).Ensures R) : (x >>= f).Ensures R := by
  intro w
  have first := h w
  rcases hx : outcome x w with ⟨_ | a, v⟩
  · rw [hx] at first
    rw [outcome_bind_of_error hx]
    exact first
  · rw [hx] at first
    rw [outcome_bind_of_ok hx]
    exact allows.trans first (hf a v)

/-- After looks only, what follows is taken in the same world. -/
theorem look_bind {w : World} {x : Handling α} {f : α → Handling β} (h : Handling.Looks x)
    (hf : ∀ a, R w ((f a).outcome w).2) : R w (outcome (x >>= f) w).2 := by
  have still := h w
  rcases hx : outcome x w with ⟨_ | a, v⟩
  · rw [hx] at still
    rw [outcome_bind_of_error hx]
    exact still ▸ allows.refl w
  · rw [hx] at still
    obtain rfl : v = w := still
    rw [outcome_bind_of_ok hx]
    exact hf a

omit allows in
theorem lift {p : Program α} (h : p.Ensures R) : Handling.Ensures R (liftM p : Handling α) :=
  fun w => by
    rw [outcome_lift]
    exact h w

omit allows in
theorem ofFailing {p : Program (Except Failure α)} (h : p.Ensures R) :
    (Handling.ofFailing p).Ensures R := fun w => by
  rw [outcome_ofFailing]
  exact h w

theorem throw_bind (e : Refusal) (f : α → Handling β) :
    ((throw e : Handling α) >>= f).Ensures R :=
  allows.looks (.throw_bind e f)

/-! ## The actions -/

theorem reads {template : List Piece} {action : Action} (h : Tame template .get action)
    (id : String) (request : Request) : (action id request).Ensures R := fun w =>
  allows.quiet (h.reads rfl id request w).still.quiet

theorem endSession (hole : String) (request : Request) :
    (Public.endSession hole request).Ensures R :=
  allows.bind (allows.looks (looks_pathId hole)) fun id =>
    allows.bind (allows.looks (.ofFailing (looks_session id))) fun _ =>
      allows.bind (lift (allows.ends id)) fun _ =>
        allows.looks (.bind (.ofFailing (looks_session id)) fun _ => .pure _)

theorem disableCredential (hole : String) (request : Request) :
    (Admin.disableCredential hole request).Ensures R := by
  refine allows.bind (allows.looks (looks_pathId hole)) fun id =>
    allows.bind (lift (allows.disables id)) fun known => ?_
  split
  · exact allows.looks (.bind (looks_credential id) fun _ => .pure _)
  · exact allows.throw_bind _ _

theorem verifyCredential (key : Codec.Key) (hole : String) (request : Request) :
    (Admin.verifyCredential key hole request).Ensures R := by
  refine allows.bind (allows.looks (looks_pathId hole)) fun id =>
    allows.bind (allows.looks (looks_credential id)) fun c =>
      allows.bind (lift fun w => allows.refl w) fun known => ?_
  split
  · refine allows.bind (lift fun w => allows.refl w) fun opened => ?_
    split
    · refine allows.bind (lift fun w => allows.quiet (quiet_tryLogin _ _ _ w)) fun outcome => ?_
      cases outcome with
      | none => exact allows.looks (.pure _)
      | some fault =>
        dsimp only
        split
        · exact allows.bind (lift (allows.disables id)) fun _ => allows.looks (.pure _)
        · exact allows.looks (.bind (.pure false) fun _ => .pure _)
    · exact allows.looks (.throw _)
  · exact allows.throw_bind _ _

theorem sweepNow (hole : String) (request : Request) : (Admin.sweepNow hole request).Ensures R :=
  allows.bind (lift allows.sweeps) fun _ => allows.looks (.pure _)

theorem registerUser (hole : String) (request : Request) :
    (Admin.registerUser hole request).Ensures R := by
  refine allows.bind (allows.looks (looks_bodyFields _ request)) fun _ => ?_
  split
  · dsimp only
    split
    · exact allows.throw_bind _ _
    · exact allows.bind (lift (allows.registers _)) fun _ => allows.looks (.pure _)
  · exact allows.looks (.throw _)

end World.Allows

/-! ## The interfaces -/

namespace Http

/-- A template of words matches only these words. -/
theorem eq_of_matchPieces_words (ws : List String) {pieces holes : List String}
    (h : matchPieces (ws.map .word) pieces = some holes) : pieces = ws := by
  induction ws generalizing pieces with
  | nil =>
    cases pieces with
    | nil => rfl
    | cons => cases h
  | cons w ws ih =>
    cases pieces with
    | nil => cases h
    | cons s pieces =>
      rw [List.map_cons, matchPieces, Option.ite_none_right_eq_some] at h
      rw [h.1, ih h.2]

/-- The template of all sessions. -/
def Public.sessionsTemplate : List Piece := [.word "sessions"]

namespace Admin

/-- The template of the credentials. -/
def credentialsTemplate : List Piece := [.word "admin", .word "credentials"]

/-- The template of something done with a credential. -/
def credentialTemplate (word : String) : List Piece :=
  [.word "admin", .word "credentials", .hole, .word word]

/-- The template of a rotation. -/
def rotationTemplate : List Piece := credentialTemplate "rotate"

theorem eq_of_matchPieces_credential {word : String} {pieces holes : List String}
    (h : matchPieces (credentialTemplate word) pieces = some holes) :
    ∃ hole, pieces = ["admin", "credentials", hole, word] := by
  rcases pieces with _ | ⟨admin, _ | ⟨credentials, _ | ⟨hole, rest⟩⟩⟩ <;>
    simp only [credentialTemplate, matchPieces, Option.ite_none_right_eq_some, reduceCtorEq,
      and_false, Option.map_eq_some_iff] at h
  obtain ⟨rfl, rfl, _, last, -⟩ := h
  exact ⟨hole, by rw [eq_of_matchPieces_words [word] last]⟩

theorem eq_post_of_ofName? {name : String} (h : Method.ofName? name = some .post) :
    name = "POST" := by
  unfold Method.ofName? at h
  split at h <;> first | rfl | cases h

end Admin

/-- The request is for a new session. -/
def Request.AsksSession (request : Request) : Prop :=
  request.method = "POST" ∧ pathPieces? request.path = some ["sessions"]

/-- The request is for a new credential. -/
def Request.AsksCredential (request : Request) : Prop :=
  request.method = "POST" ∧ pathPieces? request.path = some ["admin", "credentials"]

/-- The request is for another secret of a credential, named by a piece of its path. -/
def Request.AsksRotation (request : Request) (hole : String) : Prop :=
  request.method = "POST" ∧
    pathPieces? request.path = some ["admin", "credentials", hole, "rotate"]

/-- The request comes to a template with a method. -/
def Request.ComesTo (request : Request) (template : List Piece) (m : Method) : Prop :=
  Method.ofName? request.method = some m ∧
    ∃ pieces holes, pathPieces? request.path = some pieces ∧
      matchPieces template pieces = some holes

theorem Hit.comesTo {routes : List Route} {request : Request} (hit : Hit routes request) :
    request.ComesTo hit.route.template hit.method :=
  ⟨hit.named, hit.pieces, hit.holes, hit.path, hit.matched⟩

namespace Request.ComesTo

variable {request : Request}

theorem asksSession (h : request.ComesTo Public.sessionsTemplate .post) : request.AsksSession := by
  obtain ⟨named, pieces, holes, path, matched⟩ := h
  exact ⟨Admin.eq_post_of_ofName? named,
    path.trans (congrArg some (eq_of_matchPieces_words ["sessions"] matched))⟩

theorem asksCredential (h : request.ComesTo Admin.credentialsTemplate .post) :
    request.AsksCredential := by
  obtain ⟨named, pieces, holes, path, matched⟩ := h
  exact ⟨Admin.eq_post_of_ofName? named,
    path.trans (congrArg some (eq_of_matchPieces_words ["admin", "credentials"] matched))⟩

theorem asksRotation (h : request.ComesTo Admin.rotationTemplate .post) :
    ∃ piece, request.AsksRotation piece := by
  obtain ⟨named, pieces, holes, path, matched⟩ := h
  obtain ⟨piece, pieces⟩ := Admin.eq_of_matchPieces_credential matched
  exact ⟨piece, Admin.eq_post_of_ofName? named, path.trans (congrArg some pieces)⟩

end Request.ComesTo

end Http

namespace World.Allows

open Http Http.Handling

variable {R : World → World → Prop} (allows : Allows R)
include allows

/-- What is allowed of the answer is allowed of the answer with its count. -/
theorem counted {w v : World} (h : R w v) (route : Route) (status : Nat) :
    R w (v.counted route status) :=
  allows.trans h (allows.quiet ((World.Still.refl v).counted route status).quiet)

theorem ensures_clients : ∀ route ∈ Public.routes, ∀ a ∈ route.actions,
    (∀ id request, (a.2 id request).Ensures R) ∨
      route.template = Public.sessionsTemplate ∧ a = (.post, Public.createSession) := by
  simp only [Public.routes, List.forall_mem_cons, List.not_mem_nil, false_implies, implies_true,
    and_true]
  exact ⟨.inl (allows.reads (@tame_health [])), .inl (allows.reads (@tame_metrics [])),
    .inl (allows.reads (@tame_listServices [])), .inl (allows.reads (@tame_getService [])),
    .inl (allows.reads (@tame_getRevenue [])), .inr rfl,
    ⟨.inl (allows.reads (@tame_getSession [])), .inl allows.endSession⟩,
    .inl (allows.reads (@tame_userSessions [])), .inl (allows.reads tame_userBill),
    .inl (allows.reads (@tame_getSummary []))⟩

theorem ensures_administration (key : Codec.Key) :
    ∀ route ∈ Admin.routes key, ∀ a ∈ route.actions,
      (∀ id request, (a.2 id request).Ensures R) ∨
        route.template = Admin.credentialsTemplate ∧ a = (.post, Admin.addCredential key) ∨
        route.template = Admin.rotationTemplate ∧ a = (.post, Admin.rotateCredential key) := by
  simp only [Admin.routes, List.forall_mem_cons, List.not_mem_nil, false_implies, implies_true,
    and_true]
  exact ⟨⟨.inl (allows.reads (@tame_listCredentials [])), .inr (.inl rfl)⟩,
    .inl allows.disableCredential, .inr (.inr rfl), .inl (allows.verifyCredential key),
    .inl allows.sweepNow, .inl allows.registerUser⟩

/-- **A relation that allows what comes of requests holds across a client's request**, if it holds
across the creation of a session. -/
theorem clients {request : Request} {w : World}
    (create : request.AsksSession →
      ∀ hole, R w ((Public.createSession hole request).outcome w).2) :
    R w ((Public.handle request).run w).2 := by
  rw [Public.handle]
  rcases serve_cases Public.routes request w with unknown | ⟨route, refused⟩ | ⟨hit, answered⟩
  · rw [unknown]
    exact allows.refl w
  · rw [refused]
    exact allows.counted (allows.refl w) route 405
  · rw [answered]
    refine allows.counted ?_ _ _
    rcases allows.ensures_clients hit.route hit.mem _ hit.serves with ensured | ⟨template, action⟩
    · exact ensured _ request w
    · obtain ⟨post, created⟩ := Prod.mk.inj action
      have comes := hit.comesTo
      rw [template, post] at comes
      rw [Hit.outcome, created]
      exact create comes.asksSession _

/-- **A relation that allows what comes of requests holds across a request to the administration**,
if it holds across the two that bring secrets. -/
theorem administration (key : Codec.Key) {request : Request} {w : World}
    (add : request.AsksCredential →
      ∀ hole, R w ((Admin.addCredential key hole request).outcome w).2)
    (rotate : ∀ piece, request.AsksRotation piece →
      ∀ hole, R w ((Admin.rotateCredential key hole request).outcome w).2) :
    R w ((Admin.handle key request).run w).2 := by
  rw [Admin.handle]
  rcases serve_cases (Admin.routes key) request w with unknown | ⟨route, refused⟩ | ⟨hit, answered⟩
  · rw [unknown]
    exact allows.refl w
  · rw [refused]
    exact allows.counted (allows.refl w) route 405
  · rw [answered]
    refine allows.counted ?_ _ _
    have comes := hit.comesTo
    rcases allows.ensures_administration key hit.route hit.mem _ hit.serves with
      ensured | ⟨template, action⟩ | ⟨template, action⟩
    · exact ensured _ request w
    · obtain ⟨post, added⟩ := Prod.mk.inj action
      rw [template, post] at comes
      rw [Hit.outcome, added]
      exact add comes.asksCredential _
    · obtain ⟨post, rotated⟩ := Prod.mk.inj action
      rw [template, post] at comes
      obtain ⟨piece, asks⟩ := comes.asksRotation
      rw [Hit.outcome, rotated]
      exact rotate piece asks _

end World.Allows

end SlotBroker
