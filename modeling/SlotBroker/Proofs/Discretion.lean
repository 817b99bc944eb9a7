import Mathlib.Data.List.Forall2
import SlotBroker.Proofs.Asked
import SlotBroker.Proofs.Resealing

/-!
# Answers that hold no secret

Two platforms, perhaps under different master keys, are asked the same, but where secrets are sent
they may be others. If nobody asks for a login, the answers are the same: what is stored differs in
nothing but the sealed secrets, and no answer looks at them. There are two things that may tell how
long a secret is. A body that is too long is refused with a status of its own, so of two bodies that
are compared both are to be too long, or neither. And the words about a body that is not read may
tell where in it reading stopped. They are not settled here, so such answers are the same but for
these words. All others are the same whatever words are chosen.

Results:
* `agree_serve`: under routes whose actions agree requests are answered alike.
* **`agree_clients`**, **`agree_administration`**: the interfaces.
* **`answers_discreet`**: no answer tells of a secret or of the master key, but for words about
  bodies that are not read.
* `secret_length_shows`: neither the limit on bodies nor the words can be left out.
-/

namespace SlotBroker

open Codec

namespace Http

open Handling

variable {request request' : Request}

/-! ## Answers in words -/

/-- The body, if words about a body that is not read could not quote it. -/
def Body.unquoted : Body → Body
  | words (.body fault _) => words (.body fault {})
  | body => body

/-- The answer, if words about a body that is not read could not quote it. -/
def Response.unquoted (r : Response) : Response := { r with body := r.body.unquoted }

/-- The answers to two requests are the same, unless a body is not read that is another one in the
second request: then the words about it may differ. -/
structure Response.Alike (request request' : Request) (r s : Response) : Prop where
  unquoted : r.unquoted = s.unquoted
  same : request' = request ∨ request.Legible → r = s

theorem Response.Alike.refl (r : Response) : Response.Alike request request' r r :=
  ⟨rfl, fun _ => rfl⟩

theorem Response.Alike.status_eq {r s : Response} (h : Response.Alike request request' r s) :
    r.status = s.status := by
  have statuses := congrArg Response.status h.unquoted
  exact statuses

/-- A body that can be read is not refused as one that cannot, unless the second request is the
same. -/
def Request.Understood (request request' : Request) (r : Except Refusal Response) : Prop :=
  ∀ fault, r = .error (.unreadableBody fault) → request.Legible → request' = request

theorem Refusal.alike_response {e : Refusal} (target : request'.target = request.target)
    (read : request.Understood request' (.error e)) :
    Response.Alike request request' (e.response request) (e.response request') := by
  cases e with
  | unreadablePath | unreadableQuery =>
    simp only [Refusal.response, target]
    exact .refl _
  | unreadableBody fault =>
    refine ⟨rfl, fun known => ?_⟩
    rcases known with rfl | legible
    · rfl
    · rw [read fault rfl legible]
  | notJson | bodyTooLong | failed | invalid | noProvider => exact .refl _

/-! ## Serving -/

/-- The actions agree, and no body is refused that can be read. -/
def Handling.AnswerAlike (request request' : Request) (x y : Handling Response) : Prop :=
  Handling.Agree x Eq y ∧ ∀ w, request.Understood request' (x.outcome w).1

theorem Handling.Agree.answerAlike {x y : Handling Response} (h : Handling.Agree x Eq y)
    (understands : request.Legible → Understands x) : AnswerAlike request request' x y :=
  ⟨h, fun w fault refused legible => absurd refused (understands legible w fault)⟩

/-- Taken for requests that come to the template, the actions are answered alike. -/
def Action.Agree (request request' : Request) (template : List Piece)
    (x y : Method × Action) : Prop :=
  x.1 = y.1 ∧ (request.ComesTo template x.1 →
    ∀ hole, AnswerAlike request request' (x.2 hole request) (y.2 hole request'))

/-- The routes have the same template and the same methods, with actions that agree. -/
structure Route.Agree (request request' : Request) (a b : Route) : Prop where
  template : a.template = b.template
  actions : List.Forall₂ (Action.Agree request request' a.template) a.actions b.actions

theorem Action.agree_lookup {template : List Piece} {xs ys : List (Method × Action)}
    (h : List.Forall₂ (Action.Agree request request' template) xs ys) {m : Method}
    (comes : request.ComesTo template m) :
    Option.Rel (fun x y : Action => ∀ hole,
      AnswerAlike request request' (x hole request) (y hole request'))
      (xs.lookup m) (ys.lookup m) := by
  induction h with
  | nil => exact .none
  | @cons x y xs ys head _ ih =>
    obtain ⟨methods, agree⟩ := head
    rw [List.lookup_cons, List.lookup_cons, ← methods]
    cases same : m == x.1 with
    | true =>
      obtain rfl := eq_of_beq same
      exact .some (agree comes)
    | false => exact ih

theorem Route.Agree.allowed_eq {a b : Route} (h : Route.Agree request request' a b) :
    a.allowed = b.allowed := by
  have methods : a.actions.map (·.1.names) = b.actions.map (·.1.names) := by
    rw [← List.forall₂_eq_eq_eq, List.forall₂_map_left_iff, List.forall₂_map_right_iff]
    exact h.actions.imp fun _ _ same => congrArg Method.names same.1
  exact congrArg (String.intercalate ",") methods

theorem Route.Agree.answer {a b : Route} (h : Route.Agree request request' a b)
    (comes : ∃ pieces holes, pathPieces? request.path = some pieces ∧
      matchPieces a.template pieces = some holes) (method : request'.method = request.method)
    (target : request'.target = request.target) (hole : String) :
    (a.answer hole request).Agree (Response.Alike request request') (b.answer hole request') := by
  unfold Route.answer
  rw [h.allowed_eq, method]
  cases named : Method.ofName? request.method with
  | none => exact .done (.refl _)
  | some m =>
    have actions := Action.agree_lookup h.actions ⟨named, comes⟩
    rw [Option.bind_some, Option.bind_some]
    generalize a.actions.lookup m = x at actions ⊢
    generalize b.actions.lookup m = y at actions ⊢
    cases actions with
    | none => exact .done (.refl _)
    | some agree =>
      obtain ⟨agree, read⟩ := agree hole
      dsimp only
      refine .bind (Program.Agree.and_run (P := request.Understood request') agree read)
        fun r r' ⟨related, read⟩ => ?_
      obtain rfl := related.eq
      cases r with
      | ok response => exact .ite (.done (.refl _)) (.done (.refl _))
      | error e =>
        refine .ite (.done ?_) (.done (Refusal.alike_response target read))
        cases e <;> exact .refl _

/-- The same template is found, with the same piece in its hole. -/
theorem Route.agree_sought {routes routes' : List Route}
    (h : List.Forall₂ (Route.Agree request request') routes routes') :
    sought routes request = none ∧ sought routes' request = none ∨
    ∃ a b hole, sought routes request = some (a, hole) ∧ sought routes' request = some (b, hole) ∧
      Route.Agree request request' a b ∧ ∃ pieces holes, pathPieces? request.path = some pieces ∧
        matchPieces a.template pieces = some holes := by
  unfold sought
  cases path : pathPieces? request.path with
  | none => exact .inl ⟨rfl, rfl⟩
  | some pieces =>
    change findRoute? pieces routes = none ∧ findRoute? pieces routes' = none ∨
      ∃ a b hole, findRoute? pieces routes = some (a, hole) ∧
        findRoute? pieces routes' = some (b, hole) ∧ _
    induction h with
    | nil => exact .inl ⟨rfl, rfl⟩
    | @cons a b _ _ head _ ih =>
      rw [findRoute?, findRoute?, ← head.template]
      cases matched : matchPieces a.template pieces with
      | none => exact ih
      | some holes => exact .inr ⟨a, b, _, rfl, rfl, head, pieces, holes, rfl, matched⟩

/-- **Under agreeing routes requests are answered alike.** -/
theorem agree_serve {routes routes' : List Route}
    (h : List.Forall₂ (Route.Agree request request') routes routes')
    (method : request'.method = request.method) (target : request'.target = request.target) :
    (serve routes request).Agree (Response.Alike request request') (serve routes' request') := by
  unfold serve
  rw [Request.path_eq_of_target target]
  rcases Route.agree_sought h with ⟨left, right⟩ | ⟨a, b, hole, left, right, agree, comes⟩
  · rw [show (pathPieces? request.path).bind _ = none from left,
      show (pathPieces? request.path).bind _ = none from right]
    exact .done (.refl _)
  · rw [show (pathPieces? request.path).bind _ = some (a, hole) from left,
      show (pathPieces? request.path).bind _ = some (b, hole) from right]
    dsimp only
    refine .bind (agree.answer comes method target hole) fun r s alike => ?_
    rw [agree.template, alike.status_eq]
    exact .bind_eq (.count _ _) fun _ => .done alike

/-! ## The interfaces -/

theorem Action.Agree.of_forall {template : List Piece} {m : Method} {x y : Action}
    (h : ∀ hole, AnswerAlike request request' (x hole request) (y hole request')) :
    Action.Agree request request' template (m, x) (m, y) := ⟨rfl, fun _ => h⟩

/-- An action that agrees with itself answers a request as it does. -/
theorem Action.Agree.of_self {template : List Piece} {m : Method} {x : Action}
    (h : ∀ hole, Handling.Agree (x hole request) Eq (x hole request)) :
    Action.Agree request request template (m, x) (m, x) :=
  .of_forall fun hole => ⟨h hole, fun _ _ _ _ => rfl⟩

theorem Route.Agree.of_one {template : List Piece} {x y : Method × Action}
    (h : Action.Agree request request' template x y) :
    Route.Agree request request' { template := template, actions := [x] }
      { template := template, actions := [y] } := ⟨rfl, .cons h .nil⟩

/-- **Clients are answered alike** in akin worlds. -/
theorem agree_clients (request : Request) :
    (Public.handle request).Agree Eq (Public.handle request) := by
  refine (agree_serve ?_ rfl rfl).weaken fun alike => alike.same (.inl rfl)
  simp only [Public.routes, List.forall₂_cons, List.forall₂_nil_left_iff, and_true]
  exact ⟨.of_one (.of_self (agree_health · _)), .of_one (.of_self (agree_metrics · _)),
    .of_one (.of_self (agree_listServices · _)), .of_one (.of_self (agree_getService · _)),
    .of_one (.of_self (agree_getRevenue · _)), .of_one (.of_self (agree_createSession · _)),
    ⟨rfl, .cons (.of_self (agree_getSession · _))
      (.cons (.of_self (agree_deleteSession · _)) .nil)⟩,
    .of_one (.of_self (agree_userSessions · _)), .of_one (.of_self (agree_getUserBill · _)),
    .of_one (.of_self (agree_getSummary · _))⟩

/-- The request is to verify a credential. -/
def Request.AsksVerification (request : Request) : Prop :=
  request.method = "POST" ∧
    ∃ piece, pathPieces? request.path = some ["admin", "credentials", piece, "verify"]

theorem Request.ComesTo.asksVerification
    (h : request.ComesTo (Admin.credentialTemplate "verify") .post) :
    request.AsksVerification := by
  obtain ⟨named, pieces, holes, path, matched⟩ := h
  obtain ⟨piece, pieces⟩ := Admin.eq_of_matchPieces_credential matched
  exact ⟨Admin.eq_post_of_ofName? named, piece, path.trans (congrArg some pieces)⟩

/-- Who registers a user brings no secret. -/
theorem Request.ComesTo.not_bringsSecret {m : Method}
    (h : request.ComesTo [.word "admin", .word "users"] m) (names : List String) :
    ¬ request.BringsSecret names := by
  obtain ⟨-, pieces, holes, path, matched⟩ := h
  obtain rfl := eq_of_matchPieces_words ["admin", "users"] matched
  rintro (asks | asks)
  · simpa using asks.2.symm.trans path
  · simpa using asks.2.symm.trans path

/-- **The administration answers alike** to requests that ask for the same, whatever its master
key. -/
theorem agree_administration (key key' : Key) (alike : request.Alike request')
    (fits : request.Fits ↔ request'.Fits) (noLogin : ¬ request.AsksVerification) :
    (Admin.handle key request).Agree (Response.Alike request request')
      (Admin.handle key' request') := by
  refine agree_serve ?_ alike.method alike.target
  simp only [Admin.routes, List.forall₂_cons, List.forall₂_nil_left_iff, and_true]
  refine ⟨⟨rfl, .cons (.of_forall fun hole => ?_) (.cons ⟨rfl, fun comes => ?_⟩ .nil)⟩,
    .of_one (.of_forall fun hole => ?_), .of_one ⟨rfl, fun comes => ?_⟩,
    .of_one ⟨rfl, fun comes => ?_⟩, .of_one (.of_forall fun hole => ?_),
    .of_one ⟨rfl, fun comes hole => ?_⟩⟩
  · exact (agree_listCredentials hole request).answerAlike fun _ =>
      understands_listCredentials hole
  · intro hole
    exact (agree_addCredential key key' alike fits comes.asksCredential hole).answerAlike
      fun legible => understands_addCredential key legible comes.asksCredential hole
  · exact (agree_disableCredential hole request).answerAlike fun _ =>
      understands_disableCredential hole
  · intro hole
    obtain ⟨piece, asks⟩ := comes.asksRotation
    exact (agree_rotateCredential key key' alike fits asks hole).answerAlike
      fun legible => understands_rotateCredential key legible asks hole
  · exact absurd comes.asksVerification noLogin
  · exact (agree_sweepNow hole request).answerAlike fun _ => understands_sweepNow hole
  · obtain rfl := alike.eq_of_not_bringsSecret comes.not_bringsSecret
    exact ⟨agree_registerUser hole _, fun _ _ _ _ => rfl⟩

/-! ## Sequences of requests -/

theorem Request.Resealed.not_asksVerification (h : request.Resealed request') :
    ¬ request.AsksVerification := by
  rintro ⟨-, piece, path⟩
  cases h with
  | written brings | read brings =>
    cases brings with
    | credential asks | rotation asks => simpa using asks.2.symm.trans path

/-- A request and the interface that it is sent to. -/
inductive Message where
  | clients (request : Request)
  | administration (request : Request)

/-- The answer under a master key. -/
def Message.answer (key : Key) : Message → Program Response
  | clients request => Public.handle request
  | administration request => Admin.handle key request

/-- The same is asked, and no login among it. Only the secrets may be others. -/
inductive Message.Alike : Message → Message → Prop
  | clients (request : Request) : Alike (clients request) (clients request)
  | administration {request request' : Request} (noLogin : ¬ request.AsksVerification)
      (same : request.SameButSecrets request') :
      Alike (administration request) (administration request')

/-- The body of the request is not too long to be read. -/
def Message.Fits : Message → Prop
  | clients request | administration request => request.Fits

instance : DecidablePred Message.Fits
  | .clients request | .administration request => inferInstanceAs (Decidable request.Fits)

/-- Where a secret is to be brought, the body is read. -/
def Message.Legible : Message → Prop
  | clients _ => True
  | administration request => request.Legible

/-- The answers to messages, one after the other. -/
def answers (key : Key) : List Message → Program (List Response)
  | [] => return []
  | m :: ms => do
    let response ← m.answer key
    return response :: (← answers key ms)

/-- One after the other, the answers to some messages and to others are the same. Only where a body
is not read, and is another one in the second message, the words about it may differ. -/
inductive AnsweredAlike : List Message → List Message → List Response → List Response → Prop
  | nil : AnsweredAlike [] [] [] []
  | cons {m n : Message} {r s : Response} {ms ns : List Message} {rs ss : List Response}
      (unquoted : r.unquoted = s.unquoted) (same : n = m ∨ m.Legible → r = s)
      (rest : AnsweredAlike ms ns rs ss) : AnsweredAlike (m :: ms) (n :: ns) (r :: rs) (s :: ss)

theorem AnsweredAlike.eq_of_legible {ms ns : List Message} {rs ss : List Response}
    (h : AnsweredAlike ms ns rs ss) (legible : ∀ m ∈ ms, m.Legible) : rs = ss := by
  induction h with
  | nil => rfl
  | cons _ same _ ih =>
    obtain ⟨first, others⟩ := List.forall_mem_cons.1 legible
    rw [same (.inr first), ih others]

theorem agree_answer (key key' : Key) {m n : Message} (h : m.Alike n) (fits : m.Fits ↔ n.Fits) :
    (m.answer key).Agree (fun r s => r.unquoted = s.unquoted ∧ (n = m ∨ m.Legible → r = s))
      (n.answer key') := by
  cases h with
  | clients request =>
    exact (agree_clients request).weaken fun same => ⟨congrArg _ same, fun _ => same⟩
  | administration noLogin same =>
    refine (agree_administration key key' same.alike fits noLogin).weaken fun alike =>
      ⟨alike.unquoted, fun known => alike.same (known.imp_left fun eq => ?_)⟩
    cases eq
    rfl

theorem agree_answers (key key' : Key) {ms ns : List Message}
    (h : List.Forall₂ Message.Alike ms ns)
    (fits : List.Forall₂ (fun m n => m.Fits ↔ n.Fits) ms ns) :
    (answers key ms).Agree (AnsweredAlike ms ns) (answers key' ns) := by
  induction h with
  | nil => exact .done .nil
  | cons head _ ih =>
    obtain ⟨here, later⟩ := List.forall₂_cons.1 fits
    exact .bind (agree_answer key key' head here) fun _ _ ⟨unquoted, same⟩ =>
      .bind (ih later) fun _ _ rest => .done (.cons unquoted same rest)

/-- **No answer tells of a secret or of the master key**, unless by the words about a body that is
not read. -/
theorem answers_discreet (key key' : Key) {w v : World} (akin : w.Akin v) {ms ns : List Message}
    (h : List.Forall₂ Message.Alike ms ns)
    (fits : List.Forall₂ (fun m n => m.Fits ↔ n.Fits) ms ns) :
    AnsweredAlike ms ns ((answers key ms).run w).1 ((answers key' ns).run v).1 ∧
      ((∀ m ∈ ms, m.Legible) → ((answers key ms).run w).1 = ((answers key' ns).run v).1) :=
  have alike := (agree_answers key key' h fits w v akin).1
  ⟨alike, alike.eq_of_legible⟩

/-- A plain secret may stand for another one between the same texts. -/
theorem Request.Resealed.of_plain (request : Request) (before after : String) {names : List String}
    {pre : List Char} (brings : request.BringsSecret names)
    (awaits : Json.Awaits (Json.textFields names) "secret" pre)
    (hbefore : before.toList = pre ++ ['"']) (hafter : after.toList.head? = some '"')
    {s s' : String} (plain : s.toList.all Json.isPlain) (plain' : s'.toList.all Json.isPlain)
    (hs : s ≠ "") (hs' : s' ≠ "") :
    Resealed { request with body := before ++ s ++ after }
      { request with body := before ++ s' ++ after } := by
  obtain ⟨post, hafter⟩ := List.head?_eq_some_iff.1 hafter
  have body : ∀ t : String, before ++ t ++ after =
      String.ofList (pre ++ '"' :: (t.toList ++ ['"'] ++ post)) := by
    intro t
    refine String.toList_inj.1 ?_
    rw [String.toList_append, String.toList_append, String.toList_ofList, hbefore, hafter]
    simp only [List.append_assoc, List.cons_append, List.nil_append]
  have brings : Request.BringsSecret { request with body := before ++ s ++ after } names := by
    cases brings with
    | credential asks => exact .credential asks
    | rotation asks => exact .rotation asks
  rw [body s']
  exact .written brings (body s) awaits (Json.isLiteral_of_plain plain)
    (Json.isLiteral_of_plain plain') hs hs'

/-- A request for a new credential, without its body. -/
def issueRequest : Request :=
  { method := "POST", target := "/admin/credentials", contentType := some "application/json" }

/-- A request for another secret, without its body. -/
def rotateRequest : Request :=
  { method := "POST", target := "/admin/credentials/000000000000/rotate",
    contentType := some "application/json" }

/-- The secret is put under another one, in a record. -/
def rotateTo (secret : String) : Request :=
  { rotateRequest with body := "\x7b\"secret\":\"" ++ secret ++ "\"\x7d" }

/-- A credential is issued, its secret is written twice more, as a record and as a list, and all
credentials and the metrics are looked at. -/
def issueAndList (secret : String) : List Message :=
  [.administration { issueRequest with
     body := "\x7b\"service_id\":\"films\",\"secret\":\"" ++ secret ++
       "\",\"identity\":\"house\",\"tier\":\"basic\"\x7d" },
   .administration (rotateTo secret),
   .administration { rotateRequest with body := "[\"" ++ secret ++ "\"]" },
   .administration { method := "GET", target := "/admin/credentials" },
   .clients { method := "GET", target := "/metrics" }]

theorem asksRotation_rotateRequest : rotateRequest.AsksRotation "000000000000" := ⟨rfl, rfl⟩

theorem rotateRequest_bringsSecret (body : String) :
    Request.BringsSecret { rotateRequest with body := body } ["secret"] :=
  .rotation asksRotation_rotateRequest

section

variable {s s' : String} (plain : s.toList.all Json.isPlain) (plain' : s'.toList.all Json.isPlain)
  (hs : s ≠ "") (hs' : s' ≠ "")
include plain plain' hs hs'

theorem resealed_rotateTo : (rotateTo s).Resealed (rotateTo s') :=
  .of_plain rotateRequest "\x7b\"secret\":\"" "\"\x7d" (rotateRequest_bringsSecret _)
    (.first List.mem_cons_self (Json.isLiteral_of_plain (by decide))) (by decide) (by decide)
    plain plain' hs hs'

theorem alike_issueAndList : List.Forall₂ Message.Alike (issueAndList s) (issueAndList s') := by
  have service : "service_id" ∈ Admin.credentialNames := by decide
  have opens := Json.Opens.first service (Json.isLiteral_of_plain (by decide))
    (Json.isLiteral_of_plain (s := "films") (by decide))
  have secret : "secret" ∈ Admin.credentialNames := by decide
  have issue := Request.Resealed.of_plain issueRequest
    "\x7b\"service_id\":\"films\",\"secret\":\""
    "\",\"identity\":\"house\",\"tier\":\"basic\"\x7d" (.credential ⟨rfl, rfl⟩)
    (opens.awaits secret rfl (Json.isLiteral_of_plain (by decide))) (by decide) (by decide)
    plain plain' hs hs'
  have record := resealed_rotateTo plain plain' hs hs'
  have list := Request.Resealed.of_plain rotateRequest "[\"" "\"]" (rotateRequest_bringsSecret _)
    .of_list (by decide) (by decide) plain plain' hs hs'
  exact .cons (.administration issue.not_asksVerification (.single issue))
    (.cons (.administration record.not_asksVerification (.single record))
      (.cons (.administration list.not_asksVerification (.single list))
        (.cons (.administration (fun asks => by simpa using asks.1) .refl)
          (.cons (.clients _) .nil))))

end

theorem legible_issueAndList : ∀ m ∈ issueAndList "red", m.Legible := by
  refine List.forall_mem_cons.2 ⟨Request.BringsSecret.legible (.credential ⟨rfl, rfl⟩) rfl,
    List.forall_mem_cons.2 ⟨(rotateRequest_bringsSecret _).legible rfl,
      List.forall_mem_cons.2 ⟨(rotateRequest_bringsSecret _).legible rfl,
        List.forall_mem_cons.2 ⟨?_, List.forall_mem_cons.2 ⟨trivial, nofun⟩⟩⟩⟩⟩
  rintro _ (asks | asks) <;> simpa using asks.1

/-- A platform with a service and nothing else. -/
def filmsOnly : World :=
  { platform := { store := Store.addService {} oneSlot }
    supply := { reading := fun _ => 0, word := UInt64.ofNat } }

/-- Under two master keys and two secrets the same is answered, and it is not refused. -/
theorem answers_discreet_issueAndList :
    ((answers Scene.plainKey (issueAndList "red")).run filmsOnly).1 =
      ((answers ⟨Vector.replicate 32 1⟩ (issueAndList "ultramarine")).run filmsOnly).1 ∧
    (((answers Scene.plainKey (issueAndList "red")).run filmsOnly).1.map fun response =>
      response.status) = [201, 200, 200, 200, 200] :=
  ⟨(answers_discreet _ _ (.refl filmsOnly) (alike_issueAndList (by decide) (by decide) (by decide)
    (by decide)) (by decide +kernel)).2 legible_issueAndList, by decide +kernel⟩

/-! ## What shows the length of a secret -/

/-- A secret that is too long to be read is refused before the look for the credential. -/
theorem Admin.status_rotate_of_not_fits (key : Key) {piece : String} {id : CredentialId}
    (asks : request.AsksRotation piece) (named : Text.percentDecoded? piece = some id)
    (said : request.contentType.any namesJson) (long : ¬ request.Fits) (w : World) :
    ((Admin.handle key request).run w).1.status = 413 := by
  have refused :
      (Admin.rotateCredential key piece request).outcome w = (.error .bodyTooLong, w) := by
    have long : ¬ request.body.utf8ByteSize ≤ bodyLimit := long
    unfold Admin.rotateCredential Http.pathId bodyFields
    rw [named, if_pos said, if_neg long]
    rfl
  rw [Admin.handle, run_serve_of_action (Admin.sought_rotation key asks.2)
    (by rw [asks.1]; rfl) rfl]
  dsimp only
  rw [refused, status_sent]
  rfl

theorem status_rotateTo_of_not_fits {secret : String} (long : ¬ (rotateTo secret).Fits) (key : Key)
    (w : World) : ((Admin.handle key (rotateTo secret)).run w).1.status = 413 := by
  have named : Text.percentDecoded? "000000000000" = some "000000000000" := by decide +kernel
  have said : rotateRequest.contentType.any namesJson := by decide +kernel
  have asks : (rotateTo secret).AsksRotation "000000000000" := asksRotation_rotateRequest
  exact Admin.status_rotate_of_not_fits key asks named said long w

/-- A secret that alone is as long as a body may be. -/
def longSecret : String := String.ofList (List.replicate bodyLimit 'a')

theorem utf8ByteSize_replicate (n : Nat) :
    (String.ofList (List.replicate n 'a')).utf8ByteSize = n := by
  induction n with
  | zero => rfl
  | succ n ih =>
    rw [List.replicate_succ', String.ofList_append, String.utf8ByteSize_append, ih]
    rfl

theorem not_fits_rotateTo_longSecret : ¬ (rotateTo longSecret).Fits := by
  have body : (rotateTo longSecret).body.utf8ByteSize = 11 + bodyLimit + 2 := by
    rw [rotateTo, String.utf8ByteSize_append, String.utf8ByteSize_append, longSecret,
      utf8ByteSize_replicate]
    rfl
  rw [Request.Fits, body]
  omega

/-- A request for a new credential of no tier. -/
def issueUntiered (secret : String) : Request :=
  { issueRequest with
    body := "\x7b\"service_id\":\"films\",\"identity\":\"house\",\"secret\":\"" ++ secret ++
      "\"\x7d" }

/-- Words that tell at which column of a body of one line its tier was missed. -/
def missingTier : Wording
  | .body _ request =>
    "Failed to deserialize the JSON body into the target type: missing field `tier` at line 1 " ++
      "column " ++ toString request.body.utf8ByteSize
  | _ => ""

theorem resealed_issueUntiered {s s' : String} (plain : s.toList.all Json.isPlain)
    (plain' : s'.toList.all Json.isPlain) (hs : s ≠ "") (hs' : s' ≠ "") :
    (issueUntiered s).Resealed (issueUntiered s') := by
  have service : "service_id" ∈ Admin.credentialNames := by decide
  have identity : "identity" ∈ Admin.credentialNames := by decide
  have secret : "secret" ∈ Admin.credentialNames := by decide
  have opens := (Json.Opens.first service (Json.isLiteral_of_plain (by decide))
    (Json.isLiteral_of_plain (s := "films") (by decide))).next identity rfl
      (Json.isLiteral_of_plain (by decide)) (Json.isLiteral_of_plain (s := "house") (by decide))
  exact .of_plain issueRequest
    "\x7b\"service_id\":\"films\",\"identity\":\"house\",\"secret\":\"" "\"\x7d"
    (.credential ⟨rfl, rfl⟩) (opens.awaits secret rfl (Json.isLiteral_of_plain (by decide)))
    (by decide) (by decide) plain plain' hs hs'

/-- **The length of a secret may show**: a secret that is too long is refused with another status,
and words about a body that is not read may tell where in it reading stopped. -/
theorem secret_length_shows :
    (Message.Alike (.administration (rotateTo "red")) (.administration (rotateTo longSecret)) ∧
      (((Admin.handle Scene.plainKey (rotateTo "red")).run filmsOnly).1.status = 404 ∧
        ((Admin.handle Scene.plainKey (rotateTo longSecret)).run filmsOnly).1.status = 413)) ∧
    (Message.Alike (.administration (issueUntiered "red"))
        (.administration (issueUntiered "ultramarine")) ∧
      (issueUntiered "red").Fits ∧ (issueUntiered "ultramarine").Fits ∧
      ((Admin.handle Scene.plainKey (issueUntiered "red")).run filmsOnly).1.body.text?
          missingTier ≠
        ((Admin.handle Scene.plainKey (issueUntiered "ultramarine")).run filmsOnly).1.body.text?
          missingTier) := by
  have long : (rotateTo "red").Resealed (rotateTo longSecret) := by
    refine resealed_rotateTo (by decide) ?_ (by decide) ?_
    · rw [longSecret, String.toList_ofList, List.all_replicate]
      decide
    · intro empty
      have size := utf8ByteSize_replicate bodyLimit
      rw [← longSecret, empty] at size
      cases size
  have untiered : (issueUntiered "red").Resealed (issueUntiered "ultramarine") :=
    resealed_issueUntiered (by decide) (by decide) (by decide) (by decide)
  refine ⟨⟨.administration long.not_asksVerification (.single long), by decide +kernel, ?_⟩,
    .administration untiered.not_asksVerification (.single untiered), by decide +kernel,
    by decide +kernel, by decide +kernel⟩
  exact status_rotateTo_of_not_fits not_fits_rotateTo_longSecret _ _

end Http

end SlotBroker
