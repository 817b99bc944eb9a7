import SlotBroker.Accounts
import SlotBroker.Broker

/-!
# Interleaved operations

Any number of callers use the broker at once. A `Scene` is the shared platform together with all
calls made so far, each with the rest of its program. `Scene.Next` lets a new call come in or one of
the calls take one atomic step: a critical section of the store, a reading of the clock, which may
show anything, a random word, or the unrolling of one round of a loop. Whose turn it is, is left
open, so the reachable scenes are those of every order of steps.

Ids made of random words never collide: a word is only drawn if its id has not been drawn before.

`Scene.past` keeps what each step found and left, latest first. No program reads it; it lets
statements speak of what a call has done so far, and of what came before what.

Results:
* **`Scene.Reachable.play`**: a schedule that is written down as a list of choices leads to a
  reachable scene.
-/

namespace SlotBroker

/-! ## Operations -/

/-- What callers ask for. -/
inductive Operation where
  | request (user : UserId) (service : ServiceId)
  | finish (session : SessionId)
  | sweep
  | issue (service : ServiceId) (identity secret : String) (tier : Tier)
  | disable (credential : CredentialId)
  | rotate (credential : CredentialId) (secret : String)
  | register (username : String)
  deriving DecidableEq

/-- What callers get. -/
inductive Answer where
  | session (result : Except Failure Session)
  | record (result : Option UsageRecord)
  | expired (ids : List SessionId)
  | credential (result : Except Failure Credential)
  | found (known : Bool)
  | user (u : User)

namespace Operation

/-- The program of an operation, under a master key. -/
def program (key : Codec.Key) : Operation → Program Answer
  | request user service => Answer.session <$> Broker.requestSession user service
  | finish id => Answer.record <$> Broker.endSession id
  | sweep => Answer.expired <$> Broker.enforceLimits
  | issue service identity secret tier =>
    Answer.credential <$> Vault.storeCredential key service identity secret tier
  | disable id => Answer.found <$> Vault.disable id
  | rotate id secret => Answer.found <$> Vault.rotate key id secret
  | register username => Answer.user <$> Accounts.register username

/-- The digits of the ids that an operation draws. -/
def idDigits : Operation → Nat
  | request .. | finish _ | sweep => Ident.longDigits
  | issue .. | disable _ | rotate .. | register _ => Ident.shortDigits

end Operation

/-! ## Turns -/

/-- One turn of a program: it turns the platform and the rest of the program into others, and may
add an id to the ids drawn so far. -/
inductive Program.Turn {α : Type} (digits : Nat) (drawn : List String) :
    Platform → Program α → Platform → Program α → List String → Prop
  | step {β : Type} (f : Platform → β × Platform) (k : β → Program α) (p : Platform) :
      Turn digits drawn p (.step f k) (f p).2 (k (f p).1) drawn
  | clock (k : Millis → Program α) (time : Millis) (p : Platform) :
      Turn digits drawn p (.clock k) p (k time) drawn
  | random (k : UInt64 → Program α) (word : UInt64) (p : Platform)
      (fresh : Ident.hex digits word ∉ drawn) :
      Turn digits drawn p (.random k) p (k word) (Ident.hex digits word :: drawn)
  | loop {σ : Type} (body : σ → Program (Bool × σ)) (limit : Platform → Nat) (s : σ)
      (k : σ → Program α) (p : Platform) :
      Turn digits drawn p (.loop body limit s k) p (.unrolled body limit s k) drawn

/-- A call on its way: what was asked for, and what is left to do. -/
structure Call where
  operation : Operation
  rest : Program Answer

/-- Nothing is left to do. -/
def Call.isDone (c : Call) : Bool :=
  match c.rest with
  | .done _ => true
  | _ => false

/-- One atomic step in retrospect: which call took it, and the store before and after it. -/
structure Moment where
  call : Nat
  before : Store
  after : Store

/-- The platform, the calls in order of arrival, all ids drawn, and the steps taken, latest
first. -/
structure Scene where
  platform : Platform
  calls : List Call := []
  drawn : List String := []
  past : List Moment := []

namespace Scene

/-- The store of the platform. -/
abbrev store (σ : Scene) : Store := σ.platform.store

/-- No call is in flight. -/
def Quiet (σ : Scene) : Prop := ∀ c ∈ σ.calls, ∃ a, c.rest = .done a

theorem quiet_of_all_isDone {σ : Scene} (h : σ.calls.all Call.isDone = true) : σ.Quiet := by
  intro c hc
  have done := List.all_eq_true.1 h c hc
  unfold Call.isDone at done
  split at done
  · exact ⟨_, ‹_›⟩
  · cases done

/-- A call comes in, or one of the calls takes a turn. -/
inductive Next (key : Codec.Key) : Scene → Scene → Prop
  | call (σ : Scene) (op : Operation) :
      Next key σ { σ with calls := σ.calls ++ [⟨op, op.program key⟩] }
  | turn (σ : Scene) (before after : List Call) (c : Call) (p : Platform) (rest : Program Answer)
      (drawn : List String) (here : σ.calls = before ++ c :: after)
      (turn : c.rest.Turn c.operation.idDigits σ.drawn σ.platform p rest drawn) :
      Next key σ
        { platform := p
          calls := before ++ { c with rest := rest } :: after
          drawn := drawn
          past := ⟨before.length, σ.store, p.store⟩ :: σ.past }

/-- The scenes that some order of steps leads to, from a platform on which services are registered
and nothing else is stored. -/
inductive Reachable (key : Codec.Key) : Scene → Prop
  | start (p : Platform) (bare : p.store = { services := p.store.services }) :
      Reachable key { platform := p }
  | next {σ τ : Scene} : Reachable key σ → Next key σ τ → Reachable key τ

/-! ## Written schedules -/

/-- What happens next: a call comes in, or one that is on its way takes a turn, for which the clock
shows a time and a word is drawn if it asks for them. -/
inductive Choice where
  | call (op : Operation)
  | turn (call : Nat) (time : Millis) (word : UInt64)

/-- One turn of a call with a time and a word at hand; none if it is done or the word has been drawn
before. -/
def turnOf (c : Call) (time : Millis) (word : UInt64) (drawn : List String) (p : Platform) :
    Option (Platform × Program Answer × List String) :=
  match c.rest with
  | .done _ => none
  | .step f k => some ((f p).2, k (f p).1, drawn)
  | .clock k => some (p, k time, drawn)
  | .random k =>
    if Ident.hex c.operation.idDigits word ∈ drawn then none
    else some (p, k word, Ident.hex c.operation.idDigits word :: drawn)
  | .loop body limit s k => some (p, .unrolled body limit s k, drawn)

theorem turn_of_turnOf {c : Call} {time : Millis} {word : UInt64} {drawn drawn' : List String}
    {p p' : Platform} {rest : Program Answer}
    (h : turnOf c time word drawn p = some (p', rest, drawn')) :
    c.rest.Turn c.operation.idDigits drawn p p' rest drawn' := by
  unfold turnOf at h
  split at h
  · cases h
  · rename_i hc
    cases h
    exact hc ▸ .step ..
  · rename_i hc
    cases h
    exact hc ▸ .clock ..
  · rename_i hc
    split at h
    · cases h
    · rename_i hfresh
      cases h
      exact hc ▸ .random _ _ _ hfresh
  · rename_i hc
    cases h
    exact hc ▸ .loop ..

/-- The scene after a choice; a turn that cannot be taken changes nothing. -/
def play (key : Codec.Key) (σ : Scene) : Choice → Scene
  | .call op => { σ with calls := σ.calls ++ [⟨op, op.program key⟩] }
  | .turn i time word =>
    match σ.calls[i]? with
    | none => σ
    | some c =>
      match turnOf c time word σ.drawn σ.platform with
      | none => σ
      | some (p, rest, drawn) =>
        { platform := p
          calls := σ.calls.take i ++ { c with rest := rest } :: σ.calls.drop (i + 1)
          drawn := drawn
          past := ⟨(σ.calls.take i).length, σ.store, p.store⟩ :: σ.past }

/-- A choice is what may happen next, unless it changes nothing. -/
theorem play_eq_or_next (key : Codec.Key) (σ : Scene) (choice : Choice) :
    play key σ choice = σ ∨ Next key σ (play key σ choice) := by
  cases choice with
  | call op => exact .inr (.call σ op)
  | turn i time word =>
    unfold Scene.play
    dsimp only
    split
    · exact .inl rfl
    · rename_i c hc
      split
      · exact .inl rfl
      · rename_i p rest drawn hturn
        obtain ⟨hi, rfl⟩ := List.getElem?_eq_some_iff.1 hc
        refine .inr (.turn σ _ _ _ p rest drawn ?_ (turn_of_turnOf hturn))
        rw [← List.drop_eq_getElem_cons hi, List.take_append_drop]

/-- **A written schedule leads to a reachable scene.** -/
theorem Reachable.play {key : Codec.Key} {σ : Scene} (h : σ.Reachable key) (choices : List Choice) :
    (choices.foldl (Scene.play key) σ).Reachable key := by
  induction choices generalizing σ with
  | nil => exact h
  | cons choice rest ih =>
    refine ih ?_
    rcases play_eq_or_next key σ choice with same | next
    · rwa [same]
    · exact h.next next

/-- A platform with one service, whose credentials have at most two slots, and nothing else. -/
def opening : Scene where
  platform :=
    { store :=
        { services := Table.empty.insert
            { id := "films", name := "Films", monthlyCost := 900, streamCap := 2 } } }

/-- A key under which secrets lie open. -/
def plainKey : Codec.Key := ⟨Vector.replicate 32 0⟩

/-- What choices lead to from the opening scene. -/
def after (choices : List Choice) : Scene := choices.foldl (play plainKey) opening

theorem reachable_after (choices : List Choice) : (after choices).Reachable plainKey :=
  Reachable.play (.start opening.platform rfl) choices

end Scene

end SlotBroker
