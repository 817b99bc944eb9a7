import SlotBroker.Ident
import SlotBroker.Metrics
import SlotBroker.Provider
import SlotBroker.Store

/-!
# Programs of atomic steps

What the broker does is written as a `Program`: steps that each see and change the shared platform
at once, readings of the clock and random words. Between two steps anything may happen to the
platform, so a program says exactly where an operation can be interfered with. A loop goes on for as
long as its body says so.

`run` is the run that nothing interferes with. There a loop is bounded by a number of rounds that it
names itself, so every program can be run to its end.

Results:
* `run_bind`, `run_done` and a lemma for each kind of step: a run in order is the runs one after the
  other.
* `bind_assoc`, `bind_done`: programs form a lawful monad.
-/

namespace SlotBroker

/-- What all operations share. -/
structure Platform where
  store : Store := {}
  metrics : Metrics := {}
  /-- The providers that credentials are verified at. -/
  providers : Table Provider := .empty

instance : Inhabited Platform := ⟨{}⟩

/-- Work on the shared platform that may be interfered with between its steps. -/
inductive Program : Type → Type 1 where
  /-- The end of the work. -/
  | done {α : Type} (a : α) : Program α
  /-- One atomic step on the platform. -/
  | step {α β : Type} (f : Platform → β × Platform) (k : β → Program α) : Program α
  /-- A reading of the clock. -/
  | clock {α : Type} (k : Millis → Program α) : Program α
  /-- A random word. -/
  | random {α : Type} (k : UInt64 → Program α) : Program α
  /-- Rounds of `body`, each from the value that the one before gave, until one says that it was the
  last. Undisturbed there are no more rounds than `limit` says. -/
  | loop {α σ : Type} (body : σ → Program (Bool × σ)) (limit : Platform → Nat) (start : σ)
      (k : σ → Program α) : Program α

/-- What comes from outside: the readings of the clock and the random words, and how many of each
have been used. -/
structure Supply where
  reading : Nat → Millis
  word : Nat → UInt64
  read : Nat := 0
  drawn : Nat := 0

namespace Supply

/-- The next reading of the clock, and the supply after it. -/
def readClock (s : Supply) : Millis × Supply := (s.reading s.read, { s with read := s.read + 1 })

/-- The next random word, and the supply after it. -/
def draw (s : Supply) : UInt64 × Supply := (s.word s.drawn, { s with drawn := s.drawn + 1 })

end Supply

/-- The platform and what comes from outside. -/
structure World where
  platform : Platform
  supply : Supply

/-- At most `n` rounds, fewer if one of them is the last. -/
def rounds {σ : Type} (body : σ → World → (Bool × σ) × World) : Nat → σ → World → σ × World
  | 0, s, w => (s, w)
  | n + 1, s, w =>
    let r := body s w
    if r.1.1 then rounds body n r.1.2 r.2 else (r.1.2, r.2)

namespace Program

variable {α β γ σ : Type}

/-! ## Programs one after the other -/

/-- The first program, and then the one that its result calls for. -/
def bind : Program α → (α → Program β) → Program β
  | done a, f => f a
  | step g k, f => step g fun b => bind (k b) f
  | clock k, f => clock fun t => bind (k t) f
  | random k, f => random fun w => bind (k w) f
  | loop body limit s k, f => loop body limit s fun s' => bind (k s') f

instance : Monad Program where
  pure := done
  bind := bind

@[simp] theorem pure_eq (a : α) : (pure a : Program α) = done a := rfl

@[simp] theorem bind_eq (p : Program α) (f : α → Program β) : p >>= f = p.bind f := rfl

@[simp] theorem done_bind (a : α) (f : α → Program β) : (done a).bind f = f a := rfl

theorem bind_done (p : Program α) : p.bind done = p := by
  induction p with
  | done a => rfl
  | step g k ih => simp [bind, ih]
  | clock k ih => simp [bind, ih]
  | random k ih => simp [bind, ih]
  | loop body limit s k _ ih => simp [bind, ih]

theorem bind_assoc (p : Program α) (f : α → Program β) (g : β → Program γ) :
    (p.bind f).bind g = p.bind fun a => (f a).bind g := by
  induction p with
  | done a => rfl
  | step h k ih => simp [bind, ih]
  | clock k ih => simp [bind, ih]
  | random k ih => simp [bind, ih]
  | loop body limit s k _ ih => simp [bind, ih]

instance : LawfulMonad Program :=
  LawfulMonad.mk' Program (fun p => bind_done p) (fun _ _ => rfl) bind_assoc

/-! ## The steps -/

/-- An atomic step on the store. -/
def onStore (f : Store → α × Store) : Program α :=
  step (fun p => ((f p.store).1, { p with store := (f p.store).2 })) done

/-- An atomic look at the store. -/
def query (f : Store → α) : Program α := onStore fun s => (f s, s)

/-- An atomic change of the store. -/
def update (f : Store → Store) : Program Unit := onStore fun s => ((), f s)

/-- An atomic step on one provider; `absent` if there is none for the service. -/
def atProvider (service : ServiceId) (absent : α) (f : Provider → α × Provider) : Program α :=
  step (fun p =>
    match p.providers.find? service with
    | none => (absent, p)
    | some x => ((f x).1, { p with providers := p.providers.insert (f x).2 })) done

/-- Whether there is a provider for a service. -/
def hasProvider (service : ServiceId) : Program Bool :=
  step (fun p => ((p.providers.find? service).isSome, p)) done

/-- Puts providers on the platform, each in the place of one for the same service. -/
def addProviders (xs : List Provider) : Program Unit :=
  step (fun p => ((), { p with providers := xs.foldl Table.insert p.providers })) done

/-- Adds to a counter. -/
def count (c : Counter) (n : Nat) : Program Unit :=
  step (fun p => ((), { p with metrics := p.metrics.increment c (UInt64.ofNat n) })) done

/-- Records how long a session of a service ran. -/
def observe (service : ServiceId) (duration : Float) : Program Unit :=
  step (fun p => ((), { p with metrics := p.metrics.observe service duration })) done

/-- The exposition of the metrics. Every batch of samples ends with it. -/
def exposition : Program (List Metrics.Line) :=
  step (fun p => (p.metrics.lines, { p with metrics := p.metrics.settle })) done

/-- The time. -/
def now : Program Millis := clock done

/-- A random word. -/
def randomWord : Program UInt64 := random done

/-- A fresh id with a number of digits. -/
def freshId (digits : Nat) : Program String := random fun w => done (Ident.hex digits w)

/-- Rounds of `body` until one is the last. -/
def repeatWhile (body : σ → Program (Bool × σ)) (limit : Platform → Nat) (start : σ) : Program σ :=
  loop body limit start done

/-- What a loop does: one round, and then either the loop again or what comes after it. -/
def unrolled (body : σ → Program (Bool × σ)) (limit : Platform → Nat) (s : σ) (k : σ → Program α) :
    Program α :=
  (body s).bind fun r => if r.1 then loop body limit r.2 k else k r.2

/-! ## Undisturbed runs -/

/-- The run of a program that nothing interferes with. -/
def run {ρ : Type} : Program ρ → World → ρ × World
  | done a, w => (a, w)
  | step f k, w => run (k (f w.platform).1) { w with platform := (f w.platform).2 }
  | clock k, w => run (k w.supply.readClock.1) { w with supply := w.supply.readClock.2 }
  | random k, w => run (k w.supply.draw.1) { w with supply := w.supply.draw.2 }
  | loop body limit s k, w =>
    let r := rounds (fun s w => run (body s) w) (limit w.platform) s w
    run (k r.1) r.2

@[simp] theorem run_done (a : α) (w : World) : (done a).run w = (a, w) := rfl

@[simp] theorem run_bind (p : Program α) (f : α → Program β) (w : World) :
    (p.bind f).run w = (f (p.run w).1).run (p.run w).2 := by
  induction p generalizing w with
  | done a => rfl
  | step g k ih => simp [bind, run, ih]
  | clock k ih => simp [bind, run, ih]
  | random k ih => simp [bind, run, ih]
  | loop body limit s k _ ih => simp [bind, run, ih]

@[simp] theorem run_onStore (f : Store → α × Store) (w : World) :
    (onStore f).run w =
      ((f w.platform.store).1,
        { w with platform := { w.platform with store := (f w.platform.store).2 } }) := rfl

@[simp] theorem run_query (f : Store → α) (w : World) : (query f).run w = (f w.platform.store, w) :=
  rfl

@[simp] theorem run_update (f : Store → Store) (w : World) :
    (update f).run w =
      ((), { w with platform := { w.platform with store := f w.platform.store } }) := rfl

@[simp] theorem run_now (w : World) :
    now.run w = (w.supply.readClock.1, { w with supply := w.supply.readClock.2 }) := rfl

@[simp] theorem run_freshId (digits : Nat) (w : World) :
    (freshId digits).run w =
      (Ident.hex digits w.supply.draw.1, { w with supply := w.supply.draw.2 }) := rfl

@[simp] theorem run_count (c : Counter) (n : Nat) (w : World) :
    (count c n).run w =
      ((), { w with platform :=
        { w.platform with metrics := w.platform.metrics.increment c (UInt64.ofNat n) } }) := rfl

@[simp] theorem run_observe (service : ServiceId) (duration : Float) (w : World) :
    (observe service duration).run w =
      ((), { w with platform :=
        { w.platform with metrics := w.platform.metrics.observe service duration } }) := rfl

@[simp] theorem run_repeatWhile (body : σ → Program (Bool × σ)) (limit : Platform → Nat) (s : σ)
    (w : World) :
    (repeatWhile body limit s).run w =
      rounds (fun s w => (body s).run w) (limit w.platform) s w := rfl

end Program

end SlotBroker
