import SlotBroker.Proofs.Courses

/-!
# Operations one after the other

Nothing here overlaps: each command is complete before the next one begins. `Orderly key w past`
are the worlds that commands lead to, with what each command found and left.

Results:
* `Orderly.play`: a written list of commands leads to a world that is reached in order.
* `Orderly.coherent`: the store is coherent between any two commands.
* `Orderly.past_evolves`: nothing that a command found or left is forgotten.
-/

namespace SlotBroker

/-! ## Commands -/

/-- What is done on a platform: a service is registered, or an operation is called. -/
inductive Command where
  | define (service : Service)
  | call (op : Operation)

namespace Command

/-- The world after a command that nobody interferes with. -/
def run (key : Codec.Key) : Command → World → World
  | define service, w => w.withStore (w.store.addService service)
  | call op, w => ((op.program key).run w).2

/-- The id that the command will draw is not in use. -/
def Fresh (w : World) : Command → Prop
  | define _ => True
  | call op => op.Fresh w

instance (w : World) (c : Command) : Decidable (c.Fresh w) :=
  match c with
  | define _ => inferInstanceAs (Decidable True)
  | call (.request ..) => inferInstanceAs (Decidable (_ = none))
  | call (.issue ..) => inferInstanceAs (Decidable (_ = none))
  | call (.finish _) | call .sweep | call (.disable _) | call (.rotate ..) | call (.register _) =>
    inferInstanceAs (Decidable True)

end Command

/-- The worlds that commands lead to, one complete before the next, from a platform on which
services are registered and nothing else is stored, with what each command found and left, latest
first. -/
inductive Orderly (key : Codec.Key) : World → List Moment → Prop
  | start (w : World) (bare : w.store = { services := w.store.services }) : Orderly key w []
  | next {w : World} {past : List Moment} (c : Command) : Orderly key w past → c.Fresh w →
      Orderly key (c.run key w) (⟨past.length, w.store, (c.run key w).store⟩ :: past)

namespace Command

/-- The world and its past after a command; a command that would draw an id in use is left out. -/
def play (key : Codec.Key) (r : World × List Moment) (c : Command) : World × List Moment :=
  if c.Fresh r.1 then (c.run key r.1, ⟨r.2.length, r.1.store, (c.run key r.1).store⟩ :: r.2) else r

/-- What commands lead to on a bare platform whose clock stands still. -/
def after (cs : List Command) : World × List Moment :=
  cs.foldl (play Scene.plainKey)
    ({ platform := {}, supply := { reading := fun _ => 0, word := UInt64.ofNat } }, [])

end Command

/-- **A written list of commands leads to a world that is reached in order.** -/
theorem Orderly.play {key : Codec.Key} {r : World × List Moment} (h : Orderly key r.1 r.2)
    (cs : List Command) :
    Orderly key (cs.foldl (Command.play key) r).1 (cs.foldl (Command.play key) r).2 := by
  induction cs generalizing r with
  | nil => exact h
  | cons c rest ih =>
    refine ih ?_
    unfold Command.play
    split
    · exact h.next c ‹_›
    · exact h

/-- Commands show one clock. -/
theorem Command.reading_play (key : Codec.Key) (cs : List Command) (r : World × List Moment) :
    (cs.foldl (Command.play key) r).1.supply.reading = r.1.supply.reading := by
  induction cs generalizing r with
  | nil => rfl
  | cons c rest ih =>
    refine (ih _).trans ?_
    unfold Command.play
    split
    · cases c with
      | define => rfl
      | call op => exact Program.reading_run (op.program key) r.1
    · rfl

theorem Command.reading_after (cs : List Command) :
    (Command.after cs).1.supply.reading = fun _ => 0 :=
  Command.reading_play _ cs _

theorem orderly_after (cs : List Command) :
    Orderly Scene.plainKey (Command.after cs).1 (Command.after cs).2 :=
  Orderly.play (.start _ rfl) cs

/-- A service whose credentials have one slot. -/
def oneSlot : Service := { id := "films", name := "Films", monthlyCost := 900, streamCap := 1 }

/-! ## What commands keep -/

section Runs

variable {key : Codec.Key} {w : World} {past : List Moment}

theorem Store.Evolves.addService (s : Store) (service : Service) :
    s.Evolves (s.addService service) :=
  ⟨fun h => ⟨_, h, .refl _⟩, fun h => ⟨_, h, rfl⟩⟩

theorem Store.Coherent.addService {s : Store} (h : s.Coherent) (service : Service) :
    (s.addService service).Coherent where
  shaped hx := h.shaped hx
  bound hx hc := h.bound hx hc
  registered hx := by
    unfold Store.service? Store.addService
    rw [Table.find?_insert]
    split
    · rfl
    · exact h.registered hx

theorem Command.evolves (key : Codec.Key) {c : Command} (fresh : c.Fresh w)
    (coherent : w.store.Coherent) : w.store.Evolves (c.run key w).store := by
  cases c with
  | define service => exact .addService w.store service
  | call op => exact ((op.course key fresh coherent).keeps coherent).1.toEvolves

theorem Command.coherent (key : Codec.Key) {c : Command} (fresh : c.Fresh w)
    (coherent : w.store.Coherent) : (c.run key w).store.Coherent := by
  cases c with
  | define service => exact coherent.addService service
  | call op => exact ((op.course key fresh coherent).keeps coherent).2

theorem Store.Coherent.of_bare {s : Store} (bare : s = { services := s.services }) :
    s.Coherent := by
  have none : ∀ id, s.session? id = none := fun id => by
    rw [bare, Store.session?, Table.find?_empty]
  refine ⟨fun hx => ?_, fun hx _ => ?_, fun hx => ?_⟩
  · cases (none _).symm.trans hx
  · cases (none _).symm.trans hx
  · cases (none _).symm.trans hx

/-- **The store is coherent** between any two commands. -/
theorem Orderly.coherent (h : Orderly key w past) : w.store.Coherent := by
  induction h with
  | start w bare => exact .of_bare bare
  | next c _ fresh ih => exact c.coherent key fresh ih

theorem Orderly.past_evolves (h : Orderly key w past) :
    ∀ m ∈ past, m.before.Evolves m.after ∧ m.after.Evolves w.store := by
  induction h with
  | start => exact fun m hm => nomatch hm
  | next c h fresh ih =>
    have here := Command.evolves key fresh h.coherent
    intro m hm
    rcases List.mem_cons.1 hm with rfl | hm
    · exact ⟨here, .refl _⟩
    · exact ⟨(ih m hm).1, (ih m hm).2.trans here⟩

end Runs

end SlotBroker
