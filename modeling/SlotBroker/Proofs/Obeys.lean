import SlotBroker.Proofs.Interleaving
import SlotBroker.Proofs.Stake

/-!
# Programs that obey the rules, whatever others do

`Obeys digits P g s Q` says of a program `P` that has the stake `g` in hand and has last seen the
store `s`: each of its steps is a `Move`, whatever coherent store it finds that has grown from the
one it last saw, and when it is done `Q` holds of its result, its stake and every later store. The
steps of others enter only through `Store.Grows`.

The rules below take a program apart step by step. A loop needs an invariant that outlives growth.

Results:
* **`Obeys.bind`**: programs that obey can be put one after the other.
* `Obeys.grow`: who obeys after the store `s` obeys after every store that it grows into.
* **`Obeys.turn`**: one turn of a program that obeys is a move or the drawing of an id, and the rest
  of the program obeys again.
-/

namespace SlotBroker

/-- The program does nothing but moves, and ends in `Q`. -/
def Obeys (digits : Nat) : {α : Type} → Program α → Stake → Store →
    (α → Stake → Store → Prop) → Prop
  | _, .done a, g, s, Q => ∀ t, s.Grows t → Q a g t
  | _, .step f k, g, s, Q =>
    ∃ d : Deed, (∀ p, (f p).2.store = d.on p.store) ∧
      ∀ p, s.Grows p.store → p.store.Coherent →
        ∃ g', Move d p.store g (f p).2.store g' ∧
          (p.store.Grows (f p).2.store → Obeys digits (k (f p).1) g' (f p).2.store Q)
  | _, .clock k, g, s, Q => ∀ time, Obeys digits (k time) g s Q
  | _, .random k, g, s, Q =>
    ∀ word, Obeys digits (k word) { g with id := some (Ident.hex digits word) } s Q
  | _, .loop (σ := σ) body _ a k, g, s, Q =>
    ∃ J : σ → Stake → Store → Prop, J a g s ∧
      (∀ a g s t, J a g s → s.Grows t → J a g t) ∧
      ∀ a g s, J a g s → Obeys digits (body a) g s fun r g s =>
        if r.1 = true then J r.2 g s else Obeys digits (k r.2) g s Q

namespace Obeys

open Program

variable {α β σ : Type} {digits : Nat} {P : Program α} {f : α → Program β} {g : Stake}
  {s t : Store}

theorem imp {Q Q' : α → Stake → Store → Prop} (h : Obeys digits P g s Q)
    (hQ : ∀ a g t, Q a g t → Q' a g t) : Obeys digits P g s Q' := by
  induction P generalizing g s with
  | done a => exact fun t ht => hQ a g t (h t ht)
  | step _ k ih =>
    obtain ⟨d, hd, hmove⟩ := h
    refine ⟨d, hd, fun p hp hc => ?_⟩
    obtain ⟨g', hm, hk⟩ := hmove p hp hc
    exact ⟨g', hm, fun hg => ih _ (hk hg) hQ⟩
  | clock k ih => exact fun time => ih time (h time) hQ
  | random k ih => exact fun word => ih word (h word) hQ
  | loop body limit a k ihb ihk =>
    obtain ⟨J, ha, hJ, hbody⟩ := h
    refine ⟨J, ha, hJ, fun a g s haj => ihb a (hbody a g s haj) fun r g s hr => ?_⟩
    split
    · rename_i hmore
      rwa [if_pos hmore] at hr
    · rename_i hmore
      rw [if_neg hmore] at hr
      exact ihk _ hr hQ

/-- **Growth is no harm**: what others do in the meantime is allowed for. -/
theorem grow {Q : α → Stake → Store → Prop} (h : Obeys digits P g s Q) (hst : s.Grows t) :
    Obeys digits P g t Q := by
  induction P generalizing g s with
  | done a => exact fun u hu => h u (hst.trans hu)
  | step _ k _ =>
    obtain ⟨d, hd, hmove⟩ := h
    exact ⟨d, hd, fun p hp hc => hmove p (hst.trans hp) hc⟩
  | clock k ih => exact fun time => ih time (h time) hst
  | random k ih => exact fun word => ih word (h word) hst
  | loop body limit a k _ _ =>
    obtain ⟨J, ha, hJ, hbody⟩ := h
    exact ⟨J, hJ a g s t ha hst, hJ, hbody⟩

/-- **One program after the other.** -/
theorem bind {Q : β → Stake → Store → Prop}
    (h : Obeys digits P g s fun a g s => Obeys digits (f a) g s Q) :
    Obeys digits (P.bind f) g s Q := by
  induction P generalizing g s with
  | done a => exact h s (.refl s)
  | step _ k ih =>
    obtain ⟨d, hd, hmove⟩ := h
    refine ⟨d, hd, fun p hp hc => ?_⟩
    obtain ⟨g', hm, hk⟩ := hmove p hp hc
    exact ⟨g', hm, fun hg => ih _ (hk hg)⟩
  | clock k ih => exact fun time => ih time (h time)
  | random k ih => exact fun word => ih word (h word)
  | loop body limit a k _ ihk =>
    obtain ⟨J, ha, hJ, hbody⟩ := h
    refine ⟨J, ha, hJ, fun a g s haj => (hbody a g s haj).imp fun r g s hr => ?_⟩
    split
    · rename_i hmore
      rwa [if_pos hmore] at hr
    · rename_i hmore
      rw [if_neg hmore] at hr
      exact ihk _ hr

/-! ## Rules for the steps -/

theorem done {a : α} {Q : α → Stake → Store → Prop} (h : ∀ t, s.Grows t → Q a g t) :
    Obeys digits (.done a) g s Q := h

theorem onStore {a : Store → α × Store} {Q : β → Stake → Store → Prop} (d : Deed)
    (hd : ∀ s, (a s).2 = d.on s)
    (h : ∀ t, s.Grows t → t.Coherent → ∃ g', Move d t g (a t).2 g' ∧
      (t.Grows (a t).2 → Obeys digits (f (a t).1) g' (a t).2 Q)) :
    Obeys digits ((Program.onStore a).bind f) g s Q :=
  ⟨d, fun p => hd p.store, fun p hp hc => h p.store hp hc⟩

theorem update {a : Store → Store} {f : Unit → Program β} {Q : β → Stake → Store → Prop} (d : Deed)
    (hd : ∀ s, a s = d.on s)
    (h : ∀ t, s.Grows t → t.Coherent → ∃ g', Move d t g (a t) g' ∧
      (t.Grows (a t) → Obeys digits (f ()) g' (a t) Q)) :
    Obeys digits ((Program.update a).bind f) g s Q :=
  onStore d hd h

/-- A look at the store may change what the call has to do. -/
theorem ask {a : Store → α} {Q : β → Stake → Store → Prop}
    (h : ∀ t, s.Grows t → t.Coherent → ∃ g', Move .look t g t g' ∧
      Obeys digits (f (a t)) g' t Q) :
    Obeys digits ((Program.query a).bind f) g s Q :=
  onStore .look (fun _ => rfl) fun t ht hc => by
    obtain ⟨g', hm, hk⟩ := h t ht hc
    exact ⟨g', hm, fun _ => hk⟩

theorem query {a : Store → α} {Q : β → Stake → Store → Prop}
    (h : ∀ t, s.Grows t → t.Coherent → Obeys digits (f (a t)) g t Q) :
    Obeys digits ((Program.query a).bind f) g s Q :=
  ask fun t ht hc => ⟨g, .still _ g, h t ht hc⟩

theorem now {f : Millis → Program β} {Q : β → Stake → Store → Prop}
    (h : ∀ time, Obeys digits (f time) g s Q) : Obeys digits (Program.now.bind f) g s Q := h

theorem freshId {f : String → Program β} {Q : β → Stake → Store → Prop}
    (h : ∀ id, Obeys digits (f id) { g with id := some id } s Q) :
    Obeys digits ((Program.freshId digits).bind f) g s Q := fun word => h (Ident.hex digits word)

theorem count {f : Unit → Program β} {Q : β → Stake → Store → Prop} {c : Counter} {n : Nat}
    (h : Obeys digits (f ()) g s Q) : Obeys digits ((Program.count c n).bind f) g s Q :=
  ⟨.look, fun _ => rfl, fun _ hp _ => ⟨g, .still _ g, fun _ => h.grow hp⟩⟩

theorem observe {f : Unit → Program β} {Q : β → Stake → Store → Prop} {service : ServiceId}
    {x : Float} (h : Obeys digits (f ()) g s Q) :
    Obeys digits ((Program.observe service x).bind f) g s Q :=
  ⟨.look, fun _ => rfl, fun _ hp _ => ⟨g, .still _ g, fun _ => h.grow hp⟩⟩

theorem repeatWhile {body : σ → Program (Bool × σ)} {limit : Platform → Nat} {a : σ}
    {f : σ → Program β} {Q : β → Stake → Store → Prop} (J : σ → Stake → Store → Prop)
    (start : J a g s) (closed : ∀ a g s t, J a g s → s.Grows t → J a g t)
    (round : ∀ a g s, J a g s → Obeys digits (body a) g s fun r g s =>
      if r.1 = true then J r.2 g s else Obeys digits (f r.2) g s Q) :
    Obeys digits ((Program.repeatWhile body limit a).bind f) g s Q := ⟨J, start, closed, round⟩

/-- One round of a loop, and then the loop again or what comes after it. -/
theorem unrolled {body : σ → Program (Bool × σ)} {limit : Platform → Nat} {a : σ}
    {k : σ → Program α} {Q : α → Stake → Store → Prop}
    (h : Obeys digits (.loop body limit a k) g s Q) :
    Obeys digits (Program.unrolled body limit a k) g s Q := by
  obtain ⟨J, ha, hJ, hbody⟩ := h
  refine bind ((hbody a g s ha).imp fun r g s hr => ?_)
  split
  · rename_i hmore
    rw [if_pos hmore] at hr
    exact ⟨J, hr, hJ, hbody⟩
  · rename_i hmore
    rwa [if_neg hmore] at hr

/-! ## One turn -/

/-- **A turn of a program that obeys** is a move, or it draws an id; the rest obeys again. -/
theorem turn {Q : α → Stake → Store → Prop} {drawn drawn' : List String} {p p' : Platform}
    {P P' : Program α} (h : Obeys digits P g p.store Q) (hc : p.store.Coherent)
    (hturn : P.Turn digits drawn p p' P' drawn') :
    (drawn' = drawn ∧ ∃ d g', Move d p.store g p'.store g' ∧
      (p.store.Grows p'.store → Obeys digits P' g' p'.store Q)) ∨
    (∃ id, id ∉ drawn ∧ drawn' = id :: drawn ∧ p' = p ∧
      Obeys digits P' { g with id := some id } p.store Q) := by
  cases hturn with
  | step f k =>
    obtain ⟨d, -, hmove⟩ := h
    obtain ⟨g', hm, hk⟩ := hmove p (.refl _) hc
    exact .inl ⟨rfl, d, g', hm, hk⟩
  | clock k time =>
    exact .inl ⟨rfl, .look, g, .still _ g, fun _ => h time⟩
  | random k word _ fresh => exact .inr ⟨_, fresh, rfl, rfl, h word⟩
  | loop body limit a k =>
    exact .inl ⟨rfl, .look, g, .still _ g, fun _ => h.unrolled⟩

end Obeys

end SlotBroker
