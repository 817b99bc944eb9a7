import Mathlib.Data.List.Forall2
import SlotBroker.Proofs.Conduct

/-!
# Keeping books on a run

`Books s gs drawn past` is a run seen through the stakes: calls come in with nothing in hand, draw
ids that nobody has drawn before, and make moves. `Scene.Reachable.books` says that every run of the
broker is one of these, call by call, and that each call still obeys the rules with the stake that
the books show. So what is to be shown of every reachable scene is shown by induction on `Books`,
with one case for each `Move`.

Results:
* `Books.sound`: the store is coherent, and ids in hand are distinct and unused.
* `Books.past_grows`: the store has grown from every store that it was.
* **`Scene.Reachable.books`**: the books can be kept on every run.
* `Scene.Quiet.settles`: in a quiet scene nobody has anything in hand.
-/

namespace SlotBroker

/-- The runs in terms of stakes: the store, the stake of each call, the ids drawn, and the steps
taken, latest first. -/
inductive Books : Store → List Stake → List String → List Moment → Prop
  | start (s : Store) (bare : s = { services := s.services }) : Books s [] [] []
  | call {s : Store} {gs : List Stake} {drawn : List String} {past : List Moment} :
      Books s gs drawn past → Books s (gs ++ [({} : Stake)]) drawn past
  | draw {s : Store} {gs₁ gs₂ : List Stake} {g : Stake} {drawn : List String} {past : List Moment}
      {id : String} : Books s (gs₁ ++ g :: gs₂) drawn past → id ∉ drawn →
      Books s (gs₁ ++ { g with id := some id } :: gs₂) (id :: drawn) (⟨gs₁.length, s, s⟩ :: past)
  | move {s t : Store} {gs₁ gs₂ : List Stake} {g g' : Stake} {drawn : List String}
      {past : List Moment} {d : Deed} : Books s (gs₁ ++ g :: gs₂) drawn past → Move d s g t g' →
      Books t (gs₁ ++ g' :: gs₂) drawn (⟨gs₁.length, s, t⟩ :: past)

/-- Two stakes do not show the same id in a field. -/
def Stake.Apart (field : Stake → Option String) (g h : Stake) : Prop :=
  ∀ id, field g = some id → field h ≠ some id

theorem Stake.Apart.symm {field : Stake → Option String} {g h : Stake} (a : Apart field g h) :
    Apart field h g :=
  fun id hh hg => a id hg hh

/-- What holds between any two steps: the store is coherent, all ids in use have been drawn, and
those in hand have been drawn by one call each and are not in use. -/
structure Sound (s : Store) (gs : List Stake) (drawn : List String) : Prop where
  coherent : s.Coherent
  used : ∀ id, id ∉ drawn → s.Unused id
  held : ∀ g ∈ gs, ∀ id, g.id = some id → id ∈ drawn ∧ s.Unused id
  apart : gs.Pairwise (Stake.Apart Stake.id)

/-! ## The stake of the call that moves, among the others -/

namespace Stake

variable {field : Stake → Option String} {gs gs₁ gs₂ : List Stake} {g h : Stake}

theorem pairwise_apart_middle : (gs₁ ++ g :: gs₂).Pairwise (Apart field) ↔
    (∀ h ∈ gs₁ ++ gs₂, Apart field g h) ∧ (gs₁ ++ gs₂).Pairwise (Apart field) := by
  rw [List.pairwise_middle Apart.symm, List.pairwise_cons]

theorem pairwise_apart_concat (apart : gs.Pairwise (Apart field)) (none : field g = none) :
    (gs ++ [g]).Pairwise (Apart field) := by
  refine List.pairwise_append.2 ⟨apart, List.pairwise_singleton _ _, fun h _ k hk id _ => ?_⟩
  rw [List.mem_singleton.1 hk, none]
  exact nofun

theorem mem_middle : h ∈ gs₁ ++ g :: gs₂ ↔ h = g ∨ h ∈ gs₁ ++ gs₂ := by
  simp only [List.mem_append, List.mem_cons]
  exact or_left_comm

theorem getElem?_middle_self : (gs₁ ++ g :: gs₂)[gs₁.length]? = some g := by
  rw [List.getElem?_append_right (Nat.le_refl _), Nat.sub_self, List.getElem?_cons_zero]

theorem getElem?_middle_of_ne {i : Nat} (hi : i ≠ gs₁.length) (h : Stake) :
    (gs₁ ++ g :: gs₂)[i]? = (gs₁ ++ h :: gs₂)[i]? := by
  rcases Nat.lt_or_gt_of_ne hi with hlt | hgt
  · rw [List.getElem?_append_left hlt, List.getElem?_append_left hlt]
  · have hle := Nat.le_of_lt hgt
    obtain ⟨k, hk⟩ := Nat.exists_eq_add_of_lt hgt
    have hsub : i - gs₁.length = k + 1 := by omega
    rw [List.getElem?_append_right hle, List.getElem?_append_right hle, hsub,
      List.getElem?_cons_succ, List.getElem?_cons_succ]

end Stake

namespace Sound

variable {s t : Store} {gs₁ gs₂ : List Stake} {g g' : Stake} {drawn : List String}

theorem of_bare (bare : s = { services := s.services }) : Sound s [] [] where
  coherent := by
    rw [bare]
    exact ⟨fun h => (nomatch h), fun h => (nomatch h), fun h => (nomatch h)⟩
  used _ _ := by
    rw [bare]
    exact ⟨rfl, rfl⟩
  held g hg := nomatch hg
  apart := .nil

theorem call {gs : List Stake} (h : Sound s gs drawn) : Sound s (gs ++ [({} : Stake)]) drawn where
  coherent := h.coherent
  used := h.used
  held g hg id hid := by
    rcases List.mem_append.1 hg with hg | hg
    · exact h.held g hg id hid
    · rw [List.mem_singleton.1 hg] at hid
      cases hid
  apart := Stake.pairwise_apart_concat h.apart rfl

theorem draw {id : String} (h : Sound s (gs₁ ++ g :: gs₂) drawn) (fresh : id ∉ drawn) :
    Sound s (gs₁ ++ { g with id := some id } :: gs₂) (id :: drawn) where
  coherent := h.coherent
  used i hi := h.used i fun hm => hi (List.mem_cons_of_mem _ hm)
  held k hk i hi := by
    rcases Stake.mem_middle.1 hk with rfl | hk
    · obtain rfl := Option.some.inj hi
      exact ⟨List.mem_cons_self, h.used _ fresh⟩
    · obtain ⟨hd, hu⟩ := h.held k (Stake.mem_middle.2 (.inr hk)) i hi
      exact ⟨List.mem_cons_of_mem _ hd, hu⟩
  apart := by
    refine Stake.pairwise_apart_middle.2 ⟨fun k hk i hi hki => ?_,
      (Stake.pairwise_apart_middle.1 h.apart).2⟩
    obtain rfl := Option.some.inj hi
    exact fresh (h.held k (Stake.mem_middle.2 (.inr hk)) _ hki).1

theorem unused (h : Sound s (gs₁ ++ g :: gs₂) drawn) (id : String) (hid : g.id = some id) :
    s.Unused id :=
  (h.held g (Stake.mem_middle.2 (.inl rfl)) id hid).2

theorem move {d : Deed} (h : Sound s (gs₁ ++ g :: gs₂) drawn) (hm : Move d s g t g') :
    Sound t (gs₁ ++ g' :: gs₂) drawn where
  coherent := hm.coherent h.unused h.coherent
  used i hi := by
    rcases hm.unused (h.used i hi) with hu | ⟨hg, -⟩
    · exact hu
    · exact absurd (h.held g (Stake.mem_middle.2 (.inl rfl)) i hg).1 hi
  held k hk i hi := by
    rcases Stake.mem_middle.1 hk with rfl | hk
    · rcases hm.id_eq with he | he
      · obtain ⟨hd, hu⟩ := h.held g (Stake.mem_middle.2 (.inl rfl)) i (he ▸ hi)
        refine ⟨hd, (hm.unused hu).resolve_right ?_⟩
        rintro ⟨-, hn⟩
        rw [hn] at hi
        cases hi
      · rw [he] at hi
        cases hi
    · obtain ⟨hd, hu⟩ := h.held k (Stake.mem_middle.2 (.inr hk)) i hi
      refine ⟨hd, (hm.unused hu).resolve_right ?_⟩
      rintro ⟨hg, -⟩
      exact (Stake.pairwise_apart_middle.1 h.apart).1 k hk i hg hi
  apart := by
    obtain ⟨ha, hp⟩ := Stake.pairwise_apart_middle.1 h.apart
    refine Stake.pairwise_apart_middle.2 ⟨fun k hk i hi => ?_, hp⟩
    rcases hm.id_eq with he | he
    · exact ha k hk i (he ▸ hi)
    · rw [he] at hi
      cases hi

end Sound

namespace Books

variable {s : Store} {gs : List Stake} {drawn : List String} {past : List Moment}

theorem sound (h : Books s gs drawn past) : Sound s gs drawn := by
  induction h with
  | start s bare => exact .of_bare bare
  | call _ ih => exact ih.call
  | draw _ fresh ih => exact ih.draw fresh
  | move _ hm ih => exact ih.move hm

/-- **Every store of the past has grown** into the one after it, and that into the one of now. -/
theorem past_grows (h : Books s gs drawn past) :
    ∀ m ∈ past, m.before.Grows m.after ∧ m.after.Grows s := by
  induction h with
  | start => exact fun m hm => nomatch hm
  | call _ ih => exact ih
  | draw _ _ ih =>
    intro m hm
    rcases List.mem_cons.1 hm with rfl | hm
    · exact ⟨.refl _, .refl _⟩
    · exact ih m hm
  | move hb hm ih =>
    have hg := hm.grows hb.sound.unused
    intro m hmem
    rcases List.mem_cons.1 hmem with rfl | hmem
    · exact ⟨hg, .refl _⟩
    · exact ⟨(ih m hmem).1, (ih m hmem).2.trans hg⟩

end Books

/-! ## Every run can be kept books on -/

/-- The call obeys the rules with a stake, and will settle it. -/
def Call.Keeps (s : Store) (c : Call) (g : Stake) : Prop :=
  Obeys c.operation.idDigits c.rest g s fun a g _ => c.operation.Settles a g

theorem Call.Keeps.grow {s t : Store} {c : Call} {g : Stake} (h : c.Keeps s g) (hst : s.Grows t) :
    c.Keeps t g :=
  Obeys.grow h hst

/-- A call that is finished has settled its stake. -/
theorem Call.Keeps.settled {s : Store} {c : Call} {g : Stake} {a : Answer} (h : c.Keeps s g)
    (finished : c.rest = .done a) : g.Clear ∧ g.duty = .free := by
  unfold Call.Keeps at h
  rw [finished] at h
  obtain ⟨clear, free, -⟩ := h s (.refl s)
  exact ⟨clear, free⟩

/-- Lists that correspond can be cut at the same place. -/
theorem forall₂_cut {α β : Type*} {R : α → β → Prop} {xs ys : List α} {x : α} {zs : List β}
    (h : List.Forall₂ R (xs ++ x :: ys) zs) :
    ∃ zs₁ z zs₂, zs = zs₁ ++ z :: zs₂ ∧ List.Forall₂ R xs zs₁ ∧ R x z ∧ List.Forall₂ R ys zs₂ := by
  induction xs generalizing zs with
  | nil =>
    obtain ⟨z, zs₂, hz, hys, rfl⟩ := List.forall₂_cons_left_iff.1 h
    exact ⟨[], z, zs₂, rfl, .nil, hz, hys⟩
  | cons w xs ih =>
    obtain ⟨z, zs, hz, hrest, rfl⟩ := List.forall₂_cons_left_iff.1 h
    obtain ⟨zs₁, v, zs₂, rfl, h₁, hv, h₂⟩ := ih hrest
    exact ⟨z :: zs₁, v, zs₂, rfl, .cons hz h₁, hv, h₂⟩

namespace Scene

variable {key : Codec.Key} {σ : Scene}

/-- **The books can be kept on every run**: each call has a stake with which it obeys. -/
theorem Reachable.books (h : σ.Reachable key) :
    ∃ gs, Books σ.store gs σ.drawn σ.past ∧ List.Forall₂ (Call.Keeps σ.store) σ.calls gs := by
  induction h with
  | start p bare => exact ⟨[], .start p.store bare, .nil⟩
  | next _ step ih =>
    obtain ⟨gs, hb, hk⟩ := ih
    cases step with
    | call op =>
      refine ⟨gs ++ [({} : Stake)], hb.call, List.rel_append hk (.cons ?_ .nil)⟩
      exact op.obeys key _
    | turn before after c p rest drawn here turn =>
      rw [here] at hk
      obtain ⟨gs₁, g, gs₂, rfl, h₁, hc, h₂⟩ := forall₂_cut hk
      rw [h₁.length_eq]
      rcases hc.turn hb.sound.coherent turn with
        ⟨rfl, d, g', hm, hrest⟩ | ⟨id, fresh, rfl, rfl, hrest⟩
      · have hg := hm.grows hb.sound.unused
        refine ⟨gs₁ ++ g' :: gs₂, hb.move hm, List.rel_append ?_ (.cons (hrest hg) ?_)⟩
        · exact h₁.imp fun _ _ h => h.grow hg
        · exact h₂.imp fun _ _ h => h.grow hg
      · exact ⟨_, hb.draw fresh, List.rel_append h₁ (.cons hrest h₂)⟩

/-- The stake of a call stands in the call's place. -/
theorem keeps_of_getElem? {gs : List Stake} {s : Store} {calls : List Call}
    (hk : List.Forall₂ (Call.Keeps s) calls gs) {i : Nat} {c : Call} (hi : calls[i]? = some c) :
    ∃ g, gs[i]? = some g ∧ c.Keeps s g := by
  obtain ⟨hlt, rfl⟩ := List.getElem?_eq_some_iff.1 hi
  have hlt' : i < gs.length := hk.length_eq ▸ hlt
  exact ⟨gs[i], List.getElem?_eq_getElem hlt', hk.get hlt hlt'⟩

/-- In a quiet scene every call has settled its stake. -/
theorem Quiet.settles (quiet : σ.Quiet) {gs : List Stake}
    (hk : List.Forall₂ (Call.Keeps σ.store) σ.calls gs) : ∀ g ∈ gs, g.Clear ∧ g.duty = .free := by
  intro g hg
  obtain ⟨i, hi, rfl⟩ := List.getElem_of_mem hg
  have hi' : i < σ.calls.length := hk.length_eq ▸ hi
  have keeps := hk.get hi' hi
  obtain ⟨a, ha⟩ := quiet σ.calls[i] (List.getElem_mem hi')
  exact keeps.settled ha

end Scene

end SlotBroker
