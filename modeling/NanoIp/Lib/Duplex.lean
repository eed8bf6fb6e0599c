import Mathlib.Logic.Function.Basic

/-!
# Two parties over reliable channels

Both parties run the same partial step function. What a step of a party emits is
appended to the other party's inbox, and the only way a message leaves an inbox is
its delivery, oldest first: nothing is lost, duplicated or overtaken.
-/
namespace Lib

/-- The two ends of a connection. -/
inductive Side where
  | left | right
  deriving DecidableEq, Repr

namespace Side

def other : Side → Side
  | left => right
  | right => left

@[simp] theorem other_other (s : Side) : s.other.other = s := by cases s <;> rfl

@[simp] theorem other_ne (s : Side) : s.other ≠ s := by cases s <;> exact nofun

@[simp] theorem ne_other (s : Side) : s ≠ s.other := (other_ne s).symm

theorem eq_or_other (s t : Side) : t = s ∨ t = s.other := by
  cases s <;> cases t
  · exact .inl rfl
  · exact .inr rfl
  · exact .inr rfl
  · exact .inl rfl

theorem forall_of {P : Side → Prop} (s : Side) (hs : P s) (ho : P s.other) : ∀ t, P t := by
  intro t
  rcases eq_or_other s t with rfl | rfl
  · exact hs
  · exact ho

end Side

instance (P : Side → Prop) [DecidablePred P] : Decidable (∀ s, P s) :=
  decidable_of_iff (P .left ∧ P .right)
    ⟨fun h s => Side.forall_of .left h.1 h.2 s, fun h => ⟨h _, h _⟩⟩

variable {σ ι α μ : Type*}

/-- The state of both parties and the messages on their way to each, oldest first. -/
structure Duplex (σ μ : Type*) where
  node : Side → σ
  inbox : Side → List μ

namespace Duplex

/-- A party acts by itself, or takes the next message. -/
inductive Input (ι α : Type*) where
  | act (s : Side) (i : ι)
  | deliver (s : Side) (a : α)

/-- Party `s` goes to `x`, keeps `rest` in its inbox and emits `sent`. -/
def after (d : Duplex σ μ) (s : Side) (x : σ) (rest sent : List μ) : Duplex σ μ where
  node := Function.update d.node s x
  inbox := Function.update (Function.update d.inbox s rest) s.other (d.inbox s.other ++ sent)

section After

variable (d : Duplex σ μ) (s : Side) (x : σ) (rest sent : List μ)

@[simp] theorem after_node : (d.after s x rest sent).node s = x := Function.update_self _ _ _

@[simp] theorem after_node_other : (d.after s x rest sent).node s.other = d.node s.other :=
  Function.update_of_ne s.other_ne _ _

@[simp] theorem after_inbox : (d.after s x rest sent).inbox s = rest :=
  (Function.update_of_ne s.ne_other _ _).trans (Function.update_self _ _ _)

@[simp] theorem after_inbox_other :
    (d.after s x rest sent).inbox s.other = d.inbox s.other ++ sent :=
  Function.update_self _ _ _

end After

/-- One step of the pair: `receive` turns a message and the circumstances of its
delivery into an input, and `emits` is what a step of a party sends. -/
def step (step : σ → ι → Option σ) (receive : μ → α → ι) (emits : σ → σ → List μ) (d : Duplex σ μ) :
    Input ι α → Option (Duplex σ μ)
  | .act s i => (step (d.node s) i).map fun x => d.after s x (d.inbox s) (emits (d.node s) x)
  | .deliver s a =>
    match d.inbox s with
    | [] => none
    | m :: rest => (step (d.node s) (receive m a)).map fun x =>
        d.after s x rest (emits (d.node s) x)

variable {step : σ → ι → Option σ} {receive : μ → α → ι} {emits : σ → σ → List μ}
  {d d' : Duplex σ μ}

theorem step_act {s : Side} {i : ι} (h : d.step step receive emits (.act s i) = some d') :
    ∃ x, step (d.node s) i = some x ∧ d' = d.after s x (d.inbox s) (emits (d.node s) x) := by
  obtain ⟨x, hx, rfl⟩ := Option.map_eq_some_iff.mp h
  exact ⟨x, hx, rfl⟩

theorem step_deliver {s : Side} {a : α} (h : d.step step receive emits (.deliver s a) = some d') :
    ∃ m rest x, d.inbox s = m :: rest ∧ step (d.node s) (receive m a) = some x ∧
      d' = d.after s x rest (emits (d.node s) x) := by
  rw [Duplex.step] at h
  split at h
  · cases h
  · next m rest hm =>
    obtain ⟨x, hx, rfl⟩ := Option.map_eq_some_iff.mp h
    exact ⟨m, rest, x, hm, hx, rfl⟩

end Duplex

end Lib
