import NanoIp.Lib.Duplex
import NanoIp.Lib.Run

/-!
# Two parties that act independently

A run of two parties is a run of each of them, one step at a time in any order. How
they reach each other is left to the condition on the steps: over an unreliable
network it admits the reception of whatever the other party has ever sent, at any
time and any number of times.
-/
namespace Lib

variable {σ ι : Type*}

namespace Parties

def step (step : σ → ι → Option σ) (d : Side → σ) (i : Side × ι) : Option (Side → σ) :=
  (step (d i.1) i.2).map (Function.update d i.1)

variable {step : σ → ι → Option σ} {ok : (Side → σ) → Side × ι → Prop} {d₀ d d' : Side → σ}

theorem step_some {i : Side × ι} (hs : Parties.step step d i = some d') :
    ∃ x, step (d i.1) i.2 = some x ∧ d' = Function.update d i.1 x := by
  obtain ⟨x, hx, rfl⟩ := Option.map_eq_some_iff.mp hs
  exact ⟨x, hx, rfl⟩

/-- A relation between each party and the other holds in every run if the steps of either
one of the two keep it. -/
theorem invariant {I : Side → σ → σ → Prop} (hr : Reach (Parties.step step) ok d₀ d)
    (h0 : ∀ s, I s (d₀ s) (d₀ s.other))
    (hfrom : ∀ d s i x, ok d (s, i) → step (d s) i = some x → I s (d s) (d s.other) →
      I s x (d s.other))
    (hto : ∀ d s i x, ok d (s, i) → step (d s) i = some x → I s.other (d s.other) (d s) →
      I s.other (d s.other) x) : ∀ s, I s (d s) (d s.other) := by
  refine hr.invariant (I := fun d => ∀ s, I s (d s) (d s.other)) h0 fun d i d' hi ho hs => ?_
  obtain ⟨s, i⟩ := i
  obtain ⟨x, hx, rfl⟩ := step_some hs
  refine Side.forall_of s ?_ ?_
  · rw [Function.update_self, Function.update_of_ne s.other_ne]
    exact hfrom d s i x ho hx (hi s)
  · have hself := hi s.other
    rw [Side.other_other] at hself ⊢
    rw [Function.update_self, Function.update_of_ne s.other_ne]
    exact hto d s i x ho hx hself

end Parties

end Lib
