import NanoIp.Lib.Run
import Mathlib.Logic.Function.Basic

/-!
# Parties that hear what was said

Any number of parties act one at a time, in any order, and an act may say something. What was said
stays said: which of it a party hears, how often and when, is left to the condition on the steps.
Whatever no party can make wrong while it hears nothing wrong does not become wrong.
-/
namespace Lib

variable {κ σ ι μ : Type*}

/-- The parties, and all that was said so far. -/
structure Hearsay (κ σ μ : Type*) where
  party : κ → σ
  said : List μ

namespace Hearsay

/-- One party acts: `act` gives what becomes of it and what it says. -/
def step [DecidableEq κ] (act : σ → ι → Option (σ × List μ)) (x : Hearsay κ σ μ) (i : κ × ι) :
    Option (Hearsay κ σ μ) :=
  (act (x.party i.1) i.2).map fun y => ⟨Function.update x.party i.1 y.1, x.said ++ y.2⟩

/-- What is right of a party, and of what is said, in view of all that was said. Saying more makes
nothing wrong. -/
structure Judgement (σ μ : Type*) where
  party : List μ → σ → Prop
  said : List μ → μ → Prop
  party_append : ∀ {before : List μ} (more : List μ) {s : σ}, party before s →
    party (before ++ more) s
  said_append : ∀ {before : List μ} (more : List μ) {m : μ}, said before m → said (before ++ more) m

/-- Everything is right. -/
structure Sound (J : Judgement σ μ) (x : Hearsay κ σ μ) : Prop where
  party : ∀ k, J.party x.said (x.party k)
  said : ∀ m ∈ x.said, J.said x.said m

variable [DecidableEq κ] {act : σ → ι → Option (σ × List μ)} {ok : Hearsay κ σ μ → κ × ι → Prop}
  {J : Judgement σ μ} {x₀ x : Hearsay κ σ μ}

/-- If a party that is right does and says what is right as long as all that was said is right, then
everything stays right. -/
theorem sound (hr : Reach (Hearsay.step act) ok x₀ x) (h0 : Sound J x₀)
    (hact : ∀ x k i y, Sound J x → ok x (k, i) → act (x.party k) i = some y →
      J.party (x.said ++ y.2) y.1 ∧ ∀ m ∈ y.2, J.said (x.said ++ y.2) m) : Sound J x := by
  refine hr.invariant h0 fun x i x' hx hok hs => ?_
  obtain ⟨k, i⟩ := i
  obtain ⟨y, hy, rfl⟩ := Option.map_eq_some_iff.mp hs
  obtain ⟨hparty, hsaid⟩ := hact x k i y hx hok hy
  constructor
  · intro j
    by_cases hj : j = k
    · subst hj
      change J.party (x.said ++ y.2) (Function.update x.party j y.1 j)
      rw [Function.update_self]
      exact hparty
    · change J.party (x.said ++ y.2) (Function.update x.party k y.1 j)
      rw [Function.update_of_ne hj]
      exact J.party_append y.2 (hx.party j)
  · intro m hm
    rcases List.mem_append.mp hm with hm | hm
    · exact J.said_append y.2 (hx.said m hm)
    · exact hsaid m hm

end Hearsay

end Lib
