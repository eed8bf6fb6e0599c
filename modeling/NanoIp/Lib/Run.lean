import Mathlib.Logic.Basic
import Mathlib.Tactic.SplitIfs

/-!
# Runs of a partial step function

A system is a function `step : σ → ι → Option σ` that says what an input does in
a state, or that it cannot occur there. `Reach` collects the states of the runs
whose steps all satisfy a side condition, and `observe` runs an observer beside
the system without disturbing it.
-/
namespace Lib

variable {σ ι γ : Type*}

/-- The states reached from `s₀` by steps that satisfy `ok`. -/
inductive Reach (step : σ → ι → Option σ) (ok : σ → ι → Prop) (s₀ : σ) : σ → Prop
  | refl : Reach step ok s₀ s₀
  | tail {s s' : σ} {i : ι} : Reach step ok s₀ s → ok s i → step s i = some s' → Reach step ok s₀ s'

namespace Reach

variable {step : σ → ι → Option σ} {ok : σ → ι → Prop} {s₀ s s' : σ}

/-- A predicate that holds at the start and that every admitted step preserves
holds in every state reached. -/
theorem invariant {I : σ → Prop} (h : Reach step ok s₀ s) (h0 : I s₀)
    (hstep : ∀ s i s', I s → ok s i → step s i = some s' → I s') : I s := by
  induction h with
  | refl => exact h0
  | tail _ hok hs ih => exact hstep _ _ _ ih hok hs

theorem mono {ok' : σ → ι → Prop} (h : Reach step ok s₀ s) (hok : ∀ s i, ok s i → ok' s i) :
    Reach step ok' s₀ s := by
  induction h with
  | refl => exact refl
  | tail _ ho hs ih => exact ih.tail (hok _ _ ho) hs

theorem trans (h : Reach step ok s₀ s) (h' : Reach step ok s s') : Reach step ok s₀ s' := by
  induction h' with
  | refl => exact h
  | tail _ ho hs ih => exact ih.tail ho hs

end Reach

/-- Every input is admitted. -/
def anyStep : σ → ι → Prop := fun _ _ => True

instance : ∀ (s : σ) (i : ι), Decidable (anyStep s i) := fun _ _ => inferInstanceAs (Decidable True)

section RunInputs

variable {step : σ → ι → Option σ} {ok : σ → ι → Prop} [∀ s i, Decidable (ok s i)]

/-- Perform a list of inputs, as long as each can occur and is admitted. -/
def runInputs (step : σ → ι → Option σ) (ok : σ → ι → Prop) [∀ s i, Decidable (ok s i)] :
    σ → List ι → Option σ
  | s, [] => some s
  | s, i :: is => if ok s i then (step s i).bind fun s' => runInputs step ok s' is else none

theorem runInputs_cons {s s' s'' : σ} {i : ι} {is : List ι} (hok : ok s i) (hs : step s i = some s')
    (hrun : runInputs step ok s' is = some s'') : runInputs step ok s (i :: is) = some s'' := by
  rw [runInputs, if_pos hok, hs, Option.bind_some, hrun]

theorem runInputs_single {s s' : σ} {i : ι} (hok : ok s i) (hs : step s i = some s') :
    runInputs step ok s [i] = some s' :=
  runInputs_cons hok hs rfl

theorem reach_of_runInputs {is : List ι} :
    ∀ {s s' : σ}, runInputs step ok s is = some s' → Reach step ok s s' := by
  induction is with
  | nil =>
    intro s s' h
    obtain rfl := Option.some.inj h
    exact .refl
  | cons i is ih =>
    intro s s' h
    rw [runInputs] at h
    split_ifs at h with hok
    obtain ⟨t, ht, hrest⟩ := Option.bind_eq_some_iff.mp h
    exact (Reach.tail .refl hok ht).trans (ih hrest)

theorem exists_of_runInputs (step : σ → ι → Option σ) (ok : σ → ι → Prop)
    [∀ s i, Decidable (ok s i)] (s : σ) (is : List ι) (p : σ → Bool)
    (h : (runInputs step ok s is).any p = true) :
    ∃ s', Reach step ok s s' ∧ p s' = true := by
  obtain ⟨s', hs, hp⟩ := (Option.any_eq_true p _).mp h
  exact ⟨s', reach_of_runInputs hs, hp⟩

/-- Where every step lowers the rank of a state, a run is no longer than the rank. -/
theorem runInputs_ranked {P : σ → Nat → Prop}
    (hstep : ∀ s i s' r, P s r → ok s i → step s i = some s' → ∃ r' < r, P s' r') {is : List ι} :
    ∀ {s s' : σ} {r : Nat}, P s r → runInputs step ok s is = some s' → ∃ r', P s' r' ∧
      is.length + r' ≤ r := by
  induction is with
  | nil =>
    intro s s' r h hrun
    obtain rfl := Option.some.inj hrun
    exact ⟨r, h, Nat.le_of_eq (Nat.zero_add r)⟩
  | cons i is ih =>
    intro s s' r h hrun
    rw [runInputs] at hrun
    split_ifs at hrun with hok
    obtain ⟨t, ht, hrest⟩ := Option.bind_eq_some_iff.mp hrun
    obtain ⟨r', hlt, h'⟩ := hstep s i t r h hok ht
    obtain ⟨r'', hend, hle⟩ := ih h' hrest
    refine ⟨r'', hend, ?_⟩
    rw [List.length_cons]
    omega

end RunInputs

/-- Where every step lowers the rank of a state, and a state of a positive rank has a
step, some run ends in a state of rank zero. -/
theorem Reach.exists_zero {step : σ → ι → Option σ} {ok : σ → ι → Prop} {P : σ → Nat → Prop}
    (hstep : ∀ s i s' r, P s r → ok s i → step s i = some s' → ∃ r' < r, P s' r')
    (hgo : ∀ s r, 0 < r → P s r → ∃ i s', ok s i ∧ step s i = some s') (r : Nat) :
    ∀ {s : σ}, P s r → ∃ s', Reach step ok s s' ∧ P s' 0 := by
  induction r using Nat.strongRecOn with
  | ind r ih =>
    intro s h
    rcases Nat.eq_zero_or_pos r with rfl | hr
    · exact ⟨s, .refl, h⟩
    · obtain ⟨i, t, hok, ht⟩ := hgo s r hr h
      obtain ⟨r', hlt, h'⟩ := hstep s i t r h hok ht
      obtain ⟨s', hreach, hzero⟩ := ih r' hlt h'
      exact ⟨s', (Reach.tail .refl hok ht).trans hreach, hzero⟩

/-- Run an observer that sees each step's pre-state, input and post-state. -/
def observe (step : σ → ι → Option σ) (see : γ → σ → ι → σ → γ) (x : σ × γ) (i : ι) :
    Option (σ × γ) :=
  (step x.1 i).map fun s' => (s', see x.2 x.1 i s')

theorem observe_some {step : σ → ι → Option σ} {see : γ → σ → ι → σ → γ} {x y : σ × γ} {i : ι} :
    observe step see x i = some y ↔ step x.1 i = some y.1 ∧ y.2 = see x.2 x.1 i y.1 := by
  constructor
  · intro h
    obtain ⟨s', hs, rfl⟩ := Option.map_eq_some_iff.mp h
    exact ⟨hs, rfl⟩
  · rintro ⟨hs, hg⟩
    rw [observe, hs, Option.map_some, ← hg]

end Lib
