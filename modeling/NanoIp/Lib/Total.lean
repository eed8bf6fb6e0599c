import Mathlib.Logic.Basic

/-!
# Runs of a total step function

A run is a fold of the step function over a list of inputs. `Each` says that every input
of a run meets a condition in the state it finds.
-/
namespace Lib

variable {σ ι : Type*}

/-- Every input of the run from `s` satisfies `ok` in the state before it. -/
def Each (step : σ → ι → σ) (ok : σ → ι → Prop) : σ → List ι → Prop
  | _, [] => True
  | s, i :: is => ok s i ∧ Each step ok (step s i) is

instance Each.decidable (step : σ → ι → σ) (ok : σ → ι → Prop) [∀ s i, Decidable (ok s i)] :
    ∀ s is, Decidable (Each step ok s is)
  | _, [] => inferInstanceAs (Decidable True)
  | s, i :: is =>
    have := Each.decidable step ok (step s i) is
    inferInstanceAs (Decidable (ok s i ∧ Each step ok (step s i) is))

section Each

variable {step : σ → ι → σ} {ok : σ → ι → Prop}

theorem Each.invariant {I : σ → Prop} (hstep : ∀ s i, I s → ok s i → I (step s i)) {is : List ι} :
    ∀ {s : σ}, Each step ok s is → I s → I (is.foldl step s) := by
  induction is with
  | nil => exact fun _ hs => hs
  | cons i is ih => exact fun h hs => ih h.2 (hstep _ i hs h.1)

end Each

/-- The inputs of a run that are not skipped in the state they find. -/
def keep (step : σ → ι → σ) (skip : σ → ι → Prop) [∀ s i, Decidable (skip s i)] :
    σ → List ι → List ι
  | _, [] => []
  | s, i :: is => if skip s i then keep step skip (step s i) is else i :: keep step skip
      (step s i) is

/-- Where a skipped input does not show and the others keep two runs together, the run with
all inputs and the run without the skipped ones stay together. -/
theorem foldl_keep {step : σ → ι → σ} {skip : σ → ι → Prop} [∀ s i, Decidable (skip s i)]
    {ok : σ → ι → Prop} {R : σ → σ → Prop}
    (hskip : ∀ s t i, R s t → ok s i → skip s i → R (step s i) t)
    (hkeep : ∀ s t i, R s t → ok s i → ¬ skip s i → R (step s i) (step t i)) {is : List ι} :
    ∀ {s t : σ}, Each step ok s is → R s t →
      R (is.foldl step s) ((keep step skip s is).foldl step t) := by
  induction is with
  | nil => exact fun _ h => h
  | cons i is ih =>
    intro s t hok h
    rw [keep]
    by_cases hs : skip s i
    · rw [if_pos hs]
      exact ih hok.2 (hskip s t i h hok.1 hs)
    · rw [if_neg hs]
      exact ih hok.2 (hkeep s t i h hok.1 hs)

/-- The inputs that a run comes to, where each input stands for a list of others. -/
def translate {κ : Type*} (step : σ → ι → σ) (tr : σ → ι → List κ) : σ → List ι → List κ
  | _, [] => []
  | s, i :: is => tr s i ++ translate step tr (step s i) is

/-- Where each input keeps two runs together with those that it stands for, the run and what it
comes to stay together. -/
theorem foldl_translate {κ τ : Type*} {step : σ → ι → σ} {step' : τ → κ → τ} {tr : σ → ι → List κ}
    {ok : σ → ι → Prop} {R : σ → τ → Prop}
    (hstep : ∀ s t i, R s t → ok s i → R (step s i) ((tr s i).foldl step' t)) {is : List ι} :
    ∀ {s : σ} {t : τ}, Each step ok s is → R s t →
      R (is.foldl step s) ((translate step tr s is).foldl step' t) := by
  induction is with
  | nil => exact fun _ h => h
  | cons i is ih =>
    intro s t hok h
    rw [translate, List.foldl_append]
    exact ih hok.2 (hstep s t i h hok.1)

end Lib
