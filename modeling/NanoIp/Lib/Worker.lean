import Mathlib.Algebra.Order.BigOperators.Group.Finset
import NanoIp.Lib.Run

/-!
# A worker that is woken by flags

Producers add to queues and set the flag of the queue afterwards. The worker waits for a flag,
takes and clears all of them at once, and empties the queues whose flags it has taken, in any
order. What is added while it works is found in the same round, or its flag is set for the next
one.
-/
namespace Lib

variable {κ α : Type*}

/-- The queues, their flags, how many producers have added and not yet set the flag, and the queues
that the worker has still to empty unless it waits. -/
@[ext]
structure Worker (κ α : Type*) where
  queue : κ → List α
  flag : κ → Bool
  late : κ → Nat
  task : Option (κ → Bool)

namespace Worker

/-- What happens next. -/
inductive Event (κ α : Type*) where
  | add (k : κ) (a : α)
  /-- a producer will set the flag, although it has nothing to add -/
  | call (k : κ)
  | signal (k : κ)
  | wake
  | take (k : κ)
  | next (k : κ)
  | sleep

def todo (s : Worker κ α) (k : κ) : Bool := s.task.any fun todo => todo k

/-- No wake-up is lost: for a queue that has something the worker comes, is called or will be. -/
def Woken (s : Worker κ α) : Prop :=
  ∀ k, s.queue k ≠ [] → s.flag k = true ∨ 0 < s.late k ∨ s.todo k = true

theorem Woken.empty {s : Worker κ α} (h : Woken s) {k : κ} (hflag : s.flag k = false)
    (hlate : s.late k = 0) (htodo : s.todo k = false) : s.queue k = [] := by
  by_contra hne
  rcases h k hne with hset | hpos | hdo
  · exact Bool.noConfusion (hflag.symm.trans hset)
  · exact absurd hlate (Nat.ne_of_gt hpos)
  · exact Bool.noConfusion (htodo.symm.trans hdo)

theorem todo_of_none {s : Worker κ α} (htask : s.task = none) (k : κ) : s.todo k = false := by
  rw [todo, htask]
  rfl

variable [DecidableEq κ] [Fintype κ]

def step (s : Worker κ α) : Event κ α → Option (Worker κ α)
  | .add k a =>
    some
      { s with
        queue := Function.update s.queue k (s.queue k ++ [a])
        late := Function.update s.late k (s.late k + 1) }
  | .call k => some { s with late := Function.update s.late k (s.late k + 1) }
  | .signal k =>
    some { s with flag := Function.update s.flag k true,
                  late := Function.update s.late k (s.late k - 1) }
  | .wake =>
    match s.task with
    | none => some { s with flag := fun _ => false, task := some s.flag }
    | some _ => none
  | .take k =>
    match s.queue k with
    | _ :: rest => if s.todo k then some
        { s with queue := Function.update s.queue k rest } else none
    | [] => none
  | .next k =>
    match s.task, s.queue k with
    | some todo, [] => some { s with task := some (Function.update todo k false) }
    | _, _ => none
  | .sleep => if s.task.isSome ∧ ∀ k, s.todo k = false then some { s with task := none } else none

/-- What goes on when nothing is added. -/
def Works (s : Worker κ α) : Event κ α → Prop
  | .add _ _ => False
  | .call _ => False
  | .signal k => 0 < s.late k
  | .wake => ∃ k, s.flag k = true
  | .take _ => True
  | .next k => s.todo k = true
  | .sleep => True

instance (s : Worker κ α) (e : Event κ α) : Decidable (Works s e) := by
  cases e <;> unfold Works <;> infer_instance

def weight (s : Worker κ α) (k : κ) : Nat :=
  (s.queue k).length + 3 * (s.flag k).toNat + 4 * s.late k + (s.todo k).toNat

def rank (s : Worker κ α) : Nat := ∑ k, s.weight k + s.task.isSome.toNat

section Step

variable {s s' : Worker κ α} {e : Event κ α} {k : κ}

theorem wake_some (h : step s .wake = some s') :
    s.task = none ∧ s' = { s with flag := fun _ => false, task := some s.flag } := by
  simp only [step] at h
  split at h
  · next hnone => exact ⟨hnone, (Option.some.inj h).symm⟩
  · cases h

theorem take_some (h : step s (.take k) = some s') :
    ∃ a rest, s.queue k = a :: rest ∧ s.todo k = true ∧
    s' = { s with queue := Function.update s.queue k rest } := by
  simp only [step] at h
  split at h
  · next a rest hq =>
    split_ifs at h with htodo
    exact ⟨a, rest, hq, htodo, (Option.some.inj h).symm⟩
  · cases h

theorem next_some (h : step s (.next k) = some s') : ∃ todo, s.task = some todo ∧ s.queue k = [] ∧
    s' = { s with task := some (Function.update todo k false) } := by
  simp only [step] at h
  split at h
  · next todo htask hq => exact ⟨todo, htask, hq, (Option.some.inj h).symm⟩
  · cases h

theorem sleep_some (h : step s .sleep = some s') :
    s.task.isSome ∧ (∀ k, s.todo k = false) ∧ s' = { s with task := none } := by
  simp only [step] at h
  split_ifs at h with hdone
  exact ⟨hdone.1, hdone.2, (Option.some.inj h).symm⟩

theorem take_eq {a : α} {rest : List α} (hq : s.queue k = a :: rest) (htodo : s.todo k = true) :
    step s (.take k) = some { s with queue := Function.update s.queue k rest } := by
  simp only [step, hq, if_pos htodo]

theorem next_eq {todo : κ → Bool} (htask : s.task = some todo) (hq : s.queue k = []) :
    step s (.next k) = some { s with task := some (Function.update todo k false) } := by
  simp only [step, hq, htask]

theorem sleep_eq (hsome : s.task.isSome) (hdone : ∀ k, s.todo k = false) :
    step s .sleep = some { s with task := none } := by
  simp only [step, if_pos (And.intro hsome hdone)]

theorem step_woken (h : Woken s) (hs : step s e = some s') : Woken s' := by
  cases e with
  | add k a =>
    obtain rfl := Option.some.inj hs
    intro j hj
    by_cases hjk : j = k
    · refine .inr (.inl ?_)
      show 0 < Function.update s.late k (s.late k + 1) j
      rw [hjk, Function.update_self]
      exact Nat.succ_pos _
    · have hqueue : s.queue j ≠ [] := by
        rw [← Function.update_of_ne hjk (s.queue k ++ [a]) s.queue]
        exact hj
      show _ ∨ 0 < Function.update s.late k (s.late k + 1) j ∨ _
      rw [Function.update_of_ne hjk]
      exact h j hqueue
  | call k =>
    obtain rfl := Option.some.inj hs
    intro j hj
    rcases h j hj with hflag | hlate | htodo
    · exact .inl hflag
    · refine .inr (.inl (hlate.trans_le ?_))
      show s.late j ≤ Function.update s.late k (s.late k + 1) j
      rw [Function.update_apply]
      split_ifs with hjk
      · rw [hjk]
        exact Nat.le_succ _
      · exact Nat.le_refl _
    · exact .inr (.inr htodo)
  | signal k =>
    obtain rfl := Option.some.inj hs
    intro j hj
    show Function.update s.flag k true j = true ∨ 0 < Function.update s.late k (s.late k - 1) j ∨ _
    by_cases hjk : j = k
    · rw [hjk, Function.update_self]
      exact .inl rfl
    · rw [Function.update_of_ne hjk, Function.update_of_ne hjk]
      exact h j hj
  | wake =>
    obtain ⟨hnone, rfl⟩ := wake_some hs
    intro j hj
    -- the flags are what the worker has still to do now
    rcases h j hj with hflag | hlate | htodo
    · exact .inr (.inr hflag)
    · exact .inr (.inl hlate)
    · rw [todo, hnone] at htodo
      exact Bool.noConfusion htodo
  | take k =>
    obtain ⟨a, rest, hq, htodo, rfl⟩ := take_some hs
    intro j hj
    by_cases hjk : j = k
    · exact .inr (.inr (hjk ▸ htodo))
    · have hqueue : s.queue j ≠ [] := by
        rw [← Function.update_of_ne hjk rest s.queue]
        exact hj
      exact h j hqueue
  | next k =>
    obtain ⟨todo, htask, hq, rfl⟩ := next_some hs
    intro j hj
    have hjk : j ≠ k := fun heq => hj (heq ▸ hq)
    rcases h j hj with hflag | hlate | htodo
    · exact .inl hflag
    · exact .inr (.inl hlate)
    · refine .inr (.inr ?_)
      rw [Worker.todo, htask] at htodo
      exact (Function.update_of_ne hjk _ _).trans htodo
  | sleep =>
    obtain ⟨-, hdone, rfl⟩ := sleep_some hs
    intro j hj
    rcases h j hj with hflag | hlate | htodo
    · exact .inl hflag
    · exact .inr (.inl hlate)
    · exact Bool.noConfusion ((hdone j).symm.trans htodo)

theorem rank_lt_of_weight (hk : s'.weight k < s.weight k)
    (hother : ∀ j, j ≠ k → s'.weight j = s.weight j) (htask : s'.task.isSome = s.task.isSome) :
    rank s' < rank s := by
  have hsum : ∑ j, s'.weight j < ∑ j, s.weight j := by
    refine Finset.sum_lt_sum (fun j _ => ?_) ⟨k, Finset.mem_univ k, hk⟩
    by_cases hj : j = k
    · exact hj ▸ hk.le
    · exact (hother j hj).le
  rw [rank, rank, htask]
  exact Nat.add_lt_add_right hsum _

/-- Each step of the work lowers the rank. -/
theorem works_rank (hw : Works s e) (hs : step s e = some s') : rank s' < rank s := by
  cases e with
  | add k a => exact hw.elim
  | call k => exact hw.elim
  | signal k =>
    obtain rfl := Option.some.inj hs
    refine rank_lt_of_weight (k := k) ?_ (fun j hj => ?_) rfl
    · have hpos : 0 < s.late k := hw
      have hflag := Bool.toNat_le (s.flag k)
      simp only [weight, todo, Function.update_self, Bool.toNat_true]
      omega
    · simp only [weight, todo, Function.update_of_ne hj]
  | wake =>
    obtain ⟨k, hk⟩ := hw
    obtain ⟨hnone, rfl⟩ := wake_some hs
    -- each flag becomes something to do, which counts less
    have hweight : ∀ j, s.weight j =
        ({ s with flag := fun _ => false, task := some s.flag } : Worker κ α).weight j +
          2 * (s.flag j).toNat := by
      intro j
      simp only [weight, todo, hnone, Option.any_none, Option.any_some, Bool.toNat_false]
      omega
    have hpos : 2 * (s.flag k).toNat ≤ ∑ j, 2 * (s.flag j).toNat :=
      Finset.single_le_sum (f := fun j => 2 * (s.flag j).toNat) (fun _ _ => Nat.zero_le _)
        (Finset.mem_univ k)
    have hsum : ∑ j, s.weight j = ∑ j,
      ({ s with flag := fun _ => false, task := some s.flag } : Worker κ α).weight j +
        ∑ j, 2 * (s.flag j).toNat := by
      rw [← Finset.sum_add_distrib]
      exact Finset.sum_congr rfl fun j _ => hweight j
    rw [hk, Bool.toNat_true] at hpos
    rw [rank, rank, hsum, hnone, Option.isSome_none, Option.isSome_some, Bool.toNat_true,
      Bool.toNat_false]
    omega
  | take k =>
    obtain ⟨a, rest, hq, htodo, rfl⟩ := take_some hs
    refine rank_lt_of_weight (k := k) ?_ (fun j hj => ?_) rfl
    · simp only [weight, todo, Function.update_self, hq, List.length_cons]
      omega
    · simp only [weight, todo, Function.update_of_ne hj]
  | next k =>
    obtain ⟨todo, htask, hq, rfl⟩ := next_some hs
    have htodo : todo k = true := by
      have hk : s.todo k = true := hw
      rw [Worker.todo, htask] at hk
      exact hk
    refine rank_lt_of_weight (k := k) ?_ (fun j hj => ?_) (by rw [htask]; rfl)
    · simp only [weight, Worker.todo, htask, Option.any_some, Function.update_self, htodo,
        Bool.toNat_true,
        Bool.toNat_false]
      omega
    · simp only [weight, Worker.todo, htask, Option.any_some, Function.update_of_ne hj]
  | sleep =>
    obtain ⟨hsome, hdone, rfl⟩ := sleep_some hs
    have hsum : ∑ j, ({ s with task := none } : Worker κ α).weight j = ∑ j, s.weight j := by
      refine Finset.sum_congr rfl fun j _ => ?_
      simp only [weight, hdone j]
      rfl
    rw [rank, rank, hsum, hsome]
    exact Nat.lt_succ_self _

theorem runInputs_rank {es : List (Event κ α)}
    (hrun : runInputs step Works s es = some s') : es.length + rank s' ≤ rank s := by
  obtain ⟨r, rfl, hle⟩ := runInputs_ranked (P := fun s r => rank s = r)
    (fun s e s' r hr hw hs => ⟨rank s', hr ▸ works_rank hw hs, rfl⟩) rfl hrun
  exact hle

theorem Woken.run {ok : Worker κ α → Event κ α → Prop} [∀ s e, Decidable (ok s e)]
    {es : List (Event κ α)} (h : Woken s) (hrun : runInputs step ok s es = some s') : Woken s' :=
  (reach_of_runInputs hrun).invariant h fun _ _ _ hw _ hs => step_woken hw hs

end Step

end Worker

end Lib
