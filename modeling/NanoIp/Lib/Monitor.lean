import Mathlib.Algebra.Order.BigOperators.Group.Finset
import NanoIp.Lib.Run

/-!
# Tasks that wait at a condition variable

Tasks share a value behind a lock. A task with a request looks at the value and goes to sleep
where it cannot be served; a change that is announced wakes all that sleep, and each of them looks
again. A task may also wake up for no reason, and leaves when its time is over.
-/
namespace Lib

variable {σ τ ρ γ : Type*}

/-- What can be done with the value. What is not announced, and what is done for a request, must not
let another request be served. -/
structure Resource (σ ρ γ : Type*) where
  change : γ → σ → σ
  announced : γ → Bool
  serve : ρ → σ → Option σ
  silent : ∀ {g : γ} {r : ρ} {s : σ}, announced g = false → serve r s = none →
    serve r (change g s) = none
  apart : ∀ {r r' : ρ} {s s' : σ}, serve r s = some s' → serve r' s = none → serve r' s' = none

/-- Where a task is with its request. -/
inductive Waiting (ρ : Type*) where
  | away
  /-- it will look at the value when it gets the lock -/
  | looking (r : ρ)
  | sleeping (r : ρ)
  /-- its time is over, and it will leave when it gets the lock -/
  | leaving (r : ρ)
  deriving DecidableEq

namespace Waiting

def awake : Waiting ρ → Waiting ρ
  | sleeping r => looking r
  | w => w

/-- How many steps it is from the end of its request, at most. -/
def weight : Waiting ρ → Nat
  | away => 0
  | leaving _ => 1
  | sleeping _ => 2
  | looking _ => 3

theorem weight_le (w : Waiting ρ) : w.weight ≤ 3 := by
  cases w <;> simp [weight]

theorem awake_ne (w : Waiting ρ) (r : ρ) : w.awake ≠ sleeping r := by
  cases w <;> simp [awake]

end Waiting

/-- The value, and the tasks. -/
structure Monitor (σ τ ρ : Type*) where
  shared : σ
  task : τ → Waiting ρ

namespace Monitor

/-- What happens next. -/
inductive Event (τ ρ γ : Type*) where
  | change (g : γ)
  | call (t : τ) (r : ρ)
  | look (t : τ)
  | wake (t : τ)
  | expire (t : τ)
  | leave (t : τ)
  deriving DecidableEq

def init (s : σ) : Monitor σ τ ρ := ⟨s, fun _ => .away⟩

/-- No wake-up is lost: who sleeps cannot be served. -/
def Watched (p : Resource σ ρ γ) (m : Monitor σ τ ρ) : Prop :=
  ∀ t r, m.task t = .sleeping r → p.serve r m.shared = none

theorem init_watched (p : Resource σ ρ γ) (s : σ) : Watched p (init s : Monitor σ τ ρ) := by
  intro t r ht
  cases ht

def rank [Fintype τ] (m : Monitor σ τ ρ) : Nat := ∑ t, (m.task t).weight

theorem rank_le [Fintype τ] (m : Monitor σ τ ρ) : m.rank ≤ 3 * Fintype.card τ := by
  calc m.rank ≤ ∑ _t : τ, 3 := Finset.sum_le_sum fun t _ => (m.task t).weight_le
    _ = 3 * Fintype.card τ := by
      rw [Finset.sum_const_nat fun _ _ => rfl, Finset.card_univ, Nat.mul_comm]

variable [DecidableEq τ]

def goTo (m : Monitor σ τ ρ) (t : τ) (w : Waiting ρ) : Monitor σ τ ρ :=
  { m with task := Function.update m.task t w }

/-- A task looks at the value. -/
def look (p : Resource σ ρ γ) (m : Monitor σ τ ρ) (t : τ) (r : ρ) : Monitor σ τ ρ :=
  match p.serve r m.shared with
  | some s => { m.goTo t .away with shared := s }
  | none => m.goTo t (.sleeping r)

def step (p : Resource σ ρ γ) (m : Monitor σ τ ρ) : Event τ ρ γ → Option (Monitor σ τ ρ)
  | .change g => some ⟨p.change g m.shared, if p.announced g then fun t =>
      (m.task t).awake else m.task⟩
  | .call t r =>
    match m.task t with
    | .away => some (m.goTo t (.looking r))
    | _ => none
  | .look t =>
    match m.task t with
    | .looking r => some (m.look p t r)
    | _ => none
  | .wake t =>
    match m.task t with
    | .sleeping r => some (m.goTo t (.looking r))
    | _ => none
  | .expire t =>
    match m.task t with
    | .sleeping r => some (m.goTo t (.leaving r))
    | _ => none
  | .leave t =>
    match m.task t with
    | .leaving _ => some (m.goTo t .away)
    | _ => none

/-- What goes on when nothing is asked for or changed. -/
def Works (_ : Monitor σ τ ρ) : Event τ ρ γ → Prop
  | .look _ | .expire _ | .leave _ => True
  | _ => False

instance (m : Monitor σ τ ρ) (e : Event τ ρ γ) : Decidable (Works m e) := by
  cases e <;> unfold Works <;> infer_instance

section Step

variable {p : Resource σ ρ γ} {m m' : Monitor σ τ ρ} {e : Event τ ρ γ} {t : τ}

theorem goTo_task (m : Monitor σ τ ρ) (t : τ) (w : Waiting ρ) (k : τ) :
    (m.goTo t w).task k = if k = t then w else m.task k := Function.update_apply ..

theorem call_some {r : ρ} (h : step p m (.call t r) = some m') :
    m.task t = .away ∧ m' = m.goTo t (.looking r) := by
  simp only [step] at h
  split at h
  · next haway => exact ⟨haway, (Option.some.inj h).symm⟩
  · cases h

theorem look_some (h : step p m (.look t) = some m') :
    ∃ r, m.task t = .looking r ∧ m' = m.look p t r := by
  simp only [step] at h
  split at h
  · next r hlooking => exact ⟨r, hlooking, (Option.some.inj h).symm⟩
  · cases h

theorem wake_some (h : step p m (.wake t) = some m') :
    ∃ r, m.task t = .sleeping r ∧ m' = m.goTo t (.looking r) := by
  simp only [step] at h
  split at h
  · next r hsleeping => exact ⟨r, hsleeping, (Option.some.inj h).symm⟩
  · cases h

theorem expire_some (h : step p m (.expire t) = some m') :
    ∃ r, m.task t = .sleeping r ∧ m' = m.goTo t (.leaving r) := by
  simp only [step] at h
  split at h
  · next r hsleeping => exact ⟨r, hsleeping, (Option.some.inj h).symm⟩
  · cases h

theorem leave_some (h : step p m (.leave t) = some m') :
    ∃ r, m.task t = .leaving r ∧ m' = m.goTo t .away := by
  simp only [step] at h
  split at h
  · next r hleaving => exact ⟨r, hleaving, (Option.some.inj h).symm⟩
  · cases h

theorem Watched.goTo (h : Watched p m) {w : Waiting ρ} (hw : ∀ r, w ≠ .sleeping r) :
    Watched p (m.goTo t w) := by
  intro k r hk
  rw [goTo_task] at hk
  split_ifs at hk
  · exact absurd hk (hw r)
  · exact h k r hk

theorem Watched.look (h : Watched p m) {r : ρ} : Watched p (m.look p t r) := by
  unfold Monitor.look
  split
  · next s hserved =>
    intro k r' hk
    rw [goTo_task] at hk
    split_ifs at hk
    exact p.apart hserved (h k r' hk)
  · next hnone =>
    intro k r' hk
    rw [goTo_task] at hk
    split_ifs at hk
    · obtain rfl := Waiting.sleeping.inj hk
      exact hnone
    · exact h k r' hk

theorem step_watched (h : Watched p m) (hs : step p m e = some m') : Watched p m' := by
  cases e with
  | change g =>
    obtain rfl := Option.some.inj hs
    intro k r hk
    dsimp only at hk
    split_ifs at hk with hannounced
    · exact absurd hk (Waiting.awake_ne _ _)
    · exact p.silent (Bool.eq_false_iff.mpr hannounced) (h k r hk)
  | call t r =>
    obtain ⟨-, rfl⟩ := call_some hs
    exact h.goTo fun _ hw => by cases hw
  | look t =>
    obtain ⟨r, -, rfl⟩ := look_some hs
    exact h.look
  | wake t =>
    obtain ⟨r, -, rfl⟩ := wake_some hs
    exact h.goTo fun _ hw => by cases hw
  | expire t =>
    obtain ⟨r, -, rfl⟩ := expire_some hs
    exact h.goTo fun _ hw => by cases hw
  | leave t =>
    obtain ⟨r, -, rfl⟩ := leave_some hs
    exact h.goTo fun _ hw => by cases hw

theorem at_rest (hlook : step p m (.look t) = none) (hleave : step p m (.leave t) = none) :
    m.task t = .away ∨ ∃ r, m.task t = .sleeping r := by
  cases ht : m.task t with
  | away => exact .inl rfl
  | sleeping r => exact .inr ⟨r, rfl⟩
  | looking r =>
    simp only [step, ht] at hlook
    cases hlook
  | leaving r =>
    simp only [step, ht] at hleave
    cases hleave

end Step

section Rest

variable [Fintype τ] {p : Resource σ ρ γ} {m m' : Monitor σ τ ρ} {e : Event τ ρ γ} {t : τ}

theorem rank_goTo {w : Waiting ρ} (hless : w.weight < (m.task t).weight) :
    (m.goTo t w).rank < m.rank := by
  have hle : ∀ k ∈ Finset.univ, ((m.goTo t w).task k).weight ≤ (m.task k).weight := by
    intro k _
    rw [goTo_task]
    split_ifs with hk
    · rw [hk]
      exact Nat.le_of_lt hless
    · exact Nat.le_refl _
  refine Finset.sum_lt_sum hle ⟨t, Finset.mem_univ t, ?_⟩
  rw [goTo_task, if_pos rfl]
  exact hless

theorem works_rank (hw : Works m e) (hs : step p m e = some m') : m'.rank < m.rank := by
  cases e with
  | change | call | wake => exact hw.elim
  | look t =>
    obtain ⟨r, hlooking, rfl⟩ := look_some hs
    unfold Monitor.look
    split
    · exact rank_goTo (by rw [hlooking]; exact Nat.zero_lt_succ 2)
    · exact rank_goTo (by rw [hlooking]; exact Nat.lt_succ_self 2)
  | expire t =>
    obtain ⟨r, hsleeping, rfl⟩ := expire_some hs
    exact rank_goTo (by rw [hsleeping]; exact Nat.lt_succ_self 1)
  | leave t =>
    obtain ⟨r, hleaving, rfl⟩ := leave_some hs
    exact rank_goTo (by rw [hleaving]; exact Nat.zero_lt_one)

end Rest

end Monitor

end Lib
