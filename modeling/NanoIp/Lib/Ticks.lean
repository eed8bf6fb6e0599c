import Mathlib.Algebra.Order.Group.Nat
import Mathlib.Data.List.Basic

/-!
# Periods on a counter that is compared for equality

An item that is started at `s` with the period `p` is looked at from time to time, and ticks when a
counter modulo `M` is just at its next boundary `s + k * p`. It keeps up with its boundaries if and
only if it is looked at on every one of them.
-/
namespace Lib

def tick (M s p c now : Nat) : Nat := if now % M = (s + (c + 1) * p) % M then c + 1 else c

/-- When the item was looked at since its start, and how often it had ticked then; `last` is when
anything was looked at last, which is less than a lap of the counter ago. -/
inductive Ticked (M s p : Nat) : List (Nat × Nat) → Nat → Nat → Prop
  | start {last : Nat} (h : last ≤ s) : Ticked M s p [] last 0
  | look {looks : List (Nat × Nat)} {last c now : Nat} (h : Ticked M s p looks last c)
      (hs : s ≤ now)
      (hlast : last ≤ now) (hgap : now < last + M) :
      Ticked M s p (looks ++ [(now, tick M s p c now)]) now (tick M s p c now)

/-- It has ticked for every boundary that was reached. -/
def OnTime (s p : Nat) (looks : List (Nat × Nat)) : Prop := ∀ e ∈ looks, e.2 = (e.1 - s) / p

/-- It was looked at on every boundary that was reached. -/
def SeenOn (s p : Nat) (looks : List (Nat × Nat)) : Prop :=
  ∀ k, 0 < k → ∀ e ∈ looks, s + k * p ≤ e.1 → ∃ e' ∈ looks, e'.1 = s + k * p

section Ticks

variable {M s p c last now : Nat} {looks : List (Nat × Nat)}

theorem tick_cases (M s p c now : Nat) :
    tick M s p c now = c + 1 ∧ now % M = (s + (c + 1) * p) % M ∨
    tick M s p c now = c ∧ now % M ≠ (s + (c + 1) * p) % M := by
  rw [tick]
  split_ifs with h
  · exact .inl ⟨rfl, h⟩
  · exact .inr ⟨rfl, h⟩

theorem eq_of_mod_eq {a b : Nat} (hle : a ≤ b) (hlt : b < a + M) (h : b % M = a % M) : b = a := by
  have hzero := Nat.sub_mod_eq_zero_of_mod_eq h
  rw [Nat.mod_eq_of_lt (by omega)] at hzero
  omega

theorem Ticked.le_last (h : Ticked M s p looks last c) : ∀ e ∈ looks, e.1 ≤ last := by
  induction h with
  | start => exact fun _ he => absurd he List.not_mem_nil
  | look h hs hlast hgap ih =>
    intro e he
    rcases List.mem_append.mp he with he | he
    · exact Nat.le_trans (ih e he) hlast
    · rw [List.mem_singleton.mp he]

theorem Ticked.last_mem (h : Ticked M s p looks last c) :
    looks = [] ∧ c = 0 ∧ last ≤ s ∨ s ≤ last ∧ (last, c) ∈ looks := by
  cases h with
  | start h => exact .inl ⟨rfl, rfl, h⟩
  | look h hs => exact .inr ⟨hs, List.mem_append_right _ List.mem_cons_self⟩

/-- It is never early. -/
theorem Ticked.not_early (hp : p < M) (h : Ticked M s p looks last c) :
    c = 0 ∨ s + c * p ≤ last := by
  induction h with
  | start => exact .inl rfl
  | @look looks last c now h hs hlast hgap ih =>
    have hreached : s + c * p ≤ now := by
      rcases ih with rfl | ih
      · rw [Nat.zero_mul]
        exact hs
      · exact Nat.le_trans ih hlast
    rcases tick_cases M s p c now with ⟨htick, hmod⟩ | ⟨htick, -⟩
    · rw [htick]
      refine .inr ?_
      -- before the boundary the counter is less than a lap behind it
      by_contra hearly
      have hnext : s + (c + 1) * p = s + c * p + p := by rw [Nat.succ_mul, Nat.add_assoc]
      have heq := eq_of_mod_eq (by omega) (by omega) hmod.symm
      omega
    · rw [htick]
      rcases ih with rfl | ih
      · exact .inl rfl
      · exact .inr (Nat.le_trans ih hlast)

theorem boundaries_eq (hs : s ≤ now) (hle : s + c * p ≤ now) (hlt : now < s + (c + 1) * p) :
    (now - s) / p = c := by
  refine Nat.div_eq_of_lt_le ?_ ?_
  · omega
  · omega

theorem OnTime.before_next (hontime : OnTime s p looks) (hp0 : 0 < p)
    (h : Ticked M s p looks last c) :
    last < s + (c + 1) * p := by
  have hnext : s + (c + 1) * p = s + c * p + p := by rw [Nat.succ_mul, Nat.add_assoc]
  rcases h.last_mem with ⟨-, -, hle⟩ | ⟨hle, hmem⟩
  · omega
  · have hcount : c = (last - s) / p := hontime _ hmem
    have hlt := Nat.lt_div_mul_add (a := last - s) hp0
    rw [← hcount] at hlt
    omega

/-- One more look: it has ticked for every boundary exactly if those that were not reached before
are only the time of the look. -/
theorem tick_onTime (hp0 : 0 < p) (hp : p < M) (h : Ticked M s p looks last c) (hs : s ≤ now)
    (hlast : last ≤ now) (hgap : now < last + M) (hontime : OnTime s p looks) :
    tick M s p c now = (now - s) / p ↔
      ∀ k, c < k → s + k * p ≤ now → now = s + k * p := by
  have hnext : s + (c + 1) * p = s + c * p + p := by rw [Nat.succ_mul, Nat.add_assoc]
  have hbefore := hontime.before_next hp0 h
  have hreached : s + c * p ≤ now := by
    rcases h.not_early hp with rfl | hle
    · rw [Nat.zero_mul]
      exact hs
    · exact Nat.le_trans hle hlast
  rcases tick_cases M s p c now with ⟨htick, hmod⟩ | ⟨htick, hmod⟩
  · have hnow : now = s + (c + 1) * p := by
      by_cases hle : s + (c + 1) * p ≤ now
      · exact eq_of_mod_eq hle (by omega) hmod
      · have := eq_of_mod_eq (M := M) (by omega) (by omega) hmod.symm
        omega
    rw [htick, hnow, Nat.add_sub_cancel_left, Nat.mul_div_cancel _ hp0]
    refine ⟨fun _ k hk hle => ?_, fun _ => rfl⟩
    have hmul : k * p ≤ (c + 1) * p := by omega
    obtain rfl : k = c + 1 := by
      have := Nat.le_of_mul_le_mul_right hmul hp0
      omega
    rfl
  · rw [htick]
    constructor
    · intro heq k hk hle
      have hkdiv : k ≤ (now - s) / p := (Nat.le_div_iff_mul_le hp0).mpr (by omega)
      omega
    · intro hall
      refine (boundaries_eq hs hreached ?_).symm
      by_contra hge
      refine hmod ?_
      rw [← hall (c + 1) (Nat.lt_succ_self c) (Nat.le_of_not_lt hge)]

/-- It keeps up with its boundaries if and only if it is looked at on every one of them. -/
theorem onTime_iff (hp0 : 0 < p) (hp : p < M) (h : Ticked M s p looks last c) :
    OnTime s p looks ↔ SeenOn s p looks := by
  induction h with
  | start => exact ⟨fun _ _ _ e he => absurd he List.not_mem_nil, fun _ e he =>
      absurd he List.not_mem_nil⟩
  | @look looks last c now h hs hlast hgap ih =>
    have hseen : SeenOn s p (looks ++ [(now, tick M s p c now)]) ↔ SeenOn s p looks ∧
        ∀ k, 0 < k → s + k * p ≤ now → now = s + k * p ∨ ∃ e ∈ looks, e.1 = s + k * p := by
      constructor
      · intro hseen
        refine ⟨fun k hk e he hle => ?_, fun k hk hle => ?_⟩
        · obtain ⟨e', he', heq⟩ := hseen k hk e (List.mem_append_left _ he) hle
          rcases List.mem_append.mp he' with he' | he'
          · exact ⟨e', he', heq⟩
          · -- a boundary at the last look, and reached before
            rw [List.mem_singleton.mp he'] at heq
            have := h.le_last e he
            exact ⟨e, he, by omega⟩
        · obtain ⟨e', he', heq⟩ := hseen k hk _ (List.mem_append_right _ List.mem_cons_self) hle
          rcases List.mem_append.mp he' with he' | he'
          · exact .inr ⟨e', he', heq⟩
          · rw [List.mem_singleton.mp he'] at heq
            exact .inl heq
      · rintro ⟨hold, hnew⟩ k hk e he hle
        rcases List.mem_append.mp he with he | he
        · obtain ⟨e', he', heq⟩ := hold k hk e he hle
          exact ⟨e', List.mem_append_left _ he', heq⟩
        · rw [List.mem_singleton.mp he] at hle
          rcases hnew k hk hle with heq | ⟨e', he', heq⟩
          · exact ⟨_, List.mem_append_right _ List.mem_cons_self, heq⟩
          · exact ⟨e', List.mem_append_left _ he', heq⟩
    have hontime : OnTime s p (looks ++ [(now, tick M s p c now)]) ↔
        OnTime s p looks ∧ tick M s p c now = (now - s) / p := by
      simp only [OnTime, List.forall_mem_append, List.forall_mem_singleton]
    rw [hontime, hseen, ← ih]
    refine and_congr_right fun hon => ?_
    rw [tick_onTime hp0 hp h hs hlast hgap hon]
    have hbefore := hon.before_next hp0 h
    constructor
    · intro hall k hk hle
      rcases Nat.lt_or_ge c k with hlt | hge
      · exact .inl (hall k hlt hle)
      · rcases h.last_mem with ⟨-, rfl, -⟩ | ⟨-, hmem⟩
        · omega
        · have hmul : k * p ≤ c * p := Nat.mul_le_mul_right p hge
          have hearly := (h.not_early hp).resolve_left (by omega)
          exact .inr (ih.mp hon k hk _ hmem (by dsimp only; omega))
    · intro hall k hk hle
      rcases hall k (by omega) hle with heq | ⟨e, he, heq⟩
      · exact heq
      · have hmul : (c + 1) * p ≤ k * p := Nat.mul_le_mul_right p hk
        have := h.le_last e he
        omega

end Ticks

end Lib
