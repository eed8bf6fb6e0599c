import Mathlib.Data.Nat.ModEq
import Mathlib.Tactic.Ring

/-!
# Products in a bounded word

A time is scaled by a factor and kept modulo `M`. Once the product does not fit, it is no smaller
than those of all shorter times only within one factor of `M`; and no second factor of the same
time then gives a larger one.
-/
namespace Lib

/-- No shorter time has a larger product. -/
def Record (M k s : Nat) : Prop := ∀ s', 0 < s' → s' < s → s' * k % M ≤ s * k % M

section Products

variable {M k s : Nat}

theorem record_of_fits (h : s * k < M) : Record M k s := by
  intro s' _ hlt
  have hle : s' * k ≤ s * k := Nat.mul_le_mul_right k (Nat.le_of_lt hlt)
  rw [Nat.mod_eq_of_lt h, Nat.mod_eq_of_lt (Nat.lt_of_le_of_lt hle h)]
  exact hle

/-- The last product that fits is within one factor of `M`. -/
theorem Record.near_top (hk : 0 < k) (hkM : k < M) (h : M ≤ s * k) (hr : Record M k s) :
    M ≤ s * k % M + k := by
  have hdiv : (M - 1) / k * k ≤ M - 1 := Nat.div_mul_le_self _ _
  have hnext : M - 1 < (M - 1) / k * k + k := Nat.lt_div_mul_add hk
  have hpos : 0 < (M - 1) / k := Nat.div_pos (by omega) hk
  have hlt : (M - 1) / k < s := by
    by_contra hge
    have hle := Nat.mul_le_mul_right k (Nat.le_of_not_lt hge)
    omega
  have hrecord := hr _ hpos hlt
  rw [Nat.mod_eq_of_lt (by omega)] at hrecord
  omega

/-- So near `M` the larger of two factors gives the smaller product. -/
theorem not_ordered_near_top {k₁ k₂ t₁ t₂ : Nat} (hM : 0 < M) (hratio : k₁ * t₂ = k₂ * t₁)
    (ht₁ : 0 < t₁) (ht : t₁ < t₂) (hsmall : k₁ * t₂ ≤ M) (hnear : M ≤ s * k₁ % M + k₁) :
    ¬ s * k₁ % M < s * k₂ % M := by
  intro hlt
  have hr₁ := Nat.mod_lt (s * k₁) hM
  have hr₂ := Nat.mod_lt (s * k₂) hM
  have hdiv₁ := Nat.div_add_mod (s * k₁) M
  have hdiv₂ := Nat.div_add_mod (s * k₂) M
  -- what is missing to the next multiple of `M`
  obtain ⟨x, hx⟩ : ∃ x, s * k₁ % M + x = M := ⟨_, Nat.add_sub_cancel' (Nat.le_of_lt hr₁)⟩
  obtain ⟨y, hy⟩ : ∃ y, s * k₂ % M + y = M := ⟨_, Nat.add_sub_cancel' (Nat.le_of_lt hr₂)⟩
  have hyx : y < x := by omega
  have hmultiple : x * t₂ + M * ((s * k₂ / M + 1) * t₁) = y * t₁ + M * ((s * k₁ / M + 1) * t₂) := by
    have h₁ : s * k₁ + x = M * (s * k₁ / M + 1) := by rw [Nat.mul_add]; omega
    have h₂ : s * k₂ + y = M * (s * k₂ / M + 1) := by rw [Nat.mul_add]; omega
    calc x * t₂ + M * ((s * k₂ / M + 1) * t₁)
        = x * t₂ + (s * k₂ + y) * t₁ := by rw [h₂, Nat.mul_assoc]
      _ = x * t₂ + s * (k₂ * t₁) + y * t₁ := by ring
      _ = y * t₁ + (s * k₁ + x) * t₂ := by rw [← hratio]; ring
      _ = y * t₁ + M * ((s * k₁ / M + 1) * t₂) := by rw [h₁, Nat.mul_assoc]
  have hless : y * t₁ < x * t₂ := Nat.mul_lt_mul'' hyx ht
  have hpos : 0 < y * t₁ := Nat.mul_pos (by omega) ht₁
  have hbound : x * t₂ ≤ M := Nat.le_trans (Nat.mul_le_mul_right t₂ (by omega)) hsmall
  generalize (s * k₂ / M + 1) * t₁ = b at hmultiple
  generalize (s * k₁ / M + 1) * t₂ = a at hmultiple
  -- a positive difference below `M` is no multiple of it
  have hab : b < a := by
    by_contra hge
    have := Nat.mul_le_mul_left M (Nat.le_of_not_lt hge)
    omega
  have := Nat.mul_le_mul_left M (Nat.succ_le_of_lt hab)
  rw [Nat.mul_succ] at this
  omega

end Products

end Lib
