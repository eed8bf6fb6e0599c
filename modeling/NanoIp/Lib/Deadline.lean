import Mathlib.Algebra.Group.Nat.Defs
import Mathlib.Data.List.Forall2
import Mathlib.Tactic.SplitIfs

/-!
# Deadlines on a counter that wraps

An item started at the counter value `t` with a delay `d` has the deadline `t + d`, a
counter value again. Comparing it with the value `t + k` of a later check, as numbers,
says whether `k` is past `d` exactly as long as no wrap lies between the two. Stamps
taken from the counter order their items by age as long as no wrap lies between them.
-/
namespace Lib

variable {w : Nat}

/-- `d` and `k` steps from `t` end in the same lap of the counter. -/
def SameLap (t : BitVec w) (d k : Nat) : Prop := (t.toNat + d) / 2 ^ w = (t.toNat + k) / 2 ^ w

instance (t : BitVec w) (d k : Nat) : Decidable (SameLap t d k) :=
  inferInstanceAs (Decidable (_ = _))

theorem lap_cases {p x : Nat} (h : x < 2 * p) :
    (x < p ∧ x / p = 0 ∧ x % p = x) ∨ (p ≤ x ∧ x / p = 1 ∧ x % p = x - p) := by
  by_cases hx : x < p
  · exact .inl ⟨hx, Nat.div_eq_of_lt hx, Nat.mod_eq_of_lt hx⟩
  · have hp : p ≤ x := Nat.le_of_not_lt hx
    have hp0 : 0 < p := by omega
    have hr : x - p < p := by omega
    refine .inr ⟨hp, ?_, ?_⟩
    · rw [Nat.div_eq_sub_div hp0 hp, Nat.div_eq_of_lt hr]
    · rw [Nat.mod_eq_sub_mod hp, Nat.mod_eq_of_lt hr]

theorem toNat_add_ofNat (t : BitVec w) (d : Nat) :
    (t + BitVec.ofNat w d).toNat = (t.toNat + d) % 2 ^ w := by
  rw [BitVec.toNat_add, BitVec.toNat_ofNat, Nat.add_mod_mod]

variable {t : BitVec w} {d k : Nat}

theorem laps (t : BitVec w) (hd : d < 2 ^ w) (hk : k < 2 ^ w) : t.toNat < 2 ^ w ∧
    t.toNat + d < 2 * 2 ^ w ∧ t.toNat + k < 2 * 2 ^ w := by
  have ht := t.isLt
  omega

theorem lt_iff_sameLap (hd : d < 2 ^ w) (hk : k < 2 ^ w) :
    (t + BitVec.ofNat w d < t + BitVec.ofNat w k ↔ d < k) ↔ SameLap t d k := by
  obtain ⟨ht, hdl, hkl⟩ := laps t hd hk
  rw [SameLap, BitVec.lt_def, toNat_add_ofNat, toNat_add_ofNat]
  generalize 2 ^ w = p at *
  rcases lap_cases hdl with ⟨h₁, h₂, h₃⟩ | ⟨h₁, h₂, h₃⟩ <;> rcases lap_cases hkl with
    ⟨h₄, h₅, h₆⟩ | ⟨h₄, h₅, h₆⟩ <;>
    rw [h₂, h₃, h₅, h₆] <;> omega

theorem le_iff_sameLap (hd : d < 2 ^ w) (hk : k < 2 ^ w) :
    (t + BitVec.ofNat w d ≤ t + BitVec.ofNat w k ↔ d ≤ k) ↔ SameLap t d k := by
  obtain ⟨ht, hdl, hkl⟩ := laps t hd hk
  rw [SameLap, BitVec.le_def, toNat_add_ofNat, toNat_add_ofNat]
  generalize 2 ^ w = p at *
  rcases lap_cases hdl with ⟨h₁, h₂, h₃⟩ | ⟨h₁, h₂, h₃⟩ <;> rcases lap_cases hkl with
    ⟨h₄, h₅, h₆⟩ | ⟨h₄, h₅, h₆⟩ <;>
    rw [h₂, h₃, h₅, h₆] <;> omega

theorem age_toNat (now t : BitVec w) :
    (now - t).toNat = if t ≤ now then now.toNat - t.toNat else 2 ^ w + now.toNat - t.toNat := by
  have ht := t.isLt
  have hnow := now.isLt
  split_ifs with hle
  · rw [BitVec.toNat_sub_of_le hle]
  · rw [BitVec.not_le, BitVec.lt_def] at hle
    rw [BitVec.toNat_sub, Nat.mod_eq_of_lt (by omega)]
    omega

theorem age_le_of_le {now t u : BitVec w} (hlap : t ≤ now ↔ u ≤ now) (hle : t ≤ u) :
    now - u ≤ now - t := by
  have hu := u.isLt
  have hnow := now.isLt
  rw [BitVec.le_def, age_toNat, age_toNat]
  rw [BitVec.le_def] at hle
  by_cases ht : t ≤ now
  · rw [if_pos ht, if_pos (hlap.mp ht)]
    omega
  · rw [if_neg ht, if_neg fun h => ht (hlap.mpr h)]
    omega

theorem age_lt_of_laps {now t u : BitVec w} (ht : t ≤ now) (hu : now < u) : now - t < now - u := by
  have hlt := u.isLt
  rw [BitVec.lt_def, age_toNat, age_toNat, if_pos ht, if_neg (BitVec.not_le.mpr hu)]
  omega

end Lib
