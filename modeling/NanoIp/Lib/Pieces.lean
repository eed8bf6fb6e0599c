import Mathlib.Data.List.Basic
import Mathlib.Tactic.Ring

/-!
# A list in pieces

A list is cut into pieces of one size; the first piece that is shorter than the others, if need be
an empty one, is the last. The pieces up to it are the list.
-/
namespace Lib

variable {α : Type*} {size k : Nat} {l : List α}

/-- Piece `k` of a list, counted from zero. -/
def piece (size : Nat) (l : List α) (k : Nat) : List α := (l.drop (size * k)).take size

theorem piece_length_le : (piece size l k).length ≤ size := List.length_take_le _ _

theorem take_append_piece (size : Nat) (l : List α) (k : Nat) :
    l.take (size * k) ++ piece size l k = l.take (size * (k + 1)) := by
  rw [Nat.mul_succ, List.take_add]
  rfl

theorem length_piece (size : Nat) (l : List α) (k : Nat) :
    (piece size l k).length = min size (l.length - size * k) := by
  rw [piece, List.length_take, List.length_drop]

theorem piece_short_iff (hk : size * k ≤ l.length) :
    (piece size l k).length < size ↔ l.length < size * (k + 1) := by
  rw [length_piece, Nat.mul_succ]
  omega

theorem take_of_short (h : l.length < size * (k + 1)) : l.take (size * (k + 1)) = l :=
  List.take_of_length_le (Nat.le_of_lt h)

theorem eq_div_of_short (hk : size * k ≤ l.length) (h : l.length < size * (k + 1)) :
    k = l.length / size := by
  have hsize : 0 < size := by
    rcases Nat.eq_zero_or_pos size with rfl | hpos
    · rw [Nat.zero_mul] at h
      omega
    · exact hpos
  refine (Nat.div_eq_of_lt_le ?_ ?_).symm
  · rwa [Nat.mul_comm]
  · rwa [Nat.mul_comm]

theorem drop_drop_piece (size : Nat) (l : List α) (k : Nat) :
    (l.drop (size * k)).drop size = l.drop (size * (k + 1)) := by
  rw [List.drop_drop, Nat.mul_succ]

end Lib
