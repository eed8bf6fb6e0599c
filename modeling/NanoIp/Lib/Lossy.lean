import Mathlib.Data.List.Basic

/-!
# A channel that loses things but keeps their order
-/
namespace Lib

variable {α : Type*} {sent arrived inside : List α} {lost : Nat} {a : α}

/-- What has come out of the channel and what is still inside is what was put in, but for what was
lost. -/
structure Conveyed (sent arrived inside : List α) (lost : Nat) : Prop where
  order : (arrived ++ inside).Sublist sent
  count : sent.length = arrived.length + inside.length + lost

namespace Conveyed

theorem init : Conveyed ([] : List α) [] [] 0 := ⟨.slnil, rfl⟩

theorem send (h : Conveyed sent arrived inside lost) (a : α) :
    Conveyed (sent ++ [a]) arrived (inside ++ [a]) lost := by
  constructor
  · rw [← List.append_assoc]
    exact h.order.append_right [a]
  · have hcount := h.count
    rw [List.length_append, List.length_append, List.length_singleton]
    omega

theorem arrive (h : Conveyed sent arrived (a :: inside) lost) :
    Conveyed sent (arrived ++ [a]) inside lost := by
  constructor
  · rw [List.append_assoc]
    exact h.order
  · have hcount := h.count
    rw [List.length_cons] at hcount
    rw [List.length_append, List.length_singleton]
    omega

theorem lose (h : Conveyed sent arrived inside lost) {i : Nat} (hi : i < inside.length) :
    Conveyed sent arrived (inside.eraseIdx i) (lost + 1) := by
  constructor
  · exact ((List.eraseIdx_sublist inside i).append_left arrived).trans h.order
  · have hcount := h.count
    rw [List.length_eraseIdx_of_lt hi]
    omega

theorem assoc {back : List α} (h : Conveyed sent (arrived ++ back) inside lost) :
    Conveyed sent arrived (back ++ inside) lost := by
  constructor
  · rw [← List.append_assoc]
    exact h.order
  · have hcount := h.count
    rw [List.length_append] at hcount ⊢
    omega

theorem whole (h : Conveyed sent arrived inside 0) : sent = arrived ++ inside := by
  refine (h.order.eq_of_length ?_).symm
  rw [List.length_append, h.count, Nat.add_zero]

end Conveyed

end Lib
