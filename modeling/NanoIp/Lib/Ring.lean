import Mathlib.Data.Nat.ModEq
import Mathlib.Logic.Function.Basic

/-!
# Rings

An array of `n` slots that is used in a circle. `InRing` says which list stands in the slots from
one of them on; taking the first element moves the start, and an element is added behind the last
as long as a slot is free.
-/
namespace Lib

variable {α : Type*} {slots : Nat → α} {n c : Nat} {l : List α} {a : α}

/-- From `c` on the slots have the elements of `l`, in their order. -/
structure InRing (slots : Nat → α) (n c : Nat) (l : List α) : Prop where
  room : l.length ≤ n
  slot : ∀ k a, l[k]? = some a → slots ((c + k) % n) = a

theorem wrap_mod {i : Nat} (hi : i < n) : (if i + 1 = n then 0 else i + 1) = (i + 1) % n := by
  split_ifs with h
  · rw [h, Nat.mod_self]
  · rw [Nat.mod_eq_of_lt (by omega)]

theorem offset_ne {i j : Nat} (hi : i < j) (hj : j < n) : (c + i) % n ≠ (c + j) % n := by
  intro h
  have hij : i % n = j % n := Nat.ModEq.add_left_cancel' c h
  rw [Nat.mod_eq_of_lt (hi.trans hj), Nat.mod_eq_of_lt hj] at hij
  omega

theorem offset_offset (c i j : Nat) : ((c + i) % n + j) % n = (c + (i + j)) % n := by
  rw [Nat.mod_add_mod, Nat.add_assoc]

theorem inRing_nil (slots : Nat → α) (n c : Nat) : InRing slots n c [] :=
  ⟨Nat.zero_le n, fun _ _ h => absurd (List.mem_of_getElem? h) List.not_mem_nil⟩

theorem inRing_filled (h : ∀ k a, l[k]? = some a → slots k = a) : InRing slots l.length 0 l := by
  refine ⟨Nat.le_refl _, fun k a hk => ?_⟩
  obtain ⟨hlt, -⟩ := List.getElem?_eq_some_iff.mp hk
  rw [Nat.zero_add, Nat.mod_eq_of_lt hlt]
  exact h k a hk

theorem InRing.update (h : InRing slots n c l) {k : Nat} (hle : l.length ≤ k) (hlt : k < n)
    (b : α) :
    InRing (Function.update slots ((c + k) % n) b) n c l := by
  refine ⟨h.room, fun i a hi => ?_⟩
  obtain ⟨hil, -⟩ := List.getElem?_eq_some_iff.mp hi
  rw [Function.update_of_ne (offset_ne (hil.trans_le hle) hlt)]
  exact h.slot i a hi

theorem InRing.push (h : InRing slots n c l) (hroom : l.length < n) (a : α) :
    InRing (Function.update slots ((c + l.length) % n) a) n c (l ++ [a]) := by
  refine ⟨by rw [List.length_append, List.length_singleton]; exact hroom, fun k b hk => ?_⟩
  by_cases hlast : k < l.length
  · rw [List.getElem?_append_left hlast] at hk
    exact (h.update (Nat.le_refl _) hroom a).slot k b hk
  · obtain ⟨hlt, -⟩ := List.getElem?_eq_some_iff.mp hk
    have hkl : k = l.length := by
      rw [List.length_append, List.length_singleton] at hlt
      omega
    rw [hkl, List.getElem?_concat_length] at hk
    rw [hkl, Function.update_self]
    exact Option.some.inj hk

theorem InRing.drop (h : InRing slots n c l) (i : Nat) :
    InRing slots n ((c + i) % n) (l.drop i) := by
  refine ⟨?_, fun k a hk => ?_⟩
  · rw [List.length_drop]
    exact (Nat.sub_le _ _).trans h.room
  · rw [List.getElem?_drop] at hk
    rw [offset_offset]
    exact h.slot (i + k) a hk

theorem InRing.tail (h : InRing slots n c (a :: l)) : InRing slots n ((c + 1) % n) l := h.drop 1

theorem InRing.head (h : InRing slots n c (a :: l)) (hc : c < n) : slots c = a := by
  have hslot := h.slot 0 a rfl
  rw [Nat.add_zero, Nat.mod_eq_of_lt hc] at hslot
  exact hslot

end Lib
