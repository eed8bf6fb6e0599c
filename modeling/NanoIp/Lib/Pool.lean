import NanoIp.Lib.Chain

/-!
# Pools of cells

A pool keeps its cells in two intrusive lists, one of the free cells and one of those in
use. Taking a cell moves the first free one, giving one back moves it from wherever it
stands among those in use.
-/
namespace Lib

variable {α : Type*}

/-- The free cells are `f`, those in use `u`, and none is in both. -/
structure Pooled (next : α → Option α) (free used : Option α) (f u : List α) : Prop where
  free : Linked next free f
  used : Linked next used u
  nodup : (f ++ u).Nodup

section Pooled

variable {next next' : α → Option α} {free used : Option α} {f u : List α} {a : α}

theorem Pooled.congr (h : Pooled next free used f u) (hnext : ∀ a ∈ f ++ u, next' a = next a) :
    Pooled next' free used f u :=
  ⟨h.free.congr fun a ha => hnext a (List.mem_append_left u ha),
    h.used.congr fun a ha => hnext a (List.mem_append_right f ha), h.nodup⟩

theorem Pooled.free_none (h : Pooled next free used f u) : free = none ↔ f = [] := by
  cases f with
  | nil => exact iff_of_true h.free rfl
  | cons a f =>
    refine iff_of_false ?_ (List.cons_ne_nil a f)
    rw [h.free.1]
    exact Option.some_ne_none a

variable [DecidableEq α]

theorem Pooled.take (h : Pooled next free used (a :: f) u) :
    Pooled (Function.update next a used) (next a) (some a) f (a :: u) := by
  obtain ⟨ha, hn⟩ := List.nodup_cons.mp h.nodup
  refine ⟨?_, h.used.push fun hin => ha (List.mem_append_right f hin), ?_⟩
  · refine h.free.2.congr fun b hb => Function.update_of_ne ?_ _ _
    rintro rfl
    exact ha (List.mem_append_left u hb)
  · exact List.nodup_middle.mpr (List.nodup_cons.mpr ⟨ha, hn⟩)

/-- A cell in use becomes the first free one. -/
theorem Pooled.give (h : Pooled next free used f u) (ha : a ∈ u) :
    Pooled (Function.update (unlink next used a u).2 a free) (some a)
      (unlink next used a u).1 (a :: f)
      (u.erase a) := by
  have hfu := List.nodup_append.mp h.nodup
  have hnot : a ∉ f := fun hin => hfu.2.2 a hin a ha rfl
  have hfree : Linked (unlink next used a u).2 free f :=
    h.free.congr fun b hb => unlink_frame next used a fun hin => hfu.2.2 b hb b hin rfl
  refine ⟨hfree.push hnot, ?_, ?_⟩
  · refine (h.used.unlink a hfu.2.1).congr fun b hb => Function.update_of_ne ?_ _ _
    rintro rfl
    exact (hfu.2.1.mem_erase_iff.mp hb).1 rfl
  · refine List.nodup_cons.mpr ⟨?_, List.nodup_append.mpr ⟨hfu.1, hfu.2.1.erase a, ?_⟩⟩
    · intro hin
      rcases List.mem_append.mp hin with hin | hin
      · exact hnot hin
      · exact (hfu.2.1.mem_erase_iff.mp hin).1 rfl
    · intro b hb c hc
      exact hfu.2.2 b hb c (List.mem_of_mem_erase hc)

end Pooled

/-- An array of cells, each pointing to the one behind it, is a list. -/
theorem linked_array {n : Nat} (next : α → Option α) (cell : Fin n → α)
    (hnext : ∀ i : Fin n, next (cell i) =
      if h : i.1 + 1 < n then some (cell ⟨i.1 + 1, h⟩) else none) :
    ∀ (m k : Nat), k + m = n →
      Linked next (if h : k < n then some (cell ⟨k, h⟩) else none)
        (((List.finRange n).drop k).map cell) := by
  intro m
  induction m with
  | zero =>
    intro k hk
    rw [dif_neg (by omega), List.drop_of_length_le (by rw [List.length_finRange]; omega)]
    rfl
  | succ m ih =>
    intro k hk
    have hlt : k < n := by omega
    have hlen : k < (List.finRange n).length := by rwa [List.length_finRange]
    rw [dif_pos hlt, List.drop_eq_getElem_cons hlen, List.map_cons, List.getElem_finRange]
    refine ⟨rfl, ?_⟩
    have htail := ih (k + 1) (by omega)
    rw [← hnext ⟨k, hlt⟩] at htail
    exact htail

end Lib
