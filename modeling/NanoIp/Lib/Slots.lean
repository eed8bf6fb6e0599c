import Mathlib.Data.List.FinRange
import Mathlib.Data.List.Perm.Basic
import Mathlib.Logic.Function.Basic

/-!
# Tables of slots

Each slot of a table has a value or none. What a table holds is the list of its values in the
order of the slots: the first of a kind is removed from the table as it is from the list, and a
value that is stored in a free slot joins them, at whatever place; at the end, if that slot and all
behind it are free.
-/
namespace Lib.Slots

variable {α β κ : Type*} {c : Nat}

def values (value : β → Option α) (t : Fin c → β) : List α :=
  (List.finRange c).filterMap fun i => value (t i)

section Lists

variable {γ : Type*} {f g : γ → Option α} {i : γ}

theorem filterMap_notMem (hg : ∀ j ≠ i, g j = f j) {l : List γ} (h : i ∉ l) :
    l.filterMap g = l.filterMap f :=
  List.filterMap_congr fun j hj => hg j fun hji => h (hji ▸ hj)

theorem filterMap_remove {q : α → Bool} (hg : ∀ j ≠ i, g j = f j) (hi : g i = none) {l : List γ}
    (hl : l.Nodup) (h : l.find? (fun j => (f j).any q) = some i) :
    l.filterMap g = (l.filterMap f).eraseP q := by
  induction l with
  | nil => cases h
  | cons j l ih =>
    obtain ⟨hj, hl⟩ := List.nodup_cons.mp hl
    rw [List.find?_cons] at h
    cases hq : (f j).any q with
    | true =>
      rw [hq] at h
      obtain rfl := Option.some.inj h
      obtain ⟨a, ha, hqa⟩ := (Option.any_eq_true _ _).mp hq
      rw [List.filterMap_cons_none hi, List.filterMap_cons_some ha, List.eraseP_cons_of_pos hqa,
        filterMap_notMem hg hj]
    | false =>
      rw [hq] at h
      have hji : j ≠ i := by
        rintro rfl
        exact hj (List.mem_of_find?_eq_some h)
      cases ha : f j with
      | none =>
        rw [List.filterMap_cons_none ((hg j hji).trans ha), List.filterMap_cons_none ha]
        exact ih hl h
      | some a =>
        have hqa : ¬q a = true := by simpa [ha] using hq
        rw [List.filterMap_cons_some ((hg j hji).trans ha), List.filterMap_cons_some ha,
          List.eraseP_cons_of_neg hqa, ih hl h]

theorem filterMap_store {a : α} (hg : ∀ j ≠ i, g j = f j) (hf : f i = none) (hi : g i = some a)
    {l : List γ} (hl : l.Nodup) (hmem : i ∈ l) : (l.filterMap g).Perm (a :: l.filterMap f) := by
  induction l with
  | nil => cases hmem
  | cons j l ih =>
    obtain ⟨hj, hl⟩ := List.nodup_cons.mp hl
    by_cases hji : j = i
    · subst hji
      rw [List.filterMap_cons_some hi, List.filterMap_cons_none hf, filterMap_notMem hg hj]
    · have hperm := ih hl (List.mem_of_ne_of_mem (Ne.symm hji) hmem)
      cases hb : f j with
      | none =>
        rw [List.filterMap_cons_none ((hg j hji).trans hb), List.filterMap_cons_none hb]
        exact hperm
      | some b =>
        rw [List.filterMap_cons_some ((hg j hji).trans hb), List.filterMap_cons_some hb]
        exact (hperm.cons b).trans (.swap a b _)

theorem filterMap_append_some {a : α} {before after : List γ} (hg : ∀ j ∈ before, g j = f j)
    (hi : g i = some a) (hafter : ∀ j ∈ after, g j = none) (hf : ∀ j ∈ i :: after, f j = none) :
    (before ++ i :: after).filterMap g = (before ++ i :: after).filterMap f ++ [a] := by
  rw [List.filterMap_append, List.filterMap_append, List.filterMap_congr hg,
    List.filterMap_cons_some hi,
    List.filterMap_eq_nil_iff.mpr hafter, List.filterMap_eq_nil_iff.mpr hf, List.append_nil]

end Lists

section Stores

variable {value : β → Option α} {t : Fin c → β} {i : Fin c} {e : β}

theorem value_update_of_ne (j : Fin c) (hj : j ≠ i) :
    value (Function.update t i e j) = value (t j) := by
  rw [Function.update_of_ne hj]

theorem values_same (h : value e = value (t i)) :
    values value (Function.update t i e) = values value t := by
  refine List.filterMap_congr fun j _ => ?_
  by_cases hj : j = i
  · subst hj
    rw [Function.update_self, h]
  · exact value_update_of_ne j hj

theorem values_remove {q : α → Bool} (he : value e = none)
    (h : (List.finRange c).find? (fun j => (value (t j)).any q) = some i) :
    values value (Function.update t i e) = (values value t).eraseP q :=
  filterMap_remove value_update_of_ne (by rw [Function.update_self, he]) (List.nodup_finRange c) h

theorem values_remove_none {q : α → Bool}
    (h : (List.finRange c).find? (fun j => (value (t j)).any q) = none) :
    (values value t).eraseP q = values value t := by
  refine List.eraseP_of_forall_not fun a ha hq => ?_
  obtain ⟨j, hj, ha⟩ := List.mem_filterMap.mp ha
  exact List.find?_eq_none.mp h j hj (by rw [ha]; exact hq)

theorem values_store {a : α} (hi : value (t i) = none) (he : value e = some a) :
    (values value (Function.update t i e)).Perm (a :: values value t) :=
  filterMap_store value_update_of_ne hi (by rw [Function.update_self, he]) (List.nodup_finRange c)
    (List.mem_finRange i)

theorem find?_values (value : β → Option α) (t : Fin c → β) (q : α → Bool) :
    (values value t).find? q =
    ((List.finRange c).find? fun i => (value (t i)).any q).bind fun i => value (t i) :=
  List.find?_filterMap ..

theorem length_values (value : β → Option α) (t : Fin c → β) :
    (values value t).length = (List.finRange c).countP fun i => (value (t i)).isSome :=
  List.length_filterMap_eq_countP

theorem values_append {a : α} (hfree : ∀ j, i ≤ j → value (t j) = none) (he : value e = some a) :
    values value (Function.update t i e) = values value t ++ [a] := by
  obtain ⟨before, after, hsplit⟩ := List.append_of_mem (List.mem_finRange i)
  have hsorted := List.pairwise_lt_finRange c
  rw [hsplit, List.pairwise_append, List.pairwise_cons] at hsorted
  obtain ⟨-, ⟨hafter, -⟩, hbefore⟩ := hsorted
  rw [values, values, hsplit]
  refine filterMap_append_some (fun j hj => ?_) (by rw [Function.update_self, he])
    (fun j hj => ?_) ?_
  · exact value_update_of_ne j (ne_of_lt (hbefore j hj i List.mem_cons_self))
  · exact (value_update_of_ne j (ne_of_gt (hafter j hj))).trans (hfree j (le_of_lt (hafter j hj)))
  · intro j hj
    rcases List.mem_cons.mp hj with rfl | hj
    · exact hfree j (le_refl j)
    · exact hfree j (le_of_lt (hafter j hj))

theorem exists_free (h : (values value t).length < c) : ∃ i, value (t i) = none := by
  by_contra hno
  have hsome : ∀ i, ∃ a, value (t i) = some a := fun i =>
    Option.ne_none_iff_exists'.mp fun hi => hno ⟨i, hi⟩
  choose f hf using hsome
  have hall : values value t = (List.finRange c).map f := by
    rw [values, ← List.filterMap_eq_map]
    exact List.filterMap_congr fun i _ => hf i
  rw [hall, List.length_map, List.length_finRange] at h
  exact lt_irrefl c h

end Stores

section Keys

variable [DecidableEq κ] {key : α → κ} {keys : List κ}

/-- For each key the first value is removed that has it. -/
def eraseKeys (key : α → κ) : List κ → List α → List α
  | [], l => l
  | k :: keys, l => eraseKeys key keys (l.eraseP fun a => key a = k)

theorem eraseKeys_append (keys keys' : List κ) :
    ∀ l : List α, eraseKeys key (keys ++ keys') l = eraseKeys key keys' (eraseKeys key keys l) := by
  induction keys with
  | nil => exact fun l => rfl
  | cons k keys ih => exact fun l => ih _

theorem filter_eraseP (k k' : κ) (l : List α) :
    (l.eraseP fun a => key a = k).filter (fun a => key a = k') =
    if k = k' then (l.filter fun a => key a = k').tail else l.filter fun a => key a = k' := by
  induction l with
  | nil => split_ifs <;> rfl
  | cons a l ih =>
    by_cases ha : key a = k
    · rw [List.eraseP_cons_of_pos (by simpa using ha)]
      by_cases hk : k = k'
      · rw [if_pos hk, List.filter_cons_of_pos (by simpa using ha.trans hk), List.tail_cons]
      · rw [if_neg hk, List.filter_cons_of_neg (by simpa using fun h => hk (ha.symm.trans h))]
    · rw [List.eraseP_cons_of_neg (by simpa using ha)]
      by_cases hk' : key a = k'
      · have hne : k ≠ k' := fun h => ha (hk'.trans h.symm)
        rw [if_neg hne] at ih ⊢
        rw [List.filter_cons_of_pos (by simpa using hk'),
          List.filter_cons_of_pos (by simpa using hk'), ih]
      · rw [List.filter_cons_of_neg (by simpa using hk'),
          List.filter_cons_of_neg (by simpa using hk'), ih]

variable [BEq κ] [LawfulBEq κ]

theorem filter_eraseKeys (k : κ) (keys : List κ) :
    ∀ l : List α, (eraseKeys key keys l).filter (fun a => key a = k) =
      (l.filter fun a => key a = k).drop (keys.count k) := by
  induction keys with
  | nil => exact fun l => rfl
  | cons k' keys ih =>
    intro l
    rw [eraseKeys, ih, filter_eraseP, List.count_cons]
    by_cases hk : k' = k
    · rw [if_pos hk, if_pos (by simpa using hk), ← List.drop_one, List.drop_drop, Nat.add_comm]
    · rw [if_neg hk, if_neg (by simpa using hk), Nat.add_zero]

/-- Erasing the keys takes these values away exactly if, for each of the keys, they are the first
that have it. -/
theorem eraseKeys_perm_iff [DecidableEq α] {l due rest : List α} (hl : l.Perm (due ++ rest))
    (hdue : ∀ a ∈ due, key a ∈ keys) :
    (eraseKeys key keys l).Perm rest ↔
      ∀ k ∈ keys, ((l.filter fun a => key a = k).take (keys.count k)).Perm
      (due.filter fun a => key a = k) := by
  -- the values with one key, in the list before
  have hparts : ∀ k a, key a = k →
      ((l.filter fun a => key a = k).take (keys.count k)).count a + (eraseKeys key keys l).count a =
        (due.filter fun a => key a = k).count a + rest.count a := by
    rintro k a rfl
    have hsplit := congrArg (List.count a)
      (List.take_append_drop (keys.count (key a)) (l.filter fun b => key b = key a))
    rw [List.count_append, ← filter_eraseKeys, List.count_filter (by simp),
      List.count_filter (by simp)] at hsplit
    rw [hsplit, List.count_filter (by simp), hl.count_eq, List.count_append]
  constructor
  · intro h k _
    refine List.perm_iff_count.mpr fun a => ?_
    by_cases ha : key a = k
    · have hcount := hparts k a ha
      rw [h.count_eq] at hcount
      omega
    · rw [List.count_eq_zero_of_not_mem, List.count_eq_zero_of_not_mem]
      · simp [ha]
      · exact fun hmem => ha (by simpa using (List.mem_filter.mp (List.mem_of_mem_take hmem)).2)
  · intro h
    refine List.perm_iff_count.mpr fun a => ?_
    have hcount := hparts (key a) a rfl
    by_cases hkey : key a ∈ keys
    · rw [(h (key a) hkey).count_eq] at hcount
      omega
    · have hnone : (due.filter fun b => key b = key a).count a = 0 :=
        List.count_eq_zero_of_not_mem fun hmem => hkey (hdue a (List.mem_of_mem_filter hmem))
      rw [List.count_eq_zero_of_not_mem hkey, List.take_zero, List.count_nil, hnone] at hcount
      omega

end Keys

end Lib.Slots
