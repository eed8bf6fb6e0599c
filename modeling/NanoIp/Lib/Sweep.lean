import NanoIp.Lib.Chain
import Mathlib.Tactic.SplitIfs

/-!
# Passes over an intrusive list that take cells out

A pass follows the pointers from the head with the last cell it kept in hand. A cell
that is selected is taken out through that predecessor, or through the head, and the
pass goes on behind it. The state may hold more than the list: what taking a cell does
to the rest of it is carried through the pass by an invariant over the cells taken.
-/
namespace Lib

variable {σ α : Type*}

/-- The head and the pointers once `a`, which stands behind `prev`, is bypassed. -/
def bypassed [DecidableEq α] (next : α → Option α) (head prev : Option α) (a : α) :
    Option α × (α → Option α) :=
  match prev with
  | none => (next a, next)
  | some p => (head, Function.update next p (next a))

/-- The pass, for at most `fuel` cells: the state it leaves and the cells it took out. -/
def sweep (next : σ → α → Option α) (selects : σ → α → Bool) (take : σ → Option α → α → σ) :
    Nat → Option α → Option α → σ → σ × List α
  | 0, _, _, s => (s, [])
  | _ + 1, _, none, s => (s, [])
  | fuel + 1, prev, some a, s =>
    if selects s a then
      let s := take s prev a
      let rest := sweep next selects take fuel prev (next s a) s
      (rest.1, a :: rest.2)
    else sweep next selects take fuel (some a) (next s a) s

/-- What every taking of a selected cell carries on holds of a pass, whatever the pointers are. -/
theorem sweep_selected (next : σ → α → Option α) (selects : σ → α → Bool)
    (take : σ → Option α → α → σ) {P : List α → σ → Prop}
    (htake : ∀ taken s prev a, selects s a = true → P taken s → P (taken ++ [a]) (take s prev a))
    (fuel : Nat) :
    ∀ (prev cur : Option α) (s : σ) (taken : List α), P taken s →
      P (taken ++ (sweep next selects take fuel prev cur s).2)
        (sweep next selects take fuel prev cur s).1 := by
  induction fuel with
  | zero =>
    intro prev cur s taken h
    rwa [sweep, List.append_nil]
  | succ fuel ih =>
    intro prev cur s taken h
    cases cur with
    | none => rwa [sweep, List.append_nil]
    | some a =>
      rw [sweep]
      split_ifs with hs
      · have htail := ih prev (next (take s prev a) a) (take s prev a) (taken ++ [a])
          (htake taken s prev a hs h)
        rwa [List.append_assoc, List.singleton_append] at htail
      · exact ih (some a) (next s a) s taken h

theorem sweep_taken (next : σ → α → Option α) (selects : σ → α → Bool) (take : σ → Option α → α → σ)
    {P : List α → σ → Prop}
    (htake : ∀ taken s prev a, P taken s → P (taken ++ [a]) (take s prev a)) (fuel : Nat) :
    ∀ (prev cur : Option α) (s : σ) (taken : List α), P taken s →
      P (taken ++ (sweep next selects take fuel prev cur s).2)
        (sweep next selects take fuel prev cur s).1 :=
  sweep_selected next selects take (fun taken s prev a _ => htake taken s prev a) fuel

section Rule

variable [DecidableEq α] {head : σ → Option α} {next : σ → α → Option α} {selects : σ → α → Bool}
  {take : σ → Option α → α → σ}

theorem Linked.bypassed {next : α → Option α} {head : Option α} {kept rest : List α} {a : α}
    (h : Linked next head (kept ++ a :: rest)) (hn : (kept ++ a :: rest).Nodup) :
    Linked (bypassed next head kept.getLast? a).2 (bypassed next head kept.getLast? a).1
      (kept ++ rest) := by
  rcases List.eq_nil_or_concat kept with rfl | ⟨pre, p, rfl⟩
  · exact h.2
  · rw [List.concat_eq_append] at h hn ⊢
    rw [List.getLast?_concat]
    rw [List.append_assoc, List.singleton_append] at h hn ⊢
    exact h.bypass hn

theorem bypassed_frame {next : α → Option α} {head : Option α} {kept : List α} {a b : α}
    (hb : b ∉ kept) :
    (bypassed next head kept.getLast? a).2 b = next b := by
  rcases List.eq_nil_or_concat kept with rfl | ⟨pre, p, rfl⟩
  · rfl
  · rw [List.concat_eq_append] at hb ⊢
    rw [List.getLast?_concat]
    refine Function.update_of_ne ?_ _ _
    rintro rfl
    simp at hb

/-- What taking a cell must do to the list, and may not do to the selection. -/
structure Takes (head : σ → Option α) (next : σ → α → Option α) (selects : σ → α → Bool)
    (take : σ → Option α → α → σ) : Prop where
  first : ∀ s prev a, head (take s prev a) = (bypassed (next s) (head s) prev a).1
  pointers : ∀ s prev a, next (take s prev a) = (bypassed (next s) (head s) prev a).2
  others : ∀ s prev a b, b ≠ a → selects (take s prev a) b = selects s b

/-- A pass keeps the cells it does not select, takes the others in list order, writes no
pointer outside the list, and ends in what taking them one after the other leads to. -/
theorem sweep_linked (ht : Takes head next selects take) {inv : List α → σ → Prop} {l : List α}
    (htake : ∀ taken s prev a, a ∈ l → a ∉ taken → inv taken s → selects s a = true →
      inv (taken ++ [a]) (take s prev a)) :
    ∀ (rest kept taken : List α) (s : σ) (fuel : Nat), kept ++ rest ⊆ l → taken.Disjoint rest →
      Linked (next s) (head s) (kept ++ rest) → (kept ++ rest).Nodup → rest.length ≤ fuel →
        inv taken s →
      let swept := sweep next selects take fuel kept.getLast? rest.head? s
      Linked (next swept.1) (head swept.1) (kept ++ rest.filter fun a => !selects s a) ∧
        swept.2 = rest.filter (selects s) ∧ inv (taken ++ swept.2) swept.1 ∧
        ∀ b, b ∉ kept ++ rest → next swept.1 b = next s b := by
  intro rest
  induction rest with
  | nil =>
    intro kept taken s fuel _ _ hl _ _ hi
    have hnil : sweep next selects take fuel kept.getLast? none s = (s, []) := by cases fuel <;> rfl
    simp only [List.head?_nil, hnil, List.filter_nil, List.append_nil] at hl ⊢
    exact ⟨hl, trivial, hi, fun _ _ => trivial⟩
  | cons a rest ih =>
    intro kept taken s fuel hsub hdisj hl hn hf hi
    obtain ⟨fuel, rfl⟩ : ∃ k, fuel = k + 1 := ⟨fuel - 1, by simp at hf; omega⟩
    have hf' : rest.length ≤ fuel := by simpa using hf
    have ha : a ∈ l := hsub (by simp)
    simp only [List.head?_cons, sweep]
    by_cases hs : selects s a = true
    · rw [if_pos hs]
      have htaken : a ∉ taken := fun hin => hdisj hin List.mem_cons_self
      have hhead := ht.first s kept.getLast? a
      have hnext := ht.pointers s kept.getLast? a
      have hl' : Linked (next (take s kept.getLast? a)) (head (take s kept.getLast? a))
          (kept ++ rest) := by
        rw [hhead, hnext]
        exact hl.bypassed hn
      have hnot : a ∉ kept := fun hin =>
        (List.nodup_append.mp hn).2.2 a hin a List.mem_cons_self rfl
      have hgo : next (take s kept.getLast? a) a = rest.head? := by
        rw [hnext, bypassed_frame hnot]
        exact hl.follow
      have hselect : ∀ b ∈ rest, selects (take s kept.getLast? a) b = selects s b := by
        intro b hb
        refine ht.others s _ a b ?_
        rintro rfl
        exact (List.nodup_cons.mp (List.nodup_append.mp hn).2.1).1 hb
      have hn' : (kept ++ rest).Nodup :=
        hn.sublist (List.Sublist.append_left (List.sublist_cons_self a rest) kept)
      have hsub' : kept ++ rest ⊆ l := fun b hb => hsub (by
        rcases List.mem_append.mp hb with hb | hb
        · exact List.mem_append_left _ hb
        · exact List.mem_append_right _ (List.mem_cons_of_mem a hb))
      have hdisj' : (taken ++ [a]).Disjoint rest := by
        intro b hb hr
        rcases List.mem_append.mp hb with hb | hb
        · exact hdisj hb (List.mem_cons_of_mem a hr)
        · obtain rfl := List.mem_singleton.mp hb
          exact (List.nodup_cons.mp (List.nodup_append.mp hn).2.1).1 hr
      obtain ⟨h₁, h₂, h₃, h₄⟩ := ih kept (taken ++ [a]) (take s kept.getLast? a) fuel hsub'
        hdisj' hl' hn' hf'
        (htake taken s _ a ha htaken hi hs)
      rw [hgo]
      refine ⟨?_, ?_, ?_, fun b hb => ?_⟩
      · rw [List.filter_cons_of_neg (by simp [hs])]
        rwa [List.filter_congr fun b hb => by rw [hselect b hb]] at h₁
      · rw [List.filter_cons_of_pos hs, h₂, List.filter_congr hselect]
      · rwa [List.append_assoc, List.singleton_append] at h₃
      · have hb' : b ∉ kept ++ rest := fun hin => hb (by
          rcases List.mem_append.mp hin with hin | hin
          · exact List.mem_append_left _ hin
          · exact List.mem_append_right _ (List.mem_cons_of_mem a hin))
        rw [h₄ b hb', hnext, bypassed_frame fun hin => hb (List.mem_append_left _ hin)]
    · rw [if_neg hs, hl.follow]
      have hassoc : (kept ++ [a]) ++ rest = kept ++ a :: rest := by simp
      have hlast : (kept ++ [a]).getLast? = some a := List.getLast?_concat
      obtain ⟨h₁, h₂, h₃, h₄⟩ := ih (kept ++ [a]) taken s fuel (by rwa [hassoc])
        (fun b hb hr => hdisj hb (List.mem_cons_of_mem a hr)) (by rwa [hassoc])
          (by rwa [hassoc]) hf' hi
      rw [hlast] at h₁ h₂ h₃ h₄
      refine ⟨?_, ?_, h₃, fun b hb => h₄ b (by rwa [hassoc])⟩
      · rw [List.filter_cons_of_pos (by simp [hs])]
        simpa using h₁
      · rw [List.filter_cons_of_neg hs, h₂]

theorem sweep_whole (ht : Takes head next selects take) (inv : List α → σ → Prop) {s : σ}
    {l : List α} {fuel : Nat} (hl : Linked (next s) (head s) l) (hn : l.Nodup)
    (hf : l.length ≤ fuel) (hi : inv [] s)
    (htake : ∀ taken s prev a, a ∈ l → a ∉ taken → inv taken s → selects s a = true →
      inv (taken ++ [a]) (take s prev a)) :
    let swept := sweep next selects take fuel none (head s) s
    Linked (next swept.1) (head swept.1) (l.filter fun a => !selects s a) ∧
      swept.2 = l.filter (selects s) ∧ inv swept.2 swept.1 ∧
      ∀ b, b ∉ l → next swept.1 b = next s b := by
  have hhead := hl.head_eq
  have h := sweep_linked ht htake l [] [] s fuel (List.Subset.refl _)
    (List.disjoint_nil_left _) hl hn hf hi
  rw [← hhead] at h
  exact h

end Rule

end Lib
