import NanoIp.Lib.Sweep

/-!
# Passes whose callbacks put cells back

A pass takes the selected cells out of an intrusive list and calls each of them back, and goes on
through the pointer of the cell afterwards. A callback that puts its cell back at the head of the
list sends the pass there, with the predecessor it had in hand before: the cells in front of that
predecessor are passed a second time, and the first of them without its own predecessor.
-/
namespace Lib

variable {σ α : Type*}

/-- The pointers and the selection of a state, and what a pass does with a cell that is selected. -/
structure Pass (σ α : Type*) where
  head : σ → Option α
  next : σ → α → Option α
  selects : σ → α → Bool
  take : σ → Option α → α → σ
  call : σ → α → σ

namespace Pass

variable (P : Pass σ α)

/-- The pass, for at most `fuel` cells; `none` when there are more. -/
def run : Nat → Option α → Option α → σ → Option σ
  | _, _, none, s => some s
  | 0, _, some _, _ => none
  | fuel + 1, prev, some a, s =>
    if P.selects s a then
      let s := P.call (P.take s prev a) a
      run fuel prev (P.next s a) s
    else run fuel (some a) (P.next s a) s

/-- The pass ends, and in which state. -/
def Ends (prev cur : Option α) (s s' : σ) : Prop := ∃ fuel, P.run fuel prev cur s = some s'

section Steps

variable {P} {prev : Option α} {a : α} {s s' : σ}

theorem ends_none : P.Ends prev none s s' ↔ s' = s := by
  have hrun : ∀ fuel, P.run fuel prev none s = some s := by
    intro fuel
    cases fuel <;> rfl
  constructor
  · rintro ⟨fuel, h⟩
    rw [hrun] at h
    exact (Option.some.inj h).symm
  · rintro rfl
    exact ⟨0, hrun 0⟩

theorem ends_selected (h : P.selects s a = true) : P.Ends prev (some a) s s' ↔
    P.Ends prev (P.next (P.call (P.take s prev a) a) a) (P.call (P.take s prev a) a) s' := by
  constructor
  · rintro ⟨fuel, hrun⟩
    cases fuel with
    | zero => cases hrun
    | succ fuel =>
      rw [run, if_pos h] at hrun
      exact ⟨fuel, hrun⟩
  · rintro ⟨fuel, hrun⟩
    refine ⟨fuel + 1, ?_⟩
    rw [run, if_pos h]
    exact hrun

theorem ends_passed (h : P.selects s a = false) :
    P.Ends prev (some a) s s' ↔ P.Ends (some a) (P.next s a) s s' := by
  have hnot : ¬P.selects s a = true := by simp [h]
  constructor
  · rintro ⟨fuel, hrun⟩
    cases fuel with
    | zero => cases hrun
    | succ fuel =>
      rw [run, if_neg hnot] at hrun
      exact ⟨fuel, hrun⟩
  · rintro ⟨fuel, hrun⟩
    refine ⟨fuel + 1, ?_⟩
    rw [run, if_neg hnot]
    exact hrun

theorem ends_walk {ws rest : List α} (hws : ∀ w ∈ ws, P.selects s w = false) :
    ∀ {prev cur : Option α}, Linked (P.next s) cur (ws ++ rest) →
      (P.Ends prev cur s s' ↔ P.Ends (ws.getLast?.or prev) rest.head? s s') := by
  induction ws with
  | nil =>
    intro prev cur h
    rw [show cur = rest.head? from Linked.head_eq h]
    rfl
  | cons w ws ih =>
    intro prev cur h
    obtain ⟨rfl, hrest⟩ := h
    rw [ends_passed (hws w List.mem_cons_self),
      ih (fun x hx => hws x (List.mem_cons_of_mem w hx)) hrest]
    cases hlast : ws.getLast? <;> simp [List.getLast?_cons, hlast]

/-- Callbacks that do nothing leave a pass that takes cells out. -/
theorem run_silent (hcall : ∀ s a, P.call s a = s) {fuel : Nat} : ∀ {prev cur : Option α} {s : σ},
    P.run fuel prev cur s = some s' → s' = (sweep P.next P.selects P.take fuel prev cur s).1 := by
  induction fuel with
  | zero =>
    intro prev cur s h
    cases cur with
    | none => exact (Option.some.inj h).symm
    | some a => cases h
  | succ fuel ih =>
    intro prev cur s h
    cases cur with
    | none => exact (Option.some.inj h).symm
    | some a =>
      rw [run] at h
      rw [sweep]
      split_ifs at h ⊢
      · rw [hcall] at h
        exact ih h
      · exact ih h

end Steps

variable [DecidableEq α]

/-- Taking a cell bypasses it; its callback puts it back or not, and if it does it decides whether
the cell is selected again. Nothing else of the list or of the selection changes. -/
structure Sound (restarts again : α → Bool) : Prop where
  takes : Takes P.head P.next P.selects P.take
  left : ∀ s a, restarts a = false → P.head (P.call s a) = P.head s ∧ P.next (P.call s a) = P.next s
  back : ∀ s a, restarts a = true → P.head (P.call s a) = some a ∧
    P.next (P.call s a) = Function.update (P.next s) a (P.head s) ∧
      P.selects (P.call s a) a = again a
  others : ∀ s a b, b ≠ a → P.selects (P.call s a) b = P.selects s b

/-- The pointers of the cells `K`, and the head, stay among these cells. -/
structure Closed (K : α → Prop) (s : σ) : Prop where
  first : ∀ x, P.head s = some x → K x
  next : ∀ x, K x → ∀ y, P.next s x = some y → K y

/-- They never come to an end either, and each of the cells is put back whenever it is taken. -/
structure Endless (restarts : α → Bool) (K : α → Prop) (s : σ) : Prop extends P.Closed K s where
  nonempty : P.head s ≠ none
  pointed : ∀ x, K x → P.next s x ≠ none
  restarts : ∀ x, K x → restarts x = true

section Closed

variable {P} {restarts again : α → Bool} {K : α → Prop} {s s' : σ} {prev : Option α} {a : α}

theorem Sound.closed_take (h : P.Sound restarts again) (hc : P.Closed K s) (ha : K a)
    (prev : Option α) :
    P.Closed K (P.take s prev a) := by
  have hnext : ∀ x, K x → ∀ y, (bypassed (P.next s) (P.head s) prev a).2 x = some y → K y := by
    intro x hx y hy
    cases prev with
    | none => exact hc.next x hx y hy
    | some p =>
      dsimp only [bypassed] at hy
      by_cases hxp : x = p
      · subst hxp
        rw [Function.update_self] at hy
        exact hc.next a ha y hy
      · rw [Function.update_of_ne hxp] at hy
        exact hc.next x hx y hy
  constructor
  · intro x hx
    rw [h.takes.first] at hx
    cases prev with
    | none => exact hc.next a ha x hx
    | some p => exact hc.first x hx
  · rw [h.takes.pointers]
    exact hnext

theorem Sound.closed_call (h : P.Sound restarts again) (hc : P.Closed K s) (ha : K a) :
    P.Closed K (P.call s a) := by
  cases hr : restarts a with
  | false =>
    obtain ⟨hhead, hnext⟩ := h.left s a hr
    exact ⟨by rw [hhead]; exact hc.first, by rw [hnext]; exact hc.next⟩
  | true =>
    obtain ⟨hhead, hnext, -⟩ := h.back s a hr
    constructor
    · intro x hx
      rw [hhead] at hx
      exact Option.some.inj hx ▸ ha
    · intro x hx y hy
      rw [hnext] at hy
      by_cases hxa : x = a
      · subst hxa
        rw [Function.update_self] at hy
        exact hc.first y hy
      · rw [Function.update_of_ne hxa] at hy
        exact hc.next x hx y hy

/-- A pass among closed cells does not leave them. -/
theorem Sound.closed_ends (h : P.Sound restarts again) (hc : P.Closed K s) {cur : Option α}
    (hcur : ∀ x, cur = some x → K x) (hends : P.Ends prev cur s s') : P.Closed K s' := by
  obtain ⟨fuel, hrun⟩ := hends
  induction fuel generalizing prev cur s with
  | zero =>
    cases cur with
    | none => exact Option.some.inj hrun ▸ hc
    | some a => cases hrun
  | succ fuel ih =>
    cases cur with
    | none => exact Option.some.inj hrun ▸ hc
    | some a =>
      have ha := hcur a rfl
      rw [run] at hrun
      split_ifs at hrun
      · have hc' := h.closed_call (h.closed_take hc ha prev) ha
        exact ih hc' (hc'.next a ha) hrun
      · exact ih hc (hc.next a ha) hrun

omit [DecidableEq α] in
theorem Closed.mem (hc : P.Closed K s) {l : List α} (hl : Linked (P.next s) (P.head s) l) :
    ∀ x ∈ l, K x := by
  have hfrom : ∀ {cur : Option α} {l : List α}, (∀ x, cur = some x → K x) →
    Linked (P.next s) cur l →
      ∀ x ∈ l, K x := by
    intro cur l
    induction l generalizing cur with
    | nil => exact fun _ _ x hx => absurd hx List.not_mem_nil
    | cons a l ih =>
      rintro hcur ⟨rfl, hl⟩ x hx
      rcases List.mem_cons.mp hx with rfl | hx
      · exact hcur x rfl
      · exact ih (hc.next a (hcur a rfl)) hl x hx
  exact hfrom hc.first hl

/-- A pass among cells that have no end does not end. -/
theorem Sound.endless (h : P.Sound restarts again) (he : P.Endless restarts K s) (ha : K a) :
    ¬P.Ends prev (some a) s s' := by
  rintro ⟨fuel, hrun⟩
  induction fuel generalizing prev a s with
  | zero => cases hrun
  | succ fuel ih =>
    rw [run] at hrun
    split_ifs at hrun
    · have htake := h.closed_take he.toClosed ha prev
      have hcall := h.closed_call htake ha
      obtain ⟨hhead, hnext, -⟩ := h.back (P.take s prev a) a (he.restarts a ha)
      have hfirst : P.head (P.take s prev a) ≠ none := by
        rw [h.takes.first]
        cases prev with
        | none => exact he.pointed a ha
        | some p => exact he.nonempty
      have hpointed : ∀ x, K x → P.next (P.take s prev a) x ≠ none := by
        intro x hx
        rw [h.takes.pointers]
        cases prev with
        | none => exact he.pointed x hx
        | some p =>
          dsimp only [bypassed]
          by_cases hxp : x = p
          · subst hxp
            rw [Function.update_self]
            exact he.pointed a ha
          · rw [Function.update_of_ne hxp]
            exact he.pointed x hx
      have he' : P.Endless restarts K (P.call (P.take s prev a) a) := by
        refine ⟨hcall, by rw [hhead]; exact Option.some_ne_none a, fun x hx => ?_, he.restarts⟩
        rw [hnext]
        by_cases hxa : x = a
        · subst hxa
          rw [Function.update_self]
          exact hfirst
        · rw [Function.update_of_ne hxa]
          exact hpointed x hx
      obtain ⟨b, hb⟩ := Option.ne_none_iff_exists'.mp (he'.pointed a ha)
      dsimp only at hrun
      rw [hb] at hrun
      exact ih he' (hcall.next a ha b hb) hrun
    · obtain ⟨b, hb⟩ := Option.ne_none_iff_exists'.mp (he.pointed a ha)
      rw [hb] at hrun
      exact ih he (he.next a ha b hb) hrun

end Closed

/-- The pass ends, and the list is then made of the cells `expected`. -/
def Leaves (prev cur : Option α) (s : σ) (expected : List α) : Prop :=
  ∃ s' l', P.Ends prev cur s s' ∧ Linked (P.next s') (P.head s') l' ∧ l'.Perm expected

/-- A pass in the middle of a list: the cells that were put back, the last one first, the cells that
were kept, and the cells that are still to come. -/
structure At (restarts again selected : α → Bool) (stack kept rest : List α) (s : σ) : Prop where
  linked : Linked (P.next s) (P.head s) (stack ++ kept ++ rest)
  nodup : (stack ++ kept ++ rest).Nodup
  restarted : ∀ a ∈ stack, restarts a = true ∧ P.selects s a = again a
  buried : ∀ a ∈ stack.tail, again a = false
  passed : ∀ a ∈ kept, P.selects s a = false
  ahead : ∀ a ∈ rest, P.selects s a = selected a

end Pass

/-- No cell is taken while the cell put back last stands in front of it without a kept one between
them, and none is put back while the one put back last would be selected again. `first` says that
nothing has been kept so far. -/
def Safe (restarts again selected : α → Bool) : Option α → Bool → List α → Prop
  | _, _, [] => True
  | top, first, a :: rest =>
    if selected a then
      (first = true → top = none) ∧
        if restarts a then
          (∀ b ∈ top, again b = false) ∧ Safe restarts again selected (some a) first rest
        else Safe restarts again selected top first rest
    else Safe restarts again selected top false rest

/-- Of the cells taken before the first one kept all but the last are gone, and of the cells put
back all but the last are not selected again. -/
theorem safe_iff {restarts again selected : α → Bool} {rest : List α} :
    ∀ {top : Option α} {first : Bool}, (∀ b ∈ top, restarts b = true) →
      (Safe restarts again selected top first rest ↔
        (first = true → ∀ a ∈ (top.toList ++ rest.takeWhile selected).dropLast,
          restarts a = false) ∧
          ∀ a ∈ (top.toList ++ rest.filter fun a => selected a && restarts a).dropLast, again a =
            false) := by
  induction rest with
  | nil =>
    intro top first _
    cases top <;> simp [Safe]
  | cons a rest ih =>
    intro top first htop
    rw [Safe]
    cases hs : selected a with
    | false =>
      rw [if_neg Bool.false_ne_true, ih htop, List.takeWhile_cons_of_neg (by simp [hs]),
        List.filter_cons_of_neg (by simp [hs])]
      cases top <;> simp
    | true =>
      rw [if_pos rfl, List.takeWhile_cons_of_pos hs, List.dropLast_append_cons]
      cases hr : restarts a with
      | false =>
        rw [if_neg Bool.false_ne_true, ih htop, List.filter_cons_of_neg (by simp [hr])]
        cases top with
        | none =>
          cases hrun : rest.takeWhile selected with
          | nil => simp
          | cons x run => simp [hr]
        | some b =>
          have hb := htop b rfl
          cases first <;> simp [hb]
      | true =>
        have hself : ∀ b ∈ some a, restarts b = true := by
          rintro b ⟨⟩
          exact hr
        rw [if_pos rfl, ih hself, List.filter_cons_of_pos (by simp [hs, hr]),
          List.dropLast_append_cons]
        cases top with
        | none => simp
        | some b =>
          have hb := htop b rfl
          cases first <;> simp [hb]

namespace Pass

variable {P : Pass σ α} [DecidableEq α] {restarts again selected : α → Bool} {s : σ}

section Leaves

variable {prev cur prev' cur' : Option α} {s' : σ} {l l' : List α}

omit [DecidableEq α] in
theorem leaves_congr (h : ∀ s'', P.Ends prev cur s s'' ↔ P.Ends prev' cur' s' s'')
    (hl : l.Perm l') :
    P.Leaves prev cur s l ↔ P.Leaves prev' cur' s' l' := by
  constructor
  · rintro ⟨s'', left, hends, hlinked, hperm⟩
    exact ⟨s'', left, (h s'').mp hends, hlinked, hperm.trans hl⟩
  · rintro ⟨s'', left, hends, hlinked, hperm⟩
    exact ⟨s'', left, (h s'').mpr hends, hlinked, hperm.trans hl.symm⟩

end Leaves

omit [DecidableEq α] in
theorem getLast?_behind {stack kept : List α} (h : kept = [] → stack = []) :
    (stack ++ kept).getLast? = kept.getLast? := by
  rw [List.getLast?_append]
  cases hlast : kept.getLast? with
  | none =>
    rw [h (List.getLast?_eq_none_iff.mp hlast)]
    rfl
  | some p => rfl

namespace At

variable {stack kept rest : List α} {a b : α}

omit [DecidableEq α] in
theorem keep (h : P.At restarts again selected stack kept (a :: rest) s) (ha : selected a = false) :
    P.At restarts again selected stack (kept ++ [a]) rest s := by
  have hassoc : stack ++ (kept ++ [a]) ++ rest = stack ++ kept ++ a :: rest := by simp
  refine ⟨hassoc ▸ h.linked, hassoc ▸ h.nodup, h.restarted, h.buried, fun x hx => ?_,
    fun x hx => ?_⟩
  · rcases List.mem_append.mp hx with hx | hx
    · exact h.passed x hx
    · obtain rfl := List.mem_singleton.mp hx
      rw [h.ahead x List.mem_cons_self, ha]
  · exact h.ahead x (List.mem_cons_of_mem a hx)

/-- A cell that is selected is taken through the kept one before it, unless a cell put back stands
there. -/
theorem taken (hP : P.Sound restarts again)
    (h : P.At restarts again selected stack kept (a :: rest) s) (hfirst : kept = [] → stack = []) :
    P.At restarts again selected stack kept rest (P.take s kept.getLast? a) ∧
      P.next (P.take s kept.getLast? a) a = rest.head? := by
  have hlast := (getLast?_behind hfirst).symm
  have hother : ∀ x ∈ stack ++ kept ++ rest, x ≠ a := by
    rintro x hx rfl
    have hn := h.nodup
    rw [List.nodup_append] at hn
    rcases List.mem_append.mp hx with hx | hx
    · exact hn.2.2 x hx x List.mem_cons_self rfl
    · exact (List.nodup_cons.mp hn.2.1).1 hx
  have hselect : ∀ x ∈ stack ++ kept ++ rest, P.selects (P.take s kept.getLast? a) x =
    P.selects s x :=
    fun x hx => hP.takes.others s _ a x (hother x hx)
  have hbehind : a ∉ stack ++ kept := fun hin => hother a (List.mem_append_left rest hin) rfl
  refine ⟨⟨?_, ?_, fun x hx => ?_, h.buried, fun x hx => ?_, fun x hx => ?_⟩, ?_⟩
  · rw [hP.takes.first, hP.takes.pointers, hlast]
    exact h.linked.bypassed h.nodup
  · exact h.nodup.sublist (List.Sublist.append_left (List.sublist_cons_self a rest) _)
  · rw [hselect x (by simp [hx])]
    exact h.restarted x hx
  · rw [hselect x (by simp [hx])]
    exact h.passed x hx
  · rw [hselect x (by simp [hx])]
    exact h.ahead x (List.mem_cons_of_mem a hx)
  · rw [hP.takes.pointers, hlast, bypassed_frame hbehind]
    exact h.linked.follow

theorem left (hP : P.Sound restarts again) (h : P.At restarts again selected stack kept rest s)
    (ha : a ∉ stack ++ kept ++ rest) (hr : restarts a = false) :
    P.At restarts again selected stack kept rest (P.call s a) := by
  obtain ⟨hhead, hnext⟩ := hP.left s a hr
  have hselect : ∀ x ∈ stack ++ kept ++ rest, P.selects (P.call s a) x = P.selects s x := by
    intro x hx
    refine hP.others s a x ?_
    rintro rfl
    exact ha hx
  refine ⟨by
    rw [hhead, hnext]; exact h.linked, h.nodup, fun x hx => ?_, h.buried, fun x hx => ?_,
    fun x hx => ?_⟩
  · rw [hselect x (by simp [hx])]
    exact h.restarted x hx
  · rw [hselect x (by simp [hx])]
    exact h.passed x hx
  · rw [hselect x (by simp [hx])]
    exact h.ahead x hx

/-- A taken cell that is put back stands in front, and points to what stood there. -/
theorem back (hP : P.Sound restarts again) (h : P.At restarts again selected stack kept rest s)
    (ha : a ∉ stack ++ kept ++ rest) (hr : restarts a = true)
    (hstack : ∀ x ∈ stack, again x = false) :
    P.At restarts again selected (a :: stack) kept rest (P.call s a) := by
  obtain ⟨hhead, hnext, hagain⟩ := hP.back s a hr
  have hselect : ∀ x ∈ stack ++ kept ++ rest, P.selects (P.call s a) x = P.selects s x := by
    intro x hx
    refine hP.others s a x ?_
    rintro rfl
    exact ha hx
  refine ⟨?_, List.nodup_cons.mpr ⟨ha, h.nodup⟩, fun x hx => ?_, hstack, fun x hx => ?_,
    fun x hx => ?_⟩
  · rw [hhead, hnext]
    exact h.linked.push ha
  · rcases List.mem_cons.mp hx with rfl | hx
    · exact ⟨hr, hagain⟩
    · rw [hselect x (by simp [hx])]
      exact h.restarted x hx
  · rw [hselect x (by simp [hx])]
    exact h.passed x hx
  · rw [hselect x (by simp [hx])]
    exact h.ahead x hx

omit [DecidableEq α] in
/-- The pass goes on behind a cell put back as it would behind the cell taken, once it has been
over what stands in front. -/
theorem passes {s' : σ} (h : P.At restarts again selected (a :: stack) kept rest s)
    (hstack : ∀ x ∈ stack, again x = false) (hfirst : kept = [] → stack = []) :
    P.Ends kept.getLast? (P.next s a) s s' ↔ P.Ends kept.getLast? rest.head? s s' := by
  have hwalk : ∀ x ∈ stack ++ kept, P.selects s x = false := by
    intro x hx
    rcases List.mem_append.mp hx with hx | hx
    · rw [(h.restarted x (List.mem_cons_of_mem a hx)).2, hstack x hx]
    · exact h.passed x hx
  rw [ends_walk hwalk h.linked.2, getLast?_behind hfirst, Option.or_self]

end At

section Failures

variable {a b p : α} {stack rest l : List α} {s' : σ}

/-- A cell that is put back, with nothing kept behind it, is lost by the next taking. -/
theorem Sound.lost (hP : P.Sound restarts again)
    (h : P.At restarts again selected (b :: stack) [] (a :: rest) s) (ha : selected a = true)
    (hb : b ∈ l) :
    ¬P.Leaves none (some a) s l := by
  rintro ⟨s', left, hends, hlinked, hperm⟩
  have hl : Linked (P.next s) (P.head s) ((b :: stack) ++ a :: rest) := by simpa using h.linked
  have hn : ((b :: stack) ++ a :: rest).Nodup := by simpa using h.nodup
  have hsuffix : Linked (P.next s) (some a) (a :: rest) := hl.suffix
  rw [ends_selected (by rw [h.ahead a List.mem_cons_self, ha])] at hends
  -- the head skips the cells put back, and nothing from there on leads to them
  have htake : P.Closed (· ∈ a :: rest) (P.take s none a) := by
    constructor
    · intro x hx
      rw [hP.takes.first] at hx
      exact hsuffix.next_mem List.mem_cons_self hx
    · intro x hmem y hy
      rw [hP.takes.pointers] at hy
      exact hsuffix.next_mem hmem hy
  have hcall := hP.closed_call htake List.mem_cons_self
  have hend := hP.closed_ends hcall (hcall.next a List.mem_cons_self) hends
  have hin : b ∈ a :: rest := hend.mem hlinked b (hperm.mem_iff.mpr hb)
  exact (List.nodup_append.mp hn).2.2 b List.mem_cons_self b hin rfl

/-- A cell that is selected again behind the one that is put back is taken through a cell further
down; the two then point to each other. -/
theorem Sound.cycles (hP : P.Sound restarts again) (hl : Linked (P.next s) (P.head s) (a :: b :: l))
    (hn : (a :: b :: l).Nodup) (hp : p ∈ l) (ha : restarts a = true) (hb : restarts b = true)
    (hselected : P.selects s b = true) : ¬P.Ends (some p) (some b) s s' := by
  obtain ⟨hhead, hnext, -⟩ := hl
  rw [ends_selected hselected]
  obtain ⟨hfirst, hpointers, -⟩ := hP.back (P.take s (some p) b) b hb
  have hba : b ≠ a := by
    rintro rfl
    simp at hn
  have hap : a ≠ p := by
    rintro rfl
    simp [hp] at hn
  have hnextB : P.next (P.call (P.take s (some p) b) b) b = some a := by
    rw [hpointers, Function.update_self, hP.takes.first]
    exact hhead
  have hnextA : P.next (P.call (P.take s (some p) b) b) a = some b := by
    rw [hpointers, Function.update_of_ne hba.symm, hP.takes.pointers]
    exact (Function.update_of_ne hap _ _).trans hnext
  have hcycle : P.Endless restarts (fun x => x = a ∨ x = b) (P.call (P.take s (some p) b) b) := by
    refine ⟨⟨fun x hx => ?_, ?_⟩, ?_, ?_, ?_⟩
    · rw [hfirst] at hx
      exact .inr (Option.some.inj hx).symm
    · rintro x (rfl | rfl) y hy
      · rw [hnextA] at hy
        exact .inr (Option.some.inj hy).symm
      · rw [hnextB] at hy
        exact .inl (Option.some.inj hy).symm
    · rw [hfirst]
      exact Option.some_ne_none b
    · rintro x (rfl | rfl)
      · rw [hnextA]
        exact Option.some_ne_none b
      · rw [hnextB]
        exact Option.some_ne_none a
    · rintro x (rfl | rfl)
      · exact ha
      · exact hb
  rw [hnextB]
  exact hP.endless hcycle (.inl rfl)

/-- So it goes when the cell put back last is selected again as the next one is put back. -/
theorem At.cycles (hP : P.Sound restarts again) {kept : List α}
    (h : P.At restarts again selected stack kept rest s) (ha : a ∉ stack ++ kept ++ rest)
    (hr : restarts a = true) (hb : stack.head? = some b) (hagain : again b = true)
    (hkept : kept ≠ []) :
    ¬P.Ends kept.getLast? (P.next (P.call s a) a) (P.call s a) s' := by
  obtain ⟨p, hp⟩ := Option.ne_none_iff_exists'.mp (mt List.getLast?_eq_none_iff.mp hkept)
  obtain ⟨stack, rfl⟩ : ∃ stack', stack = b :: stack' := by
    cases stack with
    | nil => cases hb
    | cons x stack => exact ⟨stack, by rw [Option.some.inj hb]⟩
  obtain ⟨hhead, hpointers, -⟩ := hP.back s a hr
  have hpushed := h.linked.push ha
  rw [← hpointers, ← hhead] at hpushed
  obtain ⟨hrestarts, hselects⟩ := h.restarted b List.mem_cons_self
  have hselected : P.selects (P.call s a) b = true := by
    rw [hP.others _ a b (by rintro rfl; simp at ha), hselects, hagain]
  rw [hpushed.2.1, hp]
  exact hP.cycles hpushed (List.nodup_cons.mpr ⟨ha, h.nodup⟩) (by simp [List.mem_of_getLast? hp])
    hr hrestarts
    hselected

end Failures

/-- A pass ends with the cells it kept and the cells put back, each once, exactly when it is safe.
-/
theorem Sound.leaves_iff (hP : P.Sound restarts again) {rest : List α} :
    ∀ {stack kept : List α} {s : σ}, P.At restarts again selected stack kept rest s →
      (P.Leaves kept.getLast? rest.head? s (stack ++ kept ++ rest.filter (fun a => !selected a) ++
          rest.filter fun a => selected a && restarts a) ↔
        Safe restarts again selected stack.head? kept.isEmpty rest) := by
  induction rest with
  | nil =>
    intro stack kept s h
    have hl : Linked (P.next s) (P.head s) (stack ++ kept) := by simpa using h.linked
    simp only [Safe, iff_true]
    exact ⟨s, stack ++ kept, ends_none.mpr rfl, hl, by simp⟩
  | cons a rest ih =>
    intro stack kept s h
    rw [List.head?_cons, Safe]
    cases hs : selected a with
    | false =>
      have hkeep := ih (h.keep hs)
      rw [List.getLast?_concat, show (kept ++ [a]).isEmpty = false by simp] at hkeep
      rw [if_neg Bool.false_ne_true, ← hkeep]
      refine leaves_congr (fun s'' => ?_) (by simp [hs])
      rw [ends_passed (by rw [h.ahead a List.mem_cons_self, hs]), h.linked.follow]
    | true =>
      have hselected : P.selects s a = true := by rw [h.ahead a List.mem_cons_self, hs]
      rw [if_pos rfl]
      by_cases hfirst : kept = [] → stack = []
      · have hsafe : kept.isEmpty = true → stack.head? = none := by
          intro hk
          rw [hfirst (List.isEmpty_iff.mp hk), List.head?_nil]
        have hnot : a ∉ stack ++ kept ++ rest := by
          have hperm : (stack ++ kept ++ a :: rest).Perm (a :: (stack ++ kept ++ rest)) :=
            List.perm_middle
          exact (List.nodup_cons.mp (hperm.nodup_iff.mp h.nodup)).1
        obtain ⟨htaken, hnext⟩ := h.taken hP hfirst
        rw [and_iff_right hsafe]
        cases hr : restarts a with
        | false =>
          have hleft := htaken.left hP hnot hr
          rw [if_neg Bool.false_ne_true, ← ih hleft]
          refine leaves_congr (fun s'' => ?_) (by simp [hs, hr])
          rw [ends_selected hselected, (hP.left _ a hr).2, hnext]
        | true =>
          rw [if_pos rfl]
          by_cases htop : ∀ b ∈ stack.head?, again b = false
          · have hstack : ∀ b ∈ stack, again b = false := by
              intro b hb
              cases stack with
              | nil => cases hb
              | cons c stack =>
                rcases List.mem_cons.mp hb with rfl | hb
                · exact htop b rfl
                · exact h.buried b hb
            have hback := htaken.back hP hnot hr hstack
            have hrest := ih hback
            rw [List.head?_cons] at hrest
            rw [and_iff_right htop, ← hrest]
            refine leaves_congr (fun s'' => ?_) ?_
            · rw [ends_selected hselected, hback.passes hstack hfirst]
            · simpa [hs, hr] using @List.perm_middle _ a
                (stack ++ (kept ++ rest.filter fun a => !selected a)) _
          · push Not at htop
            obtain ⟨b, hb, hagain⟩ := htop
            refine iff_of_false ?_ fun hsafe => hagain (hsafe.1 b hb)
            rintro ⟨s', l', hends, -⟩
            rw [ends_selected hselected] at hends
            refine htaken.cycles hP hnot hr hb (by simpa using hagain) (fun hk => ?_) hends
            rw [hfirst hk] at hb
            cases hb
      · push Not at hfirst
        obtain ⟨rfl, hne⟩ := hfirst
        obtain ⟨b, stack, rfl⟩ := List.exists_cons_of_ne_nil hne
        refine iff_of_false (hP.lost h hs (by simp)) fun hsafe => ?_
        exact absurd (hsafe.1 rfl) (Option.some_ne_none b)

theorem Sound.whole_iff (hP : P.Sound restarts again) {l : List α}
    (hl : Linked (P.next s) (P.head s) l) (hn : l.Nodup) :
    P.Leaves none (P.head s) s
        (l.filter (fun a => !P.selects s a) ++ l.filter fun a => P.selects s a && restarts a) ↔
      (∀ a ∈ (l.takeWhile (P.selects s)).dropLast, restarts a = false) ∧
        ∀ a ∈ (l.filter fun a => P.selects s a && restarts a).dropLast, again a = false := by
  have h : P.At restarts again (P.selects s) [] [] l s :=
    ⟨hl, hn, nofun, nofun, nofun, fun _ _ => rfl⟩
  have hleaves := hP.leaves_iff h
  rw [List.head?_nil, safe_iff nofun] at hleaves
  rw [hl.head_eq]
  simpa using hleaves

end Pass

end Lib
