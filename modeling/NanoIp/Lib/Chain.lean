import Mathlib.Data.List.Nodup
import Mathlib.Logic.Function.Basic

/-!
# Intrusive singly linked lists

Cells of a type `α` carry their own `next` pointer; a list is a head pointer into
them. `Linked` says which list of cells a head spells out, and the operations of
such lists (push at the head, search, removal through the predecessor) are shown
to be the list operations on it.
-/
namespace Lib

variable {α : Type*}

/-- Follow `next` from a head, for at most `fuel` cells. -/
def chain (next : α → Option α) : Nat → Option α → List α
  | 0, _ => []
  | _ + 1, none => []
  | fuel + 1, some a => a :: chain next fuel (next a)

/-- The cells from `head` on are exactly `l`, the last one pointing nowhere. -/
def Linked (next : α → Option α) : Option α → List α → Prop
  | head, [] => head = none
  | head, a :: l => head = some a ∧ Linked next (next a) l

theorem Linked.chain_eq {next : α → Option α} {l : List α} :
    ∀ {head : Option α} {fuel : Nat}, Linked next head l → l.length ≤ fuel →
      chain next fuel head = l := by
  induction l with
  | nil =>
    intro head fuel h _
    cases h
    cases fuel <;> rfl
  | cons a l ih =>
    intro head fuel h hf
    obtain ⟨rfl, hl⟩ := h
    cases fuel with
    | zero => simp at hf
    | succ fuel => rw [chain, ih hl (by simpa using hf)]

theorem Linked.congr {next next' : α → Option α} {l : List α} :
    ∀ {head : Option α}, Linked next head l → (∀ a ∈ l, next' a = next a) →
      Linked next' head l := by
  induction l with
  | nil => intro head h _; exact h
  | cons a l ih =>
    intro head h he
    refine ⟨h.1, ?_⟩
    rw [he a List.mem_cons_self]
    exact ih h.2 fun b hb => he b (List.mem_cons_of_mem a hb)

theorem Linked.head_eq {next : α → Option α} {head : Option α} {l : List α}
    (h : Linked next head l) :
    head = l.head? := by
  cases l with
  | nil => exact h
  | cons a l => exact h.1

theorem Linked.follow {next : α → Option α} {a : α} {kept rest : List α} :
    ∀ {head : Option α}, Linked next head (kept ++ a :: rest) → next a = rest.head? := by
  induction kept with
  | nil => exact fun h => h.2.head_eq
  | cons x kept ih => exact fun h => ih h.2

theorem Linked.suffix {next : α → Option α} {a : α} {kept rest : List α} :
    ∀ {head : Option α}, Linked next head (kept ++ a :: rest) →
      Linked next (some a) (a :: rest) := by
  induction kept with
  | nil => exact fun h => ⟨rfl, h.2⟩
  | cons x kept ih => exact fun h => ih h.2

theorem Linked.next_mem {next : α → Option α} {x y : α} {l : List α} :
    ∀ {head : Option α}, Linked next head l → x ∈ l → next x = some y → y ∈ l := by
  induction l with
  | nil => exact fun _ hx => absurd hx List.not_mem_nil
  | cons a l ih =>
    rintro head ⟨-, hl⟩ hx hy
    rcases List.mem_cons.mp hx with rfl | hx
    · rw [hl.head_eq] at hy
      exact List.mem_cons_of_mem x (List.mem_of_mem_head? hy)
    · exact List.mem_cons_of_mem a (ih hl hx hy)

variable [DecidableEq α]

theorem Linked.push {next : α → Option α} {head : Option α} {l : List α} {a : α}
    (h : Linked next head l) (ha : a ∉ l) :
    Linked (Function.update next a head) (some a) (a :: l) := by
  refine ⟨rfl, ?_⟩
  rw [Function.update_self]
  refine h.congr fun b hb => Function.update_of_ne ?_ _ _
  rintro rfl
  exact ha hb

/-- Search a cell and report the one before it; the outer `none` means not found. -/
def findPrev (a : α) : Option α → List α → Option (Option α)
  | _, [] => none
  | prev, x :: l => if x = a then some prev else findPrev a (some x) l

/-- Unlink a cell: its predecessor, or the head, takes over its `next`. -/
def unlink (next : α → Option α) (head : Option α) (a : α) (cells : List α) :
    Option α × (α → Option α) :=
  match findPrev a none cells with
  | none => (head, next)
  | some none => (next a, next)
  | some (some p) => (head, Function.update next p (next a))

theorem findPrev_none {a : α} {l : List α} :
    ∀ {prev : Option α}, findPrev a prev l = none ↔ a ∉ l := by
  induction l with
  | nil => simp [findPrev]
  | cons x l ih =>
    intro prev
    by_cases hx : x = a
    · simp [findPrev, hx]
    · simp [findPrev, hx, ih, Ne.symm hx]

theorem findPrev_some {a : α} {r : Option α} {l : List α} :
    ∀ {prev : Option α}, findPrev a prev l = some r →
      (∃ post, l = a :: post ∧ r = prev) ∨
      (∃ pre p post, l = pre ++ p :: a :: post ∧ r = some p ∧ a ∉ pre ++ [p]) := by
  induction l with
  | nil => intro prev h; simp [findPrev] at h
  | cons x l ih =>
    intro prev h
    rw [findPrev] at h
    split at h
    · next hx => exact .inl ⟨l, by rw [hx], (Option.some.inj h).symm⟩
    · next hx =>
      right
      rcases ih h with ⟨post, rfl, rfl⟩ | ⟨pre, p, post, rfl, rfl, ha⟩
      · exact ⟨[], x, post, rfl, rfl, by simpa using Ne.symm hx⟩
      · exact ⟨x :: pre, p, post, rfl, rfl, by simpa [Ne.symm hx] using ha⟩

/-- Letting a cell point past its successor drops the successor. -/
theorem Linked.bypass {next : α → Option α} {p a : α} {pre post : List α} :
    ∀ {head : Option α}, Linked next head (pre ++ p :: a :: post) → (pre ++ p :: a :: post).Nodup →
      Linked (Function.update next p (next a)) head (pre ++ p :: post) := by
  induction pre with
  | nil =>
    intro head h hn
    obtain ⟨rfl, -, hpost⟩ := h
    refine ⟨rfl, ?_⟩
    rw [Function.update_self]
    refine hpost.congr fun b hb => Function.update_of_ne ?_ _ _
    rintro rfl
    simp [hb] at hn
  | cons x pre ih =>
    intro head h hn
    obtain ⟨rfl, hl⟩ := h
    have hxp : x ≠ p := by
      rintro rfl
      simp at hn
    refine ⟨rfl, ?_⟩
    rw [Function.update_of_ne hxp]
    exact ih hl (List.nodup_cons.mp hn).2

theorem Linked.unlink {next : α → Option α} {head : Option α} {l : List α} (a : α)
    (h : Linked next head l) (hn : l.Nodup) :
    Linked (unlink next head a l).2 (unlink next head a l).1 (l.erase a) := by
  unfold Lib.unlink
  cases hf : findPrev a none l with
  | none =>
    rw [List.erase_of_not_mem (findPrev_none.mp hf)]
    exact h
  | some r =>
    rcases findPrev_some hf with ⟨post, rfl, rfl⟩ | ⟨pre, p, post, rfl, rfl, ha⟩
    · rw [List.erase_cons_head]
      exact h.2
    · rw [show pre ++ p :: a :: post = (pre ++ [p]) ++ a :: post from by simp,
        List.erase_append_right _ ha, List.erase_cons_head, List.append_assoc]
      exact h.bypass hn

theorem unlink_frame (next : α → Option α) (head : Option α) (a : α) {l : List α} {b : α}
    (hb : b ∉ l) :
    (unlink next head a l).2 b = next b := by
  unfold Lib.unlink
  cases hf : findPrev a none l with
  | none => rfl
  | some r =>
    rcases findPrev_some hf with ⟨post, rfl, rfl⟩ | ⟨pre, p, post, rfl, rfl, -⟩
    · rfl
    · refine Function.update_of_ne ?_ _ _
      rintro rfl
      simp at hb

/-- Append a cell behind the last one of the list, or make it the list. -/
def append (next : α → Option α) (head : Option α) (a : α) (cells : List α) :
    Option α × (α → Option α) :=
  match cells.getLast? with
  | none => (some a, Function.update next a none)
  | some last => (head, Function.update (Function.update next last (some a)) a none)

theorem append_head (next : α → Option α) (head : Option α) (a : α) (fuel : Nat) :
    (append next head a (chain next fuel head)).1 ≠ none := by
  unfold append
  cases head with
  | none =>
    cases fuel with
    | zero => nofun
    | succ fuel => nofun
  | some b => split <;> nofun

theorem append_frame (next : α → Option α) (head : Option α) {a : α} {l : List α} {b : α}
    (hb : b ∉ l) (hne : b ≠ a) : (append next head a l).2 b = next b := by
  unfold Lib.append
  rcases List.eq_nil_or_concat l with rfl | ⟨l', last, rfl⟩
  · exact Function.update_of_ne hne _ _
  · rw [List.concat_eq_append] at hb ⊢
    rw [List.getLast?_concat]
    have hlast : b ≠ last := fun h => hb (by simp [h])
    dsimp only
    rw [Function.update_of_ne hne, Function.update_of_ne hlast]

/-- Appending a cell that is not in the list. -/
theorem Linked.append {next : α → Option α} {head : Option α} {l : List α} {a : α}
    (h : Linked next head l) (hn : l.Nodup) (ha : a ∉ l) :
    Linked (append next head a l).2 (append next head a l).1 (l ++ [a]) := by
  have hlast {last : α} : ∀ {head : Option α} {l : List α}, Linked next head (l ++ [last]) →
      (l ++ [last]).Nodup → a ∉ l ++ [last] →
      Linked (Function.update (Function.update next last (some a)) a none) head
        ((l ++ [last]) ++ [a]) := by
    intro head l
    induction l generalizing head with
    | nil =>
      intro hl _ ha
      have hne : last ≠ a := fun he => ha (by simp [he])
      refine ⟨hl.1, ?_, ?_⟩
      · rw [Function.update_of_ne hne, Function.update_self]
      · rw [Function.update_self]
        rfl
    | cons x l ih =>
      intro hl hn ha
      have hxa : x ≠ a := fun he => ha (by simp [he])
      have hxl : x ≠ last := fun he => (List.nodup_cons.mp hn).1 (by simp [he])
      refine ⟨hl.1, ?_⟩
      rw [Function.update_of_ne hxa, Function.update_of_ne hxl]
      exact ih hl.2 (List.nodup_cons.mp hn).2 fun hin => ha (List.mem_cons_of_mem x hin)
  unfold Lib.append
  rcases List.eq_nil_or_concat l with rfl | ⟨l, last, rfl⟩
  · exact ⟨rfl, Function.update_self _ _ _⟩
  · rw [List.concat_eq_append] at h hn ha ⊢
    rw [List.getLast?_concat]
    exact hlast h hn ha

end Lib
