import NanoIp.Lib.Chain

/-!
# Intrusive queues

A queue of cells that carry their own `next` pointer, kept by a pointer to its first and
one to its last cell. `Queued` says which list of cells a queue spells out; adding a cell
puts it at the end of that list and popping takes the first one, as long as a cell is not
added to a queue it already stands in.
-/
namespace Lib

variable {α : Type*}

/-- The first and the last cell of a queue. -/
structure Queue (α : Type*) where
  head : Option α
  tail : Option α
  deriving DecidableEq

def Queue.empty : Queue α := ⟨none, none⟩

section Operations

variable [DecidableEq α]

/-- Put a cell behind the last one: the pointers and the queue it leaves. -/
def Queue.add (q : Queue α) (next : α → Option α) (a : α) : (α → Option α) × Queue α :=
  match q.tail with
  | none => (Function.update next a none, ⟨some a, some a⟩)
  | some t => (Function.update (Function.update next t (some a)) a none, ⟨q.head, some a⟩)

theorem Queue.add_self (q : Queue α) (next : α → Option α) (a : α) : (q.add next a).1 a = none := by
  unfold Queue.add
  split <;> exact Function.update_self _ _ _

theorem Queue.add_next {q : Queue α} {next : α → Option α} {a b c : α}
    (h : (q.add next a).1 b = some c) :
    next b = some c ∨ c = a := by
  by_cases hb : b = a
  · rw [hb, Queue.add_self] at h
    cases h
  unfold Queue.add at h
  split at h
  · exact .inl ((Function.update_of_ne hb _ _).symm.trans h)
  · next t _ =>
    have hmid := (Function.update_of_ne hb _ _).symm.trans h
    by_cases ht : b = t
    · rw [ht, Function.update_self] at hmid
      exact .inr (Option.some.inj hmid).symm
    · exact .inl ((Function.update_of_ne ht _ _).symm.trans hmid)

theorem Queue.add_ends {q : Queue α} {next : α → Option α} {a b : α}
    (h : (q.add next a).2.head = some b ∨ (q.add next a).2.tail = some b) :
    q.head = some b ∨ b = a := by
  unfold Queue.add at h
  split at h
  · exact .inr (by simpa [eq_comm] using h)
  · exact h.imp_right fun hb => (Option.some.inj hb).symm

/-- Take the first cell. -/
def Queue.pop (q : Queue α) (next : α → Option α) : Option (α × (α → Option α) × Queue α) :=
  match q.head with
  | none => none
  | some a => some (a, Function.update next a none,
      ⟨next a, if next a = none then none else q.tail⟩)

end Operations

/-- The cells of a queue, none of them twice, are `l`. -/
structure Queued (next : α → Option α) (q : Queue α) (l : List α) : Prop where
  linked : Linked next q.head l
  tail : q.tail = l.getLast?
  nodup : l.Nodup

variable {next next' : α → Option α} {q : Queue α} {l : List α} {a : α}

theorem queued_empty (next : α → Option α) : Queued next Queue.empty [] :=
  ⟨rfl, rfl, List.nodup_nil⟩

theorem Queued.congr (h : Queued next q l) (hnext : ∀ a ∈ l, next' a = next a) : Queued next' q l :=
  ⟨h.linked.congr hnext, h.tail, h.nodup⟩

theorem Queued.head_none (h : Queued next q l) : q.head = none ↔ l = [] := by
  have hl := h.linked
  cases l with
  | nil => exact iff_of_true hl rfl
  | cons a l =>
    refine iff_of_false ?_ (List.cons_ne_nil a l)
    rw [hl.1]
    exact Option.some_ne_none a

variable [DecidableEq α]

theorem Queued.add_eq (h : Queued next q l) (a : α) :
    q.add next a = ((append next q.head a l).2, ⟨(append next q.head a l).1, some a⟩) := by
  unfold Queue.add append
  rw [h.tail]
  cases l.getLast? <;> rfl

theorem Queued.add (h : Queued next q l) (ha : a ∉ l) :
    Queued (q.add next a).1 (q.add next a).2 (l ++ [a]) := by
  rw [h.add_eq]
  refine ⟨h.linked.append h.nodup ha, List.getLast?_concat.symm, ?_⟩
  exact List.nodup_append.mpr ⟨h.nodup, List.nodup_singleton a, fun b hb c hc he =>
    ha (List.mem_singleton.mp hc ▸ he ▸ hb)⟩

theorem Queued.add_frame (h : Queued next q l) {b : α} (hb : b ∉ l) (hne : b ≠ a) :
    (q.add next a).1 b = next b := by
  rw [h.add_eq]
  exact append_frame next q.head hb hne

theorem Queued.pop_none (h : Queued next q l) : q.pop next = none ↔ l = [] := by
  rw [← h.head_none, Queue.pop]
  cases q.head with
  | none => exact iff_of_true rfl rfl
  | some a => exact iff_of_false (Option.some_ne_none _) (Option.some_ne_none _)

theorem Queued.pop (h : Queued next q (a :: l)) :
    ∃ q', q.pop next = some (a, Function.update next a none, q') ∧
    Queued (Function.update next a none) q' l := by
  obtain ⟨hhead, hl⟩ := h.linked
  obtain ⟨ha, hn⟩ := List.nodup_cons.mp h.nodup
  refine ⟨_, by rw [Queue.pop, hhead], hl.congr fun b hb => Function.update_of_ne ?_ _ _, ?_, hn⟩
  · rintro rfl
    exact ha hb
  · dsimp only
    cases l with
    | nil => exact if_pos hl
    | cons b l =>
      have hne : next a ≠ none := by
        rw [hl.1]
        exact Option.some_ne_none b
      rw [if_neg hne, h.tail, List.getLast?_cons_cons]

end Lib
