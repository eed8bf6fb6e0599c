import Mathlib.Algebra.BigOperators.Group.List.Basic
import Mathlib.Algebra.GroupWithZero.Nat
import Mathlib.Logic.Relation
import Mathlib.Data.List.Infix

/-!
# One direction of a stop-and-wait transfer

The sender gives every item the number behind all it accepted before, and accepts
an item only when the last one is confirmed. The receiver takes the item whose
number it has reached and announces the number it has reached, as often as it
likes. Items and announcements stay on the network for good, so that each of them
may arrive late, again, after others or never.
-/
namespace Lib

variable {α : Type*}

/-- Both ends of one direction, and all that was ever put on the network between them. -/
structure Transfer (α : Type*) where
  accepted : List α
  confirmed : Nat
  delivered : List α
  /-- the items, each with its number -/
  items : List (Nat × α)
  /-- the numbers that the receiver announced -/
  announced : List Nat

namespace Transfer

def start : Transfer α := ⟨[], 0, [], [], []⟩

/-- The number behind items that start at `base`. -/
def behind (size : α → Nat) (base : Nat) (l : List α) : Nat := base + (l.map size).sum

variable {size : α → Nat} {base : Nat} {t t' : Transfer α}

@[simp] theorem behind_nil : behind size base [] = base := Nat.add_zero _

@[simp] theorem behind_append (l l' : List α) :
    behind size base (l ++ l') = behind size base l + (l'.map size).sum := by
  rw [behind, behind, List.map_append, List.sum_append, Nat.add_assoc]

theorem eq_of_behind_eq {l l₁ l₂ : List α} (hpos : ∀ a ∈ l, 0 < size a) (h₁ : l₁ <+: l)
    (h₂ : l₂ <+: l) (he : behind size base l₁ = behind size base l₂) : l₁ = l₂ := by
  have hle {l₁ l₂ : List α} (hpos : ∀ a ∈ l₂, 0 < size a) (h : l₁ <+: l₂)
      (he : behind size base l₁ = behind size base l₂) : l₁ = l₂ := by
    obtain ⟨r, rfl⟩ := h
    cases r with
    | nil => exact (List.append_nil l₁).symm
    | cons a r =>
      have ha := hpos a (List.mem_append.mpr (.inr List.mem_cons_self))
      rw [behind_append, List.map_cons, List.sum_cons] at he
      omega
  rcases List.prefix_or_prefix_of_prefix h₁ h₂ with h | h
  · exact hle (fun a ha => hpos a (h₂.subset ha)) h he
  · exact (hle (fun a ha => hpos a (h₁.subset ha)) h he.symm).symm

/-- What either end may do. -/
inductive Step (size : α → Nat) (base : Nat) : Transfer α → Transfer α → Prop
  | accept {t : Transfer α} (a : α) (ha : 0 < size a) (hc : t.confirmed = t.accepted.length) :
      Step size base t { t with
        accepted := t.accepted ++ [a], items := t.items ++ [(behind size base t.accepted, a)] }
  | deliver {t : Transfer α} (a : α) (hin : (behind size base t.delivered, a) ∈ t.items) :
      Step size base t { t with delivered := t.delivered ++ [a] }
  | announce {t : Transfer α} :
      Step size base t { t with announced := t.announced ++ [behind size base t.delivered] }
  | confirm {t : Transfer α} (hin : behind size base t.accepted ∈ t.announced)
      (hp : t.confirmed < t.accepted.length) :
        Step size base t { t with confirmed := t.confirmed + 1 }

theorem behind_le {l₁ l₂ : List α} (h : l₁ <+: l₂) : behind size base l₁ ≤ behind size base l₂ := by
  obtain ⟨r, rfl⟩ := h
  rw [behind_append]
  exact Nat.le_add_right _ _

/-- What both ends agree on in every state. -/
structure Agreed (size : α → Nat) (base : Nat) (t : Transfer α) : Prop where
  positive : ∀ a ∈ t.accepted, 0 < size a
  ordered : t.delivered <+: t.accepted
  known : t.confirmed ≤ t.delivered.length
  window : t.accepted.length ≤ t.confirmed + 1
  numbered : ∀ q ∈ t.items, ∃ l, l ++ [q.2] <+: t.accepted ∧ q.1 = behind size base l
  reached : ∀ q ∈ t.announced, ∃ l, l <+: t.delivered ∧ q = behind size base l

theorem agreed_start : Agreed size base (start : Transfer α) where
  positive := List.forall_mem_nil _
  ordered := List.prefix_refl _
  known := Nat.le_refl _
  window := Nat.zero_le _
  numbered := List.forall_mem_nil _
  reached := List.forall_mem_nil _

namespace Agreed

theorem next (ha : Agreed size base t) {a : α} (hin : (behind size base t.delivered, a) ∈ t.items) :
    t.delivered ++ [a] <+: t.accepted := by
  obtain ⟨l, hl, he⟩ := ha.numbered _ hin
  have hlt : l <+: t.accepted := (List.prefix_append l [a]).trans hl
  rwa [eq_of_behind_eq ha.positive ha.ordered hlt he]

theorem all_delivered (ha : Agreed size base t) (hin : behind size base t.accepted ∈ t.announced) :
    t.delivered = t.accepted := by
  obtain ⟨l, hl, he⟩ := ha.reached _ hin
  have heq := eq_of_behind_eq ha.positive (List.prefix_refl _) (hl.trans ha.ordered) he
  rw [← heq] at hl
  exact ha.ordered.eq_of_length_le hl.length_le

theorem outstanding (ha : Agreed size base t) : t.delivered = t.accepted ∨
    ∃ a, t.accepted = t.delivered ++ [a] ∧ t.confirmed < t.accepted.length := by
  obtain ⟨r, hr⟩ := ha.ordered
  have hwindow := ha.window
  have hknown := ha.known
  rw [← hr, List.length_append] at hwindow
  match r, hr with
  | [], hr => exact .inl (by rw [← hr, List.append_nil])
  | [a], hr => exact .inr ⟨a,
      hr.symm, by rw [← hr, List.length_append, List.length_singleton]; omega⟩
  | _ :: _ :: _, _ =>
    rw [List.length_cons, List.length_cons] at hwindow
    omega

theorem step (ha : Agreed size base t) (hs : Step size base t t') : Agreed size base t' := by
  cases hs with
  | accept a hpos hc =>
    have hle : t.accepted <+: t.accepted ++ [a] := List.prefix_append _ _
    refine ⟨?_, ha.ordered.trans hle, ha.known, ?_, ?_, ha.reached⟩
    · intro b hb
      rcases List.mem_append.mp hb with hb | hb
      · exact ha.positive b hb
      · rwa [List.mem_singleton.mp hb]
    · rw [List.length_append, List.length_singleton, hc]
    · intro q hq
      rcases List.mem_append.mp hq with hq | hq
      · obtain ⟨l, hl, he⟩ := ha.numbered q hq
        exact ⟨l, hl.trans hle, he⟩
      · rw [List.mem_singleton.mp hq]
        exact ⟨t.accepted, List.prefix_refl _, rfl⟩
  | deliver a hin =>
    have hle : t.delivered <+: t.delivered ++ [a] := List.prefix_append _ _
    refine ⟨ha.positive, ha.next hin, Nat.le_trans ha.known hle.length_le, ha.window, ha.numbered,
      fun q hq => ?_⟩
    obtain ⟨l, hl, he⟩ := ha.reached q hq
    exact ⟨l, hl.trans hle, he⟩
  | announce =>
    refine ⟨ha.positive, ha.ordered, ha.known, ha.window, ha.numbered, fun q hq => ?_⟩
    rcases List.mem_append.mp hq with hq | hq
    · exact ha.reached q hq
    · exact ⟨t.delivered, List.prefix_refl _, List.mem_singleton.mp hq⟩
  | confirm hin hp =>
    refine ⟨ha.positive, ha.ordered, ?_, Nat.le_trans ha.window (Nat.le_succ _),
      ha.numbered, ha.reached⟩
    rw [ha.all_delivered hin]
    exact hp

end Agreed

/-- The states that the two ends can get to. -/
abbrev Reaches (size : α → Nat) (base : Nat) (t : Transfer α) : Prop :=
  Relation.ReflTransGen (Step size base) start t

theorem Reaches.agreed (hr : Reaches size base t) : Agreed size base t := by
  induction hr with
  | refl => exact agreed_start
  | tail _ hs ih => exact ih.step hs

theorem Reaches.announces (hr : Reaches size base t) (l : List Nat)
    (hl : ∀ q ∈ l, q = behind size base t.delivered) :
    Reaches size base { t with announced := t.announced ++ l } := by
  induction l generalizing t with
  | nil => rwa [List.append_nil]
  | cons q l ih =>
    have hnext : Reaches size base { t with announced := t.announced ++ [q] } := by
      rw [hl q List.mem_cons_self]
      exact hr.tail .announce
    have hrest := ih hnext fun r hr => hl r (List.mem_cons_of_mem _ hr)
    rwa [List.append_assoc] at hrest

end Transfer

end Lib
