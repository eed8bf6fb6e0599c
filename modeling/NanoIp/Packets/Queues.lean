import Mathlib.Data.Fintype.Defs
import NanoIp.Lib.Queue
import NanoIp.Lib.Run

/-!
# Queues of packets

`nano_ip_packet_funcs.h`: all queues link their packets through the same pointer. As long as a
packet is added only while it stands in no queue, each queue holds the packets that were added to
it since its last reset and not popped since, in their order, whatever is done with the others.
-/
namespace NanoIp.PacketQueues

variable {ι π : Type*}

/-- The pointers of the packets, and the queues. -/
structure Queues (ι π : Type*) where
  next : π → Option π
  queue : ι → Lib.Queue π

section Operations

variable [DecidableEq ι] [DecidableEq π]

/-- `NANO_IP_PACKET_ResetQueue`. -/
def resetQueue (s : Queues ι π) (i : ι) : Queues ι π :=
  { s with queue := Function.update s.queue i ⟨none, none⟩ }

/-- `NANO_IP_PACKET_AddToQueue`. -/
def addToQueue (s : Queues ι π) (i : ι) (packet : π) : Queues ι π :=
  match (s.queue i).tail with
  | none =>
    { next := Function.update s.next packet none,
      queue := Function.update s.queue i ⟨some packet, some packet⟩ }
  | some tail =>
    { next := Function.update (Function.update s.next tail (some packet)) packet none
      queue := Function.update s.queue i ⟨(s.queue i).head, some packet⟩ }

/-- `NANO_IP_PACKET_PopFromQueue`. -/
def popFromQueue (s : Queues ι π) (i : ι) : Option π × Queues ι π :=
  match (s.queue i).head with
  | none => (none, s)
  | some packet =>
    let head := s.next packet
    (some packet,
      { next := Function.update s.next packet none
        queue := Function.update s.queue i ⟨head, if head = none then none else (s.queue i).tail⟩ })

/-- What is done with a queue. -/
inductive Op (ι π : Type*) where
  | reset (i : ι)
  | add (i : ι) (packet : π)
  | pop (i : ι)

def Op.queue : Op ι π → ι
  | .reset i | .add i _ | .pop i => i

def step (s : Queues ι π) : Op ι π → Option (Queues ι π)
  | .reset i => some (resetQueue s i)
  | .add i packet => some (addToQueue s i packet)
  | .pop i => some (popFromQueue s i).2

/-- The packets that were added to a queue and popped from it since its last reset. -/
structure Log (π : Type*) where
  added : List π
  popped : List π
  deriving DecidableEq

def Log.pending (l : Log π) : List π := l.added.drop l.popped.length

/-- The logs behind an operation. A queue has none until it is reset. -/
def log (w : ι → Option (Log π)) (s : Queues ι π) (op : Op ι π) (_ : Queues ι π) :
    ι → Option (Log π) :=
  match op with
  | .reset i => Function.update w i (some ⟨[], []⟩)
  | .add i packet => Function.update w i
      ((w i).map fun l => { l with added := l.added ++ [packet] })
  | .pop i =>
    Function.update w i ((w i).map fun l =>
      { l with popped := l.popped ++ (popFromQueue s i).1.toList })

/-- Only queues that were reset are used, and only packets added that stand in none. -/
def Used (x : Queues ι π × (ι → Option (Log π))) : Op ι π → Prop
  | .reset _ => True
  | .add i packet => (x.2 i).isSome ∧ ∀ j, ∀ l ∈ x.2 j, packet ∉ l.pending
  | .pop i => (x.2 i).isSome

instance decidableUsed [Fintype ι] (x : Queues ι π × (ι → Option (Log π))) :
    ∀ op, Decidable (Used x op)
  | .reset _ => .isTrue trivial
  | .add i packet => inferInstanceAs
      (Decidable ((x.2 i).isSome ∧ ∀ j, ∀ l ∈ x.2 j, packet ∉ l.pending))
  | .pop i => inferInstanceAs (Decidable ((x.2 i).isSome))

/-- Any pointers and queues; one that is all zeroes counts as reset. -/
def start (s : Queues ι π) : Queues ι π × (ι → Option (Log π)) :=
  (s, fun i => if s.queue i = ⟨none, none⟩ then some ⟨[], []⟩ else none)

end Operations

/-- Every queue spells out its pending packets, and no packet stands in two. -/
structure Refines (s : Queues ι π) (w : ι → Option (Log π)) : Prop where
  log : ∀ i, ∀ l ∈ w i, l.popped ++ l.pending = l.added
  queued : ∀ i, ∀ l ∈ w i, Lib.Queued s.next (s.queue i) l.pending
  apart : ∀ i j, i ≠ j → ∀ l ∈ w i, ∀ l' ∈ w j, ∀ packet ∈ l.pending, packet ∉ l'.pending

theorem start_refines [DecidableEq π] (s : Queues ι π) : Refines (start s).1 (start s).2 := by
  have hlog : ∀ i, ∀ l ∈ (start s).2 i, s.queue i = ⟨none, none⟩ ∧ l = ⟨[], []⟩ := by
    intro i l hl
    dsimp only [start] at hl
    split_ifs at hl with hq
    · exact ⟨hq, (Option.some.inj hl).symm⟩
    · cases hl
  refine ⟨fun i l hl => ?_, fun i l hl => ?_, fun i j _ l hl l' _ packet hp => ?_⟩
  · rw [(hlog i l hl).2]
    rfl
  · obtain ⟨hq, rfl⟩ := hlog i l hl
    rw [show (start s).1.queue i = ⟨none, none⟩ from hq]
    exact Lib.queued_empty _
  · rw [(hlog i l hl).2] at hp
    exact absurd hp List.not_mem_nil

/-- The other queues and their packets are as before. -/
structure Only (i : ι) (s : Queues ι π) (w : ι → Option (Log π)) (s' : Queues ι π) : Prop where
  queue : ∀ j, j ≠ i → s'.queue j = s.queue j
  next : ∀ j, j ≠ i → ∀ l ∈ w j, ∀ packet ∈ l.pending, s'.next packet = s.next packet

section Steps

variable [DecidableEq ι] {s s' : Queues ι π} {w : ι → Option (Log π)} {i : ι} {l l' : Log π}
  {packet : π}

theorem Log.pending_concat (hl : l.popped ++ l.pending = l.added) (packet : π) :
    Log.pending { l with added := l.added ++ [packet] } = l.pending ++ [packet] := by
  have hle : l.popped.length ≤ l.added.length := by
    rw [← hl, List.length_append]
    exact Nat.le_add_right _ _
  exact List.drop_append_of_le_length hle

theorem Log.pending_popped (l : Log π) (packet : π) :
    Log.pending { l with popped := l.popped ++ [packet] } = l.pending.tail := by
  rw [Log.pending, Log.pending, List.tail_drop, List.length_append]
  rfl

/-- What is to be shown of an operation on one queue. -/
theorem Refines.update (h : Refines s w) (honly : Only i s w s')
    (hlog : l'.popped ++ l'.pending = l'.added)
    (hqueued : Lib.Queued s'.next (s'.queue i) l'.pending)
    (hapart : ∀ j, j ≠ i → ∀ l ∈ w j, ∀ packet ∈ l'.pending, packet ∉ l.pending) :
    Refines s' (Function.update w i (some l')) := by
  have hothers : ∀ j, j ≠ i → Function.update w i (some l') j = w j := fun j hj =>
    Function.update_of_ne hj _ _
  have hself : ∀ l ∈ Function.update w i (some l') i, l = l' := by
    intro l hl
    rw [Function.update_self] at hl
    exact (Option.some.inj hl).symm
  refine ⟨fun j l hl => ?_, fun j l hl => ?_, fun j k hjk l hl m hm packet hp => ?_⟩
  · by_cases hj : j = i
    · subst hj
      rw [hself l hl]
      exact hlog
    · rw [hothers j hj] at hl
      exact h.log j l hl
  · by_cases hj : j = i
    · subst hj
      rw [hself l hl]
      exact hqueued
    · rw [hothers j hj] at hl
      rw [honly.queue j hj]
      exact (h.queued j l hl).congr (honly.next j hj l hl)
  · by_cases hj : j = i
    · subst hj
      rw [hself l hl] at hp
      rw [hothers k (Ne.symm hjk)] at hm
      exact hapart k (Ne.symm hjk) m hm packet hp
    · rw [hothers j hj] at hl
      by_cases hk : k = i
      · subst hk
        rw [hself m hm]
        exact fun hp' => hapart j hj l hl packet hp' hp
      · rw [hothers k hk] at hm
        exact h.apart j k hjk l hl m hm packet hp

theorem resetQueue_only (i : ι) : Only i s w (resetQueue s i) :=
  ⟨fun _ hj => Function.update_of_ne hj _ _, fun _ _ _ _ _ _ => rfl⟩

theorem Refines.reset (h : Refines s w) (i : ι) :
    Refines (resetQueue s i) (Function.update w i (some ⟨[], []⟩)) := by
  have hqueue : (resetQueue s i).queue i = Lib.Queue.empty := Function.update_self ..
  refine h.update (resetQueue_only i) rfl ?_ fun _ _ _ _ packet hp => absurd hp List.not_mem_nil
  rw [hqueue]
  exact Lib.queued_empty _

variable [DecidableEq π]

theorem addToQueue_eq (s : Queues ι π) (i : ι) (packet : π) : addToQueue s i packet =
    ⟨((s.queue i).add s.next packet).1,
      Function.update s.queue i ((s.queue i).add s.next packet).2⟩ := by
  unfold addToQueue Lib.Queue.add
  cases (s.queue i).tail <;> rfl

theorem popFromQueue_eq (s : Queues ι π) (i : ι) : popFromQueue s i =
    match (s.queue i).pop s.next with
    | none => (none, s)
    | some x => (some x.1, ⟨x.2.1, Function.update s.queue i x.2.2⟩) := by
  unfold popFromQueue Lib.Queue.pop
  cases (s.queue i).head <;> rfl

theorem addToQueue_only (h : Refines s w) (hl : l ∈ w i)
    (hfree : ∀ j, ∀ l ∈ w j, packet ∉ l.pending) :
    Only i s w (addToQueue s i packet) := by
  rw [addToQueue_eq]
  refine ⟨fun j hj => Function.update_of_ne hj _ _, fun j hj m hm b hb => ?_⟩
  refine (h.queued i l hl).add_frame (h.apart j i hj m hm l hl b hb) ?_
  rintro rfl
  exact hfree j m hm hb

theorem Refines.add (h : Refines s w) (hl : l ∈ w i) (hfree : ∀ j, ∀ l ∈ w j, packet ∉ l.pending) :
    Refines (addToQueue s i packet)
      (Function.update w i (some { l with added := l.added ++ [packet] })) := by
  have hpending := Log.pending_concat (h.log i l hl) packet
  have hqueue : (addToQueue s i packet).queue i = ((s.queue i).add s.next packet).2 := by
    rw [addToQueue_eq]
    exact Function.update_self ..
  have hnext : (addToQueue s i packet).next = ((s.queue i).add s.next packet).1 := by
    rw [addToQueue_eq]
  refine h.update (addToQueue_only h hl hfree) ?_ ?_ ?_
  · rw [hpending, ← List.append_assoc]
    exact congrArg (· ++ [packet]) (h.log i l hl)
  · rw [hpending, hqueue, hnext]
    exact (h.queued i l hl).add (hfree i l hl)
  · intro j hj m hm b hb
    rw [hpending, List.mem_append, List.mem_singleton] at hb
    rcases hb with hb | rfl
    · exact h.apart i j (Ne.symm hj) l hl m hm b hb
    · exact hfree j m hm

theorem popFromQueue_empty (h : Refines s w) (hl : l ∈ w i) (hempty : l.pending = []) :
    popFromQueue s i = (none, s) := by
  rw [popFromQueue_eq, (h.queued i l hl).pop_none.mpr hempty]

theorem popFromQueue_oldest {rest : List π} (h : Refines s w) (hl : l ∈ w i)
    (hpending : l.pending = packet :: rest) :
    ∃ q, popFromQueue s i = (some packet,
      ⟨Function.update s.next packet none, Function.update s.queue i q⟩) ∧
      Lib.Queued (Function.update s.next packet none) q rest := by
  have hqueued := h.queued i l hl
  rw [hpending] at hqueued
  obtain ⟨q, hpop, hrest⟩ := hqueued.pop
  refine ⟨q, ?_, hrest⟩
  rw [popFromQueue_eq, hpop]

theorem popFromQueue_only (h : Refines s w) (hl : l ∈ w i) : Only i s w (popFromQueue s i).2 := by
  cases hpending : l.pending with
  | nil =>
    rw [popFromQueue_empty h hl hpending]
    exact ⟨fun _ _ => rfl, fun _ _ _ _ _ _ => rfl⟩
  | cons packet rest =>
    obtain ⟨q, hpop, -⟩ := popFromQueue_oldest h hl hpending
    rw [hpop]
    refine ⟨fun j hj => Function.update_of_ne hj _ _, fun j hj m hm b hb =>
      Function.update_of_ne ?_ _ _⟩
    rintro rfl
    exact h.apart j i hj m hm l hl b hb (hpending ▸ List.mem_cons_self)

theorem Refines.pop (h : Refines s w) (hl : l ∈ w i) : Refines (popFromQueue s i).2
    (Function.update w i (some { l with popped := l.popped ++ (popFromQueue s i).1.toList })) := by
  cases hpending : l.pending with
  | nil =>
    have hsame : Function.update w i (some l) = w := by
      rw [← show w i = some l from hl, Function.update_eq_self]
    rw [popFromQueue_empty h hl hpending, Option.toList_none, List.append_nil, hsame]
    exact h
  | cons packet rest =>
    have honly := popFromQueue_only h hl
    obtain ⟨q, hpop, hrest⟩ := popFromQueue_oldest h hl hpending
    rw [hpop] at honly ⊢
    have htail : Log.pending { l with popped := l.popped ++ [packet] } = rest := by
      rw [Log.pending_popped, hpending]
      rfl
    refine h.update honly ?_ ?_ ?_
    · rw [Option.toList_some, htail, List.append_assoc, List.singleton_append, ← hpending]
      exact h.log i l hl
    · rw [Option.toList_some, htail]
      dsimp only
      rw [Function.update_self]
      exact hrest
    · intro j hj m hm b hb
      rw [Option.toList_some, htail] at hb
      exact h.apart i j (Ne.symm hj) l hl m hm b (hpending ▸ List.mem_cons_of_mem _ hb)

/-- Every operation keeps the other queues, and the logs say what all of them hold. -/
theorem step_refines {op : Op ι π} (h : Refines s w) (hused : Used (s, w) op)
    (hs : step s op = some s') :
    Only op.queue s w s' ∧ Refines s' (log w s op s') := by
  cases op with
  | reset i =>
    obtain rfl := Option.some.inj hs
    exact ⟨resetQueue_only i, h.reset i⟩
  | add i packet =>
    obtain rfl := Option.some.inj hs
    obtain ⟨hsome, hfree⟩ := hused
    obtain ⟨l, hl⟩ := Option.isSome_iff_exists.mp hsome
    have hlog : log w s (.add i packet) (addToQueue s i packet) =
        Function.update w i (some { l with added := l.added ++ [packet] }) := by
      rw [log, show w i = some l from hl, Option.map_some]
    rw [hlog]
    exact ⟨addToQueue_only h hl hfree, h.add hl hfree⟩
  | pop i =>
    obtain rfl := Option.some.inj hs
    obtain ⟨l, hl⟩ := Option.isSome_iff_exists.mp hused
    have hlog : log w s (.pop i) (popFromQueue s i).2 =
        Function.update w i
          (some { l with popped := l.popped ++ (popFromQueue s i).1.toList }) := by
      rw [log, show w i = some l from hl, Option.map_some]
    rw [hlog]
    exact ⟨popFromQueue_only h hl, h.pop hl⟩

/-- In every run each queue that was reset holds, from its head to its tail, the packets that were
added to it and not popped, in their order; it pops the oldest of them, whose pointer is cleared;
and what is done with one queue changes no other. -/
theorem queues_refine {s₀ : Queues ι π} {x : Queues ι π × (ι → Option (Log π))}
    (h : Lib.Reach (Lib.observe step log) Used (start s₀) x) {i : ι} {l : Log π}
    (hl : x.2 i = some l) :
    l.popped ++ l.pending = l.added ∧ l.pending.Nodup ∧
      Lib.Linked x.1.next (x.1.queue i).head l.pending ∧
      (x.1.queue i).tail = l.pending.getLast? ∧
        ((x.1.queue i).tail = none ↔ (x.1.queue i).head = none) ∧
      (popFromQueue x.1 i).1 = l.pending.head? ∧
      (∀ packet ∈ (popFromQueue x.1 i).1, (popFromQueue x.1 i).2.next packet = none) ∧
      ∀ op y, Used x op → Lib.observe step log x op = some y → op.queue ≠ i →
        y.1.queue i = x.1.queue i ∧ ∀ packet ∈ l.pending, y.1.next packet = x.1.next packet := by
  have hrefines : Refines x.1 x.2 := by
    refine h.invariant (I := fun x => Refines x.1 x.2) (start_refines s₀) ?_
    rintro x op y hx hused hs
    obtain ⟨hs, hy⟩ := Lib.observe_some.mp hs
    rw [hy]
    exact (step_refines hx hused hs).2
  have hqueued := hrefines.queued i l hl
  refine ⟨hrefines.log i l hl, hqueued.nodup, hqueued.linked, hqueued.tail, ?_, ?_, ?_,
    fun op y hused hs hne => ?_⟩
  · rw [hqueued.tail, hqueued.head_none, List.getLast?_eq_none_iff]
  · cases hpending : l.pending with
    | nil =>
      rw [popFromQueue_empty hrefines hl hpending]
      rfl
    | cons packet rest =>
      obtain ⟨q, hpop, -⟩ := popFromQueue_oldest hrefines hl hpending
      rw [hpop]
      rfl
  · intro packet hp
    cases hpending : l.pending with
    | nil =>
      rw [popFromQueue_empty hrefines hl hpending] at hp
      cases hp
    | cons oldest rest =>
      obtain ⟨q, hpop, -⟩ := popFromQueue_oldest hrefines hl hpending
      rw [hpop] at hp ⊢
      obtain rfl := Option.some.inj hp
      exact Function.update_self ..
  · obtain ⟨hs, -⟩ := Lib.observe_some.mp hs
    have honly := (step_refines hrefines hused hs).1
    exact ⟨honly.queue i (Ne.symm hne), honly.next i (Ne.symm hne) l hl⟩

/-- The first packet of one queue is popped and added behind that of the other. -/
theorem queues_refine_two : ∃ s : Queues Bool (Fin 3),
    (Lib.Linked s.next (s.queue true).head [2] ∧ (popFromQueue s true).1 = some 2) ∧
    Lib.Linked s.next (s.queue false).head [1, 0] ∧ (s.queue false).tail = some 0 ∧
    (popFromQueue s true).2.queue false = s.queue false := by
  obtain ⟨x, hr, hx⟩ := Lib.exists_of_runInputs (Lib.observe step log) Used
    (start (⟨fun _ => none, fun _ => ⟨none, none⟩⟩ : Queues Bool (Fin 3)))
    [.add true 0, .add false 1, .add true 2, .pop true, .add false 0]
    (fun x => x.2 true = some ⟨[0, 2], [0]⟩ ∧ x.2 false = some ⟨[1, 0], []⟩) (by decide)
  obtain ⟨htrue, hfalse⟩ := of_decide_eq_true hx
  obtain ⟨-, -, hlinked, -, -, hpop, -, -⟩ := queues_refine hr htrue
  obtain ⟨-, -, hlinked', htail, -, -, -, hother⟩ := queues_refine hr hfalse
  have hpopped := hother (.pop true) ((popFromQueue x.1 true).2,
    log x.2 x.1 (.pop true) (popFromQueue x.1 true).2)
    (by rw [Used, htrue]; rfl) (Lib.observe_some.mpr ⟨rfl, rfl⟩) Bool.true_eq_false.mp
  exact ⟨x.1, ⟨hlinked, hpop⟩, hlinked', htail, hpopped.1⟩

end Steps

end NanoIp.PacketQueues
