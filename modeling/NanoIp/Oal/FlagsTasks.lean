import NanoIp.Lib.Monitor
import NanoIp.Oal.FlagsLinux

/-!
# Flags that several tasks wait for

`NANO_IP_OAL_FLAGS_Set`, `Reset` and `Wait` of Linux are called by any number of tasks. Each call
holds the lock of the flags but while it is blocked, and a set wakes all that are blocked. What a
wait returns is then told by what has happened to the flags before, and no task is blocked while
one of its flags is set.
-/
namespace NanoIp.Oal

/-- What a task asks of `NANO_IP_OAL_FLAGS_Wait`. -/
structure FlagsRequest where
  flagMask : BitVec 32
  resetFlags : Bool
  deriving DecidableEq

/-- The calls that do not block. -/
inductive FlagsCall where
  | set (flagMask : BitVec 32)
  | reset (flagMask : BitVec 32)
  deriving DecidableEq

def FlagsCall.flags : FlagsCall → BitVec 32 → BitVec 32
  | set flagMask, flags => flagsSet flags flagMask
  | reset flagMask, flags => flagsReset flags flagMask

/-- `pthread_cond_broadcast` is called. -/
def FlagsCall.broadcasts : FlagsCall → Bool
  | set _ => true
  | reset _ => false

/-- The flags that a wait leaves when it returns with some. -/
def FlagsRequest.served (r : FlagsRequest) (flags : BitVec 32) : Option (BitVec 32) :=
  let activeFlags := flags &&& r.flagMask
  if activeFlags = 0#32 then none else some
    (if r.resetFlags then flagsReset flags activeFlags else flags)

section Served

variable {r r' : FlagsRequest} {flags flags' : BitVec 32}

theorem served_none_iff : r.served flags = none ↔ flags &&& r.flagMask = 0#32 := by
  by_cases hzero : flags &&& r.flagMask = 0#32
  · exact iff_of_true (if_pos hzero) hzero
  · have hserved : r.served flags =
      some (if r.resetFlags then flagsReset flags (flags &&& r.flagMask) else flags) :=
      if_neg hzero
    rw [hserved]
    exact iff_of_false (Option.some_ne_none _) hzero

theorem reset_none (h : r.served flags = none) (flagMask : BitVec 32) :
    r.served (flagsReset flags flagMask) = none := by
  rw [served_none_iff] at h ⊢
  calc flags &&& ~~~flagMask &&& r.flagMask = flags &&& r.flagMask &&& ~~~flagMask := by
        rw [BitVec.and_assoc, BitVec.and_comm (~~~flagMask), BitVec.and_assoc]
    _ = 0#32 := by rw [h, BitVec.zero_and]

theorem served_apart (hserved : r.served flags = some flags') (h : r'.served flags = none) :
    r'.served flags' = none := by
  rw [FlagsRequest.served] at hserved
  split_ifs at hserved with hzero hreset
  · obtain rfl := Option.some.inj hserved
    exact reset_none h _
  · obtain rfl := Option.some.inj hserved
    exact h

end Served

/-- The flags behind their lock. -/
def flagsResource : Lib.Resource (BitVec 32) FlagsRequest FlagsCall where
  change := FlagsCall.flags
  announced := FlagsCall.broadcasts
  serve := FlagsRequest.served
  silent {g _ _} hquiet h := by
    cases g with
    | set flagMask => cases hquiet
    | reset flagMask => exact reset_none h flagMask
  apart := served_apart

namespace Tasks

variable {τ : Type*}

abbrev State (τ : Type*) := Lib.Monitor (BitVec 32) τ FlagsRequest
abbrev Event (τ : Type*) := Lib.Monitor.Event τ FlagsRequest FlagsCall

/-- What has happened to the flags: a call, a wait that returned flags, or one that returned none.
-/
inductive Done (τ : Type*) where
  | called (call : FlagsCall)
  | returned (t : τ) (r : FlagsRequest) (activeFlags : BitVec 32)
  | timedOut (t : τ)
  deriving DecidableEq

/-- It sets a flag, or clears it. -/
def Done.sets (b : Nat) : Done τ → Bool
  | called (.set flagMask) => flagMask.getLsbD b
  | _ => false
def Done.clears (b : Nat) : Done τ → Bool
  | called (.reset flagMask) => flagMask.getLsbD b
  | returned _ r activeFlags => r.resetFlags && activeFlags.getLsbD b
  | _ => false

/-- What a step does to the flags. -/
def done (m : State τ) : Event τ → List (Done τ)
  | .change call => [.called call]
  | .look t =>
    match m.task t with
    | .looking r =>
      if m.shared &&& r.flagMask = 0#32 then [] else [.returned t r (m.shared &&& r.flagMask)]
    | _ => []
  | .leave t => [.timedOut t]
  | _ => []

def log (w : List (Done τ)) (m : State τ) (e : Event τ) (_ : State τ) : List (Done τ) :=
  w ++ done m e

/-- The flag was set, and not cleared since. -/
def SetLast (b : Nat) (w : List (Done τ)) : Prop :=
  ∃ before d after, w = before ++ d :: after ∧ d.sets b = true ∧ ∀ d' ∈ after, d'.clears b = false

/-- A wait returns those of its flags that were set last, and at least one; the flags are those
that were set last; and no task is blocked while one of its flags is set. -/
structure Kept (m : State τ) (w : List (Done τ)) : Prop where
  returned : ∀ before t r activeFlags after, w = before ++ .returned t r activeFlags :: after →
    activeFlags ≠ 0#32 ∧ ∀ b, activeFlags.getLsbD b = true ↔ r.flagMask.getLsbD b = true ∧
      SetLast b before
  flags : ∀ b, m.shared.getLsbD b = true ↔ SetLast b w
  blocked : ∀ t r, m.task t = .sleeping r → m.shared &&& r.flagMask = 0#32

section History

variable {w before after : List (Done τ)} {d x : Done τ} {b : Nat}

theorem snoc_eq (h : w ++ [d] = before ++ x :: after) :
    (w = before ∧ d = x) ∨ ∃ after', after = after' ++ [d] ∧ w = before ++ x :: after' := by
  rcases List.eq_nil_or_concat after with rfl | ⟨after', y, rfl⟩
  · obtain ⟨hw, hd⟩ := List.append_inj' h rfl
    exact .inl ⟨hw, List.singleton_inj.mp hd⟩
  · have hsplit : w ++ [d] = (before ++ x :: after') ++ [y] := by
      rw [h, List.concat_eq_append, List.append_assoc, List.cons_append]
    obtain ⟨hw, hd⟩ := List.append_inj' hsplit rfl
    rw [List.singleton_inj.mp hd]
    exact .inr ⟨after', List.concat_eq_append, hw⟩

theorem setLast_nil : ¬ SetLast b ([] : List (Done τ)) := by
  rintro ⟨before, d, after, hw, -⟩
  exact List.append_ne_nil_of_right_ne_nil before (List.cons_ne_nil d after) hw.symm

theorem setLast_snoc :
    SetLast b (w ++ [d]) ↔ d.sets b = true ∨ (SetLast b w ∧ d.clears b = false) := by
  constructor
  · rintro ⟨before, x, after, hw, hsets, hafter⟩
    rcases snoc_eq hw with ⟨-, rfl⟩ | ⟨after', rfl, hbefore⟩
    · exact .inl hsets
    · exact .inr ⟨⟨before, x, after', hbefore, hsets, fun y hy =>
        hafter y (List.mem_append_left _ hy)⟩,
        hafter d List.mem_concat_self⟩
  · rintro (hsets | ⟨⟨before, x, after, rfl, hsets, hafter⟩, hclears⟩)
    · exact ⟨w, d, [], rfl, hsets, fun y hy => absurd hy List.not_mem_nil⟩
    · refine ⟨before, x, after ++ [d], by simp, hsets, fun y hy => ?_⟩
      rcases List.mem_append.mp hy with hy | hy
      · exact hafter y hy
      · rw [List.mem_singleton.mp hy]
        exact hclears

end History

section Step

variable [DecidableEq τ] {m m' : State τ} {w : List (Done τ)} {e : Event τ}

theorem reset_bit (flags flagMask : BitVec 32) (b : Nat) :
    (flagsReset flags flagMask).getLsbD b = (flags.getLsbD b && !flagMask.getLsbD b) := by
  rw [flagsReset, BitVec.getLsbD_and, BitVec.getLsbD_not]
  by_cases hb : b < 32
  · rw [decide_eq_true hb, Bool.true_and]
  · rw [BitVec.getLsbD_of_ge flags b (Nat.le_of_not_lt hb), Bool.false_and, Bool.false_and]

/-- A step does nothing to the flags, or what it says: a wait that returns is given all of its
flags. -/
theorem step_done (hs : Lib.Monitor.step flagsResource m e = some m') :
    (done m e = [] ∧ m'.shared = m.shared) ∨ ∃ d, done m e = [d] ∧
      (∀ b, m'.shared.getLsbD b = (d.sets b || (m.shared.getLsbD b && !d.clears b))) ∧
      ∀ t r activeFlags, d = .returned t r activeFlags →
        activeFlags = m.shared &&& r.flagMask ∧ activeFlags ≠ 0#32 := by
  cases e with
  | change call =>
    obtain rfl := Option.some.inj hs
    refine .inr ⟨.called call, rfl, fun b => ?_, fun _ _ _ hd => by cases hd⟩
    cases call with
    | set flagMask =>
      change (m.shared ||| flagMask).getLsbD b =
        (flagMask.getLsbD b || (m.shared.getLsbD b && !false))
      rw [BitVec.getLsbD_or, Bool.not_false, Bool.and_true, Bool.or_comm]
    | reset flagMask => exact (reset_bit _ _ _).trans (Bool.false_or _).symm
  | call t r =>
    obtain ⟨-, rfl⟩ := Lib.Monitor.call_some hs
    exact .inl ⟨rfl, rfl⟩
  | look t =>
    obtain ⟨r, hlooking, rfl⟩ := Lib.Monitor.look_some hs
    have hdone : done m (.look t) =
        if m.shared &&& r.flagMask = 0#32 then []
        else [.returned t r (m.shared &&& r.flagMask)] := by
      simp only [done, hlooking]
    by_cases hzero : m.shared &&& r.flagMask = 0#32
    · rw [if_pos hzero] at hdone
      refine .inl ⟨hdone, ?_⟩
      rw [Lib.Monitor.look, show flagsResource.serve r m.shared =
        none from served_none_iff.mpr hzero]
      rfl
    · rw [if_neg hzero] at hdone
      have hserved : flagsResource.serve r m.shared = some (if r.resetFlags then
          flagsReset m.shared (m.shared &&& r.flagMask) else m.shared) := if_neg hzero
      refine .inr ⟨_, hdone, fun b => ?_, fun t' r' activeFlags hd => ?_⟩
      · rw [Lib.Monitor.look, hserved]
        cases hreset : r.resetFlags with
        | true =>
          simp only [Done.sets, Done.clears, hreset, if_true, Bool.false_or, Bool.true_and]
          exact reset_bit _ _ _
        | false => simp [Done.sets, Done.clears, hreset]
      · obtain ⟨-, rfl, rfl⟩ := Done.returned.inj hd
        exact ⟨rfl, hzero⟩
  | wake t =>
    obtain ⟨r, -, rfl⟩ := Lib.Monitor.wake_some hs
    exact .inl ⟨rfl, rfl⟩
  | expire t =>
    obtain ⟨r, -, rfl⟩ := Lib.Monitor.expire_some hs
    exact .inl ⟨rfl, rfl⟩
  | leave t =>
    obtain ⟨r, -, rfl⟩ := Lib.Monitor.leave_some hs
    refine .inr ⟨_, rfl, fun b => ?_, fun _ _ _ hd => by cases hd⟩
    simp [Done.sets, Done.clears, Lib.Monitor.goTo]

/-- What a step does is as the history says, if the flags were. -/
theorem Kept.step (h : Kept m w) (hs : Lib.Monitor.step flagsResource m e = some m') :
    Kept m' (log w m e m') := by
  have hwatched : Lib.Monitor.Watched flagsResource m := fun t r ht =>
    served_none_iff.mpr (h.blocked t r ht)
  have hblocked : ∀ t r, m'.task t = .sleeping r → m'.shared &&& r.flagMask = 0#32 := fun t r ht =>
    served_none_iff.mp (Lib.Monitor.step_watched hwatched hs t r ht)
  rcases step_done hs with ⟨hnone, hsame⟩ | ⟨d, hone, hbits, hreturned⟩
  · rw [log, hnone, List.append_nil]
    refine ⟨h.returned, fun b => ?_, hblocked⟩
    rw [hsame]
    exact h.flags b
  · rw [log, hone]
    refine ⟨fun before t r activeFlags after hw => ?_, fun b => ?_, hblocked⟩
    · rcases snoc_eq hw with ⟨rfl, rfl⟩ | ⟨after', -, hw⟩
      · obtain ⟨rfl, hne⟩ := hreturned t r activeFlags rfl
        refine ⟨hne, fun b => ?_⟩
        rw [BitVec.getLsbD_and, Bool.and_eq_true, h.flags b, and_comm]
      · exact h.returned before t r activeFlags after' hw
    · rw [hbits, Bool.or_eq_true, Bool.and_eq_true, h.flags b, Bool.not_eq_true', setLast_snoc]

end Step

/-- However many tasks wait for the flags, and whatever sets and resets them meanwhile, a wait
that returns with success is given those of its flags that were set since they were last taken or
reset, and no task is blocked while one of its flags is set. -/
theorem flags_kept [DecidableEq τ] {x : State τ × List (Done τ)}
    (h : Lib.Reach (Lib.observe (Lib.Monitor.step flagsResource) log) Lib.anyStep
      (Lib.Monitor.init 0#32, []) x) : Kept x.1 x.2 := by
  refine h.invariant (I := fun x => Kept x.1 x.2) ⟨?_, fun b => ?_, ?_⟩ ?_
  · intro before t r activeFlags after hw
    exact absurd hw.symm (List.append_ne_nil_of_right_ne_nil before (List.cons_ne_nil _ after))
  · exact iff_of_false (by simp [Lib.Monitor.init]) setLast_nil
  · intro t r ht
    cases ht
  · intro x e ⟨m', w'⟩ hkept _ hs
    obtain ⟨hstep, hlog⟩ := Lib.observe_some.mp hs
    dsimp only at hlog ⊢
    rw [hlog]
    exact hkept.step hstep

/-- Two tasks wait for the same two flags, and one takes both of them. -/
theorem flags_kept_two : ∃ x : State Bool × List (Done Bool),
    Lib.Reach (Lib.observe (Lib.Monitor.step flagsResource) log) Lib.anyStep
      (Lib.Monitor.init 0#32, []) x ∧
    x.2 = [.called (.set 1#32), .called (.set 2#32), .returned true ⟨3#32, true⟩ 3#32] ∧
      Kept x.1 x.2 := by
  obtain ⟨x, hreach, hend⟩ :=
    Lib.exists_of_runInputs (Lib.observe (Lib.Monitor.step flagsResource) log) Lib.anyStep
    ((Lib.Monitor.init 0#32, []) : State Bool × List (Done Bool))
    [.call true ⟨3#32, true⟩, .call false ⟨3#32, true⟩, .look true, .look false,
      .change (.set 1#32),
      .change (.set 2#32), .look true, .look false]
    (fun x => x.2 = [.called (.set 1#32), .called (.set 2#32), .returned true ⟨3#32, true⟩ 3#32])
    (by decide +kernel)
  exact ⟨x, hreach, of_decide_eq_true hend, flags_kept hreach⟩

/-- The tasks that wait go on, and their times end, but nothing is called. -/
def GoesOn (x : State τ × List (Done τ)) (e : Event τ) : Prop := Lib.Monitor.Works x.1 e

instance (x : State τ × List (Done τ)) (e : Event τ) : Decidable (GoesOn x e) :=
  inferInstanceAs (Decidable (Lib.Monitor.Works x.1 e))

theorem reach_watched [DecidableEq τ] {x : State τ × List (Done τ)}
    (h : Lib.Reach (Lib.observe (Lib.Monitor.step flagsResource) log) Lib.anyStep
      (Lib.Monitor.init 0#32, []) x) :
    Lib.Monitor.Watched flagsResource x.1 :=
  h.invariant (I := fun x => Lib.Monitor.Watched flagsResource x.1) (Lib.Monitor.init_watched _ _)
    fun _ _ _ hwatched _ hs => Lib.Monitor.step_watched hwatched (Lib.observe_some.mp hs).1

/-- Without further calls and spurious wake-ups it takes at most three times as many steps as
there are tasks until all waits have returned or are blocked, and no flag is set then that a
blocked task waits for. -/
theorem flags_rest [DecidableEq τ] [Fintype τ] {x y : State τ × List (Done τ)} {es : List (Event τ)}
    (h : Lib.Reach (Lib.observe (Lib.Monitor.step flagsResource) log) Lib.anyStep
      (Lib.Monitor.init 0#32, []) x)
    (hrun : Lib.runInputs (Lib.observe (Lib.Monitor.step flagsResource) log) GoesOn x es = some y) :
    es.length ≤ 3 * Fintype.card τ ∧
      ((∀ t, Lib.Monitor.step flagsResource y.1 (.look t) = none ∧
          Lib.Monitor.step flagsResource y.1 (.leave t) = none) →
        ∀ t, y.1.task t = .away ∨ ∃ r, y.1.task t = .sleeping r ∧
          y.1.shared &&& r.flagMask = 0#32) := by
  have hreach := h.trans ((Lib.reach_of_runInputs hrun).mono fun _ _ _ => trivial)
  constructor
  · have hrank :
      ∀ (x : State τ × List (Done τ)) (e : Event τ) (y : State τ × List (Done τ)) (r : Nat),
        x.1.rank = r → GoesOn x e → Lib.observe (Lib.Monitor.step flagsResource) log x e = some y →
        ∃ r' < r, y.1.rank = r' := by
      rintro x e y r rfl hgoes hs
      exact ⟨_, Lib.Monitor.works_rank hgoes (Lib.observe_some.mp hs).1, rfl⟩
    obtain ⟨r, -, hle⟩ := Lib.runInputs_ranked (P := fun x r => x.1.rank = r) hrank rfl hrun
    have hmost := x.1.rank_le
    omega
  · intro hrest t
    rcases Lib.Monitor.at_rest (hrest t).1 (hrest t).2 with haway | ⟨r, hsleeping⟩
    · exact .inl haway
    · exact .inr ⟨r, hsleeping, served_none_iff.mp (reach_watched hreach t r hsleeping)⟩

/-- A flag is set while two tasks are blocked, and only one of them waits for it. -/
theorem flags_rest_two : ∃ x y : State Bool × List (Done Bool),
    Lib.Reach (Lib.observe (Lib.Monitor.step flagsResource) log) Lib.anyStep
      (Lib.Monitor.init 0#32, []) x ∧
    Lib.runInputs (Lib.observe (Lib.Monitor.step flagsResource) log) GoesOn x
      [.look true, .look false] = some y ∧
    ((∀ t, Lib.Monitor.step flagsResource y.1 (.look t) = none ∧
        Lib.Monitor.step flagsResource y.1 (.leave t) = none) →
      ∀ t, y.1.task t = .away ∨ ∃ r, y.1.task t = .sleeping r ∧
        y.1.shared &&& r.flagMask = 0#32) := by
  obtain ⟨x, hreach, hend⟩ :=
    Lib.exists_of_runInputs (Lib.observe (Lib.Monitor.step flagsResource) log) Lib.anyStep
    ((Lib.Monitor.init 0#32, []) : State Bool × List (Done Bool))
    [.call true ⟨1#32, true⟩, .call false ⟨2#32, true⟩, .look true, .look false,
      .change (.set 1#32)]
    (fun x => (Lib.runInputs (Lib.observe (Lib.Monitor.step flagsResource) log) GoesOn x
      [.look true, .look false]).isSome) (by decide +kernel)
  obtain ⟨y, hy⟩ := Option.isSome_iff_exists.mp hend
  exact ⟨x, y, hreach, hy, (flags_rest hreach hy).2⟩

end Tasks

end NanoIp.Oal
