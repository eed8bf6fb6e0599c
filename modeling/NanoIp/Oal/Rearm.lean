import NanoIp.Lib.Run
import NanoIp.Oal.Timer

/-!
# Timers that are started and stopped by callbacks

A pass of the task goes on through the pointer of the timer it has called back. A timer that was
stopped keeps its pointer, so the pass finds its way back into the list, if need be over timers
that were stopped meanwhile. A timer that its own callback starts again is due one period late:
the pass adds its new period to the due time that was just computed.
-/
namespace NanoIp.Oal

variable {n : Nat}

/-- The list behind an action. -/
def Action.apply (l : List (Fin n)) : Action n → List (Fin n)
  | .stop t => l.erase t
  | .start t period _ => if period = 0#32 then l else l.insert t

/-- A pointer that leads into the list or to its end, over timers that are not in it. -/
inductive Grounded (s : Timers n) (l : List (Fin n)) : Option (Fin n) → Prop
  | none : Grounded s l none
  | mem {t : Fin n} (h : t ∈ l) : Grounded s l (some t)
  | next {t : Fin n} (h : Grounded s l (s.next t)) : Grounded s l (some t)

/-- The list holds the timers that are started, and all pointers lead to it. -/
structure Tidy (s : Timers n) (l : List (Fin n)) : Prop extends s.Holds l where
  grounded : ∀ t, Grounded s l (s.next t)

theorem Grounded.transfer {s s' : Timers n} {l l' : List (Fin n)} {cur : Option (Fin n)}
    (h : Grounded s l cur) (hmem : ∀ t ∈ l, Grounded s' l' (some t))
    (hnext : ∀ t ∉ l, Grounded s' l' (s.next t) → Grounded s' l' (some t)) :
    Grounded s' l' cur := by
  induction h with
  | none => exact .none
  | mem ht => exact hmem _ ht
  | @next t _ ih =>
    by_cases ht : t ∈ l
    · exact hmem t ht
    · exact hnext t ht ih

theorem created_tidy : Tidy (created : Timers n) [] := ⟨created_holds, fun _ => .none⟩

section Actions

variable {s : Timers n} {l : List (Fin n)} {t u : Fin n}

theorem Timers.Holds.head (h : s.Holds l) : Grounded s l s.list := by
  rw [h.linked.head_eq]
  cases l with
  | nil => exact .none
  | cons t l => exact .mem List.mem_cons_self

theorem Timers.Holds.next_mem (h : s.Holds l) (ht : t ∈ l) (hu : s.next t = some u) : u ∈ l :=
  h.linked.next_mem ht hu

theorem Timers.Holds.next_ne (h : s.Holds l) (ht : t ∈ l) : s.next t ≠ some t := by
  intro ht'
  obtain ⟨kept, rest, rfl⟩ := List.append_of_mem ht
  have hfollow := h.linked.follow
  rw [ht'] at hfollow
  have hnodup := (List.nodup_append.mp h.nodup).2.1
  exact (List.nodup_cons.mp hnodup).1 (List.mem_of_mem_head? hfollow.symm)

theorem Timers.Holds.next_grounded (h : s.Holds l) (ht : t ∈ l) : Grounded s l (s.next t) := by
  cases hu : s.next t with
  | none => exact .none
  | some u => exact .mem (h.next_mem ht hu)

theorem act_start (h : s.Holds l) (ht : t ∉ l) {period : BitVec 32} (msCounter : BitVec 32)
    (hp : period ≠ 0#32) :
    (s.act (.start t period msCounter)).Holds (t :: l) ∧
      (s.act (.start t period msCounter)).mem t = ⟨period, msCounter + period, s.list⟩ ∧
      ∀ u, u ≠ t → (s.act (.start t period msCounter)).mem u = s.mem u := by
  obtain ⟨hstart, hholds⟩ := timerStart_started h msCounter ht hp
  have hact : s.act (.start t period msCounter) =
      ⟨some t, Function.update s.mem t ⟨period, msCounter + period, s.list⟩⟩ :=
        congrArg Prod.snd hstart
  refine ⟨hholds, ?_, fun u hu => ?_⟩
  · rw [hact]
    exact Function.update_self ..
  · rw [hact]
    exact Function.update_of_ne hu ..

/-- Pointers lead to the list still when a timer is put in front of it. -/
theorem Tidy.start (h : Tidy s l) (ht : t ∉ l) {period msCounter : BitVec 32} (hp : period ≠ 0#32) :
    Tidy (s.act (.start t period msCounter)) (t :: l) := by
  obtain ⟨hholds, hself, hothers⟩ := act_start h.toHolds ht msCounter hp
  have hnext : ∀ u, u ≠ t → (s.act (.start t period msCounter)).next u = s.next u :=
    fun u hu => congrArg Timer.next (hothers u hu)
  have hkeep : ∀ {cur : Option (Fin n)}, Grounded s l cur →
      Grounded (s.act (.start t period msCounter)) (t :: l) cur := by
    intro cur hg
    refine hg.transfer (fun u hu => .mem (List.mem_cons_of_mem _ hu)) fun u _ hu' => ?_
    by_cases hu : u = t
    · exact hu ▸ .mem List.mem_cons_self
    · refine .next ?_
      rw [hnext u hu]
      exact hu'
  refine ⟨hholds, fun u => ?_⟩
  by_cases hu : u = t
  · subst hu
    have hhead : (s.act (.start u period msCounter)).next u = s.list := congrArg Timer.next hself
    rw [hhead]
    exact hkeep h.head
  · rw [hnext u hu]
    exact hkeep (h.grounded u)

theorem act_stop (h : s.Holds l) (ht : t ∈ l) :
    (s.act (.stop t)).Holds (l.erase t) ∧ (s.act (.stop t)).mem t = ⟨0#32, 0#32, s.next t⟩ ∧
      (∀ u, u ≠ t → ((s.act (.stop t)).mem u).period = (s.mem u).period ∧
        ((s.act (.stop t)).mem u).dueTime = (s.mem u).dueTime) ∧
      ∀ u ∉ l, (s.act (.stop t)).next u = s.next u := by
  obtain ⟨s', hstop, hholds, hself, hothers, hnext⟩ := timerStop_stopped h ht
  have hact : s.act (.stop t) = s' := congrArg Prod.snd hstop
  rw [hact]
  exact ⟨hholds, hself, hothers, hnext⟩

/-- And when one is taken out of it. -/
theorem Tidy.stop (h : Tidy s l) (ht : t ∈ l) : Tidy (s.act (.stop t)) (l.erase t) := by
  obtain ⟨hholds, hself, -, hnext⟩ := act_stop h.toHolds ht
  have hpointer : (s.act (.stop t)).next t = s.next t := by rw [Timers.next, hself]
  -- the timer that is taken out still points to the one behind it
  have hold : ∀ u ∈ l, Grounded (s.act (.stop t)) (l.erase t) (some u) := by
    intro u hu
    by_cases heq : u = t
    · subst heq
      refine .next ?_
      rw [hpointer]
      cases hv : s.next u with
      | none => exact .none
      | some v =>
        have hne : v ≠ u := by
          rintro rfl
          exact h.next_ne hu hv
        exact .mem ((h.nodup.mem_erase_iff).mpr ⟨hne, h.next_mem hu hv⟩)
    · exact .mem ((h.nodup.mem_erase_iff).mpr ⟨heq, hu⟩)
  have hkeep : ∀ {cur : Option (Fin n)}, Grounded s l cur →
      Grounded (s.act (.stop t)) (l.erase t) cur := by
    intro cur hg
    refine hg.transfer hold fun u hu hu' => .next ?_
    rw [hnext u hu]
    exact hu'
  refine ⟨hholds, fun u => ?_⟩
  by_cases hu : u ∈ l
  · by_cases heq : u = t
    · subst heq
      rw [hpointer]
      exact hkeep (h.grounded u)
    · exact hholds.next_grounded ((h.nodup.mem_erase_iff).mpr ⟨heq, hu⟩)
  · rw [hnext u hu]
    exact hkeep (h.grounded u)

theorem act_refused (h : s.Holds l) : (∀ {t}, t ∉ l → s.act (.stop t) = s) ∧
    ∀ {t period msCounter}, t ∈ l ∨ period = 0#32 → s.act (.start t period msCounter) = s :=
  ⟨fun ht => congrArg Prod.snd (timerStop_refused h ht),
    fun ht => congrArg Prod.snd (timerStart_refused h _ ht)⟩

theorem apply_refused {period msCounter : BitVec 32} (h : t ∈ l ∨ period = 0#32) :
    (Action.start t period msCounter).apply l = l := by
  rw [Action.apply]
  split_ifs with hp
  · rfl
  · exact List.insert_of_mem (h.resolve_right hp)

theorem apply_started {period msCounter : BitVec 32} (ht : t ∉ l) (hp : period ≠ 0#32) :
    (Action.start t period msCounter).apply l = t :: l := by
  rw [Action.apply, if_neg hp, List.insert_of_not_mem ht]

theorem Tidy.act (h : Tidy s l) (a : Action n) : Tidy (s.act a) (a.apply l) := by
  cases a with
  | stop t =>
    by_cases ht : t ∈ l
    · exact h.stop ht
    · rw [(act_refused h.toHolds).1 ht, Action.apply, List.erase_of_not_mem ht]
      exact h
  | start t period msCounter =>
    by_cases ht : t ∈ l ∨ period = 0#32
    · rw [apply_refused ht, (act_refused h.toHolds).2 ht]
      exact h
    · obtain ⟨ht, hp⟩ := not_or.mp ht
      rw [apply_started ht hp]
      exact h.start ht hp

end Actions

/-- What a callback does while it is asked for nothing out of the ordinary: it starts no timer whose
due time, a lap of the counter later, looks like the current one, nor its own with a period that
leads there in two, and when the counter is zero, the due time of timers that are stopped, it stops
no other timer after its own. -/
structure Careful (t : Fin n) (time : BitVec 32) (actions : List (Action n)) : Prop where
  ahead : ∀ u period msCounter, .start u period msCounter ∈ actions → period ≠ 0#32 →
    msCounter + period ≠ time
  twice : ∀ period msCounter, .start t period msCounter ∈ actions → period ≠ 0#32 →
    msCounter + period + period ≠ time
  zero : time = 0#32 → ∀ pre u post, u ≠ t → actions = pre ++ .stop u :: post → .stop t ∉ pre

section Fold

variable {s : Timers n} {l : List (Fin n)} {t u : Fin n} {time : BitVec 32}
  {actions : List (Action n)}

theorem Tidy.foldl (h : Tidy s l) (actions : List (Action n)) :
    Tidy (actions.foldl Timers.act s) (actions.foldl Action.apply l) := by
  induction actions generalizing s l with
  | nil => exact h
  | cons a actions ih => exact ih (h.act a)

/-- An action makes no timer due, but one that it starts. -/
theorem act_due (h : s.Holds l) (a : Action n) (hu : u ∈ a.apply l) :
    u ∈ l ∧ ((s.act a).mem u).dueTime = (s.mem u).dueTime ∧ ((s.act a).mem u).period =
      (s.mem u).period ∧ a ≠ .stop u ∨
      u ∉ l ∧ ∃ period msCounter, a = .start u period msCounter ∧ period ≠ 0#32 ∧
        ((s.act a).mem u).dueTime = msCounter + period ∧ ((s.act a).mem u).period = period := by
  cases a with
  | stop t =>
    have hmem : u ∈ l := List.mem_of_mem_erase hu
    have hne : u ≠ t := by
      rintro rfl
      exact (h.nodup.mem_erase_iff.mp hu).1 rfl
    refine .inl ⟨hmem, ?_⟩
    by_cases ht : t ∈ l
    · obtain ⟨-, -, hothers, -⟩ := act_stop h ht
      exact ⟨(hothers u hne).2, (hothers u hne).1, fun heq => hne (by cases heq; rfl)⟩
    · rw [(act_refused h).1 ht]
      exact ⟨rfl, rfl, fun heq => hne (by cases heq; rfl)⟩
  | start t period msCounter =>
    by_cases ht : t ∈ l ∨ period = 0#32
    · rw [apply_refused ht] at hu
      rw [(act_refused h).2 ht]
      exact .inl ⟨hu, rfl, rfl, by simp⟩
    · obtain ⟨ht, hp⟩ := not_or.mp ht
      rw [apply_started ht hp] at hu
      obtain ⟨-, hself, hothers⟩ := act_start h ht msCounter hp
      by_cases heq : u = t
      · subst heq
        refine .inr ⟨ht, period, msCounter, rfl, hp, ?_⟩
        rw [hself]
        exact ⟨rfl, rfl⟩
      · refine .inl ⟨(List.mem_cons.mp hu).resolve_left heq, ?_, ?_, by simp⟩
        · rw [hothers u heq]
        · rw [hothers u heq]

theorem foldl_mem (h : Tidy s l) (hu : u ∈ actions.foldl Action.apply l) :
    u ∈ l ∧ ((actions.foldl Timers.act s).mem u).dueTime = (s.mem u).dueTime ∧
        ((actions.foldl Timers.act s).mem u).period = (s.mem u).period ∨
      ∃ period msCounter, .start u period msCounter ∈ actions ∧ period ≠ 0#32 ∧
        ((actions.foldl Timers.act s).mem u).dueTime = msCounter + period ∧
        ((actions.foldl Timers.act s).mem u).period = period := by
  induction actions generalizing s l with
  | nil => exact .inl ⟨hu, rfl, rfl⟩
  | cons a actions ih =>
    rcases ih (h.act a) hu with ⟨hmem, hdue, hperiod⟩ | ⟨period, msCounter, hs, hstart⟩
    · rcases act_due h.toHolds a hmem with ⟨hmem, hsame, hsame', -⟩ |
        ⟨-, period, msCounter, rfl, hp, hnow, hnow'⟩
      · exact .inl ⟨hmem, hdue.trans hsame, hperiod.trans hsame'⟩
      · exact .inr ⟨period, msCounter, List.mem_cons_self, hp, hdue.trans hnow, hperiod.trans hnow'⟩
    · exact .inr ⟨period, msCounter, List.mem_cons_of_mem _ hs, hstart⟩

theorem apply_kept {a : Action n} (ht : t ∈ l) (ha : a ≠ .stop t) : t ∈ a.apply l := by
  cases a with
  | stop u =>
    refine (List.mem_erase_of_ne ?_).mpr ht
    rintro rfl
    exact ha rfl
  | start u period msCounter =>
    rw [Action.apply]
    split_ifs
    · exact ht
    · exact List.mem_insert_of_mem ht

theorem foldl_kept (h : Tidy s l) (ht : t ∈ l) (hstop : .stop t ∉ actions) :
    t ∈ actions.foldl Action.apply l ∧
    ((actions.foldl Timers.act s).mem t).dueTime = (s.mem t).dueTime ∧
      ((actions.foldl Timers.act s).mem t).period = (s.mem t).period := by
  induction actions generalizing s l with
  | nil => exact ⟨ht, rfl, rfl⟩
  | cons a actions ih =>
    rw [List.mem_cons, not_or] at hstop
    have hin : t ∈ a.apply l := apply_kept ht (Ne.symm hstop.1)
    obtain ⟨hmem, hdue, hperiod⟩ := ih (h.act a) hin hstop.2
    rcases act_due h.toHolds a hin with ⟨-, hsame, hsame', -⟩ | ⟨hnot, -⟩
    · exact ⟨hmem, hdue.trans hsame, hperiod.trans hsame'⟩
    · exact absurd ht hnot

/-- An action keeps the pointer of a timer in the list, but one that stops another when it is not.
-/
theorem act_next (h : Tidy s l) {a : Action n} (hnext : ∀ u, s.next t = some u → u ∈ l)
    (hstop : t ∉ l → ∀ u, u ≠ t → a ≠ .stop u) {u : Fin n} (hu : (s.act a).next t = some u) :
    u ∈ a.apply l := by
  by_cases hin : t ∈ a.apply l
  · exact (h.act a).next_mem hin hu
  by_cases ht : t ∈ l
  · have ha : a = .stop t := by_contra fun ha => hin (apply_kept ht ha)
    subst ha
    have hpointer : (s.act (.stop t)).next t = s.next t := by
      rw [Timers.next, (act_stop h.toHolds ht).2.1]
    have hnow : s.next t = some u := hpointer.symm.trans hu
    refine (h.nodup.mem_erase_iff).mpr ⟨?_, hnext u hnow⟩
    rintro rfl
    exact h.toHolds.next_ne ht hnow
  · cases a with
    | stop v =>
      have heq : v = t := by_contra fun hne => hstop ht v hne rfl
      subst heq
      rw [(act_refused h.toHolds).1 ht] at hu
      rw [Action.apply, List.erase_of_not_mem ht]
      exact hnext u hu
    | start v period msCounter =>
      by_cases hv : v ∈ l ∨ period = 0#32
      · rw [(act_refused h.toHolds).2 hv] at hu
        rw [apply_refused hv]
        exact hnext u hu
      · obtain ⟨hv, hp⟩ := not_or.mp hv
        rw [apply_started hv hp] at hin ⊢
        obtain ⟨-, -, hothers⟩ := act_start h.toHolds hv msCounter hp
        have hsame : (s.act (.start v period msCounter)).next t = s.next t :=
          congrArg Timer.next (hothers t (not_or.mp (List.mem_cons.not.mp hin)).1)
        exact List.mem_cons_of_mem _ (hnext u (hsame.symm.trans hu))

/-- So the pass goes on in the list when the counter is zero. -/
theorem foldl_next (h : Tidy s l) (hnext : ∀ u, s.next t = some u → u ∈ l)
    (hstop : t ∉ l → ∀ u, u ≠ t → .stop u ∉ actions)
    (hzero : ∀ pre u post, u ≠ t → actions = pre ++ .stop u :: post → .stop t ∉ pre) {u : Fin n}
    (hu : (actions.foldl Timers.act s).next t = some u) : u ∈ actions.foldl Action.apply l := by
  induction actions generalizing s l with
  | nil => exact hnext u hu
  | cons a actions ih =>
    refine ih (h.act a) ?_ ?_ ?_ hu
    · intro v hv
      exact act_next h hnext (fun ht w hw ha => hstop ht w hw (ha ▸ List.mem_cons_self)) hv
    · intro hin v hv hs
      by_cases ht : t ∈ l
      · have ha : a = .stop t := by_contra fun ha => hin (apply_kept ht ha)
        obtain ⟨pre, post, rfl⟩ := List.append_of_mem hs
        exact hzero (a :: pre) v post hv rfl (ha ▸ List.mem_cons_self)
      · exact hstop ht v hv (List.mem_cons_of_mem _ hs)
    · rintro pre v post hv rfl hs
      exact hzero (a :: pre) v post hv rfl (List.mem_cons_of_mem _ hs)

end Fold

section Pass

variable {callbacks : Callbacks n} {s : Timers n} {l : List (Fin n)} {t u : Fin n}
  {time : BitVec 32}
  {cur : Option (Fin n)}

theorem Tidy.advance (h : Tidy s l) (t : Fin n) : Tidy (s.advance t) l := by
  refine ⟨h.toHolds.advance t, fun u => ?_⟩
  rw [Timers.advance_next]
  refine (h.grounded u).transfer (fun v hv => .mem hv) fun v _ hv => .next ?_
  rw [Timers.advance_next]
  exact hv

theorem Tidy.callBack (h : Tidy s l) (callbacks : Callbacks n) (t : Fin n) :
    Tidy (s.callBack callbacks t) ((callbacks t s).foldl Action.apply l) := (h.foldl _).advance t

/-- After a careful callback its timer is not due, and no other that was not before. -/
theorem callBack_due (h : Tidy s l) (ht : t ∈ l) (hdue : (s.mem t).dueTime = time)
    (hcare : Careful t time (callbacks t s)) (hu : u ∈ (callbacks t s).foldl Action.apply l)
    (hnow : ((s.callBack callbacks t).mem u).dueTime = time) :
    u ≠ t ∧ u ∈ l ∧ (s.mem u).dueTime = time := by
  rw [Timers.callBack, Timers.advance_dueTime] at hnow
  by_cases heq : u = t
  · subst heq
    rw [if_pos rfl] at hnow
    rcases foldl_mem h hu with ⟨-, hsame, hperiod⟩ | ⟨period, msCounter, hs, hp, hstart, hperiod⟩
    · rw [hsame, hperiod, hdue] at hnow
      refine absurd ?_ (h.on u ht)
      bv_omega
    · rw [hstart, hperiod] at hnow
      exact absurd hnow (hcare.twice period msCounter hs hp)
  · rw [if_neg heq] at hnow
    refine ⟨heq, ?_⟩
    rcases foldl_mem h hu with ⟨hmem, hsame, -⟩ | ⟨period, msCounter, hs, hp, hstart, -⟩
    · exact ⟨hmem, hsame.symm.trans hnow⟩
    · exact absurd (hstart.symm.trans hnow) (hcare.ahead u period msCounter hs hp)

def Timers.due (s : Timers n) (time : BitVec 32) (l : List (Fin n)) : List (Fin n) :=
  l.filter fun t => (s.mem t).dueTime = time

theorem Timers.mem_due : t ∈ s.due time l ↔ t ∈ l ∧ (s.mem t).dueTime = time := by
  rw [Timers.due, List.mem_filter, decide_eq_true_iff]

theorem callBack_fewer (h : Tidy s l) (ht : t ∈ l) (hdue : (s.mem t).dueTime = time)
    (hcare : Careful t time (callbacks t s)) :
    ((s.callBack callbacks t).due time ((callbacks t s).foldl Action.apply l)).length <
      (s.due time l).length := by
  have hnodup : (t :: (s.callBack callbacks t).due time
      ((callbacks t s).foldl Action.apply l)).Nodup := by
    refine List.nodup_cons.mpr ⟨fun hmem => ?_, (h.callBack callbacks t).nodup.filter _⟩
    obtain ⟨hmem, hnow⟩ := Timers.mem_due.mp hmem
    exact (callBack_due h ht hdue hcare hmem hnow).1 rfl
  refine (hnodup.subperm fun u hu => ?_).length_le
  rcases List.mem_cons.mp hu with rfl | hu
  · exact Timers.mem_due.mpr ⟨ht, hdue⟩
  · obtain ⟨hmem, hnow⟩ := Timers.mem_due.mp hu
    exact Timers.mem_due.mpr (callBack_due h ht hdue hcare hmem hnow).2

/-- How the rest of a pass goes: it comes to an end, and calls timers back that were due, each
once and while it was started. -/
def Ends (callbacks : Callbacks n) (time : BitVec 32) (s : Timers n) (l : List (Fin n))
    (cur : Option (Fin n)) : Prop :=
  ∃ fuel s' l' calls, taskLoop callbacks time fuel cur s = some (s', calls) ∧ Tidy s' l' ∧
    (calls.map Call.timer).Nodup ∧ ∀ c ∈ calls, c.timer ∈ s.due time l ∧
      ∃ l', Tidy c.before l' ∧ c.timer ∈ c.before.due time l'

theorem Ends.none (h : Tidy s l) : Ends callbacks time s l none :=
  ⟨0, s, l, [], taskLoop_none, h, List.nodup_nil, fun _ hc => absurd hc List.not_mem_nil⟩

theorem Ends.passed (hdue : (s.mem t).dueTime ≠ time) (h : Ends callbacks time s l (s.next t)) :
    Ends callbacks time s l (some t) := by
  obtain ⟨fuel, s', l', calls, hrun, hends⟩ := h
  refine ⟨fuel + 1, s', l', calls, ?_, hends⟩
  rw [taskLoop_passed hdue]
  exact hrun

theorem Ends.called (htidy : Tidy s l) (ht : t ∈ l) (hdue : (s.mem t).dueTime = time)
    (hcare : Careful t time (callbacks t s))
    (h : Ends callbacks time (s.callBack callbacks t) ((callbacks t s).foldl Action.apply l)
      ((s.callBack callbacks t).next t)) : Ends callbacks time s l (some t) := by
  obtain ⟨fuel, s', l', calls, hrun, htidy', hnodup, hcalls⟩ := h
  have hbefore : ∀ c ∈ calls, c.timer ≠ t ∧ c.timer ∈ s.due time l := by
    intro c hc
    obtain ⟨hmem, hnow⟩ := Timers.mem_due.mp (hcalls c hc).1
    obtain ⟨hne, hwas⟩ := callBack_due htidy ht hdue hcare hmem hnow
    exact ⟨hne, Timers.mem_due.mpr hwas⟩
  refine ⟨fuel + 1, s', l', ⟨t, s⟩ :: calls, ?_, htidy', ?_, ?_⟩
  · rw [taskLoop_due hdue, hrun]
    rfl
  · rw [List.map_cons, List.nodup_cons]
    refine ⟨fun hmem => ?_, hnodup⟩
    obtain ⟨c, hc, heq⟩ := List.mem_map.mp hmem
    exact (hbefore c hc).1 heq
  · intro c hc
    rcases List.mem_cons.mp hc with rfl | hc
    · exact ⟨Timers.mem_due.mpr ⟨ht, hdue⟩, l, htidy, Timers.mem_due.mpr ⟨ht, hdue⟩⟩
    · exact ⟨(hbefore c hc).2, (hcalls c hc).2⟩

/-- The timers that the loop comes to, each in the state in which it does. -/
inductive Comes (callbacks : Callbacks n) (time : BitVec 32) : Timers n → Option (Fin n) →
    Timers n → Fin n → Prop
  | here {s : Timers n} {t : Fin n} : Comes callbacks time s (some t) s t
  | passed {s s₁ : Timers n} {t u : Fin n} (hdue : (s.mem t).dueTime ≠ time)
      (h : Comes callbacks time s (s.next t) s₁ u) : Comes callbacks time s (some t) s₁ u
  | called {s s₁ : Timers n} {t u : Fin n} (hdue : (s.mem t).dueTime = time)
      (h : Comes callbacks time (s.callBack callbacks t) ((s.callBack callbacks t).next t) s₁ u) :
      Comes callbacks time s (some t) s₁ u

/-- The callbacks that the rest of a pass calls are careful. -/
def CarefulFrom (callbacks : Callbacks n) (time : BitVec 32) (s : Timers n) (cur : Option (Fin n)) :
    Prop :=
  ∀ s₁ t, Comes callbacks time s cur s₁ t → (s₁.mem t).dueTime = time →
    Careful t time (callbacks t s₁)

theorem CarefulFrom.passed (h : CarefulFrom callbacks time s (some t))
    (hdue : (s.mem t).dueTime ≠ time) :
    CarefulFrom callbacks time s (s.next t) :=
  fun s₁ u hcomes => h s₁ u (.passed hdue hcomes)

theorem CarefulFrom.called (h : CarefulFrom callbacks time s (some t))
    (hdue : (s.mem t).dueTime = time) :
    Careful t time (callbacks t s) ∧
      CarefulFrom callbacks time (s.callBack callbacks t) ((s.callBack callbacks t).next t) :=
  ⟨h s t .here hdue, fun s₁ u hcomes => h s₁ u (.called hdue hcomes)⟩

/-- A pass comes to an end from every timer it can be led to: every call leaves fewer timers due,
and what lies between two calls is a walk through the list or into it. -/
theorem ends (htidy : Tidy s l) (hcare : CarefulFrom callbacks time s cur) (hcur : Grounded s l cur)
    (hzero : time = 0#32 → ∀ u ∈ cur, u ∈ l) : Ends callbacks time s l cur := by
  induction hk : (s.due time l).length using Nat.strong_induction_on generalizing s l cur with
  | _ k ih =>
  have hcall : ∀ t ∈ l, CarefulFrom callbacks time s (some t) → (s.mem t).dueTime = time →
      Ends callbacks time s l (some t) := by
    intro t ht hcare hdue
    obtain ⟨hthis, hrest⟩ := hcare.called hdue
    refine Ends.called htidy ht hdue hthis ?_
    refine ih _ (hk ▸ callBack_fewer htidy ht hdue hthis) (htidy.callBack callbacks t) hrest
      ((htidy.callBack callbacks t).grounded t) ?_ rfl
    intro htime u hu
    rw [Timers.callBack, Timers.advance_next] at hu
    exact foldl_next htidy (fun v hv => htidy.next_mem ht hv) (fun hout => absurd ht hout)
      (hthis.zero htime) hu
  have hwalk : ∀ {rest : List (Fin n)} {cur : Option (Fin n)}, Lib.Linked s.next cur rest →
    (∀ u ∈ rest, u ∈ l) →
      CarefulFrom callbacks time s cur → Ends callbacks time s l cur := by
    intro rest
    induction rest with
    | nil =>
      intro cur hlinked _ _
      rw [show cur = none from hlinked]
      exact .none htidy
    | cons t rest ihrest =>
      intro cur hlinked hrest hcare
      obtain ⟨rfl, hlinked⟩ := hlinked
      by_cases hdue : (s.mem t).dueTime = time
      · exact hcall t (hrest t List.mem_cons_self) hcare hdue
      · exact .passed hdue (ihrest hlinked (fun u hu => hrest u (List.mem_cons_of_mem _ hu))
          (hcare.passed hdue))
  have hmem : ∀ t ∈ l, CarefulFrom callbacks time s (some t) →
      Ends callbacks time s l (some t) := by
    intro t ht
    obtain ⟨kept, rest, rfl⟩ := List.append_of_mem ht
    exact hwalk htidy.linked.suffix fun u hu => List.mem_append_right _ hu
  -- over timers that are stopped, which are due when the counter is zero
  by_cases htime : time = 0#32
  · cases cur with
    | none => exact .none htidy
    | some t => exact hmem t (hzero htime t rfl) hcare
  · clear hzero
    induction hcur with
    | none => exact .none htidy
    | mem ht => exact hmem _ ht hcare
    | @next t hg ihg =>
      by_cases ht : t ∈ l
      · exact hmem t ht hcare
      · have hdue : (s.mem t).dueTime ≠ time := by
          rw [(htidy.off t ht).2]
          exact fun heq => htime heq.symm
        exact .passed hdue (ihg (hcare.passed hdue))

/-- More fuel changes nothing. -/
theorem taskLoop_more {fuel : Nat} (k : Nat) {x : Timers n × List (Call n)} :
    ∀ {cur : Option (Fin n)} {s : Timers n}, taskLoop callbacks time fuel cur s = some x →
      taskLoop callbacks time (fuel + k) cur s = some x := by
  induction fuel generalizing x with
  | zero =>
    intro cur s h
    cases cur with
    | none =>
      rw [taskLoop_none] at h ⊢
      exact h
    | some t => cases h
  | succ fuel ih =>
    intro cur s h
    cases cur with
    | none =>
      rw [taskLoop_none] at h ⊢
      exact h
    | some t =>
      rw [Nat.add_right_comm]
      by_cases hdue : (s.mem t).dueTime = time
      · rw [taskLoop_due hdue] at h ⊢
        obtain ⟨y, hy, hx⟩ := Option.map_eq_some_iff.mp h
        rw [ih hy, Option.map_some, hx]
      · rw [taskLoop_passed hdue] at h ⊢
        exact ih h

end Pass

section Restart

variable {callbacks : Callbacks n} {s : Timers n} {l : List (Fin n)} {t : Fin n}
  {time period msCounter : BitVec 32}

/-- A callback leaves its own timer running that it has started, with this period at this value of
the counter. -/
def Restarts (callbacks : Callbacks n) (s : Timers n) (t : Fin n) (period msCounter : BitVec 32) :
    Prop :=
  ∃ pre post, callbacks t s = pre ++ .start t period msCounter :: post ∧ .stop t ∉ post ∧
    (timerStart (pre.foldl Timers.act s) msCounter t period).1 = .success

theorem restarted_late (h : Tidy s l) (hs : Restarts callbacks s t period msCounter) :
    period ≠ 0#32 ∧
    ((s.callBack callbacks t).mem t).dueTime = msCounter + period + period := by
  obtain ⟨pre, post, hactions, hstop, hstart⟩ := hs
  have hpre := h.foldl pre
  have hnew : t ∉ pre.foldl Action.apply l ∧ period ≠ 0#32 := by
    rw [← not_or]
    intro hrefused
    rw [timerStart_refused hpre.toHolds msCounter hrefused] at hstart
    cases hstart
  obtain ⟨-, hself, -⟩ := act_start hpre.toHolds hnew.1 msCounter hnew.2
  obtain ⟨-, hdue, hperiod⟩ := foldl_kept (hpre.start hnew.1 hnew.2) List.mem_cons_self hstop
  refine ⟨hnew.2, ?_⟩
  rw [Timers.callBack, Timers.advance_dueTime, if_pos rfl, hactions, List.foldl_append,
    List.foldl_cons, hdue,
    hperiod, hself]

/-- What is done with the timers: they are started and stopped, and the task is called. -/
inductive Use (n : Nat) where
  | act (a : Action n)
  | task (callbacks : Callbacks n) (fuel : Nat) (currentTime : BitVec 32)

def Timers.use (s : Timers n) : Use n → Option (Timers n)
  | .act a => some (s.act a)
  | .task callbacks fuel currentTime => (timerTask callbacks fuel s currentTime).map Prod.fst

/-- The callbacks that the task calls are careful. -/
def CarefulTask (s : Timers n) (callbacks : Callbacks n) (time : BitVec 32) : Prop :=
  CarefulFrom callbacks time s s.list

def CarefulUse (s : Timers n) : Use n → Prop
  | .act _ => True
  | .task callbacks _ currentTime => CarefulTask s callbacks currentTime

theorem task_ends (h : Tidy s l) (hcare : CarefulTask s callbacks time) :
    Ends callbacks time s l s.list := by
  refine ends h hcare h.head fun _ u hu => ?_
  rw [h.linked.head_eq] at hu
  exact List.mem_of_mem_head? hu

theorem tidy_use {u : Use n} {s' : Timers n} (h : Tidy s l) (hcare : CarefulUse s u)
    (hs : s.use u = some s') :
    ∃ l', Tidy s' l' := by
  cases u with
  | act a =>
    obtain rfl := Option.some.inj hs
    exact ⟨_, h.act a⟩
  | task callbacks fuel currentTime =>
    obtain ⟨⟨s'', calls⟩, hrun, rfl⟩ := Option.map_eq_some_iff.mp hs
    obtain ⟨fuel', s', l', calls', hrun', htidy, -⟩ := task_ends h hcare
    have hmore := taskLoop_more fuel' hrun
    rw [Nat.add_comm, taskLoop_more fuel hrun'] at hmore
    obtain ⟨rfl, -⟩ := Prod.mk.inj (Option.some.inj hmore)
    exact ⟨l', htidy⟩

/-- In every run with careful callbacks the list holds the timers that are started, and a call of
the task comes to an end, calls back only timers that are due, each at most once, and leaves one
due a period after it was started by its own callback only if there is none. -/
theorem rearmed_iff (h : Lib.Reach Timers.use CarefulUse created s) : (∃ l, s.Holds l) ∧
    ∀ callbacks time, CarefulTask s callbacks time → ∃ fuel s' calls,
      (∀ k, timerTask callbacks (fuel + k) s time = some (s', calls)) ∧ (∃ l', s'.Holds l') ∧
      (calls.map Call.timer).Nodup ∧ ∀ c ∈ calls,
        (s.mem c.timer).period ≠ 0#32 ∧ (s.mem c.timer).dueTime = time ∧
        ((∀ period msCounter, Restarts callbacks c.before c.timer period msCounter →
            ((c.before.callBack callbacks c.timer).mem c.timer).dueTime = msCounter + period) ↔
          ∀ period msCounter, ¬ Restarts callbacks c.before c.timer period msCounter) := by
  have hinv : ∃ l, Tidy s l := by
    refine h.invariant (I := fun s => ∃ l, Tidy s l) ⟨[], created_tidy⟩ ?_
    rintro s u s' ⟨l, htidy⟩ hcare hs
    exact tidy_use htidy hcare hs
  obtain ⟨l, htidy⟩ := hinv
  refine ⟨⟨l, htidy.toHolds⟩, fun callbacks time hcare => ?_⟩
  obtain ⟨fuel, s', l', calls, hrun, htidy', hnodup, hcalls⟩ := task_ends htidy hcare
  refine ⟨fuel, s', calls, fun k => taskLoop_more k hrun, ⟨l', htidy'.toHolds⟩, hnodup,
    fun c hc => ?_⟩
  obtain ⟨hdue, l₁, hbefore, -⟩ := hcalls c hc
  obtain ⟨hmem, hdue⟩ := Timers.mem_due.mp hdue
  refine ⟨htidy.on _ hmem, hdue, fun hall period msCounter hs => ?_,
    fun hnone period msCounter hs =>
    absurd hs (hnone period msCounter)⟩
  obtain ⟨hp, hlate⟩ := restarted_late hbefore hs
  have heq := hall period msCounter hs
  rw [hlate] at heq
  refine hp ?_
  bv_omega

def running : Timers 1 := created.act (.start ⟨0, Nat.one_pos⟩ 10#32 0#32)

theorem reach_running : Lib.Reach Timers.use CarefulUse created running :=
  Lib.Reach.refl.tail (i := .act (.start ⟨0, Nat.one_pos⟩ 10#32 0#32)) trivial rfl

/-- A callback that stops its own timer. -/
theorem rearmed_iff_stopped :
    ∃ fuel s' calls, (∀ k, timerTask (fun t _ => [.stop t]) (fuel + k) running 10#32 =
    some (s', calls)) ∧ (∃ l', s'.Holds l') ∧ (calls.map Call.timer).Nodup := by
  have hcare : CarefulTask running (fun t _ => [.stop t]) 10#32 := by
    refine fun _ t _ _ => ⟨?_, ?_, fun h => absurd h (by decide)⟩
    · intro u period msCounter hs
      simp at hs
    · intro period msCounter hs
      simp at hs
  obtain ⟨fuel, s', calls, hrun, hholds, hnodup, -⟩ := (rearmed_iff reach_running).2 _ _ hcare
  exact ⟨fuel, s', calls, hrun, hholds, hnodup⟩

def rearming : Callbacks 1 := fun t _ => [.stop t, .start t 20#32 10#32]

/-- It is due after 40 ms, not 20. -/
theorem rearmed_late :
    Lib.Reach Timers.use CarefulUse created running ∧ CarefulTask running rearming 10#32 ∧
    ∃ s' c, timerTask rearming 2 running 10#32 = some (s', [c]) ∧
      Restarts rearming c.before c.timer 20#32 10#32 ∧ (s'.mem c.timer).dueTime = 10#32 + 40#32 ∧
      (s'.mem c.timer).dueTime ≠ 10#32 + 20#32 := by
  refine ⟨reach_running, fun _ t _ _ => ⟨?_, ?_, fun h => absurd h (by decide)⟩,
    running.callBack rearming ⟨0, Nat.one_pos⟩,
      ⟨⟨0, Nat.one_pos⟩, running⟩, ?_, ?_, by decide, by decide⟩
  · intro u period msCounter hs _
    obtain ⟨rfl, rfl, rfl⟩ : u = t ∧ period = 20#32 ∧
        msCounter = 10#32 := by simpa [rearming] using hs
    decide
  · intro period msCounter hs _
    obtain ⟨rfl, rfl⟩ : period = 20#32 ∧ msCounter = 10#32 := by simpa [rearming] using hs
    decide
  · have hnext : (running.callBack rearming ⟨0, Nat.one_pos⟩).next ⟨0, Nat.one_pos⟩ = none := by
      decide
    rw [timerTask, show running.list = some ⟨0, Nat.one_pos⟩ from rfl, taskLoop_due (by decide),
      hnext, taskLoop_none]
    rfl
  · exact ⟨[.stop ⟨0, Nat.one_pos⟩], [], rfl, List.not_mem_nil, by decide⟩

end Restart

end NanoIp.Oal
