import NanoIp.Lib.Run
import NanoIp.Lib.Ticks
import NanoIp.Oal.Timer

/-!
# Timers that are due

Timers are started and stopped and the task is called, at times that do not go back. Each timer
ticks as if it were alone: it is called back when a call of the task comes at the very millisecond
of its next period. So it is on time exactly as long as the task is called on all of these.
-/
namespace NanoIp.Oal

variable {n : Nat}

def inert : Callbacks n := fun _ _ => []

/-- The timers, when the last step was and the last call of the task, and whom it called back. -/
structure State (n : Nat) where
  timers : Timers n
  clock : Nat
  lastCall : Nat
  called : List (Fin n)

inductive Input (n : Nat) where
  | start (t : Fin n) (period : BitVec 32) (now : Nat)
  | stop (t : Fin n) (now : Nat)
  | task (now : Nat)

def Input.now : Input n → Nat
  | .start _ _ now | .stop _ now | .task now => now

/-- `NANO_IP_OAL_TIME_GetMsCounter` at a time. -/
def msCounter (now : Nat) : BitVec 32 := BitVec.ofNat 32 now

/-- Time does not go back, and less than 2^31 ms pass between two calls of the task. -/
def step (s : State n) (i : Input n) : Option (State n) :=
  if s.clock ≤ i.now then
    match i with
    | .start t period now => some { s with
        timers := (timerStart s.timers (msCounter now) t period).2, clock := now }
    | .stop t now => some { s with timers := (timerStop s.timers t).2, clock := now }
    | .task now =>
      if now < s.lastCall + 2 ^ 31 then
        (timerTask inert (n + 1) s.timers (msCounter now)).map fun x =>
          ⟨x.1, now, now, x.2.map Call.timer⟩
      else none
  else none

def begin (now : Nat) : State n := ⟨created, now, now, []⟩

/-- A timer that runs: since when, with which period, the calls of the task since then, how often it
was called back until each, and how often until now. -/
structure Watch where
  since : Nat
  period : Nat
  calls : List (Nat × Nat)
  count : Nat
  deriving DecidableEq

def Watch.see (v : Watch) (now ticks : Nat) : Watch :=
  { v with calls := v.calls ++ [(now, v.count + ticks)], count := v.count + ticks }

/-- What becomes of the watch of a timer. -/
def watch (w : Fin n → Option Watch) (s : State n) (i : Input n) (s' : State n) :
    Fin n → Option Watch :=
  match i with
  | .start t period now =>
    if (timerStart s.timers (msCounter now) t period).1 = .success then
      Function.update w t (some ⟨now, period.toNat, [], 0⟩)
    else w
  | .stop t _ => if (timerStop s.timers t).1 = .success then Function.update w t none else w
  | .task now => fun t => (w t).map fun v => v.see now (s'.called.count t)

theorem watch_task (w : Fin n → Option Watch) (s s' : State n) (now : Nat) (t : Fin n) :
    watch w s (.task now) s' t = (w t).map fun v => v.see now (s'.called.count t) := rfl

section Task

/-- A pass calls back the timers that are due, in the order of the list. -/
theorem taskLoop_inert (time : BitVec 32) {l : List (Fin n)} {fuel : Nat} :
    ∀ {cur : Option (Fin n)} {s : Timers n}, Lib.Linked s.next cur l → l.Nodup →
    l.length ≤ fuel → ∃ s' calls, taskLoop inert time fuel cur s = some (s', calls) ∧
      (calls.map Call.timer) = l.filter (fun t => (s.mem t).dueTime = time) ∧ s'.next = s.next ∧
      s'.list = s.list ∧ ∀ u, (s'.mem u).period = (s.mem u).period ∧
        (s'.mem u).dueTime =
          if u ∈ l ∧ (s.mem u).dueTime = time then (s.mem u).dueTime + (s.mem u).period else
            (s.mem u).dueTime := by
  induction l generalizing fuel with
  | nil =>
    intro cur s h _ _
    obtain rfl : cur = none := h
    refine ⟨s, [], taskLoop_none, rfl, rfl, rfl, fun u => ⟨rfl, ?_⟩⟩
    rw [if_neg fun hu => List.not_mem_nil hu.1]
  | cons t l ih =>
    intro cur s h hnodup hfuel
    obtain ⟨rfl, hl⟩ := h
    obtain ⟨ht, hnodup⟩ := List.nodup_cons.mp hnodup
    obtain ⟨fuel, rfl⟩ : ∃ f, fuel = f + 1 := ⟨fuel - 1, by simp at hfuel; omega⟩
    have hfuel' : l.length ≤ fuel := by simpa using hfuel
    by_cases hdue : (s.mem t).dueTime = time
    · -- the others are as due as before
      have hother : ∀ u ∈ l, ((s.advance t).mem u).dueTime = (s.mem u).dueTime := by
        intro u hu
        have hne : u ≠ t := fun heq => ht (heq ▸ hu)
        rw [Timers.advance_dueTime, if_neg hne]
      have hl' : Lib.Linked (s.advance t).next ((s.advance t).next t) l := by
        rw [Timers.advance_next]
        exact hl
      obtain ⟨s', calls, hrun, hcalls, hnext, hlist, hmem⟩ := ih hl' hnodup hfuel'
      have hfilter : l.filter (fun u => ((s.advance t).mem u).dueTime = time) =
          l.filter fun u => (s.mem u).dueTime = time :=
        List.filter_congr fun u hu => by rw [hother u hu]
      have hback : s.callBack inert t = s.advance t := rfl
      refine ⟨s', ⟨t, s⟩ :: calls, ?_, ?_, hnext.trans Timers.advance_next, hlist,
        fun u => ⟨?_, ?_⟩⟩
      · rw [taskLoop_due hdue, hback, hrun]
        rfl
      · rw [List.map_cons, hcalls, hfilter, List.filter_cons_of_pos (by simpa using hdue)]
      · rw [(hmem u).1, Timers.advance_period]
      · rw [(hmem u).2, Timers.advance_period, Timers.advance_dueTime]
        by_cases hu : u = t
        · subst hu
          rw [if_pos rfl, if_neg fun hc => ht hc.1, if_pos ⟨List.mem_cons_self, hdue⟩]
        · rw [if_neg hu]
          simp [hu]
    · obtain ⟨s', calls, hrun, hcalls, hnext, hlist, hmem⟩ := ih hl hnodup hfuel'
      refine ⟨s', calls, (taskLoop_passed hdue).trans hrun, ?_, hnext, hlist, fun u =>
        ⟨(hmem u).1, ?_⟩⟩
      · rw [hcalls, List.filter_cons_of_neg (by simpa using hdue)]
      · rw [(hmem u).2]
        by_cases hu : u = t
        · subst hu
          rw [if_neg fun hc => ht hc.1, if_neg fun hc => hdue hc.2]
        · simp [hu]

end Task

/-- A watched timer: it runs, is due at its next boundary and has ticked as if it were alone. -/
structure Watched (s : State n) (t : Fin n) (v : Watch) : Prop where
  since : v.since ≤ s.clock
  pos : 0 < v.period
  fits : v.period < 2 ^ 32
  period : (s.timers.mem t).period = BitVec.ofNat 32 v.period
  dueTime : (s.timers.mem t).dueTime = BitVec.ofNat 32 (v.since + (v.count + 1) * v.period)
  ticked : Lib.Ticked (2 ^ 32) v.since v.period v.calls s.lastCall v.count

/-- The timers in the list are those that are watched. -/
structure Watches (s : State n) (w : Fin n → Option Watch) (l : List (Fin n)) : Prop where
  holds : s.timers.Holds l
  called : s.lastCall ≤ s.clock
  off : ∀ t ∉ l, w t = none
  on : ∀ t ∈ l, ∃ v, w t = some v ∧ Watched s t v

section Steps

variable {s s' : State n} {w : Fin n → Option Watch} {l : List (Fin n)}

theorem ofNat_eq_iff {a b : Nat} :
    BitVec.ofNat 32 a = BitVec.ofNat 32 b ↔ a % 2 ^ 32 = b % 2 ^ 32 := by
  rw [← BitVec.toNat_inj, BitVec.toNat_ofNat, BitVec.toNat_ofNat]

theorem Watched.keep {t : Fin n} {v : Watch} (h : Watched s t v) {timers : Timers n} {now : Nat}
    (hnow : s.clock ≤ now) (hperiod : (timers.mem t).period = (s.timers.mem t).period)
    (hdue : (timers.mem t).dueTime = (s.timers.mem t).dueTime) :
    Watched { s with timers := timers, clock := now } t v where
  since := Nat.le_trans h.since hnow
  pos := h.pos
  fits := h.fits
  period := hperiod.trans h.period
  dueTime := hdue.trans h.dueTime
  ticked := h.ticked

theorem Watched.started {timers : Timers n} {now : Nat} (hcalled : s.lastCall ≤ now) {t : Fin n}
    {period : BitVec 32} (hp : period ≠ 0#32)
    (hmem : timers.mem t = ⟨period, msCounter now + period, s.timers.list⟩) :
    Watched { s with timers := timers, clock := now } t ⟨now, period.toNat, [], 0⟩ where
  since := Nat.le_refl _
  pos := Nat.pos_iff_ne_zero.mpr fun h0 => hp (BitVec.eq_of_toNat_eq h0)
  fits := period.isLt
  period := by
    rw [hmem, BitVec.ofNat_toNat, BitVec.setWidth_eq]
  dueTime := by
    rw [hmem]
    dsimp only
    rw [Nat.zero_add, Nat.one_mul, BitVec.ofNat_add, BitVec.ofNat_toNat, BitVec.setWidth_eq]
    rfl
  ticked := .start hcalled

theorem step_clock {i : Input n} (hs : step s i = some s') : s.clock ≤ i.now := by
  by_contra hclock
  cases (if_neg hclock).symm.trans hs

theorem watches_start (h : Watches s w l) {t : Fin n} {period : BitVec 32} {now : Nat}
    (hs : step s (.start t period now) = some s') :
    ∃ l', Watches s' (watch w s (.start t period now) s') l' := by
  have hclock : s.clock ≤ now := step_clock hs
  rw [step, if_pos (by exact hclock)] at hs
  obtain rfl := Option.some.inj hs
  by_cases hstarts : t ∉ l ∧ period ≠ 0#32
  · obtain ⟨ht, hp⟩ := hstarts
    obtain ⟨hstart, hholds⟩ := timerStart_started h.holds (msCounter now) ht hp
    have hwatch : ∀ s', watch w s (.start t period now) s' =
      Function.update w t (some ⟨now, period.toNat, [], 0⟩) :=
      fun _ => if_pos (by rw [hstart])
    rw [hwatch]
    have hmem : (timerStart s.timers (msCounter now) t period).2.mem =
        Function.update s.timers.mem t
          ⟨period, msCounter now + period, s.timers.list⟩ := by rw [hstart]
    refine ⟨t :: l, hholds, Nat.le_trans h.called hclock, fun u hu => ?_, fun u hu => ?_⟩
    · rw [List.mem_cons, not_or] at hu
      rw [Function.update_of_ne hu.1]
      exact h.off u hu.2
    · by_cases heq : u = t
      · subst heq
        refine ⟨_, Function.update_self .., Watched.started (Nat.le_trans h.called hclock) hp ?_⟩
        rw [hmem, Function.update_self]
      · obtain ⟨v, hv, hwatched⟩ := h.on u ((List.mem_cons.mp hu).resolve_left heq)
        refine ⟨v, by rw [Function.update_of_ne heq, hv], hwatched.keep hclock ?_ ?_⟩
        · rw [hmem, Function.update_of_ne heq]
        · rw [hmem, Function.update_of_ne heq]
  · have hrefused : t ∈ l ∨ period = 0#32 := by
      by_cases ht : t ∈ l
      · exact .inl ht
      · exact .inr (by_contra fun hp => hstarts ⟨ht, hp⟩)
    have hstart := timerStart_refused h.holds (msCounter now) hrefused
    have hwatch : ∀ s', watch w s (.start t period now) s' = w := fun _ => if_neg fun hc => by
      rw [hstart] at hc
      cases hc
    rw [hwatch, hstart]
    refine ⟨l, h.holds, Nat.le_trans h.called hclock, h.off, fun u hu => ?_⟩
    obtain ⟨v, hv, hwatched⟩ := h.on u hu
    exact ⟨v, hv, hwatched.keep hclock rfl rfl⟩

theorem watches_stop (h : Watches s w l) {t : Fin n} {now : Nat}
    (hs : step s (.stop t now) = some s') :
    ∃ l', Watches s' (watch w s (.stop t now) s') l' := by
  have hclock : s.clock ≤ now := step_clock hs
  rw [step, if_pos (by exact hclock)] at hs
  obtain rfl := Option.some.inj hs
  by_cases ht : t ∈ l
  · obtain ⟨timers, hstop, hholds, -, hothers, -⟩ := timerStop_stopped h.holds ht
    have hwatch : ∀ s', watch w s (.stop t now) s' = Function.update w t none := fun _ =>
      if_pos (by rw [hstop])
    rw [hwatch, hstop]
    refine ⟨l.erase t, hholds, Nat.le_trans h.called hclock, fun u hu => ?_, fun u hu => ?_⟩
    · by_cases heq : u = t
      · subst heq
        exact Function.update_self ..
      · rw [Function.update_of_ne heq]
        exact h.off u fun hmem => hu ((h.holds.nodup.mem_erase_iff).mpr ⟨heq, hmem⟩)
    · obtain ⟨hne, hmem⟩ := (h.holds.nodup.mem_erase_iff).mp hu
      obtain ⟨v, hv, hwatched⟩ := h.on u hmem
      exact ⟨v, by
        rw [Function.update_of_ne hne, hv], hwatched.keep hclock (hothers u hne).1
        (hothers u hne).2⟩
  · have hstop := timerStop_refused h.holds ht
    have hwatch : ∀ s', watch w s (.stop t now) s' = w := fun _ => if_neg fun hc => by
      rw [hstop] at hc
      cases hc
    rw [hwatch, hstop]
    refine ⟨l, h.holds, Nat.le_trans h.called hclock, h.off, fun u hu => ?_⟩
    obtain ⟨v, hv, hwatched⟩ := h.on u hu
    exact ⟨v, hv, hwatched.keep hclock rfl rfl⟩

theorem count_called (h : Watches s w l) {t : Fin n} {v : Watch} (ht : t ∈ l) (hv : Watched s t v)
    (now : Nat) :
    v.count + (l.filter fun u => (s.timers.mem u).dueTime = msCounter now).count t =
      Lib.tick (2 ^ 32) v.since v.period v.count now := by
  have hiff : (s.timers.mem t).dueTime = msCounter now ↔
      now % 2 ^ 32 = (v.since + (v.count + 1) * v.period) % 2 ^ 32 := by
    rw [hv.dueTime, msCounter, eq_comm, ofNat_eq_iff]
  rw [Lib.tick]
  by_cases hdue : (s.timers.mem t).dueTime = msCounter now
  · rw [if_pos (hiff.mp hdue), List.count_filter (by simpa using hdue),
      List.count_eq_one_of_mem h.holds.nodup ht]
  · rw [if_neg fun hmod => hdue (hiff.mpr hmod), List.count_eq_zero_of_not_mem, Nat.add_zero]
    intro hmem
    exact hdue (by simpa using (List.mem_filter.mp hmem).2)

theorem watches_task (h : Watches s w l) {now : Nat} (hs : step s (.task now) = some s') :
    ∃ l', Watches s' (watch w s (.task now) s') l' := by
  have hclock : s.clock ≤ now := step_clock hs
  rw [step, if_pos (by exact hclock)] at hs
  by_cases hgap : now < s.lastCall + 2 ^ 31
  · rw [if_pos hgap] at hs
    have hlen : l.length ≤ n + 1 := Nat.le_succ_of_le (by simpa using h.holds.nodup.length_le_card)
    obtain ⟨timers, calls, hrun, hcalls, hnext, hlist, hmem⟩ :=
      taskLoop_inert (msCounter now) h.holds.linked h.holds.nodup hlen
    rw [timerTask, hrun] at hs
    obtain rfl : s' = ⟨timers, now, now, l.filter fun t => (s.timers.mem t).dueTime =
        msCounter now⟩ := by
      rw [← hcalls]
      exact (Option.some.inj hs).symm
    have hcalled : s.lastCall ≤ now := Nat.le_trans h.called hclock
    refine ⟨l, ⟨?_, h.holds.nodup, fun t ht => ?_, fun t ht => ?_⟩, Nat.le_refl _, fun t ht => ?_,
      fun t ht => ?_⟩
    · rw [hnext, hlist]
      exact h.holds.linked
    · rw [(hmem t).1]
      exact h.holds.on t ht
    · rw [(hmem t).1, (hmem t).2, if_neg fun hc => ht hc.1]
      exact h.holds.off t ht
    · rw [watch_task, h.off t ht]
      rfl
    · obtain ⟨v, hv, hwatched⟩ := h.on t ht
      have hcount := count_called h ht hwatched now
      refine ⟨_, by rw [watch_task, hv, Option.map_some], ?_⟩
      dsimp only [Watch.see]
      rw [hcount]
      refine ⟨Nat.le_trans hwatched.since hclock, hwatched.pos, hwatched.fits,
        (hmem t).1.trans hwatched.period, ?_,
        .look hwatched.ticked (Nat.le_trans hwatched.since hclock) hcalled (by omega)⟩
      rw [(hmem t).2]
      rcases Lib.tick_cases (2 ^ 32) v.since v.period v.count now with
        ⟨htick, hmod⟩ | ⟨htick, hmod⟩
      · have hdue : (s.timers.mem t).dueTime = msCounter now := by
          rw [hwatched.dueTime, msCounter, eq_comm, ofNat_eq_iff]
          exact hmod
        rw [if_pos ⟨ht, hdue⟩, htick, hwatched.dueTime, hwatched.period, ← BitVec.ofNat_add,
          Nat.succ_mul (v.count + 1), Nat.add_assoc]
      · have hdue : (s.timers.mem t).dueTime ≠ msCounter now := by
          rw [hwatched.dueTime, msCounter, Ne, eq_comm, ofNat_eq_iff]
          exact hmod
        rw [if_neg fun hc => hdue hc.2, htick]
        exact hwatched.dueTime
  · rw [if_neg hgap] at hs
    cases hs

theorem watches_step (h : Watches s w l) {i : Input n} (hs : step s i = some s') :
    ∃ l', Watches s' (watch w s i s') l' := by
  cases i with
  | start t period now => exact watches_start h hs
  | stop t now => exact watches_stop h hs
  | task now => exact watches_task h hs

end Steps

/-- In every run each timer that runs ticks as if it were alone, and it has ticked for every period
that a call of the task reached if and only if a call came on every one of them. -/
theorem onTime_iff_called {now : Nat} {x : State n × (Fin n → Option Watch)}
    (h : Lib.Reach (Lib.observe step watch) Lib.anyStep (begin now, fun _ => none) x) (t : Fin n) :
    ((x.1.timers.mem t).period ≠ 0#32 ↔ (x.2 t).isSome) ∧ ∀ v ∈ x.2 t,
      Lib.Ticked (2 ^ 32) v.since v.period v.calls x.1.lastCall v.count ∧
        (Lib.OnTime v.since v.period v.calls ↔ Lib.SeenOn v.since v.period v.calls) := by
  have hinv : ∃ l, Watches x.1 x.2 l := by
    refine h.invariant (I := fun x => ∃ l, Watches x.1 x.2 l)
      ⟨[], created_holds, Nat.le_refl _, fun _ _ => rfl, ?_⟩ ?_
    · exact fun t ht => absurd ht List.not_mem_nil
    · rintro x i y ⟨l, hw⟩ - hs
      obtain ⟨hs, hy⟩ := Lib.observe_some.mp hs
      rw [hy]
      exact watches_step hw hs
  obtain ⟨l, hw⟩ := hinv
  constructor
  · rw [← hw.holds.started_iff]
    by_cases ht : t ∈ l
    · obtain ⟨v, hv, -⟩ := hw.on t ht
      rw [hv]
      exact ⟨fun _ => rfl, fun _ => ht⟩
    · rw [hw.off t ht]
      exact ⟨fun hmem => absurd hmem ht, fun hsome => by cases hsome⟩
  · intro v hv
    have ht : t ∈ l := by
      by_contra ht
      rw [hw.off t ht] at hv
      cases hv
    obtain ⟨v', hv', hwatched⟩ := hw.on t ht
    obtain rfl : v' = v := Option.some.inj (hv'.symm.trans hv)
    exact ⟨hwatched.ticked, Lib.onTime_iff hwatched.pos hwatched.fits hwatched.ticked⟩

/-- The watch of a single timer after these inputs from time zero on. -/
def watchAfter (inputs : List (Input 1)) : Option Watch :=
  (Lib.runInputs (Lib.observe step watch) Lib.anyStep (begin 0, fun _ => none) inputs).bind fun x =>
    x.2 ⟨0, Nat.one_pos⟩

theorem reach_watchAfter {inputs : List (Input 1)} {v : Watch} (h : watchAfter inputs = some v) :
    ∃ x, Lib.Reach (Lib.observe step watch) Lib.anyStep (begin 0, fun _ => none) x ∧
      x.2 ⟨0, Nat.one_pos⟩ = some v := by
  obtain ⟨x, hrun, hx⟩ := Option.bind_eq_some_iff.mp h
  exact ⟨x, Lib.reach_of_runInputs hrun, hx⟩

/-- A period of 10 ms, and calls of the task after 5 and 10. -/
theorem onTime_iff_called_tenth :
    ∃ x v, Lib.Reach (Lib.observe step watch) Lib.anyStep (begin 0, fun _ => none) x ∧
    x.2 (⟨0, Nat.one_pos⟩ : Fin 1) = some v ∧ v.calls = [(5, 0), (10, 1)] ∧
      Lib.OnTime v.since v.period v.calls := by
  have hwatch : watchAfter [.start ⟨0, Nat.one_pos⟩ 10#32 0, .task 5, .task 10] =
      some ⟨0, 10, [(5, 0), (10, 1)], 1⟩ := by decide
  obtain ⟨x, hreach, hx⟩ := reach_watchAfter hwatch
  refine ⟨x, _, hreach, hx, rfl, ((onTime_iff_called hreach ⟨0, Nat.one_pos⟩).2 _ hx).2.mpr ?_⟩
  intro k hk e he hle
  refine ⟨(10, 1), List.mem_cons_of_mem _ List.mem_cons_self, ?_⟩
  simp only [List.mem_cons, List.not_mem_nil, or_false] at he
  rcases he with rfl | rfl
  · dsimp only at hle
    omega
  · dsimp only at hle ⊢
    omega

/-- Calls after 5 and 11 ms: the millisecond in between is skipped, and the timer with it. -/
theorem skipped_millisecond :
    ∃ x v, Lib.Reach (Lib.observe step watch) Lib.anyStep (begin 0, fun _ => none) x ∧
    x.2 (⟨0, Nat.one_pos⟩ : Fin 1) = some v ∧ v.calls = [(5, 0), (11, 0)] ∧
      ¬ Lib.OnTime v.since v.period v.calls := by
  have hwatch : watchAfter [.start ⟨0, Nat.one_pos⟩ 10#32 0, .task 5, .task 11] =
      some ⟨0, 10, [(5, 0), (11, 0)], 0⟩ := by decide
  obtain ⟨x, hreach, hx⟩ := reach_watchAfter hwatch
  refine ⟨x, _, hreach, hx, rfl, fun h => ?_⟩
  exact absurd (h (11, 0) (List.mem_cons_of_mem _ List.mem_cons_self)) (by decide)

end NanoIp.Oal
