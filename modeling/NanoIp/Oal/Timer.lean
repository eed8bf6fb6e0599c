import NanoIp.Core.Types
import NanoIp.Lib.Chain
import Mathlib.Data.Fintype.Card

/-!
# Timers without an operating system

`nano_ip_oal_timer_os_less.c`: the timers that are started are in a list, and one pass of the task
calls those back whose due time is the current value of the counter. A callback may start and stop
timers; the pass goes on through the pointer of the timer it has called back.
-/
namespace NanoIp.Oal

variable {n : Nat}

/-- `oal_timer_t`, but for the callback and its data. -/
structure Timer (n : Nat) where
  period : BitVec 32
  dueTime : BitVec 32
  next : Option (Fin n)
  deriving DecidableEq

/-- The timers, and `s_timer_list`. -/
structure Timers (n : Nat) where
  list : Option (Fin n)
  mem : Fin n → Timer n

def Timers.next (s : Timers n) (t : Fin n) : Option (Fin n) := (s.mem t).next

def Timers.cells (s : Timers n) : List (Fin n) := Lib.chain s.next n s.list

/-- `NANO_IP_OAL_TIMER_Create` of all of them. -/
def created : Timers n := ⟨none, fun _ => ⟨0#32, 0#32, none⟩⟩

/-- `NANO_IP_OAL_TIMER_Start`, at this value of the counter. -/
def timerStart (s : Timers n) (msCounter : BitVec 32) (t : Fin n) (period : BitVec 32) :
    Err × Timers n :=
  if (s.mem t).period = 0#32 ∧ (s.mem t).dueTime = 0#32 ∧ period ≠ 0#32 then
    (.success, ⟨some t, Function.update s.mem t ⟨period, msCounter + period, s.list⟩⟩)
  else (.invalidArg, s)

/-- The timer in front of `t`, or the list, leads past it. -/
def Timers.bypass (s : Timers n) (t : Fin n) : Option (Fin n) → Timers n
  | some previous => { s with mem := Function.update s.mem previous { s.mem previous with next := s.next t } }
  | none => { s with list := s.next t }

/-- `NANO_IP_OAL_TIMER_Stop`. The timer keeps its pointer. -/
def timerStop (s : Timers n) (t : Fin n) : Err × Timers n :=
  if (s.mem t).period ≠ 0#32 then
    match Lib.findPrev t none s.cells with
    | none => (.invalidArg, s)
    | some prev =>
      let s := s.bypass t prev
      (.success, { s with mem := Function.update s.mem t { s.mem t with period := 0#32, dueTime := 0#32 } })
  else (.invalidArg, s)

/-- What a callback does with timers, and at which value of the counter. -/
inductive Action (n : Nat) where
  | stop (t : Fin n)
  | start (t : Fin n) (period msCounter : BitVec 32)
  deriving DecidableEq

def Timers.act (s : Timers n) : Action n → Timers n
  | .stop t => (timerStop s t).2
  | .start t period msCounter => (timerStart s msCounter t period).2

/-- The callbacks, by what they do in which state. -/
abbrev Callbacks (n : Nat) := Fin n → Timers n → List (Action n)

def Timers.advance (s : Timers n) (t : Fin n) : Timers n :=
  { s with
    mem := Function.update s.mem t
      { s.mem t with dueTime := (s.mem t).dueTime + (s.mem t).period } }

def Timers.callBack (callbacks : Callbacks n) (s : Timers n) (t : Fin n) : Timers n :=
  ((callbacks t s).foldl Timers.act s).advance t

/-- A timer that is called back, and the timers when it is. -/
structure Call (n : Nat) where
  timer : Fin n
  before : Timers n

/-- The loop of `NANO_IP_OAL_TIMER_OS_LESS_Task` from a timer on, for at most `fuel` timers, with
its calls. -/
def taskLoop (callbacks : Callbacks n) (currentTime : BitVec 32) :
    Nat → Option (Fin n) → Timers n → Option (Timers n × List (Call n))
  | _, none, s => some (s, [])
  | 0, some _, _ => none
  | fuel + 1, some t, s =>
    if (s.mem t).dueTime = currentTime then
      let s' := s.callBack callbacks t
      (taskLoop callbacks currentTime fuel (s'.next t) s').map fun x => (x.1, ⟨t, s⟩ :: x.2)
    else taskLoop callbacks currentTime fuel (s.next t) s

/-- `NANO_IP_OAL_TIMER_OS_LESS_Task`. -/
def timerTask (callbacks : Callbacks n) (fuel : Nat) (s : Timers n) (currentTime : BitVec 32) :
    Option (Timers n × List (Call n)) :=
  taskLoop callbacks currentTime fuel s.list s

section Loop

variable {callbacks : Callbacks n} {time : BitVec 32} {fuel : Nat} {s : Timers n} {t : Fin n}

theorem taskLoop_none : taskLoop callbacks time fuel none s = some (s, []) := by
  cases fuel <;> rfl

theorem taskLoop_due (h : (s.mem t).dueTime = time) :
    taskLoop callbacks time (fuel + 1) (some t) s =
    (taskLoop callbacks time fuel ((s.callBack callbacks t).next t) (s.callBack callbacks t)).map
      fun x =>
      (x.1, ⟨t, s⟩ :: x.2) := if_pos h

theorem taskLoop_passed (h : (s.mem t).dueTime ≠ time) :
    taskLoop callbacks time (fuel + 1) (some t) s = taskLoop callbacks time fuel (s.next t) s :=
      if_neg h

end Loop

/-- The list holds the timers that are started, each once. -/
structure Timers.Holds (s : Timers n) (l : List (Fin n)) : Prop where
  linked : Lib.Linked s.next s.list l
  nodup : l.Nodup
  on : ∀ t ∈ l, (s.mem t).period ≠ 0#32
  off : ∀ t ∉ l, (s.mem t).period = 0#32 ∧ (s.mem t).dueTime = 0#32

section Effects

variable {s : Timers n} {l : List (Fin n)} {t u : Fin n} {period : BitVec 32}

theorem created_holds : (created : Timers n).Holds [] where
  linked := rfl
  nodup := List.nodup_nil
  on _ ht := absurd ht List.not_mem_nil
  off _ _ := ⟨rfl, rfl⟩

theorem Timers.Holds.started_iff (h : s.Holds l) : t ∈ l ↔ (s.mem t).period ≠ 0#32 :=
  ⟨h.on t, fun hne => by_contra fun ht => hne (h.off t ht).1⟩

theorem Timers.Holds.cells (h : s.Holds l) : s.cells = l :=
  h.linked.chain_eq (by simpa using h.nodup.length_le_card)

/-- A timer that is not started is put at the head of the list. -/
theorem timerStart_started (h : s.Holds l) (msCounter : BitVec 32) (ht : t ∉ l)
    (hp : period ≠ 0#32) :
    timerStart s msCounter t period =
        (.success, ⟨some t, Function.update s.mem t ⟨period, msCounter + period, s.list⟩⟩) ∧
      (timerStart s msCounter t period).2.Holds (t :: l) := by
  have heq : timerStart s msCounter t period =
      (.success, ⟨some t, Function.update s.mem t ⟨period, msCounter + period, s.list⟩⟩) :=
    if_pos ⟨(h.off t ht).1, (h.off t ht).2, hp⟩
  refine ⟨heq, ?_⟩
  rw [heq]
  have hnext : (⟨some t, Function.update s.mem t ⟨period, msCounter + period, s.list⟩⟩ : Timers
    n).next =
      Function.update s.next t s.list := by
    funext u
    by_cases hu : u = t
    · subst hu
      simp [Timers.next]
    · simp [Timers.next, hu]
  refine ⟨by rw [hnext]; exact h.linked.push ht, List.nodup_cons.mpr ⟨ht, h.nodup⟩, ?_, ?_⟩
  · intro u hu
    by_cases heq : u = t
    · subst heq
      simpa using hp
    · simpa [heq] using h.on u ((List.mem_cons.mp hu).resolve_left heq)
  · intro u hu
    rw [List.mem_cons, not_or] at hu
    simpa [hu.1] using h.off u hu.2

theorem timerStart_refused (h : s.Holds l) (msCounter : BitVec 32) (ht : t ∈ l ∨ period = 0#32) :
    timerStart s msCounter t period = (.invalidArg, s) := by
  refine if_neg fun hc => ?_
  rcases ht with ht | ht
  · exact h.on t ht hc.1
  · exact hc.2.2 ht

/-- Bypassing a timer changes a pointer of another one, its predecessor. -/
theorem bypass_mem {prev : Option (Fin n)} (hfind : Lib.findPrev t none l = some prev) :
    (s.bypass t prev).mem t = s.mem t ∧ ∀ u, u ≠ t →
      ((s.bypass t prev).mem u).period = (s.mem u).period ∧
        ((s.bypass t prev).mem u).dueTime = (s.mem u).dueTime := by
  cases prev with
  | none => exact ⟨rfl, fun u _ => ⟨rfl, rfl⟩⟩
  | some previous =>
    have hne : t ≠ previous := by
      rcases Lib.findPrev_some hfind with ⟨_, _, hnone⟩ | ⟨pre, p, post, _, hsome, hmem⟩
      · cases hnone
      · obtain rfl := Option.some.inj hsome
        rintro rfl
        exact hmem (List.mem_append_right _ List.mem_cons_self)
    refine ⟨Function.update_of_ne hne _ _, fun u _ => ?_⟩
    by_cases hu : u = previous
    · subst hu
      simp [Timers.bypass]
    · simp [Timers.bypass, hu]

theorem bypass_unlink {prev : Option (Fin n)} (hfind : Lib.findPrev t none l = some prev) :
    (s.bypass t prev).next = (Lib.unlink s.next s.list t l).2 ∧
      (s.bypass t prev).list = (Lib.unlink s.next s.list t l).1 := by
  rw [Lib.unlink, hfind]
  cases prev with
  | none => exact ⟨rfl, rfl⟩
  | some previous =>
    refine ⟨funext fun u => ?_, rfl⟩
    by_cases hu : u = previous
    · subst hu
      simp [Timers.bypass, Timers.next]
    · simp [Timers.bypass, Timers.next, hu]

/-- A timer that is started is taken out of the list, and keeps its pointer. -/
theorem timerStop_stopped (h : s.Holds l) (ht : t ∈ l) : ∃ s', timerStop s t = (.success, s') ∧
    s'.Holds (l.erase t) ∧ s'.mem t = ⟨0#32, 0#32, s.next t⟩ ∧
    (∀ u, u ≠ t → (s'.mem u).period = (s.mem u).period ∧ (s'.mem u).dueTime = (s.mem u).dueTime) ∧
    ∀ u ∉ l, s'.next u = s.next u := by
  cases hfind : Lib.findPrev t none l with
  | none => exact absurd ht (Lib.findPrev_none.mp hfind)
  | some prev =>
    let s' : Timers n := { s.bypass t prev with
      mem := Function.update (s.bypass t prev).mem t { (s.bypass t prev).mem t with period := 0#32, dueTime := 0#32 } }
    have hstop : timerStop s t = (.success, s') := by
      rw [timerStop, if_pos (h.on t ht), h.cells, hfind]
    have hbypass := bypass_mem (s := s) hfind
    have hunlink := bypass_unlink (s := s) hfind
    have hself : s'.mem t = ⟨0#32, 0#32, s.next t⟩ := by
      simp [s', hbypass.1, Timers.next]
    have hothers : ∀ u, u ≠ t → (s'.mem u).period = (s.mem u).period ∧ (s'.mem u).dueTime =
        (s.mem u).dueTime := by
      intro u hu
      have hmem : s'.mem u = (s.bypass t prev).mem u := Function.update_of_ne hu _ _
      rw [hmem]
      exact hbypass.2 u hu
    have hnext : s'.next = (Lib.unlink s.next s.list t l).2 := by
      rw [← hunlink.1]
      funext u
      by_cases hu : u = t
      · subst hu
        simp [s', Timers.next]
      · simp [s', Timers.next, hu]
    have hlist : s'.list = (Lib.unlink s.next s.list t l).1 := hunlink.2
    refine ⟨s', hstop, ⟨?_, h.nodup.erase t, ?_, ?_⟩, hself, hothers, fun u hu => ?_⟩
    · rw [hnext, hlist]
      exact h.linked.unlink t h.nodup
    · intro u hu
      obtain ⟨hne, hmem⟩ := (h.nodup.mem_erase_iff).mp hu
      rw [(hothers u hne).1]
      exact h.on u hmem
    · intro u hu
      by_cases hne : u = t
      · subst hne
        rw [hself]
        exact ⟨rfl, rfl⟩
      · rw [(hothers u hne).1, (hothers u hne).2]
        exact h.off u fun hmem => hu ((h.nodup.mem_erase_iff).mpr ⟨hne, hmem⟩)
    · rw [hnext]
      exact Lib.unlink_frame s.next s.list t hu

@[simp] theorem Timers.advance_next : (s.advance t).next = s.next := by
  funext u
  by_cases hu : u = t
  · subst hu
    simp [Timers.advance, Timers.next]
  · simp [Timers.advance, Timers.next, hu]

theorem Timers.advance_period (u : Fin n) : ((s.advance t).mem u).period = (s.mem u).period := by
  by_cases hu : u = t
  · subst hu
    simp [Timers.advance]
  · simp [Timers.advance, hu]

theorem Timers.advance_dueTime (u : Fin n) : ((s.advance t).mem u).dueTime =
    if u = t then (s.mem t).dueTime + (s.mem t).period else (s.mem u).dueTime := by
  by_cases hu : u = t
  · subst hu
    simp [Timers.advance]
  · simp [Timers.advance, hu]

/-- The update behind a callback leaves the list as it is, and a timer that was stopped too. -/
theorem Timers.Holds.advance (h : s.Holds l) (t : Fin n) : (s.advance t).Holds l where
  linked := by
    rw [advance_next]
    exact h.linked
  nodup := h.nodup
  on u hu := by
    rw [advance_period]
    exact h.on u hu
  off u hu := by
    obtain ⟨hperiod, hdue⟩ := h.off u hu
    rw [advance_period, advance_dueTime]
    refine ⟨hperiod, ?_⟩
    split_ifs with heq
    · subst heq
      rw [hperiod, hdue]
      rfl
    · exact hdue

theorem timerStop_refused (h : s.Holds l) (ht : t ∉ l) : timerStop s t = (.invalidArg, s) :=
  if_neg fun hne => hne (h.off t ht).1

end Effects

end NanoIp.Oal
