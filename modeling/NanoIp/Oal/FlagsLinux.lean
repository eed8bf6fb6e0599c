import NanoIp.Core.Types
import Mathlib.Data.List.Infix

/-!
# Waiting for flags on Linux

`nano_ip_oal_flags_linux.c`: a task waits on a condition variable until one of its flags is set,
at most until a time that is computed from the clock and the timeout. The nanoseconds are carried
into the seconds as if a second had a million of them, so the wait ends as it should only if a
flag is set in time, or if there is nothing to carry.
-/
namespace NanoIp.Oal

/-- `struct timespec`. -/
structure Timespec where
  sec : Nat
  nsec : Nat
  deriving DecidableEq

def Timespec.ns (t : Timespec) : Nat := t.sec * 1000000000 + t.nsec

/-- `NANO_IP_OAL_FLAGS_Reset`. -/
def flagsReset (flags flagMask : BitVec 32) : BitVec 32 := flags &&& ~~~flagMask

/-- `NANO_IP_OAL_FLAGS_Set`. -/
def flagsSet (flags flagMask : BitVec 32) : BitVec 32 := flags ||| flagMask

/-- The flags that `NANO_IP_OAL_FLAGS_Wait` finds with `reset_flags`, and those it leaves, when
some of the mask are set. -/
def flagsTaken (flags flagMask : BitVec 32) : Option (BitVec 32 × BitVec 32) :=
  let activeFlags := flags &&& flagMask
  if activeFlags = 0#32 then none else some (activeFlags, flagsReset flags activeFlags)

def anyFlag (flags flagMask : BitVec 32) : Bool := flags &&& flagMask ≠ 0#32

theorem anyFlag_or (flags first second : BitVec 32) :
    anyFlag flags (first ||| second) = (anyFlag flags first || anyFlag flags second) := by
  have hor : flags &&& (first ||| second) = flags &&& first ||| flags &&& second := by
    rw [BitVec.and_comm, BitVec.and_or_distrib_right, BitVec.and_comm, BitVec.and_comm second]
  have hzero : flags &&& first ||| flags &&& second = 0#32 ↔ flags &&& first = 0#32 ∧
    flags &&& second = 0#32 :=
    BitVec.or_eq_zero_iff
  rw [anyFlag, anyFlag, anyFlag, hor, ← Bool.decide_or, decide_eq_decide, Ne, hzero, not_and_or]

theorem anyFlag_set (flags flagMask other : BitVec 32) :
    anyFlag (flagsSet flags flagMask) other = (anyFlag flags other || anyFlag flagMask other) := by
  have hor : flagsSet flags flagMask &&& other = flags &&& other ||| flagMask &&& other :=
    BitVec.and_or_distrib_right
  rw [anyFlag, anyFlag, anyFlag, hor]
  by_cases hflags : flags &&& other = 0#32
  · rw [hflags, BitVec.zero_or]
    simp
  · simp [BitVec.or_eq_zero_iff, hflags]

theorem flagsTaken_some {flags flagMask : BitVec 32} {taken : BitVec 32 × BitVec 32}
    (h : flagsTaken flags flagMask = some taken) :
    anyFlag flags flagMask = true ∧
      (∀ other, anyFlag taken.1 other = anyFlag flags (flagMask &&& other)) ∧
      ∀ other, anyFlag taken.2 other = anyFlag flags (~~~flagMask &&& other) := by
  unfold flagsTaken at h
  simp only at h
  split_ifs at h with hzero
  obtain rfl := Option.some.inj h
  have hreset : flagsReset flags (flags &&& flagMask) = flags &&& ~~~flagMask := by
    rw [flagsReset, BitVec.not_and, BitVec.and_or_distrib_left, BitVec.and_not_self]
    exact BitVec.zero_or
  refine ⟨decide_eq_true hzero, fun other => ?_, fun other => ?_⟩
  · rw [anyFlag, anyFlag, BitVec.and_assoc]
  · rw [anyFlag, anyFlag, hreset, BitVec.and_assoc]

theorem flagsTaken_none {flags flagMask : BitVec 32} (h : flagsTaken flags flagMask = none) :
    anyFlag flags flagMask = false := by
  unfold flagsTaken at h
  simp only at h
  split_ifs at h with hzero
  exact decide_eq_false (not_not_intro hzero)

/-- What other tasks do with the flags meanwhile, or a wake-up for no reason. -/
inductive Signal where
  | set (flagMask : BitVec 32)
  | reset (flagMask : BitVec 32)
  | spurious
  deriving DecidableEq

/-- When it happens, in nanoseconds. -/
structure Event where
  time : Nat
  signal : Signal
  deriving DecidableEq

/-- The flags behind an event. -/
def Event.flags (e : Event) (flags : BitVec 32) : BitVec 32 :=
  match e.signal with
  | .set flagMask => flagsSet flags flagMask
  | .reset flagMask => flagsReset flags flagMask
  | .spurious => flags

/-- A reset does not broadcast on the condition variable. -/
def Event.wakes (e : Event) : Bool :=
  match e.signal with
  | .reset _ => false
  | .set _ | .spurious => true

/-- A task that waits: the time, the flags, and what is still to happen. -/
structure Waiter where
  time : Nat
  flags : BitVec 32
  events : List Event

/-- The task is blocked until it is woken up, at the latest at this time. -/
def blocked (deadline : Nat) (flags : BitVec 32) : List Event → Bool × Waiter
  | [] => (false, ⟨deadline, flags, []⟩)
  | e :: events =>
    if e.time < deadline then
      if e.wakes then (true, ⟨e.time, e.flags flags, events⟩) else blocked deadline
        (e.flags flags) events
    else (false, ⟨deadline, flags, e :: events⟩)

/-- `pthread_cond_timedwait`, and whether it returns zero. -/
def condTimedwait (abstime : Timespec) (w : Waiter) : Bool × Waiter :=
  if abstime.nsec < 1000000000 then blocked abstime.ns w.flags w.events else (false, w)

/-- The absolute time up to which `NANO_IP_OAL_FLAGS_Wait` waits. -/
def Timespec.after (now : Timespec) (timeout : BitVec 32) : Timespec :=
  let sec := now.sec + (timeout / 1000#32).toNat
  let nsec := now.nsec + (timeout % 1000#32 * 1000000#32).toNat
  ⟨sec + nsec / 1000000, nsec % 1000000⟩

/-- The loop of `NANO_IP_OAL_FLAGS_Wait`, for at most `fuel` wake-ups. -/
def waitLoop (abstimeout : Timespec) (flagMask : BitVec 32) :
    Nat → Waiter → Option (Err × BitVec 32 × Waiter)
  | 0, _ => none
  | fuel + 1, w =>
    let activeFlags := w.flags &&& flagMask
    if activeFlags = 0#32 then
      let wait := condTimedwait abstimeout w
      if wait.1 then waitLoop abstimeout flagMask fuel wait.2 else some
        (.timeout, activeFlags, wait.2)
    else some (.success, activeFlags, w)

/-- What is returned and written to the mask, the flags behind it, and when. -/
structure Waited where
  err : Err
  flagMask : BitVec 32
  flags : BitVec 32
  time : Nat
  deriving DecidableEq

/-- The end of `NANO_IP_OAL_FLAGS_Wait`. -/
def waited (resetFlags : Bool) (x : Err × BitVec 32 × Waiter) : Waited :=
  ⟨x.1, x.2.1, if x.1 = .success ∧
    resetFlags then flagsReset x.2.2.flags x.2.1 else x.2.2.flags, x.2.2.time⟩

/-- `NANO_IP_OAL_FLAGS_Wait`. -/
def flagsWait (fuel : Nat) (now : Timespec) (timeout flagMask : BitVec 32) (resetFlags : Bool)
    (flags : BitVec 32) (events : List Event) : Option Waited :=
  (waitLoop (now.after timeout) flagMask fuel ⟨now.ns, flags, events⟩).map (waited resetFlags)

section Asked

def flagsAfter (flags : BitVec 32) (events : List Event) : BitVec 32 :=
  events.foldl (fun flags e => e.flags flags) flags

def firstSet (flagMask flags : BitVec 32) (events : List Event) : Option (List Event) :=
  events.inits.find? fun pre => flagsAfter flags pre &&& flagMask ≠ 0#32

def eventsBefore (deadline : Nat) (events : List Event) : List Event :=
  events.takeWhile fun e => e.time < deadline

/-- What is asked for: a wait until a flag is set, or until the time has come. -/
def waitUntil (deadline : Nat) (flagMask : BitVec 32) (resetFlags : Bool) (now : Nat)
    (flags : BitVec 32) (events : List Event) : Waited :=
  let seen := eventsBefore deadline events
  match firstSet flagMask flags seen with
  | some pre =>
    let active := flagsAfter flags pre &&& flagMask
    ⟨.success, active, if resetFlags then flagsAfter flags pre &&& ~~~active
      else flagsAfter flags pre,
      pre.foldl (fun _ e => e.time) now⟩
  | none => ⟨.timeout, 0#32, flagsAfter flags seen, deadline⟩

/-- One of the flags is set before a time. -/
def SetBefore (deadline : Nat) (flagMask flags : BitVec 32) (events : List Event) : Prop :=
  ∃ pre, pre <+: eventsBefore deadline events ∧ flagsAfter flags pre &&& flagMask ≠ 0#32

end Asked

section Wait

variable {abstime : Timespec} {deadline deadline' now : Nat} {flagMask flags : BitVec 32}
  {resetFlags : Bool}
  {e : Event} {events pre : List Event}

theorem firstSet_set (h : flags &&& flagMask ≠ 0#32) (events : List Event) :
    firstSet flagMask flags events = some [] := by
  cases events <;> simp [firstSet, flagsAfter, h]

theorem firstSet_nil (h : flags &&& flagMask = 0#32) : firstSet flagMask flags [] = none := by
  simp [firstSet, flagsAfter, h]

theorem firstSet_cons (h : flags &&& flagMask = 0#32) (e : Event) (events : List Event) :
    firstSet flagMask flags (e :: events) = (firstSet flagMask (e.flags flags) events).map
      (e :: ·) := by
  rw [firstSet, List.inits_cons, List.find?_cons_of_neg (by simp [flagsAfter, h]), List.find?_map]
  rfl

theorem setBefore_iff : SetBefore deadline flagMask flags events ↔
    (firstSet flagMask flags (eventsBefore deadline events)).isSome := by
  rw [firstSet, List.find?_isSome]
  simp only [List.mem_inits, decide_eq_true_eq, SetBefore]

theorem eventsBefore_late (h : ¬ e.time < deadline) : eventsBefore deadline (e :: events) = [] :=
  List.takeWhile_cons_of_neg (by simpa using h)

theorem eventsBefore_cons (h : e.time < deadline) :
    eventsBefore deadline (e :: events) = e :: eventsBefore deadline events :=
  List.takeWhile_cons_of_pos (by simpa using h)

theorem waitUntil_set (h : flags &&& flagMask ≠ 0#32) :
    waitUntil deadline flagMask resetFlags now flags events =
      waited resetFlags (.success, flags &&& flagMask, ⟨now, flags, events⟩) := by
  rw [waitUntil, firstSet_set h]
  simp [waited, flagsAfter, flagsReset]

theorem waitUntil_late (h : flags &&& flagMask = 0#32) (hlate : eventsBefore deadline events = []) :
    waitUntil deadline flagMask resetFlags now flags events =
      waited resetFlags (.timeout, flags &&& flagMask, ⟨deadline, flags, events⟩) := by
  rw [waitUntil, hlate, firstSet_nil h, h]
  simp [waited, flagsAfter]

theorem waitUntil_cons (h : flags &&& flagMask = 0#32) (he : e.time < deadline) :
    waitUntil deadline flagMask resetFlags now flags (e :: events) =
      waitUntil deadline flagMask resetFlags e.time (e.flags flags) events := by
  rw [waitUntil, waitUntil, eventsBefore_cons he, firstSet_cons h]
  cases firstSet flagMask (e.flags flags) (eventsBefore deadline events) <;> rfl

theorem reset_active (h : flags &&& flagMask = 0#32) (hwakes : e.wakes = false) :
    e.flags flags &&& flagMask = 0#32 := by
  obtain ⟨time, signal⟩ := e
  cases signal with
  | set mask => cases hwakes
  | spurious => cases hwakes
  | reset mask =>
    calc flags &&& ~~~mask &&& flagMask = flags &&& flagMask &&& ~~~mask := by
          rw [BitVec.and_assoc, BitVec.and_comm (~~~mask), BitVec.and_assoc]
      _ = 0#32 := by rw [h, BitVec.zero_and]

theorem condTimedwait_normal (h : abstime.nsec < 1000000000) (w : Waiter) :
    condTimedwait abstime w = blocked abstime.ns w.flags w.events := if_pos h

theorem blocked_late (h : eventsBefore deadline events = []) :
    blocked deadline flags events = (false, ⟨deadline, flags, events⟩) := by
  cases events with
  | nil => rfl
  | cons e events =>
    refine if_neg fun he => ?_
    rw [eventsBefore_cons he] at h
    cases h

theorem blocked_woken (he : e.time < deadline) (hwakes : e.wakes = true) :
    blocked deadline flags (e :: events) = (true, ⟨e.time, e.flags flags, events⟩) := by
  rw [blocked, if_pos he, if_pos hwakes]

theorem blocked_on (he : e.time < deadline) (hwakes : e.wakes = false) :
    blocked deadline flags (e :: events) = blocked deadline (e.flags flags) events := by
  rw [blocked, if_pos he, if_neg (by simp [hwakes])]

theorem waitLoop_set {w : Waiter} (h : w.flags &&& flagMask ≠ 0#32) (fuel : Nat) :
    waitLoop abstime flagMask (fuel + 1) w = some (.success, w.flags &&& flagMask, w) := if_neg h

theorem waitLoop_wait {w : Waiter} (h : w.flags &&& flagMask = 0#32) (fuel : Nat) :
    waitLoop abstime flagMask (fuel + 1) w =
      if (condTimedwait abstime w).1 then waitLoop abstime flagMask fuel (condTimedwait abstime w).2
      else some (.timeout, w.flags &&& flagMask, (condTimedwait abstime w).2) := if_pos h

/-- The loop waits as asked for, up to the time that it is given. -/
theorem waitLoop_waits (hnormal : abstime.nsec < 1000000000) {fuel : Nat}
    (hfuel : events.length < fuel) :
    (waitLoop abstime flagMask fuel ⟨now, flags, events⟩).map (waited resetFlags) =
      some (waitUntil abstime.ns flagMask resetFlags now flags events) := by
  induction events generalizing now flags fuel with
  | nil =>
    obtain ⟨fuel, rfl⟩ : ∃ k, fuel = k + 1 := Nat.exists_eq_succ_of_ne_zero (by omega)
    by_cases h : flags &&& flagMask = 0#32
    · rw [waitUntil_late h rfl, waitLoop_wait (by exact h), condTimedwait_normal hnormal]
      rfl
    · rw [waitUntil_set h, waitLoop_set (by exact h)]
      rfl
  | cons e events ih =>
    obtain ⟨fuel, rfl⟩ : ∃ k, fuel = k + 1 := Nat.exists_eq_succ_of_ne_zero (by omega)
    rw [List.length_cons] at hfuel
    by_cases h : flags &&& flagMask = 0#32
    · by_cases he : e.time < abstime.ns
      · rw [waitUntil_cons h he]
        cases hwakes : e.wakes with
        | true =>
          rw [waitLoop_wait (by exact h), condTimedwait_normal hnormal,
            blocked_woken he hwakes, if_pos rfl]
          exact ih (by omega)
        | false =>
          -- the task sleeps on, as if it had begun to wait behind the reset
          have hactive := reset_active h hwakes
          have hlater : (waitLoop abstime flagMask (fuel + 1) ⟨e.time, e.flags flags, events⟩).map
            (waited resetFlags) =
              some (waitUntil abstime.ns flagMask resetFlags e.time (e.flags flags) events) :=
                ih (by omega)
          rw [← hlater, waitLoop_wait (by exact h), waitLoop_wait (by exact hactive),
            condTimedwait_normal hnormal, condTimedwait_normal hnormal, blocked_on he hwakes]
          dsimp only
          rw [h, hactive]
      · rw [waitUntil_late h (eventsBefore_late he), waitLoop_wait (by exact h),
          condTimedwait_normal hnormal,
          blocked_late (eventsBefore_late he)]
        rfl
    · rw [waitUntil_set h, waitLoop_set (by exact h)]
      rfl

/-- A flag that is set before one time is the first that is set before a later one. -/
theorem firstSet_later (hle : deadline ≤ deadline')
    (h : firstSet flagMask flags (eventsBefore deadline events) = some pre) :
    firstSet flagMask flags (eventsBefore deadline' events) = some pre := by
  induction events generalizing flags pre with
  | nil => exact h
  | cons e events ih =>
    by_cases hset : flags &&& flagMask = 0#32
    · by_cases he : e.time < deadline
      · rw [eventsBefore_cons he, firstSet_cons hset] at h
        rw [eventsBefore_cons (Nat.lt_of_lt_of_le he hle), firstSet_cons hset]
        obtain ⟨pre', hpre, rfl⟩ := Option.map_eq_some_iff.mp h
        rw [ih hpre]
        rfl
      · rw [eventsBefore_late he, firstSet_nil hset] at h
        cases h
    · rw [firstSet_set hset] at h ⊢
      exact h

/-- So two waits up to different times are the same exactly if a flag is set before the first. -/
theorem waitUntil_eq_iff (hle : deadline ≤ deadline') :
    waitUntil deadline' flagMask resetFlags now flags events =
      waitUntil deadline flagMask resetFlags now flags events ↔
      SetBefore deadline flagMask flags events ∨ deadline' = deadline := by
  rw [setBefore_iff]
  cases hfirst : firstSet flagMask flags (eventsBefore deadline events) with
  | some pre =>
    rw [waitUntil, waitUntil, hfirst, firstSet_later hle hfirst]
    exact ⟨fun _ => .inl rfl, fun _ => rfl⟩
  | none =>
    refine ⟨fun heq => .inr ?_, ?_⟩
    · rw [waitUntil, waitUntil, hfirst] at heq
      cases hfirst' : firstSet flagMask flags (eventsBefore deadline' events) with
      | some pre =>
        rw [hfirst'] at heq
        cases congrArg Waited.err heq
      | none =>
        rw [hfirst'] at heq
        exact congrArg Waited.time heq
    · rintro (hsome | rfl)
      · cases hsome
      · rfl

end Wait

section Deadline

variable (now : Timespec) (timeout : BitVec 32)

theorem after_ns : (now.after timeout).ns = now.ns + timeout.toNat * 1000000 +
    (now.nsec + timeout.toNat % 1000 * 1000000) / 1000000 * 999000000 := by
  have hrest : (timeout % 1000#32 * 1000000#32).toNat = timeout.toNat % 1000 * 1000000 := by
    rw [BitVec.toNat_mul, BitVec.toNat_umod]
    exact Nat.mod_eq_of_lt (by simp; omega)
  have hsec : (timeout / 1000#32).toNat = timeout.toNat / 1000 := rfl
  rw [Timespec.after, hrest, hsec, Timespec.ns, Timespec.ns]
  dsimp only
  omega

theorem after_normal : (now.after timeout).nsec < 1000000000 := by
  refine Nat.lt_trans (Nat.mod_lt _ ?_) ?_
  · decide
  · decide

theorem after_eq_iff : (now.after timeout).ns = now.ns + timeout.toNat * 1000000 ↔
    timeout.toNat % 1000 = 0 ∧ now.nsec < 1000000 := by
  rw [after_ns]
  omega

/-- A wait ends with the flags that were set, or when the timeout has passed, if and only if one is
set before, or the timeout is in whole seconds and the clock within the first millisecond of one. -/
theorem flagsWait_waits_iff (flagMask : BitVec 32) (resetFlags : Bool) (flags : BitVec 32)
    (events : List Event) :
    (now.after timeout).nsec < 1000000000 ∧
    ((now.after timeout).ns = now.ns + timeout.toNat * 1000000 ↔ timeout.toNat % 1000 = 0 ∧
      now.nsec < 1000000) ∧
    ∃ r, (∀ k, flagsWait (events.length + 1 + k) now timeout flagMask resetFlags flags
      events = some r) ∧
      (r = waitUntil (now.ns + timeout.toNat * 1000000) flagMask resetFlags now.ns flags events ↔
        SetBefore (now.ns + timeout.toNat * 1000000) flagMask flags events ∨
          timeout.toNat % 1000 = 0 ∧ now.nsec < 1000000) := by
  have hnormal := after_normal now timeout
  refine ⟨hnormal, after_eq_iff now timeout, _, fun k => waitLoop_waits hnormal (by omega), ?_⟩
  have hle : now.ns + timeout.toNat * 1000000 ≤ (now.after timeout).ns := by
    rw [after_ns]
    exact Nat.le_add_right _ _
  rw [waitUntil_eq_iff hle, after_eq_iff]

end Deadline

/-- A wait for 1 ms at the beginning of a second: it lasts the whole second, and returns a flag that
is set in its middle. -/
theorem waits_a_second : flagsWait 2 ⟨0, 0⟩ 1#32 1#32 true 0#32 [⟨500000000, .set 1#32⟩] =
    some ⟨.success, 1#32, 0#32, 500000000⟩ ∧
    waitUntil 1000000 1#32 true 0 0#32 [⟨500000000, .set 1#32⟩] =
      ⟨.timeout, 0#32, 0#32, 1000000⟩ := by decide

end NanoIp.Oal
