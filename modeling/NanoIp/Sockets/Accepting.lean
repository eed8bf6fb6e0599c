import NanoIp.Sockets.Machine
import NanoIp.Sockets.Send

/-!
# The loop of Accept

`NANO_IP_SOCKET_Accept` waits again whatever its wait returned: the result of a wait is
overwritten by the next turn of the loop, which reads the socket even if it was released. The call
stops on an error only as far as no wait ends in one before a connection is pending or the socket
no longer blocks.
-/
namespace NanoIp.Sockets

variable {n k : Nat}

/-- How a wait of the call ends: its result and the flags it returns, and the module as the call
finds it when it has the stack mutex again. No layer answers a wait with `NIP_ERR_IN_PROGRESS`. -/
structure AcceptWait (n k : Nat) where
  ret : Err
  active : BitVec 32
  module : Module n k
  ended : ret ≠ .inProgress

/-- `ret` once the events are checked. -/
def AcceptWait.result (w : AcceptWait n k) (i : Fin n) : Err :=
  Wait.result ⟨w.ret, w.active, (w.module.sockets i).isFree⟩

theorem AcceptWait.result_ended (w : AcceptWait n k) (i : Fin n) : w.result i ≠ .inProgress := by
  unfold result Wait.result
  split_ifs
  · nofun
  · nofun
  · exact w.ended

/-- A call that returned: the waits it made, the turns of its loop, and what it returned. -/
structure AcceptCall (n : Nat) where
  waits : Nat
  turns : Nat
  accepted : Accepted n

/-- The loop of `NANO_IP_SOCKET_Accept` from its `j`-th wait on, for at most `fuel` turns. -/
def acceptLoop (i : Fin n) (waits : Nat → AcceptWait n k) :
    Nat → Nat → Module n k → Option (AcceptCall n)
  | 0, _, _ => none
  | fuel + 1, j, m =>
    match (acceptTurn m i).2 with
    | .returns a => some ⟨j, j + 1, a⟩
    | .waits => acceptLoop i waits fuel (j + 1) (waits j).module

/-- `NANO_IP_SOCKET_Accept`, for at most `fuel` turns. -/
def acceptCall (m : Module n k) (socketId : BitVec 32) (waits : Nat → AcceptWait n k) (fuel : Nat) :
    Option (AcceptCall n) :=
  match m.get socketId with
  | none => some ⟨0, 0, ⟨.invalidArg, none⟩⟩
  | some i =>
    if (m.sockets i).type = .tcp ∧ (m.sockets i).tcp.state = .listen then
      acceptLoop i waits fuel 0 m
    else some ⟨0, 0, ⟨.invalidArg, none⟩⟩

/-- The call makes its wait `j`. -/
def ReachesWait (m : Module n k) (socketId : BitVec 32) (waits : Nat → AcceptWait n k) (j : Nat) :
    Prop :=
  ∀ fuel call, acceptCall m socketId waits fuel = some call → j < call.waits

/-- Behind the first wait that ends in an error the call returns it, and a socket that was
released is not read again. -/
def StopsOnError (m : Module n k) (socketId : BitVec 32) (i : Fin n)
    (waits : Nat → AcceptWait n k) : Prop :=
  ∀ j, ReachesWait m socketId waits j → (waits j).result i ≠ .success →
    (∀ l < j, (waits l).result i = .success) →
    ∃ fuel call, acceptCall m socketId waits fuel = some call ∧ call.waits = j + 1 ∧
      call.accepted = ⟨(waits j).result i, none⟩ ∧
      (((waits j).module.sockets i).isFree = true → call.turns = j + 1)

def Module.acceptsNow (m : Module n k) (i : Fin n) : Bool :=
  (m.sockets i).accepted.isSome || (m.sockets i).nonBlocking

/-- The module that turn `j` finds. -/
def foundAt (m : Module n k) (waits : Nat → AcceptWait n k) : Nat → Module n k
  | 0 => m
  | j + 1 => (waits j).module

section Turns

variable {m : Module n k} {i : Fin n} {waits : Nat → AcceptWait n k}

theorem acceptTurn_blocks (h : m.acceptsNow i = false) :
    acceptTurn m i = (m.resetFlags i flagsAll, .waits) := by
  obtain ⟨hnone, hblock⟩ := Bool.or_eq_false_iff.mp h
  unfold acceptTurn
  rw [Option.isSome_eq_false_iff.mp hnone |> Option.isNone_iff_eq_none.mp]
  simp [hblock]

theorem acceptTurn_returns (h : m.acceptsNow i = true) : ∃ a, (acceptTurn m i).2 = .returns a ∧
    (a.ret = .success ∧ a.client ≠ none ∨ a.ret = .inProgress) := by
  unfold acceptTurn
  cases ha : (m.sockets i).accepted with
  | some client => exact ⟨_, rfl, .inl ⟨rfl, Option.some_ne_none _⟩⟩
  | none =>
    have hblock : (m.sockets i).nonBlocking = true := by simpa [Module.acceptsNow, ha] using h
    simp only [hblock, if_true]
    exact ⟨_, rfl, .inr rfl⟩

theorem acceptLoop_turn (fuel : Nat) {j : Nat} (h : (foundAt m waits j).acceptsNow i = true) :
    ∃ a, acceptLoop i waits (fuel + 1) j (foundAt m waits j) = some ⟨j, j + 1, a⟩ ∧
      (a.ret = .success ∧ a.client ≠ none ∨ a.ret = .inProgress) := by
  obtain ⟨a, ha, hret⟩ := acceptTurn_returns h
  exact ⟨a, by rw [acceptLoop, ha], hret⟩

theorem acceptLoop_wait {fuel j : Nat} (h : (foundAt m waits j).acceptsNow i = false) :
    acceptLoop i waits (fuel + 1) j (foundAt m waits j) =
      acceptLoop i waits fuel (j + 1) (foundAt m waits (j + 1)) := by
  rw [acceptLoop, acceptTurn_blocks h]
  rfl

theorem acceptLoop_before {j l : Nat} (h : ∀ p < j, (foundAt m waits p).acceptsNow i = false)
    (hl : l ≤ j) (fuel : Nat) : acceptLoop i waits (j - l + fuel) l (foundAt m waits l) =
      acceptLoop i waits fuel j (foundAt m waits j) := by
  induction hd : j - l generalizing l with
  | zero =>
    obtain rfl : l = j := by omega
    rw [Nat.zero_add]
  | succ d ih =>
    rw [Nat.add_right_comm, acceptLoop_wait (h l (by omega))]
    exact ih (by omega) (by omega)

/-- A call that returns does so at a turn that does not wait, behind turns that all wait. -/
theorem acceptLoop_some {fuel : Nat} : ∀ {j : Nat} {call : AcceptCall n},
    acceptLoop i waits fuel j (foundAt m waits j) = some call →
      j ≤ call.waits ∧ call.turns = call.waits + 1 ∧
        (foundAt m waits call.waits).acceptsNow i = true ∧
        (∀ p, j ≤ p → p < call.waits → (foundAt m waits p).acceptsNow i = false) ∧
        (call.accepted.ret = .success ∧ call.accepted.client ≠ none ∨ call.accepted.ret =
          .inProgress) := by
  induction fuel with
  | zero => exact fun h => nomatch h
  | succ fuel ih =>
    intro j call h
    cases hnow : (foundAt m waits j).acceptsNow i with
    | true =>
      obtain ⟨a, ha, hret⟩ := acceptLoop_turn fuel hnow
      obtain rfl := Option.some.inj (ha.symm.trans h)
      exact ⟨Nat.le_refl j, rfl, hnow, fun p hp hlt => absurd hlt (Nat.not_lt.mpr hp), hret⟩
    | false =>
      rw [acceptLoop_wait hnow] at h
      obtain ⟨hle, hturns, hends, hbefore, hret⟩ := ih h
      refine ⟨by omega, hturns, hends, fun p hp hlt => ?_, hret⟩
      rcases Nat.eq_or_lt_of_le hp with rfl | hp
      · exact hnow
      · exact hbefore p hp hlt

end Turns

section Calls

variable {m : Module n k} {socketId : BitVec 32} {i : Fin n} {waits : Nat → AcceptWait n k}

theorem acceptCall_listening (waits : Nat → AcceptWait n k) (hi : m.get socketId = some i)
    (ht : (m.sockets i).type = .tcp) (hs : (m.sockets i).tcp.state = .listen) (fuel : Nat) :
    acceptCall m socketId waits fuel = acceptLoop i waits fuel 0 (foundAt m waits 0) := by
  simp [acceptCall, hi, ht, hs, foundAt]

/-- A wait is made when all the turns up to it wait. -/
theorem reachesWait_iff {j : Nat}
    (hcall : ∀ fuel, acceptCall m socketId waits fuel =
      acceptLoop i waits fuel 0 (foundAt m waits 0)) :
    ReachesWait m socketId waits j ↔ ∀ p ≤ j, (foundAt m waits p).acceptsNow i = false := by
  constructor
  · -- by strong induction: the first turn that does not wait would return
    intro hreach p
    induction p using Nat.strong_induction_on with
    | _ p ih =>
      intro hp
      by_contra hnow
      obtain ⟨a, ha, -⟩ := acceptLoop_turn 0 (by simpa using hnow)
      have hbefore := acceptLoop_before (l := 0) (fun l hl => ih l hl (by omega))
        (Nat.zero_le p) (0 + 1)
      have hless := hreach (p - 0 + (0 + 1)) ⟨p, p + 1, a⟩ (by rw [hcall, hbefore, ha])
      exact absurd hless (Nat.not_lt.mpr hp)
  · intro hall fuel call h
    rw [hcall] at h
    obtain ⟨-, -, hends, -⟩ := acceptLoop_some h
    by_contra hle
    rw [hall call.waits (by omega)] at hends
    cases hends

/-- The call stops on an error exactly when every wait that ends in one comes behind a turn that
did not wait: a connection was pending before, or the socket no longer blocked. -/
theorem acceptStops_iff (hi : m.get socketId = some i) (ht : (m.sockets i).type = .tcp)
    (hs : (m.sockets i).tcp.state = .listen) : StopsOnError m socketId i waits ↔
      ∀ j, (waits j).result i ≠ .success → ∃ p ≤ j, (foundAt m waits p).acceptsNow i = true := by
  have hcall := acceptCall_listening waits hi ht hs
  constructor
  · intro hstops j
    -- the first wait that ends in an error is reached whenever a later one is
    induction j using Nat.strong_induction_on with
    | _ j ih =>
      intro herror
      by_cases hearlier : ∃ l < j, (waits l).result i ≠ .success
      · obtain ⟨l, hl, hbad⟩ := hearlier
        obtain ⟨p, hp, hnow⟩ := ih l hl hbad
        exact ⟨p, by omega, hnow⟩
      · push Not at hearlier
        by_contra hnone
        push Not at hnone
        have hall : ∀ p ≤ j, (foundAt m waits p).acceptsNow i = false := by simpa using hnone
        obtain ⟨fuel, call, hreturns, hwaits, haccepted, -⟩ :=
          hstops j ((reachesWait_iff hcall).mpr hall) herror hearlier
        rw [hcall] at hreturns
        obtain ⟨-, -, -, -, hret⟩ := acceptLoop_some hreturns
        rw [haccepted] at hret
        rcases hret with ⟨-, hclient⟩ | hret
        · exact hclient rfl
        · exact (waits j).result_ended i hret
  · intro hready j hreach herror _
    obtain ⟨p, hp, hnow⟩ := hready j herror
    rw [(reachesWait_iff hcall).mp hreach p hp] at hnow
    cases hnow

end Calls

section OsLess

/-- `NANO_IP_OAL_FLAGS_Wait` of the layer without an operating system, on the flags of a socket:
it looks at the flags once. -/
def osLessWait (m : Module n k) (i : Fin n) : AcceptWait n k :=
  let active := (m.sockets i).syncFlags &&& acceptMask
  if active = 0#32 then ⟨.timeout, active, m, nofun⟩ else
    ⟨.success, active, m.resetFlags i active, nofun⟩

/-- The waits of a call under that layer while nothing else runs. -/
def osLessWaits (m : Module n k) (i : Fin n) : Nat → AcceptWait n k
  | 0 => osLessWait (acceptTurn m i).1 i
  | j + 1 => osLessWait (acceptTurn (osLessWaits m i j).module i).1 i

variable {m : Module n k} {i : Fin n}

theorem osLessWait_blocked (h : m.acceptsNow i = false) :
    (osLessWait (acceptTurn m i).1 i).module.acceptsNow i = false ∧
      (osLessWait (acceptTurn m i).1 i).ret = .timeout := by
  rw [acceptTurn_blocks h]
  have hflags : ((m.resetFlags i flagsAll).sockets i).syncFlags &&& acceptMask = 0#32 := by
    rw [Module.resetFlags, Module.modify_self]
    change (m.sockets i).syncFlags &&& ~~~flagsAll &&& acceptMask = 0#32
    rw [show ~~~flagsAll = 0#32 by decide, BitVec.and_zero, BitVec.zero_and]
  unfold osLessWait
  simp only [hflags, if_true, and_true]
  simpa [Module.acceptsNow, Module.resetFlags, Socket.nonBlocking] using h

/-- Without an operating system a call that finds no connection never returns. -/
theorem osLess_endless {socketId : BitVec 32} (hi : m.get socketId = some i)
    (ht : (m.sockets i).type = .tcp) (hs : (m.sockets i).tcp.state = .listen)
    (h : m.acceptsNow i = false) (fuel : Nat) :
    acceptCall m socketId (osLessWaits m i) fuel = none := by
  have hall : ∀ j, (foundAt m (osLessWaits m i) j).acceptsNow i = false := by
    intro j
    induction j with
    | zero => exact h
    | succ j ih =>
      cases j with
      | zero => exact (osLessWait_blocked h).1
      | succ j => exact (osLessWait_blocked ih).1
  cases hcall : acceptCall m socketId (osLessWaits m i) fuel with
  | none => rfl
  | some call =>
    rw [acceptCall_listening _ hi ht hs] at hcall
    obtain ⟨-, -, hends, -⟩ := acceptLoop_some hcall
    rw [hall] at hends
    cases hends

end OsLess

def listeningModule : Module 2 1 := (listen (allocate Module.init .tcp .success).1 0#32 1#32).1

/-- The first wait ends with a connection, and all later ones would fail. -/
def connectionFirst : Nat → AcceptWait 2 1
  | 0 => ⟨.success, eventRx,
      listeningModule.modify ⟨0, Nat.zero_lt_two⟩ fun s =>
        { s with accepted := some ⟨1, Nat.one_lt_two⟩ }, nofun⟩
  | _ + 1 => ⟨.failure, 0#32, listeningModule, nofun⟩

theorem acceptStops_iff_connection :
    StopsOnError listeningModule 0#32 ⟨0, Nat.zero_lt_two⟩ connectionFirst := by
  refine (acceptStops_iff rfl rfl rfl).mpr fun j hj => ?_
  cases j with
  | zero => exact absurd (by decide) hj
  | succ j => exact ⟨1, by omega, by decide⟩

/-- Without an operating system the wait ends with a timeout at once, and the call waits again for
ever. -/
theorem osLess_accept_endless :
    (osLessWaits listeningModule ⟨0, Nat.zero_lt_two⟩ 0).ret = .timeout ∧
    (∀ fuel, acceptCall listeningModule 0#32 (osLessWaits listeningModule ⟨0, Nat.zero_lt_two⟩)
      fuel = none) ∧
    ¬StopsOnError listeningModule 0#32 ⟨0, Nat.zero_lt_two⟩
      (osLessWaits listeningModule ⟨0, Nat.zero_lt_two⟩) := by
  have hnone : ∀ fuel, acceptCall listeningModule 0#32
      (osLessWaits listeningModule ⟨0, Nat.zero_lt_two⟩) fuel = none :=
        osLess_endless rfl rfl rfl (by decide)
  refine ⟨by decide, hnone, fun h => ?_⟩
  obtain ⟨fuel, call, hcall, -⟩ :=
    h 0 (fun fuel call hcall => by rw [hnone] at hcall; cases hcall) (by decide)
    fun l hl => absurd hl (Nat.not_lt_zero l)
  rw [hnone] at hcall
  cases hcall

end NanoIp.Sockets
