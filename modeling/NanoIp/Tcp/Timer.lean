import NanoIp.Tcp.Trace

/-!
# When a pending packet is sent again

An observer beside the module notes when `NANO_IP_TCP_SendPacket` accepted the
pending packet of one handle and at which tick it was last sent again. These
times are compared with `TCP_STATE_TIMEOUT`.
-/
namespace NanoIp.Tcp

variable {n : Nat}

/-- `TCP_STATE_TIMEOUT` and `TCP_MAX_RETRY_COUNT` as numbers. -/
def timeoutMs : Nat := stateTimeoutMs.toNat
def maxRetries : Nat := maxRetryCount.toNat

/-- A packet that was accepted and is still pending: the time when the call returned,
and the timestamp of the last tick that sent it again. -/
structure Transmission where
  sentAt : Nat
  resentAt : Option Nat
  deriving DecidableEq

def Transmission.last (s : Transmission) : Nat := s.resentAt.getD s.sentAt

/-- The timestamp of the tick that is going on. -/
def Pc.timestamp : Pc n → Nat
  | .tick _ timestamp | .inTick _ timestamp | .inTxFailed _ timestamp => timestamp.toNat
  | _ => 0

/-- The periodic task is about to look at `h`. -/
def Pc.visits (h : Fin n) : Pc n → Bool
  | .tick current _ => current = some h
  | _ => false

/-- The time that passes while an input is performed. -/
def Input.elapsed : Input n → Nat
  | .open_ _ _ readings => readings.sum
  | .connect _ _ _ lower | .close _ lower | .sendPacket _ _ lower | .rxFrame _ lower | .visit lower
  | .ret _ _ lower => lower.elapsed
  | .elapse ms => ms
  | _ => 0

/-- The step sends the pending packet of `h` again. -/
def resends (h : Fin n) (x y : Stack n × Pc n) : Bool :=
  (newEntries x y).any fun
    | .resent k _ _ => k = h
    | _ => false

/-- The step aborts the connection of `h` because its packet was not acknowledged. -/
def aborts (h : Fin n) (x y : Stack n × Pc n) : Prop :=
  (x.1.mem h).state = .established ∧ (y.1.mem h).state = .closed ∧
    (.txFailed, .timeout, none) ∈ (y.1.eventsOf h).drop (x.1.eventsOf h).length

/-- `NANO_IP_TCP_SendPacket` accepts a packet on `h`. -/
def accepts (h : Fin n) (x : Stack n × Pc n) : Input n → Bool
  | .sendPacket k pid lower => k = h && (sendPacket x.1 h pid lower).2.accepted
  | _ => false

/-- One step as the observer of handle `h` sees it. -/
def Transmission.see (h : Fin n) (s : Option Transmission) (x : Stack n × Pc n) (i : Input n)
    (y : Stack n × Pc n) : Option Transmission :=
  if accepts h x i then some ⟨y.1.time, none⟩
  else if (y.1.mem h).lastTxPacket = none then none
  else if resends h x y then s.map fun s => { s with resentAt := some x.2.timestamp }
  else s

/-- What a step may do with a packet accepted at `s.sentAt`: send it again only
`TCP_STATE_TIMEOUT` after it was sent, and give it up only after all retries. -/
structure OnTime (h : Fin n) (s : Transmission) (x y : Stack n × Pc n) : Prop where
  first : resends h x y = true → s.sentAt + timeoutMs ≤ x.2.timestamp
  apart : resends h x y = true → ∀ at_, s.resentAt = some at_ → at_ + timeoutMs ≤ x.2.timestamp
  abort : aborts h x y → s.sentAt + maxRetries * timeoutMs ≤ x.2.timestamp

/-- The timer of the pending packet of `h` has expired when the periodic task looks at it: the
packet is sent again or given up. -/
def Expired (h : Fin n) (x : Stack n × Pc n) : Prop :=
  x.2.visits h = true ∧ (x.1.mem h).state = .established ∧ (x.1.mem h).lastTxPacket.isSome = true ∧
    (x.1.mem h).stateTimeout.toNat ≤ x.2.timestamp

instance (h : Fin n) (x : Stack n × Pc n) : Decidable (Expired h x) :=
  inferInstanceAs (Decidable (_ ∧ _ ∧ _ ∧ _))

/-- The condition on a step: the timer that has expired ran for `TCP_STATE_TIMEOUT` since the
packet was last sent. -/
def RanOut (h : Fin n) (z : (Stack n × Pc n) × Option Transmission) : Prop :=
  Expired h z.1 → z.2.all (fun s => s.last + timeoutMs ≤ z.1.2.timestamp) = true

instance (h : Fin n) (z : (Stack n × Pc n) × Option Transmission) : Decidable (RanOut h z) :=
  inferInstanceAs (Decidable (_ → _))

/-- The counter does not wrap, nor do the timeouts computed from it. -/
def Unwrapped (x : Stack n × Pc n) (i : Input n) : Prop := x.1.time + i.elapsed + timeoutMs < 2 ^ 32

instance (x : Stack n × Pc n) (i : Input n) : Decidable (Unwrapped x i) :=
  inferInstanceAs (Decidable (_ < _))

section Retry

variable {x y : Stack n × Pc n} {i : Input n} {h : Fin n} {pid : PacketId} {timestamp : BitVec 32}
  {lower : Lower}

/-- A packet that is due again and not given up: its retransmission is logged, the
retry counter and the timer move on. -/
theorem Expires.again (he : Expires x i h pid timestamp lower)
    (hr : (x.1.mem h).txRetryCount + 1#8 ≠ maxRetryCount) (hs : NanoIp.Tcp.step x i = some y) :
    resends h x y = true ∧ (y.1.mem h).conn = { (x.1.mem h).conn with
      txRetryCount := (x.1.mem h).txRetryCount + 1#8
      stateTimeout := (x.1.mem h).stateTimeout + stateTimeoutMs } := by
  have hy := he.step hs
  unfold retryPacket at hy
  dsimp only at hy
  rw [Stack.modify_self, if_neg hr] at hy
  constructor
  · have hlog : ∃ ret tail, y.1.log = x.1.log ++ .resent h pid ret :: tail := by
      rw [hy]
      unfold resendPacket recordHanded
      dsimp only
      split
      · exact ⟨_, [_], List.append_assoc _ _ _⟩
      · exact ⟨_, [], rfl⟩
    obtain ⟨ret, tail, hlog⟩ := hlog
    rw [resends, newEntries, hlog, List.drop_left, List.any_cons]
    simp
  · rw [hy, (resendPacket_becomes _ h pid lower).1, Stack.modify_self]
    rfl

/-- The packet of `h` is sent again exactly at the visits where it is due and not given up. -/
theorem resends_iff (hs : step x i = some y) : resends h x y = true ↔
    ∃ pid timestamp lower, Expires x i h pid timestamp lower ∧
      (x.1.mem h).txRetryCount + 1#8 ≠ maxRetryCount := by
  constructor
  · intro hr
    obtain ⟨o, ho, hk⟩ := List.any_eq_true.mp hr
    have hmay := (step_writes hs).entries ho
    cases hmay with
    | resent k pid timestamp lower ret he hretry =>
      obtain rfl : k = h := of_decide_eq_true hk
      exact ⟨pid, timestamp, lower, he, hretry⟩
    | _ => cases hk
  · rintro ⟨pid, timestamp, lower, he, hretry⟩
    exact (he.again hretry hs).1

theorem Expires.toExpired (he : Expires x i h pid timestamp lower) : Expired h x := by
  have hpc := he.pc
  refine ⟨?_, he.state, by rw [he.pending]; rfl, ?_⟩
  · rw [hpc]
    exact decide_eq_true rfl
  · rw [hpc]
    exact BitVec.le_def.mp he.expired

/-- The only step from a visit with an expired timer. -/
theorem Expired.expires (he : Expired h x) (hs : NanoIp.Tcp.step x i = some y) :
    ∃ pid timestamp lower, Expires x i h pid timestamp lower := by
  obtain ⟨hvisits, hst, hpending, hexp⟩ := he
  obtain ⟨pid, hpid⟩ := Option.isSome_iff_exists.mp hpending
  unfold Pc.visits at hvisits
  split at hvisits
  · next current timestamp hpc =>
    obtain rfl : current = some h := of_decide_eq_true hvisits
    rw [hpc] at hexp
    cases step_move hs with
    | visit lower h' timestamp' hpc' =>
      exact ⟨pid, timestamp, lower, rfl, hpc, hst, hpid, BitVec.le_def.mpr hexp⟩
    | ret release accept lower y hr =>
      rw [hpc] at hr
      cases hr
    | call i m hc =>
      rw [hpc] at hc
      cases hc
    | visited lower timestamp' hpc' => cases hpc.symm.trans hpc'
    | rxFrame _ _ hpc' | arpResponse _ _ _ hpc' | periodicTask hpc' | releaseHandle _ _ hpc' =>
      cases hpc.symm.trans hpc'
  · cases hvisits

end Retry

/-- What the run lemma carries: every retransmission came `TCP_STATE_TIMEOUT` after the one before,
and there were as many as the retry counter says. -/
structure Timed (h : Fin n) (x : Stack n × Pc n) (s : Transmission) : Prop where
  pending : (x.1.mem h).lastTxPacket ≠ none
  retries : s.sentAt + timeoutMs * (x.1.mem h).txRetryCount.toNat ≤ s.last

section Step

variable {x y : Stack n × Pc n} {i : Input n} {h : Fin n} {s : Transmission}

theorem accepts_eq (ha : accepts h x i = true) : ∃ pid lower, i = .sendPacket h pid lower ∧
    (sendPacket x.1 h pid lower).2.accepted = true ∧ (x.1.mem h).lastTxPacket = none ∧
    (x.1.mem h).state = .established := by
  unfold accepts at ha
  split at ha
  · next k pid lower =>
    obtain ⟨hk, hacc⟩ := Bool.and_eq_true_iff.mp ha
    obtain rfl := of_decide_eq_true hk
    refine ⟨pid, lower, rfl, hacc, ?_⟩
    unfold sendPacket at hacc
    split_ifs at hacc with hl hst
    · cases hacc
    · exact ⟨Option.not_isSome_iff_eq_none.mp hl, hst⟩
    · cases hacc
  · cases ha

theorem timed_accepted (hs : step x i = some y) (ha : accepts h x i = true) :
    Timed h y ⟨y.1.time, none⟩ := by
  obtain ⟨pid, lower, rfl, -, hl, hst⟩ := accepts_eq ha
  have hy : y.1 = (sendPacket x.1 h pid lower).1 := by
    cases step_move hs with
    | call _ m _ hc => exact (Option.some.inj hc).symm
  have hc := (sendPacket_becomes pid lower hl hst).1
  rw [← hy] at hc
  constructor
  · rw [show (y.1.mem h).lastTxPacket = some pid from congrArg Handle.lastTxPacket hc]
    exact Option.some_ne_none pid
  · rw [show (y.1.mem h).txRetryCount = 0#8 from congrArg Handle.txRetryCount hc]
    exact Nat.le_refl _

theorem timed_resent (hs : step x i = some y) (ht : Timed h x s)
    (hran : s.last + timeoutMs ≤ x.2.timestamp) (hr : resends h x y = true) :
    Timed h y { s with resentAt := some x.2.timestamp } := by
  obtain ⟨pid, timestamp, lower, he, hretry⟩ := (resends_iff hs).mp hr
  have hc := (he.again hretry hs).2
  have hcount : (y.1.mem h).txRetryCount.toNat ≤ (x.1.mem h).txRetryCount.toNat + 1 := by
    rw [show (y.1.mem h).txRetryCount = (x.1.mem h).txRetryCount + 1#8 from congrArg
      Handle.txRetryCount hc,
      BitVec.toNat_add]
    exact Nat.mod_le _ _
  have hmul := Nat.mul_le_mul_left timeoutMs hcount
  have hretries := ht.retries
  constructor
  · show (y.1.mem h).conn.lastTxPacket ≠ none
    rw [hc]
    exact ht.pending
  · show s.sentAt + timeoutMs * (y.1.mem h).txRetryCount.toNat ≤ x.2.timestamp
    rw [Nat.mul_succ] at hmul
    omega

theorem timed_other (hs : step x i = some y) (ht : Timed h x s)
    (hp : (y.1.mem h).lastTxPacket ≠ none) (hr : ¬ resends h x y = true) : Timed h y s := by
  obtain ⟨k, new, heff, hk, -⟩ := step_effect hs h
  have hl : (y.1.mem h).lastTxPacket = k.lastTxPacket := by rw [← hk]; rfl
  have hcount : (y.1.mem h).txRetryCount = k.txRetryCount := by rw [← hk]; rfl
  have hsame (hc : k.txRetryCount = (x.1.mem h).txRetryCount) : Timed h y s :=
    ⟨hp, by rw [hcount, hc]; exact ht.retries⟩
  cases heff with
  | sent _ _ _ hx => exact absurd hx ht.pending
  | acked => exact absurd hl hp
  | exhausted => exact absurd hl hp
  | resent timestamp lower pid hi hpc hexp hx hpid hretry =>
    exact absurd ((resends_iff hs).mpr ⟨pid, timestamp, lower, ⟨hi, hpc, hx, hpid, hexp⟩, hretry⟩)
      hr
  | _ => exact hsame rfl

theorem timed_step {s : Option Transmission} (ht : ∀ t, s = some t → Timed h x t)
    (hok : RanOut h (x, s)) (hs : step x i = some y) :
    ∀ t, Transmission.see h s x i y = some t → Timed h y t := by
  intro t hsee
  unfold Transmission.see at hsee
  split_ifs at hsee with ha hl hr
  · obtain rfl := Option.some.inj hsee
    exact timed_accepted hs ha
  · obtain ⟨t₀, rfl, rfl⟩ := Option.map_eq_some_iff.mp hsee
    obtain ⟨pid, timestamp, lower, he, -⟩ := (resends_iff hs).mp hr
    exact timed_resent hs (ht t₀ rfl) (of_decide_eq_true (hok he.toExpired)) hr
  · exact timed_other hs (ht t hsee) hl hr

theorem abort_exhausted (hs : step x i = some y) (ha : aborts h x y) :
    (x.1.mem h).txRetryCount + 1#8 = maxRetryCount ∧ Expired h x := by
  obtain ⟨hx, hy, hev⟩ := ha
  obtain ⟨k, new, heff, hk, he⟩ := step_effect hs h
  rw [he, List.drop_left] at hev
  have hst : k.state = .closed := by rw [← hk, Handle.conn_state, hy]
  cases heff with
  | exhausted timestamp lower pid hi hpc hexp hst' hpid hretry =>
    have he : Expires x i h pid timestamp lower := ⟨hi, hpc, hst', hpid, hexp⟩
    exact ⟨hretry, he.toExpired⟩
  | closedByCall => cases hev
  | reset | invalid | closeAcknowledged => simp at hev
  | timedOut timestamp lower event _ _ _ hcase => simp [hx] at hcase
  | opened | connected | listening | accepted | synAcknowledged | fin | finAcknowledged |
      finWait | answered =>
    cases hst
  | openRefused _ _ _ hs' | cancelled _ _ hs' => rw [hx] at hs'; cases hs'
  | _ => exact absurd (hx.symm.trans hst) (by decide)

/-- A step of a packet whose timer ran out only after `TCP_STATE_TIMEOUT` is not too early. -/
theorem Timed.onTime (ht : Timed h x s) (hs : step x i = some y)
    (hran : Expired h x → s.last + timeoutMs ≤ x.2.timestamp) : OnTime h s x y := by
  have hretries := ht.retries
  have hdue (hr : resends h x y = true) : s.last + timeoutMs ≤ x.2.timestamp := by
    obtain ⟨pid, timestamp, lower, he, -⟩ := (resends_iff hs).mp hr
    exact hran he.toExpired
  constructor
  · intro hr
    have hlast := hdue hr
    omega
  · intro hr at_ hat
    have hlast := hdue hr
    rw [Transmission.last, hat] at hlast
    exact hlast
  · intro ha
    obtain ⟨hretry, he⟩ := abort_exhausted hs ha
    have hfour : (x.1.mem h).txRetryCount.toNat = 4 := by
      rw [show (x.1.mem h).txRetryCount = 4#8 from (BitVec.add_left_inj 1#8).mp hretry]
      rfl
    have hlast := hran he
    rw [hfour] at hretries
    show s.sentAt + 5 * timeoutMs ≤ x.2.timestamp
    omega

theorem OnTime.waited (ho : OnTime h s x y) (hs : step x i = some y) (he : Expired h x)
    (hretry : (x.1.mem h).txRetryCount + 1#8 ≠ maxRetryCount) :
    s.last + timeoutMs ≤ x.2.timestamp := by
  obtain ⟨pid, timestamp, lower, hexp⟩ := he.expires hs
  have hr := (hexp.again hretry hs).1
  unfold Transmission.last
  cases hat : s.resentAt with
  | none => exact ho.first hr
  | some at_ => exact ho.apart hr at_ hat

end Step

/-- In every run whose expired timers all ran for `TCP_STATE_TIMEOUT` since the packet was last
sent, no accepted packet is sent again or given up too early; and no retransmission of such a run
is on time otherwise. -/
theorem retransmitted_on_time (h : Fin n) (packets : PacketId → Packet) (port : BitVec 16)
    (time : Nat) {z : (Stack n × Pc n) × Option Transmission}
    (hr : Lib.Reach (Lib.observe step (Transmission.see h)) (fun z _ => RanOut h z)
      (initial n packets port time, none) z) {i : Input n} {y : Stack n × Pc n} {s : Transmission}
    (hs : step z.1 i = some y) (hz : z.2 = some s) :
    (RanOut h z → OnTime h s z.1 y) ∧
      ((z.1.1.mem h).txRetryCount + 1#8 ≠ maxRetryCount → OnTime h s z.1 y → RanOut h z) := by
  have hinv : ∀ t, z.2 = some t → Timed h z.1 t := by
    refine hr.invariant (I := fun z => ∀ t, z.2 = some t → Timed h z.1 t)
      (fun t ht => absurd ht.symm (Option.some_ne_none t)) fun z i z' hi hok hstep => ?_
    obtain ⟨hs', hsee⟩ := Lib.observe_some.mp hstep
    intro t ht
    exact timed_step hi hok hs' t (hsee.symm.trans ht)
  constructor
  · intro hran
    refine (hinv s hz).onTime hs fun he => ?_
    have hall := hran he
    rw [hz] at hall
    exact of_decide_eq_true hall
  · intro hretry ho he
    rw [hz]
    exact decide_eq_true (ho.waited hs he hretry)

/-- A packet sent in the millisecond after the handshake and twice sent again, the first time by
a tick that comes half a second late. -/
theorem retransmitted_on_time_twice :
    ∃ (z : (Stack 1 × Pc 1) × Option Transmission) (y : Stack 1 × Pc 1)
    (s : Transmission), z.2 = some s ∧ s = ⟨8, some 1009⟩ ∧ resends 0 z.1 y = true ∧
      OnTime 0 s z.1 y ∧
      RanOut 0 z := by
  obtain ⟨z, hr, hz⟩ := Lib.exists_of_runInputs (Lib.observe step (Transmission.see 0))
    (fun z _ => RanOut 0 z) (initial 1 (fun _ => blankPacket) portPoolStart 7, none)
    (handshake 0 7 100#32 ++ compose 7 (List.replicate 40 65#8) ++
      [.elapse 1, .sendPacket 0 7 (transmitting 8), .elapse 1001, .periodicTask,
        .visit (transmitting 9),
        .visit (transmitting 9), .elapse 500, .periodicTask])
    (fun z => z.2 = some ⟨8, some 1009⟩ ∧ (z.1.1.mem 0).txRetryCount + 1#8 ≠ maxRetryCount ∧
      RanOut 0 z ∧
      (step z.1 (.visit (transmitting 9))).any fun y => resends 0 z.1 y) (by decide)
  obtain ⟨hs, hretry, hran, hstep⟩ := of_decide_eq_true hz
  obtain ⟨y, hy, hre⟩ := (Option.any_eq_true _ _).mp hstep
  obtain ⟨honTime, hwaited⟩ := retransmitted_on_time 0 _ _ _ hr hy hs
  exact ⟨z, y, _, hs, rfl, hre, honTime hran, hwaited hretry (honTime hran)⟩

/-- A packet sent ten seconds after the handshake is sent again at the next tick. -/
theorem retransmitted_at_once :
    ¬ ∀ (n : Nat) (h : Fin n) (packets : PacketId → Packet) (port : BitVec 16)
    (time : Nat) (z : (Stack n × Pc n) × Option Transmission) (i : Input n) (y : Stack n × Pc n)
    (s : Transmission),
    Lib.Reach (Lib.observe step (Transmission.see h)) (fun z i => Unwrapped z.1 i)
      (initial n packets port time, none) z → Unwrapped z.1 i → step z.1 i = some y → z.2 = some s →
    OnTime h s z.1 y := by
  intro hall
  obtain ⟨z, hr, hz⟩ := Lib.exists_of_runInputs (Lib.observe step (Transmission.see 0))
    (fun z i => Unwrapped z.1 i) (initial 1 (fun _ => blankPacket) portPoolStart 7, none)
    (handshake 0 7 100#32 ++ compose 7 (List.replicate 40 65#8) ++
      [Input.elapse 10000, .sendPacket 0 7 (transmitting 8), .periodicTask])
    (fun z => z.2 = some ⟨10007, none⟩ ∧ z.1.2.timestamp = 10007 ∧
      Unwrapped z.1 (.visit (transmitting 9)) ∧
      (step z.1 (.visit (transmitting 9))).any fun y => resends 0 z.1 y) (by decide)
  obtain ⟨hs, hnow, hwrap, hstep⟩ := of_decide_eq_true hz
  obtain ⟨y, hy, hre⟩ := (Option.any_eq_true _ _).mp hstep
  have hfirst := (hall 1 0 _ _ _ z _ y _ hr hwrap hy hs).first hre
  rw [hnow] at hfirst
  exact absurd hfirst (by decide)

end NanoIp.Tcp
