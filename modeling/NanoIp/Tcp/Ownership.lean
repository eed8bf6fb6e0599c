import NanoIp.Tcp.Trace

/-!
# Who owns the packet that waits for its acknowledgement

From the moment `NANO_IP_TCP_SendPacket` keeps a packet, the handle owns it: it
is released when it is acknowledged or when the connection is given up. The other
ways to close a handle, and the IPv4 layer when an ARP request fails, disagree.
-/
namespace NanoIp.Tcp

variable {n : Nat}

/-- Some handle keeps the packet for a retransmission. -/
def Pending (m : Stack n) (pid : PacketId) : Prop := ∃ h, (m.mem h).lastTxPacket = some pid

instance (m : Stack n) (pid : PacketId) : Decidable (Pending m pid) :=
  inferInstanceAs (Decidable (∃ h, (m.mem h).lastTxPacket = some pid))

/-- A handle with a pending packet is open and the packet is in use. -/
def Owns (m : Stack n) (h : Fin n) : Prop :=
  ∀ pid, (m.mem h).lastTxPacket = some pid → (m.mem h).state ≠ .closed ∧ pid ∈ m.allocated

/-- What a step does with the pending packet of `h`: it does not release a packet that
stays pending, and a transition to closed releases the packet once and keeps none. -/
structure HandsBack (h : Fin n) (x y : Stack n × Pc n) : Prop where
  kept : ∀ pid, (x.1.mem h).lastTxPacket = some pid → (y.1.mem h).lastTxPacket = some pid →
    .released pid ∉ newEntries x y
  closed : (x.1.mem h).state ≠ .closed → (y.1.mem h).state = .closed →
    (y.1.mem h).lastTxPacket = none ∧ ∀ pid, (x.1.mem h).lastTxPacket = some pid →
      (newEntries x y).count (.released pid) = 1

/-- A segment that closes the connection it is processed for. -/
def Closes (m : Stack n) (h : Fin n) (seg : Segment) : Prop :=
  Rejects m h seg ∨
    (m.mem h).state = .closeWait ∧ seg.ackNumber = (m.mem h).seqNumber ∧ seg.flags = flagAck

instance (m : Stack n) (h : Fin n) (seg : Segment) : Decidable (Closes m h seg) :=
  inferInstanceAs (Decidable (_ ∨ _ ∧ _ ∧ _))

/-- The packet that the ARP request of `h` waits with is not pending. -/
def ArpHarmless (m : Stack n) (h : Fin n) : Prop :=
  match (m.mem h).ipv4Handle.packet with
  | some pid => ¬ Pending m pid
  | none => True

instance (m : Stack n) (h : Fin n) : Decidable (ArpHarmless m h) := by
  unfold ArpHarmless
  split <;> infer_instance

/-- The step closes `h` otherwise than by exhausting its retries: a call, a reset, an
invalid acknowledgement, the end of the peer's FIN handshake or its timeout. -/
def Shuts (h : Fin n) (x : Stack n × Pc n) (i : Input n) : Prop :=
  match i, x.2 with
  | .close k _, _ => k = h
  | .rxFrame seg _, .ready => lookup x.1 seg = some h ∧ (resets x.1 h seg ∨ Closes x.1 h seg)
  | .ret _ _ _, .inReset k seg => k = h ∧ Closes x.1 h seg.1
  | .visit _, .tick current timestamp =>
    current = some h ∧ (x.1.mem h).state = .closeWait ∧ (x.1.mem h).stateTimeout ≤ timestamp
  | _, _ => False

instance (h : Fin n) (x : Stack n × Pc n) (i : Input n) : Decidable (Shuts h x i) := by
  rcases x with ⟨m, ⟨⟩⟩ <;> rcases i with ⟨⟩ <;> unfold Shuts <;> infer_instance

/-- The application sends packets it owns, and releases none that is pending. -/
def Rightful (x : Stack n × Pc n) : Input n → Prop
  | .sendPacket h pid _ => (x.1.mem h).lastTxPacket = none → (x.1.mem h).state = .established →
      pid ∈ x.1.allocated ∧ ¬ Pending x.1 pid
  | .releasePacket pid => ¬ Pending x.1 pid
  | _ => True

instance (x : Stack n × Pc n) (i : Input n) : Decidable (Rightful x i) := by
  rcases i with ⟨⟩ <;> unfold Rightful <;> infer_instance

/-- An ARP request that fails or is cancelled does not wait with a pending packet. -/
def ArpSpares (x : Stack n × Pc n) : Input n → Prop
  | .arpResponse h mac _ => mac = none → ArpHarmless x.1 h
  | .releaseHandle h pending =>
    pending = true → (x.1.mem h).ipv4Handle.busy = true → ArpHarmless x.1 h
  | _ => True

instance (x : Stack n × Pc n) (i : Input n) : Decidable (ArpSpares x i) := by
  rcases i with ⟨⟩ <;> unfold ArpSpares <;> infer_instance

/-- The condition on a step: no handle with a pending packet is closed otherwise than by
exhausting its retries, and no pending packet is released by ARP or by the application. -/
def Careful (x : Stack n × Pc n) (i : Input n) : Prop :=
  (∀ h, (x.1.mem h).lastTxPacket ≠ none → ¬ Shuts h x i) ∧ Rightful x i ∧ ArpSpares x i

instance (x : Stack n × Pc n) (i : Input n) : Decidable (Careful x i) :=
  inferInstanceAs (Decidable (_ ∧ _ ∧ _))

/-- What the run lemma carries: pending packets are in use, belong to one handle each,
and to handles whose connection still sends. -/
structure Owned (m : Stack n) : Prop where
  open_ : ∀ h pid, (m.mem h).lastTxPacket = some pid →
    (m.mem h).state = .established ∨ (m.mem h).state = .closeWait
  used : ∀ h pid, (m.mem h).lastTxPacket = some pid → pid ∈ m.allocated
  unique : ∀ h k pid, (m.mem h).lastTxPacket = some pid → (m.mem k).lastTxPacket = some pid → h = k

section Step

variable {x y : Stack n × Pc n} {i : Input n} {h : Fin n}

theorem Processes.shuts {seg : Segment} {lower : Lower} (hp : Processes x h i seg lower)
    (hc : Closes x.1 h seg) : Shuts h x i := by
  obtain ⟨m, pc⟩ := x
  rcases hp with ⟨rfl, rfl, hl, -⟩ | ⟨release, accept, hf, rfl, rfl⟩
  · exact ⟨hl, .inr hc⟩
  · exact ⟨rfl, hc⟩

/-- An acknowledgement of the pending packet releases it and keeps none. -/
theorem acked_step {seg : Segment} {lower : Lower} {pid : PacketId} (hs : step x i = some y)
    (ha : Acknowledges x h i seg lower) (hst : (x.1.mem h).state = .established)
    (hl : (x.1.mem h).lastTxPacket = some pid) (hf : seg.flags = flagAck) :
    (y.1.mem h).lastTxPacket = none := by
  obtain ⟨m, pc⟩ := x
  rcases ha.1 with ⟨rfl, rfl, hlook, hr⟩ | ⟨release, accept, hrst, -, -⟩
  · have hy : y = ((releaseLastTx m h).raise h .tx .success none, .inCallback) := by
      have hstep : step (m, .ready) (.rxFrame seg lower) = some (rxFrame m seg lower) := rfl
      rw [hstep] at hs
      obtain rfl := Option.some.inj hs
      have hne : ¬ (seg.payload.length ≠ 0 ∧ seg.flags = flagPsh ||| flagAck) := by
        rintro ⟨-, hp⟩
        rw [hf] at hp
        exact absurd hp (by decide)
      dsimp only at hlook hr hst hl
      unfold rxFrame
      rw [hlook]
      dsimp only
      rw [rxHandle, dif_neg hr, rxAcknowledge, if_pos (.inr ha.2)]
      unfold rxStateMachine
      rw [hst]
      dsimp only
      rw [rxEstablished, if_neg hne, if_pos ⟨by rw [hl]; rfl, hf⟩]
    have hc := (releaseLastTx_becomes m h).1
    rw [hy]
    exact congrArg Handle.lastTxPacket hc
  · rw [Segment.hasFlag, hf] at hrst
    exact absurd hrst (by decide)

/-- Giving up after the last retry releases the pending packet once and keeps none. -/
theorem exhausted_step {pid : PacketId} {timestamp : BitVec 32} {lower : Lower}
    (hs : step x i = some y) (he : Expires x i h pid timestamp lower)
    (hr : (x.1.mem h).txRetryCount + 1#8 = maxRetryCount) :
    (y.1.mem h).lastTxPacket = none ∧ (newEntries x y).count (.released pid) = 1 := by
  have hy := he.step hs
  set m := x.1.modify h fun k => { k with txRetryCount := k.txRetryCount + 1#8 } with hm
  have hl : (m.mem h).lastTxPacket = some pid := by
    rw [hm, Stack.modify_self]
    exact he.pending
  have habort : y.1 = abortTransmission m h := by
    rw [hy, retryPacket]
    dsimp only
    rw [Stack.modify_self, if_pos hr]
  constructor
  · have hb := (((releaseLastTx_becomes m h).setState .closed).removeHandle (a := h)).raise
      .txFailed .timeout none
    rw [habort]
    exact congrArg Handle.lastTxPacket hb.1
  · have hlog : y.1.log = x.1.log ++ [.released pid, .raised h .txFailed .timeout none] := by
      rw [habort, abortTransmission, releaseLastTx, hl]
      show (x.1.log ++ [.released pid]) ++ [.raised h .txFailed .timeout none] = _
      rw [List.append_assoc]
      rfl
    rw [newEntries_eq hlog]
    simp

/-- A careful step releases a pending packet only when it stops being pending. -/
theorem released_not_pending {pid : PacketId} (hk : Owned x.1) (hok : Careful x i)
    (hs : step x i = some y) (hx : (x.1.mem h).lastTxPacket = some pid)
    (hy : (y.1.mem h).lastTxPacket = some pid) :
    .released pid ∉ newEntries x y := by
  have hpending : Pending x.1 pid := ⟨h, hx⟩
  obtain ⟨-, hright, harp⟩ := hok
  intro ho
  have hmay := (step_writes hs).entries ho
  cases hmay with
  | returned _ hn => exact hn (hk.used h pid hx)
  | releasedByCall _ hi =>
    subst hi
    exact hright hpending
  | acked k seg lower _ ha hst hl hf =>
    obtain rfl := hk.unique k h pid hl hx
    rw [acked_step hs ha hst hl hf] at hy
    cases hy
  | exhausted k _ timestamp lower he hr =>
    obtain rfl := hk.unique k h pid he.pending hx
    rw [(exhausted_step hs he hr).1] at hy
    cases hy
  | arpFailed k driver _ hi hp =>
    subst hi
    have hspare : ArpHarmless x.1 k := harp rfl
    rw [ArpHarmless, hp] at hspare
    exact hspare hpending
  | cancelled k _ hi hb hp =>
    subst hi
    have hspare : ArpHarmless x.1 k := harp rfl hb
    rw [ArpHarmless, hp] at hspare
    exact hspare hpending

/-- A packet pending after a careful step was pending before it, or has just been sent. -/
theorem pending_before {pid : PacketId} (hk : Owned x.1) (hok : Careful x i)
    (hs : step x i = some y) (hy : (y.1.mem h).lastTxPacket = some pid) :
    ((y.1.mem h).state = .established ∨ (y.1.mem h).state = .closeWait) ∧
    ((x.1.mem h).lastTxPacket = some pid ∨
      ∃ lower, i = .sendPacket h pid lower ∧ (x.1.mem h).lastTxPacket = none ∧
        (x.1.mem h).state = .established) := by
  obtain ⟨k, new, heff, hke, -⟩ := step_effect hs h
  have hst : (y.1.mem h).state = k.state := by rw [← hke]; rfl
  have hl : k.lastTxPacket = some pid := by rw [← hke]; exact hy
  have hshut (hx : (x.1.mem h).lastTxPacket = some pid) : ¬ Shuts h x i :=
    hok.1 h (by rw [hx]; exact Option.some_ne_none pid)
  rw [hst]
  cases heff with
  | sent _ lower hi hx hxs =>
    obtain rfl := Option.some.inj hl
    exact ⟨.inl hxs, .inr ⟨lower, hi, hx, hxs⟩⟩
  | acked | exhausted => cases hl
  | fin => exact ⟨.inr rfl, .inl hl⟩
  | accepted | synAcknowledged => exact ⟨.inl rfl, .inl hl⟩
  | closedByCall lower _ _ hi =>
    subst hi
    exact absurd rfl (hshut hl)
  | reset seg lower hi hpc hlook hr =>
    obtain ⟨m, pc⟩ := x
    subst hi hpc
    exact absurd ⟨hlook, .inl hr⟩ (hshut hl)
  | invalid seg lower hp hr => exact absurd (hp.shuts (.inl hr)) (hshut hl)
  | closeAcknowledged seg lower ha hxs hf =>
    exact absurd (ha.1.shuts (.inr ⟨hxs, ha.2, hf⟩)) (hshut hl)
  | timedOut timestamp lower event hi hpc hexp hcase =>
    have hxs := hk.open_ h pid hl
    have hwait : (x.1.mem h).state = .closeWait := by
      rcases hxs with hxs | hxs
      · simp [hxs] at hcase
      · exact hxs
    obtain ⟨m, pc⟩ := x
    subst hi hpc
    exact absurd ⟨rfl, hwait, hexp⟩ (hshut hl)
  | opened _ _ _ _ hxs | connected _ _ _ _ hxs | listening _ hxs | answered _ _ _ _ _ _ _ hxs =>
    rcases hk.open_ h pid hl with ho | ho <;> rw [hxs] at ho <;> cases ho
  | finAcknowledged _ _ _ _ hxs =>
    rcases hk.open_ h pid hl with ho | ho <;> rw [hxs] at ho <;> cases ho
  | finWait _ _ _ _ hxs =>
    rcases hk.open_ h pid hl with ho | ho <;> rcases hxs with hxs | hxs <;>
      rw [hxs] at ho <;> cases ho
  | _ => exact ⟨hk.open_ h pid hl, .inl hl⟩

theorem owned_step (hk : Owned x.1) (hok : Careful x i) (hs : step x i = some y) : Owned y.1 := by
  constructor
  · intro h pid hy
    exact (pending_before hk hok hs hy).1
  · intro h pid hy
    obtain ⟨-, new, hl, hp, ha⟩ := step_writes hs
    rcases (pending_before hk hok hs hy).2 with hx | ⟨lower, rfl, hx, hxs⟩
    · rcases ha pid (hk.used h pid hx) with hin | hrel
      · exact hin
      · refine absurd ?_ (released_not_pending hk hok hs hx hy)
        rwa [newEntries_eq hl]
    · rcases ha pid (hok.2.1 hx hxs).1 with hin | hrel
      · exact hin
      · -- a call to send releases nothing but a fresh packet
        cases hp _ hrel with
        | returned _ hn => exact absurd (hok.2.1 hx hxs).1 hn
        | releasedByCall _ hi | arpFailed _ _ _ hi | cancelled _ _ hi => cases hi
        | acked _ _ _ _ ha => rcases ha.1 with ⟨hi, -⟩ | ⟨_, _, _, hi, -⟩ <;> cases hi
        | exhausted _ _ _ _ he => cases he.input
  · intro h k pid hy hy'
    rcases (pending_before hk hok hs hy).2 with hx | ⟨lower, rfl, hx, hxs⟩
    · rcases (pending_before hk hok hs hy').2 with hx' | ⟨lower', rfl, hx', hxs'⟩
      · exact hk.unique h k pid hx hx'
      · exact absurd ⟨h, hx⟩ (hok.2.1 hx' hxs').2
    · rcases (pending_before hk hok hs hy').2 with hx' | ⟨lower', hi, -, -⟩
      · exact absurd ⟨k, hx'⟩ (hok.2.1 hx hxs).2
      · exact (Input.sendPacket.inj hi).1

theorem handsBack_step (hk : Owned x.1) (hok : Careful x i) (hs : step x i = some y) (h : Fin n) :
    HandsBack h x y := by
  constructor
  · intro pid hx hy
    exact released_not_pending hk hok hs hx hy
  · intro hne hy
    cases hx : (x.1.mem h).lastTxPacket with
    | none =>
      refine ⟨?_, nofun⟩
      by_contra hsome
      obtain ⟨pid, hpid⟩ := Option.ne_none_iff_exists'.mp hsome
      obtain ⟨ho, -⟩ := pending_before hk hok hs hpid
      rcases ho with ho | ho <;> rw [hy] at ho <;> cases ho
    | some pid =>
      have hnone : (y.1.mem h).lastTxPacket = none := by
        by_contra hsome
        obtain ⟨pid', hpid⟩ := Option.ne_none_iff_exists'.mp hsome
        obtain ⟨ho, -⟩ := pending_before hk hok hs hpid
        rcases ho with ho | ho <;> rw [hy] at ho <;> cases ho
      refine ⟨hnone, fun pid' hpid' => ?_⟩
      obtain rfl := Option.some.inj hpid'
      obtain ⟨k, new, heff, hke, -⟩ := step_effect hs h
      have hl : k.lastTxPacket = none := by rw [← hke]; exact hnone
      have hst : k.state = .closed := by rw [← hke]; exact hy
      cases heff with
      | exhausted timestamp lower q hi hpc hexp hxs hq hr =>
        obtain rfl := Option.some.inj (hx.symm.trans hq)
        exact (exhausted_step hs ⟨hi, hpc, hxs, hx, hexp⟩ hr).2
      | acked => exact absurd hst hne
      | sent => cases hl
      | _ =>
        rw [show (x.1.mem h).lastTxPacket = none from hl] at hx
        cases hx

end Step

/-- In every run of careful steps, pending packets belong to open handles and are in
use, and every transition to closed hands the packet back. -/
theorem pending_is_owned (packets : PacketId → Packet) (port : BitVec 16) (time : Nat)
    {x : Stack n × Pc n} (hr : Lib.Reach step Careful (initial n packets port time) x) (h : Fin n) :
    Owns x.1 h ∧ ∀ i y, Careful x i → step x i = some y → HandsBack h x y := by
  have hk : Owned x.1 := by
    refine hr.invariant (I := fun x => Owned x.1) ⟨nofun, nofun, nofun⟩ fun x i y hk hok hs => ?_
    exact owned_step hk hok hs
  constructor
  · intro pid hl
    refine ⟨?_, hk.used h pid hl⟩
    rcases hk.open_ h pid hl with ho | ho <;> rw [ho] <;> exact nofun
  · intro i y hok hs
    exact handsBack_step hk hok hs h

/-- A packet that is never acknowledged: five ticks later it is given up and handed back. -/
theorem pending_is_owned_until_given_up :
    ∃ x y : Stack 1 × Pc 1, (x.1.mem 0).lastTxPacket = some 7 ∧
    (x.1.mem 0).state ≠ .closed ∧ (y.1.mem 0).state = .closed ∧ Owns x.1 0 ∧ HandsBack 0 x y := by
  obtain ⟨x, hr, hx⟩ := Lib.exists_of_runInputs step Careful
    (initial 1 (fun _ => blankPacket) portPoolStart 7)
    (handshake 0 7 100#32 ++ compose 7 (List.replicate 40 65#8) ++
      [Input.sendPacket 0 7 (transmitting 8), .elapse 2500, .periodicTask, .visit (transmitting 9),
        .visit (transmitting 9), .periodicTask, .visit (transmitting 9), .visit (transmitting 9),
        .periodicTask, .visit (transmitting 9), .visit (transmitting 9), .periodicTask,
        .visit (transmitting 9), .visit (transmitting 9), .periodicTask])
    (fun x => (x.1.mem 0).lastTxPacket = some 7 ∧ (x.1.mem 0).state ≠ .closed ∧
      Careful x (.visit (transmitting 9)) ∧
      (step x (.visit (transmitting 9))).any fun y => (y.1.mem 0).state = .closed) (by decide)
  obtain ⟨hl, hne, hok, hstep⟩ := of_decide_eq_true hx
  obtain ⟨y, hs, hy⟩ := (Option.any_eq_true _ _).mp hstep
  obtain ⟨hown, hback⟩ := pending_is_owned _ _ _ hr 0
  exact ⟨x, y, hl, hne, of_decide_eq_true hy, hown, hback _ y hok hs⟩

/-- A reset while a packet is pending closes the handle and leaves the packet with it. -/
theorem reset_leaks_pending :
    ¬ ∀ (n : Nat) (packets : PacketId → Packet) (port : BitVec 16) (time : Nat)
    (x : Stack n × Pc n) (h : Fin n), Lib.Reach step Rightful (initial n packets port time) x →
    Owns x.1 h ∧ ∀ i y, Rightful x i → step x i = some y → HandsBack h x y := by
  intro hall
  obtain ⟨x, hr, hx⟩ := Lib.exists_of_runInputs step Rightful
    (initial 1 (fun _ => blankPacket) portPoolStart 7)
    (handshake 0 7 100#32 ++ compose 7 (List.replicate 40 65#8) ++
      [Input.sendPacket 0 7 (transmitting 8), .rxFrame (peerSegment 101#32 48#32 flagRst [])
        (transmitting 9)])
    (fun x => (x.1.mem 0).lastTxPacket = some 7 ∧ (x.1.mem 0).state = .closed) (by decide)
  obtain ⟨hl, hst⟩ := of_decide_eq_true hx
  exact ((hall 1 _ _ _ x 0 hr).1 7 hl).1 hst

end NanoIp.Tcp
