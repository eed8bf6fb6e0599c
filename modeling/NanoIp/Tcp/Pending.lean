import NanoIp.Tcp.Accepting

/-!
# The pending packet

The packet a handle keeps until it is acknowledged: what an acknowledgement does that
arrives with something else, and what stays behind when the packet was never sent.
-/
namespace NanoIp.Tcp

variable {n : Nat}

/-- The acknowledgement of the pending packet `pid` is honoured: the packet is given back once,
the handle is told once, and the periodic task has nothing to send or to give up. -/
structure Honoured (m m' : Stack n) (h : Fin n) (pid : PacketId) : Prop where
  released : (newEntries (m, .ready) (m', .ready)).count (.released pid) = 1
  cleared : (m'.mem h).lastTxPacket = none
  reported : (newEntries (m, .ready) (m', .ready)).countP (fun
    | .raised k event _ _ => k = h ∧ event = .tx
    | _ => false) = 1
  quiet : ∀ timestamp lower, visit m' h timestamp lower = (m', .tick (m'.mem h).next timestamp)

section Acknowledgement

variable {m : Stack n} {h : Fin n} {seg : Segment} {lower : Lower}

/-- Whatever an established connection does with a segment that is not a bare acknowledgement, the
pending packet stays. -/
theorem rxEstablished_pending (hf : seg.flags ≠ flagAck) :
    ((rxEstablished m h seg lower).1.mem h).lastTxPacket = (m.mem h).lastTxPacket := by
  have hack (ack : BitVec 32) (flags : Byte) :
    ((sendControlFrame (m.modify h fun k => { k with ackNumber := ack })
      h flags lower).1.mem h).lastTxPacket = (m.mem h).lastTxPacket := by
    rw [← Handle.conn_lastTxPacket, sendControlFrame_conn, Handle.conn_lastTxPacket,
      Stack.modify_self]
  unfold rxEstablished
  split_ifs with hdata hpure hfin
  · have hdone := hack seg.nextSeq flagAck
    unfold rxData
    dsimp only
    split_ifs
    · exact hdone
    · exact hdone
    · rfl
  · exact absurd hpure.2 hf
  · have hdone := hack (seg.seqNumber + 1#32) (flagFin ||| flagAck)
    unfold rxFin
    dsimp only
    split_ifs
    · rw [Stack.startTimeout, Stack.modify_self, Stack.modify_self]
      exact hdone
    · exact hdone
  · rfl

/-- Neither does a reset touch it. -/
theorem rxWhole_pending (hl : lookup m seg = some h) (hs : (m.mem h).state = .established)
    (hack : seg.ackNumber = (m.mem h).seqNumber) (hf : seg.flags ≠ flagAck) (lower : Lower) :
    ((rxWhole m seg lower).1.mem h).lastTxPacket = (m.mem h).lastTxPacket := by
  rw [rxWhole_eq lower hl]
  unfold beforeAcknowledge
  split_ifs with hr
  · set m' := ((m.setState h .closed).removeHandle h).raise h .closed .connReset none
    have hconn : (m'.mem h).conn = ({ m.mem h with state := .closed } : Handle n).conn := by
      change (((m.setState h .closed).removeHandle h).mem h).conn = _
      rw [Stack.removeHandle_conn, Stack.setState_self]
    have hfields : (m'.mem h).state = .closed ∧ (m'.mem h).seqNumber = (m.mem h).seqNumber ∧
        (m'.mem h).lastTxPacket = (m.mem h).lastTxPacket := by
      rw [← Handle.conn_state, ← Handle.conn_seqNumber, ← Handle.conn_lastTxPacket, hconn]
      exact ⟨rfl, rfl, rfl⟩
    obtain ⟨hstate, hseq, hlast⟩ := hfields
    rw [rxAcknowledge, if_pos (.inr (hack.trans hseq.symm)), rxStateMachine, hstate]
    exact hlast
  · rw [rxAcknowledge, if_pos (.inr hack), rxStateMachine, hs]
    exact rxEstablished_pending hf

theorem rxWhole_ack (hl : lookup m seg = some h) (hs : (m.mem h).state = .established)
    (hack : seg.ackNumber = (m.mem h).seqNumber) (hf : seg.flags = flagAck)
    (hp : (m.mem h).lastTxPacket.isSome = true) (lower : Lower) :
    rxWhole m seg lower = ((releaseLastTx m h).raise h .tx .success none, .inCallback) := by
  have hr : ¬ resets m h seg := fun hr => absurd hr.1 (by rw [Segment.hasFlag, hf]; decide)
  have hdata : ¬ (seg.payload.length ≠ 0 ∧ seg.flags = flagPsh ||| flagAck) :=
    fun hd => absurd (hf.symm.trans hd.2) (by decide)
  rw [rxWhole_eq lower hl, beforeAcknowledge, if_neg hr, rxAcknowledge, if_pos (.inr hack),
    rxStateMachine, hs]
  dsimp only
  rw [rxEstablished, if_neg hdata, if_pos ⟨hp, hf⟩]

/-- An acknowledgement of everything sent is honoured only when it rides alone. -/
theorem honoured_iff {pid : PacketId} (lower : Lower) (hl : lookup m seg = some h)
    (hs : (m.mem h).state = .established) (hp : (m.mem h).lastTxPacket = some pid)
    (hack : seg.ackNumber = (m.mem h).seqNumber) :
    Honoured m (rxWhole m seg lower).1 h pid ↔ seg.flags = flagAck := by
  constructor
  · intro hh
    by_contra hf
    have hcleared := hh.cleared
    rw [rxWhole_pending hl hs hack hf lower, hp] at hcleared
    cases hcleared
  · intro hf
    rw [rxWhole_ack hl hs hack hf (by rw [hp]; rfl) lower]
    have hrel : releaseLastTx m h = (m.releasePacket pid).modify h fun k =>
        { k with lastTxPacket := none } := by
      rw [releaseLastTx, hp]
    have hnew : newEntries (m, .ready) ((releaseLastTx m h).raise h .tx .success none, .ready) =
        [.released pid, .raised h .tx .success none] := by
      apply newEntries_eq
      rw [hrel]
      exact List.append_assoc _ _ _
    have hself : ((releaseLastTx m h).raise h .tx .success none).mem h =
        { m.mem h with lastTxPacket := none } := by
      rw [hrel, Stack.raise, Stack.record_mem, Stack.modify_self]
      rfl
    refine ⟨?_, by rw [hself], ?_, fun timestamp lower' => ?_⟩
    · rw [hnew]
      simp
    · rw [hnew]
      simp
    · unfold visit
      rw [hself]
      dsimp only
      rw [hs]

end Acknowledgement

/-- Handle `h` connects and has one byte to be acknowledged, its next number being nine. -/
def sendsByte (h : Fin n) : List (Input n) :=
  handshake h 7 100#32 ++ compose 7 [1#8] ++ [.sendPacket h 7 (transmitting 0)]

/-- What the samples below start from. -/
def SentByte (h : Fin n) (seg : Segment) (x : Stack n × Pc n) : Prop :=
  x.2 = .ready ∧ lookup x.1 seg = some h ∧ (x.1.mem h).state = .established ∧
    (x.1.mem h).lastTxPacket = some 7 ∧ (x.1.mem h).seqNumber = 9#32

instance (h : Fin n) (seg : Segment) (x : Stack n × Pc n) : Decidable (SentByte h seg x) :=
  inferInstanceAs (Decidable (_ ∧ _ ∧ _ ∧ _ ∧ _))

def byteAcked : Segment := peerSegment 101#32 9#32 flagAck []
def byteAnswered : Segment := peerSegment 101#32 9#32 (flagPsh ||| flagAck) [5#8]

theorem honoured_iff_alone : ∃ m : Stack 1, Lib.Reach step Lib.anyStep
    (initial 1 (fun _ => blankPacket) portPoolStart 7) (m, .ready) ∧
      Honoured m (rxWhole m byteAcked (transmitting 0)).1 0 7 := by
  obtain ⟨⟨m, pc⟩, hr, hx⟩ := Lib.exists_of_runInputs step Lib.anyStep
    (initial 1 (fun _ => blankPacket) portPoolStart 7) (sendsByte 0)
      (fun x => SentByte 0 byteAcked x) (by decide)
  obtain ⟨hpc, hl, hs, hp, hseq⟩ := of_decide_eq_true hx
  dsimp only at hpc hl hs hp hseq
  subst hpc
  exact ⟨m, hr, (honoured_iff (transmitting 0) hl hs hp hseq.symm).mpr rfl⟩

/-- A peer that answers with data acknowledges in vain. -/
theorem answer_not_honoured :
    ¬ ∀ (n : Nat) (packets : PacketId → Packet) (port : BitVec 16) (time : Nat)
    (m : Stack n) (h : Fin n) (pid : PacketId) (seg : Segment) (lower : Lower),
    Lib.Reach step Lib.anyStep (initial n packets port time) (m, .ready) →
    lookup m seg = some h → (m.mem h).state = .established → (m.mem h).lastTxPacket = some pid →
    seg.hasFlag flagAck = true → seg.ackNumber = (m.mem h).seqNumber →
    Honoured m (rxWhole m seg lower).1 h pid := by
  intro hall
  obtain ⟨⟨m, pc⟩, hr, hx⟩ := Lib.exists_of_runInputs step Lib.anyStep
    (initial 1 (fun _ => blankPacket) portPoolStart 7) (sendsByte 0)
      (fun x => SentByte 0 byteAnswered x) (by decide)
  obtain ⟨hpc, hl, hs, hp, hseq⟩ := of_decide_eq_true hx
  dsimp only at hpc hl hs hp hseq
  subst hpc
  have hcleared := (hall 1 _ _ _ m 0 7 byteAnswered (transmitting 0) hr hl hs
    hp (by decide) hseq.symm).cleared
  rw [rxWhole_pending hl hs hseq.symm (by decide), hp] at hcleared
  cases hcleared

/-- The allocator hands out packet `pid`. -/
def Grants (lower : Lower) (pid : PacketId) : Bool :=
  match lower.alloc with
  | .ok p => p = pid
  | .error _ => false

/-- The application does not name packet `pid`, and the allocator does not hand it out. -/
def Input.leaves (pid : PacketId) : Input n → Bool
  | .allocatePacket answer _ => match answer with
    | .ok p => p ≠ pid
    | .error _ => true
  | .writePacket p _ | .sendPacket _ p _ | .releasePacket p => p ≠ pid
  | .connect _ _ _ lower | .close _ lower | .rxFrame _ lower | .visit lower | .ret _ _ lower =>
      !Grants lower pid
  | _ => true

/-- The entry sends or releases packet `pid`. -/
def Obs.touches (pid : PacketId) : Obs n → Bool
  | .handed _ p _ | .resent _ p _ | .released p => p = pid
  | _ => false

/-- The layers below accept the packet as handle `h` sends it. -/
def AcceptsPacket (m : Stack n) (h : Fin n) (pid : PacketId) (lower : Lower) : Prop :=
  Ipv4.Accepts lower (m.mem h).ipv4Handle (m.mem h).destIpv4Address (m.packets pid) ∧
    (BitVec.ofNat 16 (m.packets pid).current < Ipv4.minPacketSize →
      Ipv4.arpAnswer lower (m.mem h).destIpv4Address (m.packets pid) = .ok .pending)

/-- A send that failed did nothing: the handle and the packet's flag are as they were, the next
send is as good as the first, and once the application has released the packet nobody else touches
it. -/
structure Unharmed (x : Stack n × Pc n) (h : Fin n) (pid : PacketId) (lower : Lower) : Prop where
  handle : (sendPacket x.1 h pid lower).1.mem h = x.1.mem h
  flag : ((sendPacket x.1 h pid lower).1.packets pid).flags &&& packetFlagKeepPacket =
    (x.1.packets pid).flags &&& packetFlagKeepPacket
  next : ∀ pid' lower', AcceptsPacket (sendPacket x.1 h pid lower).1 h pid' lower' →
    (sendPacket (sendPacket x.1 h pid lower).1 h pid' lower').2 ≠ .busy
  owned : ∀ y z i, Lib.Reach step (fun _ i => Input.leaves pid i = true)
      ((sendPacket x.1 h pid lower).1.releasePacket pid, x.2) y → Input.leaves pid i = true →
        step y i = some z →
    ∀ o ∈ newEntries y z, o.touches pid = false

section Send

variable {m : Stack n} {h : Fin n} {pid : PacketId} {lower : Lower}

theorem sendPacket_accepted_iff (hp : (m.mem h).lastTxPacket = none)
    (hs : (m.mem h).state = .established) :
    (sendPacket m h pid lower).2.accepted = true ↔ AcceptsPacket m h pid lower := by
  rw [sendPacket_eq pid lower hp hs]
  change (Ipv4.sendPacket lower _ _ pid _).ret.accepted = true ↔ _
  rw [Ipv4.sendPacket_accepted_iff, keepPacket_mem, Function.update_self]
  unfold keepPacket
  dsimp only
  rw [Function.update_self]
  exact Iff.rfl

theorem sendPacket_failed (pid : PacketId) (lower : Lower) (hp : (m.mem h).lastTxPacket = none)
    (hs : (m.mem h).state = .established) :
    ((sendPacket m h pid lower).1.mem h).lastTxPacket = some pid ∧
      ∀ pid' lower', (sendPacket (sendPacket m h pid lower).1 h pid' lower').2 = .busy := by
  have hkept : ((sendPacket m h pid lower).1.mem h).lastTxPacket = some pid := by
    rw [← Handle.conn_lastTxPacket, (sendPacket_becomes pid lower hp hs).1]
  refine ⟨hkept, fun pid' lower' => ?_⟩
  rw [sendPacket, if_pos (by rw [hkept]; rfl)]

/-- The periodic task sends or releases what an established handle keeps once its timer has expired,
whoever owns the packet. -/
theorem visit_touches (timestamp : BitVec 32) (lower : Lower) (hs : (m.mem h).state = .established)
    (hp : (m.mem h).lastTxPacket = some pid) (he : (m.mem h).stateTimeout ≤ timestamp) :
    ∃ o ∈ newEntries (m, .tick (some h) timestamp) (visit m h timestamp lower),
      o.touches pid = true := by
  set m₁ := m.modify h fun k => { k with txRetryCount := k.txRetryCount + 1#8 } with hm₁
  have hp₁ : (m₁.mem h).lastTxPacket = some pid := by
    rw [hm₁, Stack.modify_self]
    exact hp
  have hvisit : visit m h timestamp lower = retryPacket m h pid timestamp lower := by
    unfold visit
    rw [hs]
    dsimp only
    rw [hp]
    exact if_pos he
  rw [hvisit, retryPacket]
  dsimp only
  split_ifs
  · have hlog : (abortTransmission m₁ h).log =
      m.log ++ [.released pid, .raised h .txFailed .timeout none] := by
      unfold abortTransmission releaseLastTx
      rw [hp₁]
      exact List.append_assoc _ _ _
    refine ⟨.released pid, ?_, decide_eq_true rfl⟩
    rw [newEntries_eq hlog]
    exact List.mem_cons_self
  · obtain ⟨ret, rest, hlog⟩ : ∃ ret rest, (resendPacket m₁ h pid lower).log =
      m.log ++ .resent h pid ret :: rest := by
      unfold resendPacket recordHanded
      dsimp only
      split
      · exact ⟨_, [_], List.append_assoc _ _ _⟩
      · exact ⟨_, [], rfl⟩
    refine ⟨.resent h pid ret, ?_, decide_eq_true rfl⟩
    rw [newEntries_eq hlog]
    exact List.mem_cons_self

/-- The damage of a failed send is absent only where there is no failure. -/
theorem unharmed_iff (pid : PacketId) (lower : Lower) (pc : Pc n)
    (hp : (m.mem h).lastTxPacket = none) (hs : (m.mem h).state = .established) :
    ((sendPacket m h pid lower).2.accepted = false → Unharmed (m, pc) h pid lower) ↔
      AcceptsPacket m h pid lower := by
  rw [← sendPacket_accepted_iff hp hs]
  constructor
  · intro hclean
    by_contra hfail
    have hsame := (hclean (Bool.eq_false_of_not_eq_true hfail)).handle
    have hkept := (sendPacket_failed pid lower hp hs).1
    rw [hsame, hp] at hkept
    cases hkept
  · exact fun hacc hfail => Bool.noConfusion (hacc.symm.trans hfail)

end Send

def refusing (pid : PacketId) : Lower := { transmitting pid with driver := .failure }

theorem unharmed_iff_sent : ∃ m : Stack 1, Lib.Reach step Lib.anyStep
    (initial 1 (fun _ => blankPacket) portPoolStart 7) (m, .ready) ∧
      ((sendPacket m 0 7 (transmitting 0)).2.accepted = false →
        Unharmed (m, .ready) 0 7 (transmitting 0)) := by
  obtain ⟨⟨m, pc⟩, hr, hx⟩ := Lib.exists_of_runInputs step Lib.anyStep
    (initial 1 (fun _ => blankPacket) portPoolStart 7) (handshake 0 7 100#32 ++ compose 7 [1#8])
    (fun x => x.2 = .ready ∧ (x.1.mem 0).state = .established ∧ (x.1.mem 0).lastTxPacket = none ∧
      (x.1.mem 0).ipv4Handle.busy = false ∧ (x.1.packets 7).current = 55 ∧ (x.1.packets 7).netIf =
        none) (by decide)
  obtain ⟨hpc, hs, hp, hb, hcurrent, hnet⟩ := of_decide_eq_true hx
  dsimp only at hpc hs hp hb hcurrent hnet
  subst hpc
  refine ⟨m, hr, (unharmed_iff 7 (transmitting 0) .ready hp hs).mpr ⟨⟨hb, .inr
    ⟨Vector.replicate 6 2#8, ?_, rfl⟩⟩, fun hsize => ?_⟩⟩
  · rw [Ipv4.arpAnswer, Ipv4.chooseRoute, hnet]
    rfl
  · rw [hcurrent] at hsize
    exact absurd hsize (by decide)

/-- The packet of a send that the driver refused comes back at the next tick, after its release. -/
theorem refused_send_resent :
    ¬ ∀ (n : Nat) (packets : PacketId → Packet) (port : BitVec 16) (time : Nat)
    (x : Stack n × Pc n) (h : Fin n) (pid : PacketId) (lower : Lower),
    Lib.Reach step Lib.anyStep (initial n packets port time) x → x.2.callable = true →
    (x.1.mem h).lastTxPacket = none → (x.1.mem h).state = .established →
    (sendPacket x.1 h pid lower).2.accepted = false → Unharmed x h pid lower := by
  intro hall
  obtain ⟨⟨m, pc⟩, hr, hx⟩ := Lib.exists_of_runInputs step Lib.anyStep
    (initial 1 (fun _ => blankPacket) portPoolStart 7) (handshake 0 7 100#32 ++ compose 7 [1#8])
    (fun x => x.2 = .ready ∧ (x.1.mem 0).state = .established ∧ (x.1.mem 0).lastTxPacket = none ∧
      (sendPacket x.1 0 7 (refusing 0)).2.accepted = false ∧
      (Lib.runInputs step (fun _ i => Input.leaves 7 i = true)
        ((sendPacket x.1 0 7 (refusing 0)).1.releasePacket 7, .ready)
          [.elapse 600, .periodicTask]).any fun y =>
          y.2 = .tick (some 0) 607#32 ∧ (y.1.mem 0).state = .established ∧
            (y.1.mem 0).lastTxPacket = some 7 ∧
            (y.1.mem 0).stateTimeout = 507#32) (by decide)
  obtain ⟨hpc, hs, hp, hfail, hrun⟩ := of_decide_eq_true hx
  dsimp only at hpc hs hp hfail hrun
  subst hpc
  obtain ⟨⟨m', pc'⟩, hy, hkept⟩ := (Option.any_eq_true _ _).mp hrun
  obtain ⟨hpc', hs', hp', ht⟩ := of_decide_eq_true hkept
  dsimp only at hpc' hs' hp' ht
  subst hpc'
  obtain ⟨o, ho, htouch⟩ := visit_touches 607#32 (transmitting 0) hs' hp' (by rw [ht]; decide)
  have howned := (hall 1 _ _ _ (m, .ready) 0 7 (refusing 0) hr rfl hp hs hfail).owned _ _
    (.visit (transmitting 0))
    (Lib.reach_of_runInputs hy) rfl rfl o ho
  rw [htouch] at howned
  cases howned

end NanoIp.Tcp
