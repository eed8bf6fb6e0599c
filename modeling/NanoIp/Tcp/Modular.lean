import NanoIp.Tcp.Whole

/-!
# Sequence-number arithmetic and the 32-bit wrap

Two receptions are compared: one of a segment, and one after the sequence numbers
of the handle and of the segment were shifted by constants. `Shifted` relates the
stacks along both; every operation of the receive path keeps it, except the
comparison that tells an old acknowledgement from a future one.
-/
namespace NanoIp.Tcp

variable {n : Nat}

/-- A received segment with the peer's numbers moved by `j` and the handle's by `k`. -/
def Segment.shift (k j : BitVec 32) (seg : Segment) : Segment :=
  { seg with seqNumber := seg.seqNumber + j, ackNumber := seg.ackNumber + k }

/-- A sent segment: its own numbers move by `k`, what it acknowledges by `j`. -/
def Segment.shiftSent (k j : BitVec 32) (seg : Segment) : Segment :=
  { seg with
    seqNumber := seg.seqNumber + k
    ackNumber := if seg.hasFlag flagAck then seg.ackNumber + j else seg.ackNumber }

def Handle.shift (k j : BitVec 32) (handle : Handle n) : Handle n :=
  { handle with seqNumber := handle.seqNumber + k, ackNumber := handle.ackNumber + j }

/-- An observation about handle `h` with its numbers moved. -/
def Obs.shift (k j : BitVec 32) (h : Fin n) : Obs n → Obs n
  | .raised a event error packet =>
    .raised a event error (if a = h then packet.map (Segment.shift k j) else packet)
  | .output a seg ret => .output a (if a = h then seg.shiftSent k j else seg) ret
  | o => o

def Pc.shift (k j : BitVec 32) : Pc n → Pc n
  | .inReset h seg => .inReset h ⟨seg.1.shift k j, seg.2⟩
  | .inAccepting h seg => .inAccepting h (seg.shift k j)
  | .inRx seg => .inRx (seg.shift k j)
  | pc => pc

/-- The second stack is the first with the numbers of `h` moved, in the handle and in
what was observed since `log₀`; packet buffers, which hold the frames, are left out. -/
structure Shifted (k j : BitVec 32) (h : Fin n) (log₀ : List (Obs n)) (m m' : Stack n) : Prop where
  mem : m'.mem = Function.update m.mem h ((m.mem h).shift k j)
  handles : m'.handles = m.handles
  localPort : m'.nextFreeLocalPort = m.nextFreeLocalPort
  allocated : m'.allocated = m.allocated
  time : m'.time = m.time
  log : ∃ new, m.log = log₀ ++ new ∧ m'.log = log₀ ++ new.map (Obs.shift k j h)

namespace Shifted

variable {k j : BitVec 32} {h : Fin n} {log₀ : List (Obs n)} {m m' : Stack n}

theorem self (hs : Shifted k j h log₀ m m') : m'.mem h = (m.mem h).shift k j := by
  rw [hs.mem, Function.update_self]

theorem start (k j : BitVec 32) (h : Fin n) (m : Stack n) :
    Shifted k j h m.log m (m.modify h (Handle.shift k j)) :=
  ⟨rfl, rfl, rfl, rfl, rfl, [], (List.append_nil _).symm, (List.append_nil _).symm⟩

theorem modify (hs : Shifted k j h log₀ m m') (f f' : Handle n → Handle n)
    (hf : f' ((m.mem h).shift k j) = (f (m.mem h)).shift k j) :
    Shifted k j h log₀ (m.modify h f) (m'.modify h f') := by
  refine ⟨?_, hs.handles, hs.localPort, hs.allocated, hs.time, hs.log⟩
  change Function.update m'.mem h (f' (m'.mem h)) =
    Function.update (Function.update m.mem h (f (m.mem h))) h (((m.modify h f).mem h).shift k j)
  rw [hs.self, hf, hs.mem, Stack.modify_self, Function.update_idem, Function.update_idem]

theorem setState (hs : Shifted k j h log₀ m m') (s : State) :
    Shifted k j h log₀ (m.setState h s) (m'.setState h s) := hs.modify _ _ rfl

theorem startTimeout (hs : Shifted k j h log₀ m m') :
    Shifted k j h log₀ (m.startTimeout h) (m'.startTimeout h) := by
  refine hs.modify _ _ ?_
  rw [show m'.msCounter = m.msCounter from congrArg (BitVec.ofNat 32) hs.time]
  rfl

theorem record (hs : Shifted k j h log₀ m m') (o o' : Obs n) (ho : o' = o.shift k j h) :
    Shifted k j h log₀ (m.record o) (m'.record o') := by
  obtain ⟨new, hl, hl'⟩ := hs.log
  refine ⟨hs.mem, hs.handles, hs.localPort, hs.allocated, hs.time, new ++ [o], ?_, ?_⟩
  · rw [Stack.record_log, hl, List.append_assoc]
  · rw [Stack.record_log, hl', ho, List.map_append, List.append_assoc]
    rfl

theorem raise (hs : Shifted k j h log₀ m m') (event : Event) (error : Err)
    (packet : Option Segment) :
    Shifted k j h log₀ (m.raise h event error packet)
      (m'.raise h event error (packet.map (Segment.shift k j))) :=
  hs.record _ _ (by simp [Obs.shift])

theorem next (hs : Shifted k j h log₀ m m') (a : Fin n) : (m'.mem a).next = (m.mem a).next := by
  rw [hs.mem, Function.update_apply]
  split
  · next ha => rw [ha]; rfl
  · rfl

theorem registered (hs : Shifted k j h log₀ m m') : m'.registered = m.registered := by
  rw [Stack.registered, Stack.registered, hs.handles]
  congr 1
  funext a
  exact hs.next a

theorem removeHandle (hs : Shifted k j h log₀ m m') (a : Fin n) :
    Shifted k j h log₀ (m.removeHandle a) (m'.removeHandle a) := by
  have hu : Lib.unlink (fun b => (m'.mem b).next) m'.handles a m'.registered =
      Lib.unlink (fun b => (m.mem b).next) m.handles a m.registered := by
    rw [hs.registered, hs.handles, show (fun b => (m'.mem b).next) = fun b => (m.mem b).next from
      funext hs.next]
  refine ⟨?_, ?_, hs.localPort, hs.allocated, hs.time, hs.log⟩
  · funext b
    change { m'.mem b with
      next := (Lib.unlink (fun b => (m'.mem b).next) m'.handles a m'.registered).2 b } = _
    rw [hu]
    by_cases hb : b = h
    · subst hb
      rw [Function.update_self, hs.self]
      rfl
    · rw [Function.update_of_ne hb, hs.mem, Function.update_of_ne hb]
      rfl
  · simp only [Stack.removeHandle, hu]

theorem releasePacket (hs : Shifted k j h log₀ m m') (pid : PacketId) :
    Shifted k j h log₀ (m.releasePacket pid) (m'.releasePacket pid) := by
  have hr := hs.record (.released pid) (.released pid) rfl
  exact ⟨hs.mem, hs.handles, hs.localPort, congrArg (List.erase · pid) hs.allocated,
    hs.time, hr.log⟩

theorem wait (hs : Shifted k j h log₀ m m') (ms : Nat) :
    Shifted k j h log₀ (m.wait ms) (m'.wait ms) :=
  ⟨hs.mem, hs.handles, hs.localPort, hs.allocated, congrArg (· + ms) hs.time, hs.log⟩

theorem setPackets (hs : Shifted k j h log₀ m m') (f f' : PacketId → Packet) :
    Shifted k j h log₀ { m with packets := f } { m' with packets := f' } :=
  ⟨hs.mem, hs.handles, hs.localPort, hs.allocated, hs.time, hs.log⟩

end Shifted

section Sending

variable {k j : BitVec 32} {h : Fin n} {log₀ : List (Obs n)} {m m' : Stack n}

/-- Of the packet, the IPv4 layer's answer depends on its size and interface only. -/
theorem ipv4SendPacket_congr (lower : Lower) (handle : Ipv4.Handle) (header : Ipv4Header)
    (pid : PacketId) {p p' : Packet} (hc : p'.count = p.count) (hi : p'.netIf = p.netIf) :
    (Ipv4.sendPacket lower handle header pid p').handle =
      (Ipv4.sendPacket lower handle header pid p).handle ∧
    (Ipv4.sendPacket lower handle header pid p').ret =
      (Ipv4.sendPacket lower handle header pid p).ret ∧
    (Ipv4.sendPacket lower handle header pid p').handed =
      (Ipv4.sendPacket lower handle header pid p).handed := by
  have hroute : Ipv4.chooseRoute lower header.destAddress p' =
      Ipv4.chooseRoute lower header.destAddress p := by
    rw [Ipv4.chooseRoute, Ipv4.chooseRoute, hi]
  unfold Ipv4.sendPacket
  rw [hroute]
  split
  · exact ⟨rfl, rfl, rfl⟩
  · split
    · exact ⟨rfl, rfl, rfl⟩
    · dsimp only
      split
      · unfold Ipv4.finalizeSendPacket Ipv4.fillHeader
        rw [hc]
        split_ifs
        · exact ⟨rfl, rfl, rfl⟩
        · exact ⟨rfl, rfl, rfl⟩
      · exact ⟨rfl, rfl, rfl⟩
      · exact ⟨rfl, rfl, rfl⟩

theorem outputSegment_shift (handle : Handle n) (flags : Byte) (header : Ipv4Header) {p p' : Packet}
    (hp : p.count = 0#16) (hp' : p'.count = 0#16) :
    outputSegment (handle.shift k j) flags header p' =
      (outputSegment handle flags header p).shiftSent k j := by
  have hb : p.bytes (p.current - p.count.toNat) p.count.toNat = [] := by rw [hp]; rfl
  have hb' : p'.bytes (p'.current - p'.count.toNat) p'.count.toNat = [] := by rw [hp']; rfl
  simp only [outputSegment, Segment.shiftSent, Segment.hasFlag, Handle.shift,
    Segment.mk.injEq, hb, hb',
    decide_eq_true_eq, true_and, and_true]
  split <;> rfl

theorem Shifted.finalizeAndSendPacket (hs : Shifted k j h log₀ m m') (flags : Byte) (pid : PacketId)
    (lower : Lower) (hp : (m.packets pid).count = 0#16) (hp' : (m'.packets pid).count = 0#16)
    (hc : (m'.packets pid).current = (m.packets pid).current)
    (hi : (m'.packets pid).netIf = (m.packets pid).netIf) :
    Shifted k j h log₀ (finalizeAndSendPacket m h flags pid lower).1
        (finalizeAndSendPacket m' h flags pid lower).1 ∧
      (finalizeAndSendPacket m' h flags pid lower).2 =
        (finalizeAndSendPacket m h flags pid lower).2 := by
  have hh : outputHeader (m'.mem h) lower (m'.packets pid) =
      outputHeader (m.mem h) lower (m.packets pid) := by
    simp only [outputHeader, Ipv4.chooseRoute, hs.self, hi, Handle.shift]
  have hip : (m'.mem h).ipv4Handle = (m.mem h).ipv4Handle := by rw [hs.self]; rfl
  unfold NanoIp.Tcp.finalizeAndSendPacket
  dsimp only
  rw [hh, hip]
  set header := outputHeader (m.mem h) lower (m.packets pid)
  set p := completePacket (m.mem h) flags header (m.packets pid)
  set p' := completePacket (m'.mem h) flags header (m'.packets pid) with hpdef'
  have hcount : p'.count = p.count := congrArg (BitVec.ofNat 16) hc
  obtain ⟨h₁, h₂, h₃⟩ := ipv4SendPacket_congr lower (m.mem h).ipv4Handle header pid hcount hi
  refine ⟨?_, h₂⟩
  have hmod := hs.modify
    (fun k => { k with
      ipv4Handle := (Ipv4.sendPacket lower (m.mem h).ipv4Handle header pid p).handle
      lastTxPacketIpv4Header :=
        if k.lastTxPacket.isSome then header else k.lastTxPacketIpv4Header })
    (fun k => { k with
      ipv4Handle := (Ipv4.sendPacket lower (m.mem h).ipv4Handle header pid p').handle
      lastTxPacketIpv4Header :=
        if k.lastTxPacket.isSome then header else k.lastTxPacketIpv4Header })
    (by rw [h₁]; rfl)
  have hout := outputSegment_shift (k := k) (j := j) (m.mem h) flags header hp hp'
  rw [← hs.self] at hout
  have hrec := ((hmod.setPackets
      (Function.update m.packets pid
        (Ipv4.sendPacket lower (m.mem h).ipv4Handle header pid p).packet)
      (Function.update m'.packets pid
        (Ipv4.sendPacket lower (m.mem h).ipv4Handle header pid p').packet)
    ).wait lower.elapsed).record
    (.output h (outputSegment (m.mem h) flags header (m.packets pid))
      (Ipv4.sendPacket lower (m.mem h).ipv4Handle header pid p).ret)
    (.output h (outputSegment (m'.mem h) flags header (m'.packets pid))
      (Ipv4.sendPacket lower (m.mem h).ipv4Handle header pid p').ret)
    (by rw [hout, h₂, Obs.shift, if_pos rfl])
  unfold recordHanded
  rw [h₃]
  split_ifs
  · exact hrec.record _ _ (by rw [h₂]; rfl)
  · exact hrec

theorem Shifted.sendControlFrame (hs : Shifted k j h log₀ m m') (flags : Byte) (lower : Lower) :
    Shifted k j h log₀ (sendControlFrame m h flags lower).1 (sendControlFrame m' h flags lower).1 ∧
      (sendControlFrame m' h flags lower).2 = (sendControlFrame m h flags lower).2 := by
  unfold NanoIp.Tcp.sendControlFrame allocatePacket
  rw [hs.allocated]
  cases lower.alloc with
  | error e => exact ⟨hs, rfl⟩
  | ok pid =>
    dsimp only
    split_ifs
    · exact ⟨hs, rfl⟩
    · have ha : Shifted k j h log₀
          { m with
            allocated := pid :: m.allocated
            packets := Function.update m.packets pid (allocatedPacket 0#16 (m.packets pid)) }
          { m' with
            allocated := pid :: m.allocated
            packets := Function.update m'.packets pid (allocatedPacket 0#16 (m'.packets pid)) } :=
        ⟨hs.mem, hs.handles, hs.localPort, rfl, hs.time, hs.log⟩
      obtain ⟨hf, hr⟩ := ha.finalizeAndSendPacket flags pid lower
        (by simp only [Function.update_self]; rfl) (by simp only [Function.update_self]; rfl)
        (by simp only [Function.update_self]; rfl) (by simp only [Function.update_self]; rfl)
      refine ⟨?_, hr⟩
      dsimp only
      rw [hr]
      split_ifs
      · exact hf
      · exact hf.releasePacket pid

end Sending

/-- The second outcome is the first with the numbers of `h` moved. -/
def Alike (k j : BitVec 32) (h : Fin n) (log₀ : List (Obs n)) (r r' : Stack n × Pc n) : Prop :=
  Shifted k j h log₀ r.1 r'.1 ∧ r'.2 = r.2.shift k j

section Receiving

variable {k j : BitVec 32} {h : Fin n} {log₀ : List (Obs n)} {m m' : Stack n} {seg : Segment}
  {lower : Lower}

theorem Shifted.state (hs : Shifted k j h log₀ m m') : (m'.mem h).state = (m.mem h).state := by
  rw [hs.self]; rfl

theorem Shifted.acknowledge (hs : Shifted k j h log₀ m m') (ack : BitVec 32) {ack' : BitVec 32}
    (ha : ack' = ack + j) (flags : Byte) (lower : Lower) :
    Shifted k j h log₀
      (NanoIp.Tcp.sendControlFrame (m.modify h fun k => { k with ackNumber := ack }) h
        flags lower).1
      (NanoIp.Tcp.sendControlFrame (m'.modify h fun k => { k with ackNumber := ack' }) h
        flags lower).1 ∧
    (NanoIp.Tcp.sendControlFrame (m'.modify h fun k => { k with ackNumber := ack' }) h
      flags lower).2 =
      (NanoIp.Tcp.sendControlFrame (m.modify h fun k => { k with ackNumber := ack }) h
        flags lower).2 :=
  (hs.modify _ _ (by rw [ha]; rfl)).sendControlFrame flags lower

theorem add_swap (a b c : BitVec 32) : a + b + c = a + c + b := by
  rw [BitVec.add_assoc, BitVec.add_comm b c, ← BitVec.add_assoc]

theorem shift_seq_succ : (seg.shift k j).seqNumber + 1#32 = seg.seqNumber + 1#32 + j :=
  add_swap _ _ _

theorem shift_nextSeq : (seg.shift k j).nextSeq = seg.nextSeq + j := add_swap _ _ _

theorem Shifted.seqSucc (hs : Shifted k j h log₀ m m') (s : State) :
    Shifted k j h log₀
      (m.modify h fun k => { k with state := s, seqNumber := k.seqNumber + 1#32 })
      (m'.modify h fun k => { k with state := s, seqNumber := k.seqNumber + 1#32 }) :=
  hs.modify _ _ (by simp only [Handle.shift, add_swap _ k])

theorem Shifted.resetConnection (hs : Shifted k j h log₀ m m') :
    Alike k j h log₀ (resetConnection m h lower) (resetConnection m' h lower) :=
  ⟨(((hs.setState .closed).sendControlFrame flagRst lower).1.removeHandle h).raise .closed
    .failure none, rfl⟩

theorem Shifted.finWaitFin (hs : Shifted k j h log₀ m m') :
    Alike k j h log₀ (finWaitFin m h seg lower) (finWaitFin m' h (seg.shift k j) lower) := by
  obtain ⟨hf, hr⟩ := hs.acknowledge (seg.seqNumber + 1#32) shift_seq_succ flagAck lower
  unfold NanoIp.Tcp.finWaitFin
  refine ⟨?_, rfl⟩
  dsimp only
  rw [hr]
  split_ifs
  · exact (hf.setState .timeWait).startTimeout
  · exact hf

theorem Shifted.rxSynSent (hs : Shifted k j h log₀ m m') :
    Alike k j h log₀ (rxSynSent m h seg lower) (rxSynSent m' h (seg.shift k j) lower) := by
  obtain ⟨hf, hr⟩ := hs.acknowledge (seg.seqNumber + 1#32) shift_seq_succ flagAck lower
  unfold NanoIp.Tcp.rxSynSent
  rw [show (seg.shift k j).flags = seg.flags from rfl]
  dsimp only
  rw [hr]
  split_ifs
  · exact ⟨(hf.setState .established).raise .connected .success none, rfl⟩
  · exact ⟨hf, rfl⟩
  · exact ⟨hs, rfl⟩

theorem Shifted.rxData (hs : Shifted k j h log₀ m m') :
    Alike k j h log₀ (rxData m h seg lower) (rxData m' h (seg.shift k j) lower) := by
  obtain ⟨hf, hr⟩ := hs.acknowledge seg.nextSeq shift_nextSeq flagAck lower
  have hseq : (seg.shift k j).seqNumber = (m'.mem h).ackNumber ↔
      seg.seqNumber = (m.mem h).ackNumber := by
    rw [hs.self]
    exact BitVec.add_left_inj j
  unfold NanoIp.Tcp.rxData
  by_cases he : seg.seqNumber = (m.mem h).ackNumber
  · rw [if_pos he, if_pos (hseq.mpr he)]
    dsimp only
    rw [hr]
    split_ifs
    · exact ⟨hf.raise .rx .success (some seg), rfl⟩
    · exact ⟨hf, rfl⟩
  · rw [if_neg he, if_neg (mt hseq.mp he)]
    exact ⟨hs, rfl⟩

theorem Shifted.rxFin (hs : Shifted k j h log₀ m m') :
    Alike k j h log₀ (rxFin m h seg lower) (rxFin m' h (seg.shift k j) lower) := by
  obtain ⟨hf, hr⟩ := hs.acknowledge (seg.seqNumber + 1#32) shift_seq_succ
    (flagFin ||| flagAck) lower
  unfold NanoIp.Tcp.rxFin
  dsimp only
  rw [hr]
  split_ifs
  · exact ⟨(hf.seqSucc .closeWait).startTimeout, rfl⟩
  · exact ⟨hf, rfl⟩

theorem Shifted.releaseLastTx (hs : Shifted k j h log₀ m m') :
    Shifted k j h log₀ (releaseLastTx m h) (releaseLastTx m' h) := by
  unfold NanoIp.Tcp.releaseLastTx
  rw [show (m'.mem h).lastTxPacket = (m.mem h).lastTxPacket by rw [hs.self]; rfl]
  cases (m.mem h).lastTxPacket with
  | none => exact hs.modify _ _ rfl
  | some pid => exact (hs.releasePacket pid).modify _ _ rfl

theorem Shifted.rxEstablished (hs : Shifted k j h log₀ m m') :
    Alike k j h log₀ (rxEstablished m h seg lower) (rxEstablished m' h (seg.shift k j) lower) := by
  unfold NanoIp.Tcp.rxEstablished
  rw [show (seg.shift k j).flags = seg.flags from rfl, show (seg.shift k j).payload =
    seg.payload from rfl,
    show (m'.mem h).lastTxPacket = (m.mem h).lastTxPacket by rw [hs.self]; rfl]
  split_ifs
  · exact hs.rxData
  · exact ⟨hs.releaseLastTx.raise .tx .success none, rfl⟩
  · exact hs.rxFin
  · exact ⟨hs, rfl⟩

theorem Shifted.rxStateMachine (hs : Shifted k j h log₀ m m') :
    Alike k j h log₀ (rxStateMachine m h seg lower)
      (rxStateMachine m' h (seg.shift k j) lower) := by
  have h0 : Alike k j h log₀ (m, .ready) (m', .ready) := ⟨hs, rfl⟩
  unfold NanoIp.Tcp.rxStateMachine
  rw [hs.state, show (seg.shift k j).flags = seg.flags from rfl]
  cases (m.mem h).state with
  | listen =>
    dsimp only
    split_ifs
    · exact ⟨hs.raise .accepting .success none, rfl⟩
    · exact h0
  | synReceived =>
    dsimp only
    split_ifs
    · exact ⟨(hs.setState .established).raise .accepted .success none, rfl⟩
    · exact h0
  | synSent => exact hs.rxSynSent
  | established => exact hs.rxEstablished
  | closeWait =>
    dsimp only
    split_ifs
    · exact ⟨((hs.setState .closed).removeHandle h).raise .closed .success none, rfl⟩
    · exact h0
  | finWait1 =>
    dsimp only
    split_ifs
    · exact ⟨(hs.setState .finWait2).startTimeout, rfl⟩
    · exact hs.finWaitFin
    · exact h0
  | finWait2 =>
    dsimp only
    split_ifs
    · exact hs.finWaitFin
    · exact h0
  | idle | closed => exact h0
  | closing | lastAck | timeWait => exact hs.resetConnection

/-- The acknowledgement number matches, or the shift does not change whether it is
ahead of the sequence number. -/
def SameSide (k seqNumber ackNumber : BitVec 32) : Prop :=
  ackNumber = seqNumber ∨ (ackNumber > seqNumber ↔ ackNumber + k > seqNumber + k)

theorem Shifted.rxAcknowledge (hs : Shifted k j h log₀ m m')
    (hside : SameSide k (m.mem h).seqNumber seg.ackNumber) :
    Alike k j h log₀ (rxAcknowledge m h seg lower) (rxAcknowledge m' h (seg.shift k j) lower) := by
  have hseq : (m'.mem h).seqNumber = (m.mem h).seqNumber + k := by rw [hs.self]; rfl
  have hack : (seg.shift k j).ackNumber = seg.ackNumber + k := rfl
  have heq : seg.ackNumber + k = (m.mem h).seqNumber + k ↔ seg.ackNumber = (m.mem h).seqNumber :=
    BitVec.add_left_inj k
  unfold NanoIp.Tcp.rxAcknowledge
  rw [hs.state, hseq, hack]
  by_cases ha : (m.mem h).state = .listen ∨ seg.ackNumber = (m.mem h).seqNumber
  · rw [if_pos ha, if_pos (ha.imp_right heq.mpr)]
    exact hs.rxStateMachine
  · rw [if_neg ha, if_neg (mt (Or.imp_right heq.mp) ha)]
    have hgt := hside.resolve_left fun he => ha (.inr he)
    by_cases hg : seg.ackNumber > (m.mem h).seqNumber
    · rw [if_pos hg, if_pos (hgt.mp hg)]
      exact hs.resetConnection
    · rw [if_neg hg, if_neg (mt hgt.mpr hg)]
      exact ⟨hs, rfl⟩

theorem Shifted.lookup (hs : Shifted k j h log₀ m m') :
    lookup m' (seg.shift k j) = lookup m seg := by
  have hport (a : Fin n) : (m'.mem a).port = (m.mem a).port ∧ (m'.mem a).destPort =
      (m.mem a).destPort := by
    rw [hs.mem, Function.update_apply]
    split
    · next ha => rw [ha]; exact ⟨rfl, rfl⟩
    · exact ⟨rfl, rfl⟩
  have hin (l : List (Fin n)) : ∀ could, lookupIn m' (seg.shift k j) could l =
      lookupIn m seg could l := by
    induction l with
    | nil => intro could; rfl
    | cons a l ih =>
      intro could
      rw [lookupIn, lookupIn, (hport a).1, (hport a).2, ih, ih]
      rfl
  rw [NanoIp.Tcp.lookup, NanoIp.Tcp.lookup, hs.registered, hin]

theorem rxAcknowledge_mismatch (m : Stack n) (h : Fin n) (seg : Segment) (lower : Lower)
    (hl : (m.mem h).state ≠ .listen) (ha : seg.ackNumber ≠ (m.mem h).seqNumber) :
    (rxAcknowledge m h seg lower).2 = if seg.ackNumber > (m.mem h).seqNumber then .inCallback else
      .ready := by
  unfold NanoIp.Tcp.rxAcknowledge
  rw [if_neg (not_or.mpr ⟨hl, ha⟩)]
  split_ifs <;> rfl

theorem Shifted.beforeAcknowledge (hs : Shifted k j h log₀ m m') (seg : Segment) :
    Shifted k j h log₀ (beforeAcknowledge m h seg) (beforeAcknowledge m' h (seg.shift k j)) := by
  have hr : resets m' h (seg.shift k j) ↔ resets m h seg := by
    unfold resets
    rw [hs.state]
    rfl
  unfold NanoIp.Tcp.beforeAcknowledge
  by_cases hres : resets m h seg
  · rw [if_pos hres, if_pos (hr.mpr hres)]
    exact ((hs.setState .closed).removeHandle h).raise .closed .connReset none
  · rw [if_neg hres, if_neg (mt hr.mp hres)]
    exact hs

/-- Shifting the numbers of a connection and of a segment shifts the reaction to it,
exactly when the acknowledgement number matches or stays on the same side. -/
theorem rxWhole_shift_iff (m : Stack n) (h : Fin n) (seg : Segment) (lower : Lower)
    (k j : BitVec 32) (hl : NanoIp.Tcp.lookup m seg = some h) (hs : (m.mem h).state ≠ .listen) :
    Alike k j h m.log (rxWhole m seg lower)
        (rxWhole (m.modify h (Handle.shift k j)) (seg.shift k j) lower) ↔
      SameSide k (m.mem h).seqNumber seg.ackNumber := by
  have hstart := Shifted.start k j h m
  have hb := hstart.beforeAcknowledge seg
  rw [rxWhole_eq lower hl, rxWhole_eq lower (hstart.lookup.trans hl)]
  constructor
  · intro ha
    by_cases he : seg.ackNumber = (m.mem h).seqNumber
    · exact .inl he
    · have hpc := ha.2
      have hseq' : ((beforeAcknowledge (m.modify h (Handle.shift k j)) h (seg.shift k j)).mem
        h).seqNumber =
          (m.mem h).seqNumber + k := by
        rw [hb.self, ← beforeAcknowledge_seqNumber m h seg]
        rfl
      have he' : (seg.shift k j).ackNumber ≠ (m.mem h).seqNumber + k :=
        fun heq => he ((BitVec.add_left_inj k).mp heq)
      rw [rxAcknowledge_mismatch _ h seg lower (beforeAcknowledge_state m h seg hs)
          (by rwa [beforeAcknowledge_seqNumber]),
        rxAcknowledge_mismatch _ h (seg.shift k j) lower
          (by rw [hb.state]; exact beforeAcknowledge_state m h seg hs) (by rwa [hseq']),
        hseq', beforeAcknowledge_seqNumber] at hpc
      right
      change seg.ackNumber > (m.mem h).seqNumber ↔ (seg.shift k j).ackNumber >
        (m.mem h).seqNumber + k
      split_ifs at hpc with h₁ h₂ h₂
      · exact iff_of_true h₂ h₁
      · cases hpc
      · cases hpc
      · exact iff_of_false h₂ h₁
  · intro hside
    exact hb.rxAcknowledge (by rwa [beforeAcknowledge_seqNumber])

end Receiving

/-- A future acknowledgement resets the connection at sequence number 8 and at 7. -/
theorem rxWhole_shift_down : ∃ m : Stack 1, (m.mem 0).state = .established ∧
    Alike 0xFFFFFFFF#32 5#32 0 m.log
      (rxWhole m (peerSegment 101#32 9#32 flagAck []) (transmitting 2))
      (rxWhole (m.modify 0 (Handle.shift 0xFFFFFFFF#32 5#32))
        ((peerSegment 101#32 9#32 flagAck []).shift 0xFFFFFFFF#32 5#32) (transmitting 2)) := by
  obtain ⟨x, -, hx⟩ := Lib.exists_of_runInputs step Lib.anyStep
    (initial 1 (fun _ => blankPacket) portPoolStart 7) (handshake 0 7 100#32)
    (fun x => (x.1.mem 0).state = .established ∧ (x.1.mem 0).seqNumber = 8#32 ∧
      lookup x.1 (peerSegment 101#32 9#32 flagAck []) = some 0) (by decide)
  obtain ⟨hs, hseq, hl⟩ := of_decide_eq_true hx
  refine ⟨x.1, hs, (rxWhole_shift_iff x.1 0 _ (transmitting 2) _ _ hl
    (by rw [hs]; exact nofun)).mpr ?_⟩
  rw [hseq]
  exact .inr (by decide)

/-- An old acknowledgement is ignored at sequence number 8 and resets the connection
at sequence number 0. -/
theorem rxWhole_shift_wrap :
    ¬ ∀ (n : Nat) (packets : PacketId → Packet) (port : BitVec 16) (time : Nat)
    (m : Stack n) (h : Fin n) (seg : Segment) (lower : Lower) (k j : BitVec 32),
    Lib.Reach step Lib.anyStep (initial n packets port time) (m, .ready) → lookup m seg = some h →
    (m.mem h).state ≠ .closed → (m.mem h).state ≠ .idle → (m.mem h).state ≠ .listen →
    Alike k j h m.log (rxWhole m seg lower)
      (rxWhole (m.modify h (Handle.shift k j)) (seg.shift k j) lower) := by
  intro hall
  obtain ⟨⟨m, pc⟩, hr, hx⟩ := Lib.exists_of_runInputs step Lib.anyStep
    (initial 1 (fun _ => blankPacket) portPoolStart 7) (handshake 0 7 100#32)
    (fun x => x.2 = .ready ∧ (x.1.mem 0).state = .established ∧
      lookup x.1 (peerSegment 101#32 7#32 flagAck []) = some 0 ∧
      (rxWhole x.1 (peerSegment 101#32 7#32 flagAck []) (transmitting 2)).2 = .ready ∧
      (rxWhole (x.1.modify 0 (Handle.shift 0xFFFFFFF8#32 0#32))
        ((peerSegment 101#32 7#32 flagAck []).shift 0xFFFFFFF8#32 0#32) (transmitting 2)).2 =
          .inCallback)
    (by decide)
  obtain ⟨hpc, hs, hl, h₁, h₂⟩ := of_decide_eq_true hx
  dsimp only at hpc hs hl h₁ h₂
  subst hpc
  have halike := hall 1 _ _ _ m 0 _ (transmitting 2) 0xFFFFFFF8#32 0#32 hr hl
    (by rw [hs]; exact nofun) (by rw [hs]; exact nofun) (by rw [hs]; exact nofun)
  have hpc := halike.2
  rw [h₁, h₂] at hpc
  cases hpc

end NanoIp.Tcp
