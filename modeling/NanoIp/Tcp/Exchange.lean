import NanoIp.Tcp.Delivery

/-!
# Data and acknowledgements of an established connection

What sending a packet, receiving in-sequence data and receiving an acknowledgement
do exactly, when every frame is transmitted at once: which segment goes out, which
event is raised and how the connection changes. Nothing else of the module does.
-/
namespace NanoIp.Tcp

variable {n : Nat}

/-- The segment that a log entry says was transmitted. -/
def Obs.transmitted : Obs n → Option Segment
  | .output _ seg .success => some seg
  | _ => none

def Stack.outputs (m : Stack n) : List Segment := m.log.filterMap Obs.transmitted

/-- The segment carries the ports and numbers of handle `k`, with ACK among its flags. -/
structure Segment.From (seg : Segment) (k : Handle n) (flags : Byte) : Prop where
  srcPort : seg.srcPort = k.port
  destPort : seg.destPort = k.destPort
  seqNumber : seg.seqNumber = k.seqNumber
  ackNumber : seg.ackNumber = k.ackNumber
  flags : seg.flags = flags

theorem outputSegment_from (k : Handle n) (flags : Byte) (hf : flags &&& flagAck ≠ 0#8)
    (header : Ipv4Header) (p : Packet) :
    (outputSegment k flags header p).From k flags := ⟨rfl, rfl, rfl, if_pos hf, rfl⟩

/-- Only handle `h` changes, and its connection becomes `k`. -/
structure Only (m m' : Stack n) (h : Fin n) (k : Handle n) : Prop where
  handles : m'.handles = m.handles
  mem : ∃ k', m'.mem = Function.update m.mem h k' ∧ k'.conn = k ∧ k'.next = (m.mem h).next

namespace Only

variable {m m' : Stack n} {h : Fin n} {k : Handle n}

theorem refl (m : Stack n) (h : Fin n) : Only m m h (m.mem h).conn :=
  ⟨rfl, m.mem h, (Function.update_eq_self h m.mem).symm, rfl, rfl⟩

theorem conn (ho : Only m m' h k) : (m'.mem h).conn = k := by
  obtain ⟨k', hm, hk, -⟩ := ho.mem
  rw [hm, Function.update_self, hk]

theorem congr {m'' : Stack n} (ho : Only m m' h k) (hm : m''.mem = m'.mem)
    (hh : m''.handles = m'.handles) :
    Only m m'' h k := ⟨hh.trans ho.handles, by rw [hm]; exact ho.mem⟩

theorem modify (ho : Only m m' h k) (f : Handle n → Handle n)
    (hf : ∀ k, (f k).conn = (f k.conn).conn) (hn : ∀ k, (f k).next = k.next) :
    Only m (m'.modify h f) h (f k).conn := by
  obtain ⟨k', hm, hk, hnext⟩ := ho.mem
  refine ⟨ho.handles, f k', ?_, by rw [hf, hk], by rw [hn, hnext]⟩
  show Function.update m'.mem h (f (m'.mem h)) = _
  rw [hm, Function.update_self, Function.update_idem]

theorem update {ip : Ipv4.Handle} {header : Ipv4Header} {m'' : Stack n} (ho : Only m m' h k)
    (hm : m''.mem = Function.update m'.mem h
      { m'.mem h with ipv4Handle := ip, lastTxPacketIpv4Header := header })
    (hh : m''.handles = m'.handles) : Only m m'' h k := by
  obtain ⟨k', hm', hk, hnext⟩ := ho.mem
  refine ⟨hh.trans ho.handles, { k' with
    ipv4Handle := ip,
    lastTxPacketIpv4Header := header }, ?_, hk, hnext⟩
  rw [hm, hm', Function.update_self, Function.update_idem]

theorem sendControlFrame (ho : Only m m' h k) (flags : Byte) (lower : Lower) :
    Only m (sendControlFrame m' h flags lower).1 h k := by
  obtain ⟨ip, header, hm⟩ := sendControlFrame_mem m' h flags lower
  exact ho.update hm (sendControlFrame_handles _ _ _ _)

theorem finalizeAndSendPacket (ho : Only m m' h k) (flags : Byte) (pid : PacketId) (lower : Lower) :
    Only m (finalizeAndSendPacket m' h flags pid lower).1 h k := by
  obtain ⟨ip, header, hm⟩ := finalizeAndSendPacket_mem m' h flags pid lower
  exact ho.update hm (finalizeAndSendPacket_handles _ _ _ _ _)

theorem raise (ho : Only m m' h k) (event : Event) (error : Err) (packet : Option Segment) :
    Only m (m'.raise h event error packet) h k := ho.congr rfl rfl

end Only

/-- `h` is registered, and no other handle has its ports. -/
def Serves (m : Stack n) (h : Fin n) : Prop :=
  h ∈ m.registered ∧ ∀ k ∈ m.registered, (m.mem k).port = (m.mem h).port →
    (m.mem k).destPort = (m.mem h).destPort → k = h

instance (m : Stack n) (h : Fin n) : Decidable (Serves m h) := inferInstanceAs (Decidable (_ ∧ _))

theorem Serves.frame {m m' : Stack n} {h : Fin n} {k : Handle n} (hv : Serves m h)
    (ho : Only m m' h k) (hp : k.port = (m.mem h).port) (hd : k.destPort = (m.mem h).destPort) :
    Serves m' h := by
  obtain ⟨k', hm, hk, hnext⟩ := ho.mem
  have hport (a : Fin n) : (m'.mem a).port = (m.mem a).port ∧ (m'.mem a).destPort =
    (m.mem a).destPort ∧
      (m'.mem a).next = (m.mem a).next := by
    rw [hm, Function.update_apply]
    split
    · next ha =>
      rw [ha, ← hp, ← hd, ← hk]
      exact ⟨rfl, rfl, hnext⟩
    · exact ⟨rfl, rfl, rfl⟩
  have hreg : m'.registered = m.registered := by
    unfold Stack.registered
    rw [ho.handles, show (fun a => (m'.mem a).next) = fun a => (m.mem a).next from
      funext fun a => (hport a).2.2]
  refine ⟨by rw [hreg]; exact hv.1, fun a ha => ?_⟩
  rw [hreg] at ha
  rw [(hport a).1, (hport a).2.1, (hport h).1, (hport h).2.1]
  exact hv.2 a ha

theorem Serves.lookup {m : Stack n} {h : Fin n} {seg : Segment} (hv : Serves m h)
    (hp : seg.destPort = (m.mem h).port) (hd : seg.srcPort = (m.mem h).destPort) :
    lookup m seg = some h := by
  have hin (l : List (Fin n)) : ∀ c, h ∈ l → (∀ k ∈ l, (m.mem k).port = (m.mem h).port →
      (m.mem k).destPort = (m.mem h).destPort → k = h) → lookupIn m seg c l = some h := by
    induction l with
    | nil => intro c hm _; cases hm
    | cons k l ih =>
      intro c hm hu
      have hrest (hne : h ≠ k) (c' : Option (Fin n)) : lookupIn m seg c' l = some h :=
        ih c' ((List.mem_cons.mp hm).resolve_left hne) fun a ha => hu a (List.mem_cons_of_mem _ ha)
      rw [lookupIn, hp, hd]
      split_ifs with h₁ h₂
      · rw [hu k List.mem_cons_self h₁ h₂]
      · exact hrest (by rintro rfl; exact h₂ rfl) _
      · exact hrest (by rintro rfl; exact h₁ rfl) _
  exact hin m.registered none hv.1 hv.2

section Outputs

variable (m : Stack n) (h : Fin n) (flags : Byte) (pid : PacketId) (lower : Lower)

theorem outputs_congr {m m' : Stack n} (hl : m'.log = m.log) : m'.outputs = m.outputs := by
  rw [Stack.outputs, Stack.outputs, hl]

theorem outputs_record (o : Obs n) : (m.record o).outputs = m.outputs ++ o.transmitted.toList := by
  rw [Stack.outputs, Stack.record_log, List.filterMap_append]
  cases ho : o.transmitted <;> simp [Stack.outputs, ho]

theorem outputs_raise (event : Event) (error : Err) (packet : Option Segment) :
    (m.raise h event error packet).outputs = m.outputs :=
      (outputs_record m _).trans (List.append_nil _)

theorem outputs_recordHanded (sent : Ipv4.Sent) :
    (recordHanded m h pid sent).outputs = m.outputs := by
  unfold recordHanded
  split
  · exact (outputs_record m _).trans (List.append_nil _)
  · rfl

theorem outputs_releasePacket : (m.releasePacket pid).outputs = m.outputs := by
  simp [Stack.outputs, Stack.releasePacket, Obs.transmitted]

theorem finalizeAndSendPacket_outputs
    (hr : (finalizeAndSendPacket m h flags pid lower).2 = .success) :
    (finalizeAndSendPacket m h flags pid lower).1.outputs = m.outputs ++
      [outputSegment (m.mem h) flags (outputHeader (m.mem h) lower (m.packets pid))
        (m.packets pid)] := by
  unfold finalizeAndSendPacket at hr ⊢
  dsimp only at hr ⊢
  rw [outputs_recordHanded, outputs_record, hr]
  rfl

/-- A control frame that is transmitted carries no payload. -/
theorem sendControlFrame_outputs (hf : flags &&& flagAck ≠ 0#8)
    (hr : (sendControlFrame m h flags lower).2 = .success) : ∃ seg : Segment,
      seg.From (m.mem h) flags ∧ seg.payload = [] ∧
      (sendControlFrame m h flags lower).1.outputs = m.outputs ++ [seg] := by
  rcases sendControlFrame_cases m h flags lower with ⟨e, hno, he⟩ | ⟨pid, hp, m', ret, hfin, he⟩
  · rw [he] at hr
    obtain rfl : e = .success := hr
    cases hno
  · rw [he] at hr ⊢
    obtain rfl : ret = .success := hr
    have hout := finalizeAndSendPacket_outputs (allocatePacket m (.ok pid) 0#16).1 h flags pid lower
      (by rw [hfin])
    rw [hfin, allocatePacket_mem, outputs_congr (allocatePacket_log m _ _)] at hout
    refine ⟨_, outputSegment_from _ _ hf _ _, ?_, hout⟩
    unfold allocatePacket
    dsimp only
    rw [if_neg hp]
    dsimp only
    rw [Function.update_self]
    rfl

end Outputs

section Receive

variable {m : Stack n} {h : Fin n} {seg : Segment} {lower : Lower}

/-- In-sequence data that acknowledges everything is acknowledged and given to the
application. -/
theorem rxFrame_data (hl : lookup m seg = some h) (hs : (m.mem h).state = .established)
    (hack : seg.ackNumber = (m.mem h).seqNumber) (hf : seg.flags = flagPsh ||| flagAck)
    (hp : seg.payload ≠ []) (hseq : seg.seqNumber = (m.mem h).ackNumber)
    (hr : controlResult m h lower = .success) :
    rxFrame m seg lower =
      ((sendControlFrame (m.modify h fun k => { k with ackNumber := seg.nextSeq })
      h flagAck lower).1.raise h .rx .success (some seg), .inRx seg) := by
  have hres : ¬ resets m h seg := fun hres => absurd hres.1 (by rw [Segment.hasFlag, hf]; decide)
  have hlen : seg.payload.length ≠ 0 ∧ seg.flags = flagPsh ||| flagAck :=
    ⟨fun hz => hp (List.length_eq_zero_iff.mp hz), hf⟩
  rw [rxFrame, hl]
  dsimp only
  rw [rxHandle, dif_neg hres, rxAcknowledge, if_pos (.inr hack), rxStateMachine, hs]
  dsimp only
  rw [rxEstablished, if_pos hlen, rxData, if_pos hseq]
  dsimp only
  rw [sendControlFrame_ret, controlResult_ack, if_pos hr]

theorem rxFrame_ack (lower : Lower) {pid : PacketId} (hl : lookup m seg = some h)
    (hs : (m.mem h).state = .established) (hack : seg.ackNumber = (m.mem h).seqNumber)
    (hf : seg.flags = flagAck) (hp : seg.payload = []) (hlast : (m.mem h).lastTxPacket = some pid) :
    rxFrame m seg lower = ((releaseLastTx m h).raise h .tx .success none, .inCallback) := by
  have hres : ¬ resets m h seg := fun hres => absurd hres.1 (by rw [Segment.hasFlag, hf]; decide)
  have hnone : ¬ (seg.payload.length ≠ 0 ∧ seg.flags = flagPsh ||| flagAck) := fun hc =>
    hc.1 (by rw [hp]; rfl)
  have hsome : (m.mem h).lastTxPacket.isSome = true ∧ seg.flags = flagAck :=
    ⟨by rw [hlast]; rfl, hf⟩
  rw [rxFrame, hl]
  dsimp only
  rw [rxHandle, dif_neg hres, rxAcknowledge, if_pos (.inr hack), rxStateMachine, hs]
  dsimp only
  rw [rxEstablished, if_neg hnone, if_pos hsome]

end Receive

/-- Only handle `h` changes: its connection becomes `k`, it transmits `out` and is raised
`events`. -/
structure Outcome (m m' : Stack n) (h : Fin n) (k : Handle n) (out : List Segment)
    (events : List Raised) :
    Prop where
  only : Only m m' h k
  outputs : m'.outputs = m.outputs ++ out
  events : m'.eventsOf h = m.eventsOf h ++ events

section Outcomes

variable {m : Stack n} {h : Fin n} {seg : Segment} {lower : Lower}

theorem Outcome.silent {m' : Stack n} (hm : m'.mem = m.mem) (hh : m'.handles = m.handles)
    (ho : m'.outputs = m.outputs) (he : m'.eventsOf h = m.eventsOf h) :
    Outcome m m' h (m.mem h).conn [] [] :=
  ⟨(Only.refl m h).congr hm hh, by rw [ho, List.append_nil], by rw [he, List.append_nil]⟩

theorem data_outcome (lower : Lower) (hl : lookup m seg = some h)
    (hs : (m.mem h).state = .established) (hack : seg.ackNumber = (m.mem h).seqNumber)
    (hf : seg.flags = flagPsh ||| flagAck) (hp : seg.payload ≠ [])
    (hseq : seg.seqNumber = (m.mem h).ackNumber) (hr : controlResult m h lower = .success) :
    ∃ ack : Segment,
      ack.From { (m.mem h).conn with ackNumber := seg.nextSeq } flagAck ∧ ack.payload = [] ∧
      Outcome m (rxFrame m seg lower).1 h { (m.mem h).conn with ackNumber := seg.nextSeq } [ack]
        [(.rx, .success, some seg)] := by
  have hconn (k : Handle n) : ({ k with ackNumber := seg.nextSeq } : Handle n).conn =
      ({ k.conn with ackNumber := seg.nextSeq } : Handle n).conn := rfl
  have hret : (sendControlFrame (m.modify h fun k => { k with ackNumber := seg.nextSeq }) h
    flagAck lower).2 =
      .success := by rw [sendControlFrame_ret, controlResult_ack, hr]
  obtain ⟨ack, hfrom, hempty, hout⟩ := sendControlFrame_outputs _ h flagAck lower (by decide) hret
  rw [Stack.modify_self] at hfrom
  rw [rxFrame_data hl hs hack hf hp hseq hr]
  refine ⟨ack, ⟨hfrom.1, hfrom.2, hfrom.3, hfrom.4, hfrom.5⟩, hempty, ?_, ?_, ?_⟩
  · exact (((Only.refl m h).modify _ hconn fun _ => rfl).sendControlFrame flagAck lower).raise _ _ _
  · rw [outputs_raise, hout]
    rfl
  · exact (((Untouched.refl m h).becomes.modify _ hconn).sendControlFrame flagAck lower
      |>.raise _ _ _).2

theorem ack_outcome {pid : PacketId} (hl : lookup m seg = some h)
    (hs : (m.mem h).state = .established) (hack : seg.ackNumber = (m.mem h).seqNumber)
    (hf : seg.flags = flagAck) (hp : seg.payload = []) (hlast : (m.mem h).lastTxPacket = some pid) :
    Outcome m (rxFrame m seg lower).1 h { (m.mem h).conn with lastTxPacket := none } []
      [(.tx, .success, none)] := by
  have hrel : releaseLastTx m h = (m.releasePacket pid).modify h fun k =>
      { k with lastTxPacket := none } := by
    rw [releaseLastTx, hlast]
  rw [rxFrame_ack lower hl hs hack hf hp hlast]
  refine ⟨?_, ?_, ((releaseLastTx_becomes m h).raise _ _ _).2⟩
  · rw [hrel]
    have hrelease : Only m (m.releasePacket pid) h (m.mem h).conn := (Only.refl m h).congr rfl rfl
    exact (hrelease.modify (fun k => { k with lastTxPacket := none }) (fun _ => rfl) fun _ =>
      rfl).raise _ _ _
  · rw [outputs_raise, hrel, List.append_nil]
    exact outputs_releasePacket m pid

theorem ofNat_toNat_zeroExtend (c : BitVec 16) : BitVec.ofNat 32 c.toNat = c.zeroExtend 32 := by
  apply BitVec.eq_of_toNat_eq
  simp

/-- An accepted packet is transmitted as one data segment and counts in sequence space. -/
theorem send_outcome {pid : PacketId} (hl : (m.mem h).lastTxPacket = none)
    (hs : (m.mem h).state = .established) (hr : (sendPacket m h pid lower).2 = .success) :
    ∃ seg : Segment,
      seg.From (m.mem h) (flagPsh ||| flagAck) ∧ seg.payload.length = (m.packets pid).count.toNat ∧
      Outcome m (sendPacket m h pid lower).1 h { (m.mem h).conn with
        lastTxPacket := some pid
        lastTxPacketPos := (m.packets pid).current
        lastTxPacketCount := (m.packets pid).count
        txRetryCount := 0#8
        seqNumber := seg.nextSeq } [seg] [] := by
  have hevents := (sendPacket_becomes pid lower hl hs).2
  rw [sendPacket_eq pid lower hl hs] at hr hevents ⊢
  dsimp only at hr hevents ⊢
  have hout := finalizeAndSendPacket_outputs (keepPacket m h pid) h (flagPsh ||| flagAck)
    pid lower hr
  rw [if_pos (by rw [hr]; rfl)] at hevents ⊢
  have hkeep : Only m (keepPacket m h pid) h { (m.mem h).conn with
      lastTxPacket := some pid
      lastTxPacketPos := (m.packets pid).current
      lastTxPacketCount := (m.packets pid).count
      txRetryCount := 0#8 } := by
    have hmod := (Only.refl m h).modify (fun k => { k with
      lastTxPacket := some pid
      lastTxPacketPos := (m.packets pid).current
      lastTxPacketCount := (m.packets pid).count
      txRetryCount := 0#8 }) (fun _ => rfl) fun _ => rfl
    exact hmod.congr rfl rfl
  have honly := (hkeep.finalizeAndSendPacket (flagPsh ||| flagAck) pid lower).modify
    (fun k => { k with seqNumber := k.seqNumber + k.lastTxPacketCount.zeroExtend 32 })
      (fun _ => rfl) fun _ => rfl
  have hmem : (keepPacket m h pid).mem h = { m.mem h with
      lastTxPacket := some pid
      lastTxPacketPos := (m.packets pid).current
      lastTxPacketCount := (m.packets pid).count
      txRetryCount := 0#8 } := by rw [keepPacket_mem, Function.update_self]
  have hcount : ((keepPacket m h pid).packets pid).count = (m.packets pid).count := by
    show (Function.update m.packets pid _ pid).count = _
    rw [Function.update_self]
  have hfrom := outputSegment_from ((keepPacket m h pid).mem h) (flagPsh ||| flagAck) (by decide)
    (outputHeader ((keepPacket m h pid).mem h) lower ((keepPacket m h pid).packets pid))
    ((keepPacket m h pid).packets pid)
  have hlen : (outputSegment ((keepPacket m h pid).mem h) (flagPsh ||| flagAck)
      (outputHeader ((keepPacket m h pid).mem h) lower ((keepPacket m h pid).packets pid))
      ((keepPacket m h pid).packets pid)).payload.length = (m.packets pid).count.toNat := by
    rw [← hcount]
    exact Packet.bytes_length _ _ _
  generalize outputSegment ((keepPacket m h pid).mem h) (flagPsh ||| flagAck)
      (outputHeader ((keepPacket m h pid).mem h) lower ((keepPacket m h pid).packets pid))
      ((keepPacket m h pid).packets pid) = seg at hout hfrom hlen
  rw [hmem] at hfrom
  have hnext : (m.mem h).seqNumber + (m.packets pid).count.zeroExtend 32 = seg.nextSeq := by
    rw [Segment.nextSeq, hfrom.seqNumber, hlen, ofNat_toNat_zeroExtend]
  refine ⟨seg, ⟨hfrom.1, hfrom.2, hfrom.3, hfrom.4, hfrom.5⟩, hlen, ?_, hout, hevents⟩
  rw [← hnext]
  exact honly

end Outcomes

end NanoIp.Tcp
