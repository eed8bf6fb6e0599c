import NanoIp.Core.Fragments
import NanoIp.Tcp.Decode
import NanoIp.Tcp.Machine

/-!
# A segment through IPv4

A segment that is finalised, carried by IPv4 and decoded is the one that was sent,
whatever padding follows it: the length comes from the IPv4 header, never from the frame.
-/
namespace NanoIp.Tcp

open Packet (be16 be32)

variable {n : Nat}

section Receive

variable {q : Packet} {k : Handle n} {flags : Byte} {header : Ipv4Header} {payload : List Byte}

/-- A segment stands at `current`; padding may follow it. -/
structure Contains (q : Packet) (k : Handle n) (flags : Byte) (header : Ipv4Header)
    (payload : List Byte) : Prop where
  bytes : q.Holds 0 (segmentBytes k flags header payload)
  count : payload.length + 20 ≤ q.count.toNat

theorem Contains.fields (h : Contains q k flags header payload) :
    srcPortOf q = k.port ∧ destPortOf q = k.destPort ∧ seqNumberOf q = k.seqNumber ∧
      ackNumberOf q = (if flags &&& flagAck ≠ 0#8 then k.ackNumber else 0#32) ∧ flagsOf q = flags ∧
      optionsLengthOf q = 0#16 ∧ (q.readSkipBytes headerSize).Holds 0 payload := by
  have hbytes := h.bytes
  dsimp only [segmentBytes, beforeChecksum] at hbytes
  simp only [List.append_assoc, Packet.holds_append] at hbytes
  obtain ⟨hsrc, hdest, hseq, hack, hoffset, -, -, -, hpayload⟩ := hbytes
  have hoffset' : q.byteAt 12 = headerDataOffset := hoffset.byteAt
  refine ⟨hsrc.wordAt, hdest.wordAt, hseq.longAt, hack.longAt, hoffset.tail.byteAt, ?_,
    (Packet.holds_readSkipBytes headerSize).mpr hpayload⟩
  rw [optionsLengthOf, hoffset']
  rfl

theorem Contains.checksum (h : Contains q k flags header payload) :
    computeCS header (q.bytes q.current (BitVec.ofNat 16 (payload.length + 20)).toNat)
      (BitVec.ofNat 16 (payload.length + 20)) = 0#16 := by
  have hfit : payload.length + 20 < 2 ^ 16 := Nat.lt_of_le_of_lt h.count q.count.isLt
  have hlen : (BitVec.ofNat 16 (payload.length + 20)).toNat = payload.length + 20 := by
    rw [BitVec.toNat_ofNat, Nat.mod_eq_of_lt hfit]
  have hpseudo : (pseudoHeader header (BitVec.ofNat 16 (payload.length + 20))).length = 12 := rfl
  have hbytes := h.bytes
  rw [Packet.Holds, segmentBytes_length, Nat.add_zero] at hbytes
  rw [hlen, hbytes, computeCS, computeInternetCS_eq_zero_iff]
  · refine residue_stored _ _ _ (by simp) ?_
    simp only [hpseudo, List.length_append, beforeChecksum_length, List.length_cons,
      List.length_nil]
    omega
  · rw [hpseudo, segmentBytes_length]
    omega

/-- The segment is decoded with what its sender put in. -/
theorem decode_contains (h : Contains q k flags header payload) (netIf : NetIf)
    (ethHeader : Ethernet.Header) :
    ∃ seg, decode netIf ⟨header, ethHeader, BitVec.ofNat 16 (payload.length + 20)⟩ q = .ok seg ∧
      seg.srcAddress = header.srcAddress ∧ seg.destAddress = header.destAddress ∧
        seg.srcPort = k.port ∧
      seg.destPort = k.destPort ∧ seg.seqNumber = k.seqNumber ∧
      seg.ackNumber = (if flags &&& flagAck ≠ 0#8 then k.ackNumber else 0#32) ∧ seg.flags = flags ∧
      seg.payload = payload := by
  obtain ⟨hsrc, hdest, hseq, hack, hflags, hoptions, hpayload⟩ := h.fields
  have hcount := h.count
  have hfit : payload.length + 20 < 2 ^ 16 := Nat.lt_of_le_of_lt h.count q.count.isLt
  have hmin : headerSize ≤ q.count := by
    rw [BitVec.le_def]
    change 20 ≤ _
    omega
  have hlength : (payloadLength
    ⟨header, ethHeader, BitVec.ofNat 16 (payload.length + 20)⟩ q).toNat =
      payload.length := by
    rw [payloadLength, hoptions, headerSize, BitVec.add_zero, BitVec.toNat_sub]
    simp only [BitVec.toNat_ofNat]
    omega
  have hbehind : behindOptions q = q.readSkipBytes headerSize := by
    rw [behindOptions, hoptions]
    simp [Packet.readSkipBytes]
  have hroom : payloadLength ⟨header, ethHeader, BitVec.ofNat 16 (payload.length + 20)⟩ q ≤
      (behindOptions q).count := by
    rw [BitVec.le_def, hlength, hbehind]
    change _ ≤ (q.count - headerSize).toNat
    rw [BitVec.toNat_sub_of_le hmin]
    change _ ≤ _ - 20
    omega
  have hpasses : checksumPasses netIf header q (BitVec.ofNat 16 (payload.length + 20)) = true := by
    rw [checksumPasses, decide_eq_true h.checksum, Bool.or_true]
  refine ⟨segmentOf ⟨header, ethHeader, BitVec.ofNat 16 (payload.length + 20)⟩ q, ?_, rfl, rfl,
    hsrc, hdest, hseq,
    hack, hflags, ?_⟩
  · rw [decode_eq, if_neg (BitVec.not_lt.mpr hmin)]
    dsimp only
    rw [if_pos hpasses, if_pos hroom]
  · change (behindOptions q).bytes (behindOptions q).current (payloadLength _ q).toNat = payload
    rw [hlength, hbehind]
    exact hpayload

end Receive

section Send

variable {k : Handle n} {lower : Lower} {p : Packet} {gateway : Ipv4Address} {netIf : NetIf}
  {payload : List Byte}

theorem sentHeader_outputHeader
    (hroute : Ipv4.chooseRoute lower k.destIpv4Address p = .ok (gateway, netIf)) :
    Ipv4.sentHeader (outputHeader k lower p) netIf = outputHeader k lower p := by
  rw [Ipv4.sentHeader, outputHeader, hroute]
  dsimp only
  split_ifs with h₁ h₂ <;> simp_all

theorem outputSegment_payload (flags : Byte) (header : Ipv4Header) (h : p.Composed 54 payload) :
    (outputSegment k flags header p).payload = payload := by
  change p.bytes (p.current - p.count.toNat) p.count.toNat = payload
  rw [h.current, h.count, Nat.add_sub_cancel]
  exact h.bytes

/-- The segment that the IPv4 layer is given, as a receiver finds it. -/
structure CarriedTo (frame : Packet) (len : Nat) (r : Packet) : Prop where
  bytes : r.Holds 0 (frame.bytes Ethernet.headerSize len)
  count : len ≤ r.count.toNat

theorem carriedTo_frame (frame : Packet) {len : Nat} (h : len ≤ frame.count.toNat) :
    CarriedTo frame len { frame with current := Ethernet.headerSize } where
  bytes := by
    rw [Packet.Holds, Packet.bytes_length]
    rfl
  count := h

/-- What a receiver decodes of a carried packet. -/
theorem decode_carried (flags : Byte) (hp : p.Composed 54 payload)
    (hfit : payload.length + 58 < 2 ^ 16) {q : Packet}
    (hq : Ethernet.Framed q (Ipv4.packetBytes (outputHeader k lower p)
      (segmentBytes k flags (outputHeader k lower p) payload))) (ethHeader : Ethernet.Header)
    {r : Packet} (hr : CarriedTo (Ethernet.sendPacket netIf ethHeader q) (payload.length + 40) r)
    {rxIf : NetIf} (hours : Ipv4.isForUs rxIf k.destIpv4Address = true)
    {protocols : List (Ipv4.Protocol (Except Err Segment))}
    (hfound : protocols.find? (fun p => p.protocol = protocol) = some ipv4Protocol)
    (rxEthHeader : Ethernet.Header) :
    Ipv4.rxFrame protocols rxIf rxEthHeader r =
      .ok (.ok (outputSegment k flags (outputHeader k lower p) p)) := by
  have hlen : (Ipv4.packetBytes (outputHeader k lower p)
      (segmentBytes k flags (outputHeader k lower p) payload)).length = payload.length + 40 := by
    rw [Ipv4.packetBytes_length, segmentBytes_length, Ipv4.minHeaderSize]
    omega
  have hframe : (Ethernet.sendPacket netIf ethHeader q).bytes Ethernet.headerSize
    (payload.length + 40) =
      Ipv4.packetBytes (outputHeader k lower p)
        (segmentBytes k flags (outputHeader k lower p) payload) := by
    rw [← hq.bytes, hlen]
    have hcount := hq.count
    have hcurrent := hq.current
    rw [hlen] at hcount hcurrent
    exact Packet.bytes_data _ _ fun i hi =>
      Ethernet.sendPacket_data netIf ethHeader q (Nat.le_add_right _ _) (by omega) (by omega)
  have hip : Ipv4.Contains r (outputHeader k lower p)
      (segmentBytes k flags (outputHeader k lower p) payload) := by
    refine ⟨?_, ?_⟩
    · rw [← hframe]
      exact hr.bytes
    · have hcount := hr.count
      rw [segmentBytes_length, Ipv4.minHeaderSize]
      omega
  obtain ⟨-, -, -, hbehind⟩ := hip.fields rxEthHeader
  have htcp : Contains (Ipv4.behindHeader r) k flags (outputHeader k lower p) payload := by
    refine ⟨hbehind, ?_⟩
    have hcount := hr.count
    change _ ≤ (r.count - 20#16).toNat
    rw [BitVec.toNat_sub_of_le (by rw [BitVec.le_def]; change 20 ≤ _; omega)]
    change _ ≤ _ - 20
    omega
  obtain ⟨seg, hseg, hsrc, hdest, hsrcPort, hdestPort, hseq, hack, hflags, hpayload⟩ :=
    decode_contains htcp rxIf rxEthHeader
  have heq : seg = outputSegment k flags (outputHeader k lower p) p := by
    have hout := outputSegment_payload (k := k) flags (outputHeader k lower p) hp
    obtain ⟨_, _, _, _, _, _, _, _, _⟩ := seg
    simp only at hsrc hdest hsrcPort hdestPort hseq hack hflags hpayload
    subst hsrc hdest hsrcPort hdestPort hseq hack hflags
    unfold outputSegment
    simp only [Segment.mk.injEq, true_and]
    exact hpayload.trans hout.symm
  rw [Ipv4.rxFrame_contains hip hfound hours]
  change Except.ok (decode rxIf _ (Ipv4.behindHeader r)) = _
  rw [segmentBytes_length, hseg, heq]

end Send

theorem finalizeAndSendPacket_packets (m : Stack n) (h : Fin n) (flags : Byte) (pid : PacketId)
    (lower : Lower) :
    (finalizeAndSendPacket m h flags pid lower).1.packets pid =
      (Ipv4.sendPacket lower (m.mem h).ipv4Handle (outputHeader (m.mem h) lower (m.packets pid)) pid
        (completePacket (m.mem h) flags (outputHeader (m.mem h) lower (m.packets pid))
          (m.packets pid))).packet := by
  unfold finalizeAndSendPacket recordHanded
  dsimp only
  split <;> exact Function.update_self _ _ _

/-- The segment of a packet comes out of the receiver's decoder as it was put in: the
ports, the numbers and the flags of the handle, and the payload of the packet. -/
theorem segment_roundTrip (m : Stack n) (h : Fin n) (flags : Byte) (pid : PacketId) (lower : Lower)
    {payload : List Byte} (hp : (m.packets pid).Composed 54 payload)
    (hfit : payload.length + 58 < 2 ^ 16) {gateway : Ipv4Address} {netIf : NetIf}
    (hroute : Ipv4.chooseRoute lower (m.mem h).destIpv4Address (m.packets pid) =
      .ok (gateway, netIf)) :
    let header := outputHeader (m.mem h) lower (m.packets pid)
    let segment := outputSegment (m.mem h) flags header (m.packets pid)
    segment.payload = payload ∧ ∃ q, Ipv4.fillHeader (Ipv4.sentHeader header netIf)
        (completePacket (m.mem h) flags header (m.packets pid)) = .ok q ∧
      (∀ mac, Ipv4.Passes lower (m.mem h).ipv4Handle (m.mem h).destIpv4Address
        (m.packets pid) netIf mac →
        (finalizeAndSendPacket m h flags pid lower).1.packets pid =
          Ethernet.sendPacket netIf ⟨mac, netIf.macAddress, Ipv4.ipProtocol⟩ q) ∧
      ∀ (ethHeader rxEthHeader : Ethernet.Header) (r : Packet) (rxIf : NetIf)
        (protocols : List (Ipv4.Protocol (Except Err Segment))),
        CarriedTo (Ethernet.sendPacket netIf ethHeader q) (payload.length + 40) r →
        Ipv4.isForUs rxIf (m.mem h).destIpv4Address = true →
        protocols.find? (fun p => p.protocol = protocol) = some ipv4Protocol →
        Ipv4.rxFrame protocols rxIf rxEthHeader r = .ok (.ok segment) := by
  obtain ⟨q, hfill, hq, -⟩ := Ipv4.fillHeader_framed
    (Ipv4.sentHeader (outputHeader (m.mem h) lower (m.packets pid)) netIf)
    (completePacket_framed (m.mem h) flags (outputHeader (m.mem h) lower (m.packets pid)) hp hfit)
    (Packet.bytes_length _ _ _)
  have hsent := sentHeader_outputHeader hroute
  refine ⟨outputSegment_payload flags _ hp, q, hfill, ?_, ?_⟩
  · intro mac hpasses
    have hpasses' : Ipv4.Passes lower (m.mem h).ipv4Handle
        (outputHeader (m.mem h) lower (m.packets pid)).destAddress
        (completePacket (m.mem h) flags (outputHeader (m.mem h) lower (m.packets pid))
          (m.packets pid)) netIf mac :=
      ⟨hpasses.free, hpasses.known⟩
    rw [finalizeAndSendPacket_packets]
    exact (Ipv4.sendPacket_filled hpasses' hfill pid).2
  · intro ethHeader rxEthHeader r rxIf protocols hr hours hfound
    rw [hsent] at hq
    exact decode_carried flags hp hfit hq ethHeader hr hours hfound rxEthHeader

/-- A handle of 10.0.0.1 that has acknowledged up to 5, and a packet with two bytes. -/
def speaking : Stack 1 :=
  { (initial 1 (fun _ => (allocatedPacket 2#16 blankPacket).writeBuffer [1, 2]) 10000#16 0).1 with
    mem := fun _ => { Handle.init 1 with
      destIpv4Address := 0x0A000002#32
      port := 5000#16
      destPort := 80#16
      state := .established
      seqNumber := 7#32
      ackNumber := 5#32 } }

theorem speaking_composed : (speaking.packets 0).Composed 54 [1, 2] :=
  (allocatedPacket_composed 2#16 blankPacket).writeBuffer [1, 2] (by decide)

def listening : NetIf := ⟨Vector.replicate 6 2#8, 0x0A000002#32, 0#32⟩

theorem segment_roundTrip_sample :
    ∃ r, Ipv4.rxFrame [ipv4Protocol] listening Ipv4.sampleEthHeader r =
    .ok (.ok (outputSegment (speaking.mem 0) (flagPsh ||| flagAck)
      (outputHeader (speaking.mem 0) (transmitting 0) (speaking.packets 0))
        (speaking.packets 0))) := by
  obtain ⟨-, q, hfill, -, hdecoded⟩ :=
    segment_roundTrip speaking 0 (flagPsh ||| flagAck) 0 (transmitting 0)
    speaking_composed (by decide) rfl
  refine ⟨_, hdecoded Ipv4.sampleEthHeader Ipv4.sampleEthHeader _ listening [ipv4Protocol]
    (carriedTo_frame _ ?_)
    (by decide) rfl⟩
  obtain rfl := Except.ok.inj hfill
  decide

/-- Without ACK the number of the handle is not sent: a reset carries none. -/
theorem reset_acknowledges_nothing :
    ¬ ∀ (m : Stack 1) (h : Fin 1) (flags : Byte) (pid : PacketId) (lower : Lower)
    (payload : List Byte) (gateway : Ipv4Address) (netIf : NetIf),
      (m.packets pid).Composed 54 payload →
    payload.length + 58 < 2 ^ 16 →
    Ipv4.chooseRoute lower (m.mem h).destIpv4Address (m.packets pid) = .ok (gateway, netIf) →
    ∃ q, Ipv4.fillHeader (Ipv4.sentHeader (outputHeader (m.mem h) lower (m.packets pid)) netIf)
      (completePacket
        (m.mem h) flags (outputHeader (m.mem h) lower (m.packets pid)) (m.packets pid)) = .ok q ∧
      ∀ (ethHeader rxEthHeader : Ethernet.Header) (r : Packet) (rxIf : NetIf),
        CarriedTo (Ethernet.sendPacket netIf ethHeader q) (payload.length + 40) r →
        Ipv4.isForUs rxIf (m.mem h).destIpv4Address = true →
        ∃ seg, Ipv4.rxFrame [ipv4Protocol] rxIf rxEthHeader r = .ok (.ok seg) ∧
          seg.ackNumber = (m.mem h).ackNumber := by
  intro hall
  obtain ⟨q, hfill, hdecoded⟩ := hall speaking 0 flagRst 0 (transmitting 0) [1, 2] _ _
    speaking_composed
    (by decide) rfl
  obtain ⟨q', hfill', hq, -⟩ := Ipv4.fillHeader_framed
    (outputHeader (speaking.mem 0) (transmitting 0) (speaking.packets 0))
    (completePacket_framed (speaking.mem 0) flagRst (outputHeader (speaking.mem 0) (transmitting 0)
      (speaking.packets 0)) speaking_composed (by decide)) (Packet.bytes_length _ _ _)
  obtain rfl : q = q' := Except.ok.inj (hfill.symm.trans hfill')
  have hlen : 42 ≤ (Ethernet.sendPacket ⟨Vector.replicate 6 1#8, 0x0A000001#32, 0#32⟩
      Ipv4.sampleEthHeader q).count.toNat := by
    obtain rfl := Except.ok.inj hfill
    decide
  have hcarried := carriedTo_frame _ hlen
  obtain ⟨seg, hseg, hack⟩ := hdecoded Ipv4.sampleEthHeader Ipv4.sampleEthHeader _ listening
    hcarried (by decide)
  have hours : Ipv4.isForUs listening (speaking.mem 0).destIpv4Address = true := by decide
  have hfound : [ipv4Protocol].find? (fun p => p.protocol = protocol) = some ipv4Protocol := rfl
  have hsent := decode_carried flagRst speaking_composed (by decide) hq Ipv4.sampleEthHeader
    hcarried hours hfound
    Ipv4.sampleEthHeader
  rw [hsent] at hseg
  rw [← Except.ok.inj (Except.ok.inj hseg)] at hack
  exact absurd hack (by decide)

end NanoIp.Tcp
