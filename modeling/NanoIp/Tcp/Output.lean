import NanoIp.Tcp.Types

/-!
# TCP output

A control frame is allocated, completed in its packet object and given to the
IPv4 layer. Seen from the handle it changes only the IPv4 handle and the saved
IPv4 header, and its result is decided by the answers of the layers below and by
whether the IPv4 handle is busy.
-/
namespace NanoIp.Tcp

variable {n : Nat}

/-- The packet `NANO_IP_TCP_AllocatePacket` returns for a payload of `packetSize` bytes. -/
def allocatedPacket (packetSize : BitVec 16) (p : Packet) : Packet :=
  { (Ipv4.allocatePacket (packetSize + headerSize) p).writeSkipBytes headerSize with count := 0#16 }

/-- `NANO_IP_TCP_AllocatePacket`; the allocator hands out only packets not in use. -/
def allocatePacket (m : Stack n) (answer : Except Failure PacketId) (packetSize : BitVec 16) :
    Stack n × Except Err PacketId :=
  match answer with
  | .error e => (m, .error e)
  | .ok pid =>
    if pid ∈ m.allocated then (m, .error .resource)
    else
      ({ m with
          allocated := pid :: m.allocated
          packets := Function.update m.packets pid (allocatedPacket packetSize (m.packets pid)) },
        .ok pid)

/-- The pseudo-header of `NANO_IP_TCP_ComputeCS`. -/
def pseudoHeader (header : Ipv4Header) (size : BitVec 16) : List Byte :=
  Packet.be32 header.srcAddress ++ Packet.be32 header.destAddress ++ [0#8, protocol] ++
    Packet.be16 size

/-- The TCP header fields in the order they are written, with a zero checksum. -/
def headerBytes (k : Handle n) (flags : Byte) : List Byte :=
  Packet.be16 k.port ++ Packet.be16 k.destPort ++ Packet.be32 k.seqNumber ++
    Packet.be32 (if flags &&& flagAck ≠ 0#8 then k.ackNumber else 0#32) ++
    [headerDataOffset, flags] ++ Packet.be16 windowSize ++ Packet.be32 0#32

/-- The IPv4 header of a handle's segments: the address it is bound to, or that of
the interface the packet leaves by. -/
def outputHeader (k : Handle n) (lower : Lower) (p : Packet) : Ipv4Header where
  srcAddress :=
    if k.ipv4Address = 0#32 then
      match Ipv4.chooseRoute lower k.destIpv4Address p with
      | .ok (_, netIf) => netIf.ipv4Address
      | .error _ => 0#32
    else k.ipv4Address
  destAddress := k.destIpv4Address
  protocol := protocol

/-- The packet with its TCP header and checksum; `count` becomes the frame size. -/
def completePacket (k : Handle n) (flags : Byte) (header : Ipv4Header) (p : Packet) : Packet :=
  let tcpLength := p.count + headerSize
  let start := p.current - tcpLength.toNat
  let data := Packet.store p.data start (headerBytes k flags)
  let checksum := computeInternetCS (pseudoHeader header tcpLength)
    ({ p with data := data }.bytes start tcpLength.toNat)
  { p with
    data := Packet.store data (start + 16) (checksumBytes checksum)
    count := BitVec.ofNat 16 p.current }

/-- The segment a packet of a handle carries. -/
def outputSegment (k : Handle n) (flags : Byte) (header : Ipv4Header) (p : Packet) : Segment where
  srcAddress := header.srcAddress
  destAddress := header.destAddress
  srcPort := k.port
  destPort := k.destPort
  seqNumber := k.seqNumber
  ackNumber := if flags &&& flagAck ≠ 0#8 then k.ackNumber else 0#32
  flags := flags
  payload := p.bytes (p.current - p.count.toNat) p.count.toNat
  payload_lt := by rw [Packet.bytes_length]; exact p.count.isLt

def recordHanded (m : Stack n) (h : Fin n) (pid : PacketId) (sent : Ipv4.Sent) : Stack n :=
  if sent.handed then m.record (.handed h pid sent.ret) else m

/-- `NANO_IP_TCP_FinalizeAndSendPacket`. -/
def finalizeAndSendPacket (m : Stack n) (h : Fin n) (flags : Byte) (pid : PacketId)
    (lower : Lower) :
    Stack n × Err :=
  let k := m.mem h
  let p := m.packets pid
  let header := outputHeader k lower p
  let sent := Ipv4.sendPacket lower k.ipv4Handle header pid (completePacket k flags header p)
  let m := m.modify h fun k => { k with
    ipv4Handle := sent.handle
    lastTxPacketIpv4Header := if k.lastTxPacket.isSome then header else k.lastTxPacketIpv4Header }
  let m := { m with packets := Function.update m.packets pid sent.packet }
  let m := (m.wait lower.elapsed).record (.output h (outputSegment k flags header p) sent.ret)
  (recordHanded m h pid sent, sent.ret)

/-- `NANO_IP_TCP_SendControlFrame`. -/
def sendControlFrame (m : Stack n) (h : Fin n) (flags : Byte) (lower : Lower) : Stack n × Err :=
  match allocatePacket m lower.alloc 0#16 with
  | (m, .error e) => (m, e)
  | (m, .ok pid) =>
    match finalizeAndSendPacket m h flags pid lower with
    | (m, ret) => (if ret.accepted then m else m.releasePacket pid, ret)

/-- The result of `NANO_IP_TCP_SendControlFrame`, from the state and the answers of
the layers below. -/
def controlResult (m : Stack n) (h : Fin n) (lower : Lower) : Err :=
  match lower.alloc with
  | .error e => e
  | .ok pid =>
    if pid ∈ m.allocated then .resource
    else Ipv4.sendResult lower (m.mem h).ipv4Handle (m.mem h).destIpv4Address
      (allocatedPacket 0#16 (m.packets pid))

theorem control_size (k : Handle n) (flags : Byte) (header : Ipv4Header) (p : Packet) :
    ¬ (completePacket k flags header (allocatedPacket 0#16 p)).count < Ipv4.minPacketSize := by
  change ¬ BitVec.ofNat 16 (0 + 14 + 20 + 20) < 34#16
  decide

theorem sendControlFrame_ret (m : Stack n) (h : Fin n) (flags : Byte) (lower : Lower) :
    (sendControlFrame m h flags lower).2 = controlResult m h lower := by
  unfold sendControlFrame controlResult allocatePacket
  cases lower.alloc with
  | error e => rfl
  | ok pid =>
    by_cases hp : pid ∈ m.allocated
    · simp only [hp, ↓reduceIte]
    · simp only [hp, ↓reduceIte, finalizeAndSendPacket, Function.update_self]
      rw [Ipv4.sendPacket_ret _ _ _ _ (control_size _ _ _ _)]
      rfl

section Frame

variable (m : Stack n) (h : Fin n) (flags : Byte) (pid : PacketId) (lower : Lower) (k : Fin n)

theorem recordHanded_mem (sent : Ipv4.Sent) : (recordHanded m h pid sent).mem = m.mem := by
  unfold recordHanded; split <;> rfl

theorem recordHanded_handles (sent : Ipv4.Sent) :
    (recordHanded m h pid sent).handles = m.handles := by
  unfold recordHanded; split <;> rfl

theorem recordHanded_eventsOf (sent : Ipv4.Sent) :
    (recordHanded m h pid sent).eventsOf k = m.eventsOf k := by
  unfold recordHanded
  split
  · simp [Stack.eventsOf]
  · rfl

theorem finalizeAndSendPacket_mem : ∃ ip header, (finalizeAndSendPacket m h flags pid lower).1.mem =
    Function.update m.mem h
      { m.mem h with ipv4Handle := ip, lastTxPacketIpv4Header := header } := by
  unfold finalizeAndSendPacket
  simp only [recordHanded_mem, Stack.record_mem, Stack.wait_mem]
  exact ⟨_, _, rfl⟩

theorem finalizeAndSendPacket_handles :
    (finalizeAndSendPacket m h flags pid lower).1.handles = m.handles :=
  recordHanded_handles _ _ _ _

theorem finalizeAndSendPacket_eventsOf :
    (finalizeAndSendPacket m h flags pid lower).1.eventsOf k = m.eventsOf k := by
  unfold finalizeAndSendPacket
  simp only [recordHanded_eventsOf]
  simp [Stack.eventsOf, Stack.wait]

theorem allocatePacket_mem (answer : Except Failure PacketId) (size : BitVec 16) :
    (allocatePacket m answer size).1.mem = m.mem := by
  unfold allocatePacket
  split
  · rfl
  · split <;> rfl

theorem allocatePacket_handles (answer : Except Failure PacketId) (size : BitVec 16) :
    (allocatePacket m answer size).1.handles = m.handles := by
  unfold allocatePacket
  split
  · rfl
  · split <;> rfl

theorem allocatePacket_log (answer : Except Failure PacketId) (size : BitVec 16) :
    (allocatePacket m answer size).1.log = m.log := by
  unfold allocatePacket
  split
  · rfl
  · split <;> rfl

theorem allocatePacket_time (answer : Except Failure PacketId) (size : BitVec 16) :
    (allocatePacket m answer size).1.time = m.time := by
  unfold allocatePacket
  split
  · rfl
  · split <;> rfl

/-- The three ways a control frame ends: no packet, a refusal that gives the packet
back, or a packet on its way. -/
theorem sendControlFrame_cases :
    (∃ e : Err, e.accepted = false ∧ sendControlFrame m h flags lower = (m, e)) ∨
    (∃ pid, pid ∉ m.allocated ∧ ∃ m' ret, finalizeAndSendPacket
        (allocatePacket m (.ok pid) 0#16).1 h flags pid lower = (m', ret) ∧
      sendControlFrame m h flags lower =
        (if ret.accepted then m' else m'.releasePacket pid, ret)) := by
  unfold sendControlFrame
  cases ha : lower.alloc with
  | error e => exact .inl ⟨e, e.2, rfl⟩
  | ok pid =>
    by_cases hp : pid ∈ m.allocated
    · exact .inl ⟨.resource, rfl, by simp only [allocatePacket, hp, ↓reduceIte]⟩
    · refine .inr ⟨pid, hp, (finalizeAndSendPacket (allocatePacket m (.ok pid) 0#16).1 h flags
        pid lower).1,
        (finalizeAndSendPacket (allocatePacket m (.ok pid) 0#16).1 h flags pid lower).2, rfl, ?_⟩
      simp only [allocatePacket, hp, ↓reduceIte]

theorem sendControlFrame_mem : ∃ ip header, (sendControlFrame m h flags lower).1.mem =
    Function.update m.mem h
      { m.mem h with ipv4Handle := ip, lastTxPacketIpv4Header := header } := by
  rcases sendControlFrame_cases m h flags lower with ⟨e, -, he⟩ | ⟨pid, -, m', ret, hf, he⟩
  · exact ⟨(m.mem h).ipv4Handle, (m.mem h).lastTxPacketIpv4Header, by rw [he]; simp⟩
  · obtain ⟨ip, header, hm⟩ :=
      finalizeAndSendPacket_mem (allocatePacket m (.ok pid) 0#16).1 h flags pid lower
    rw [hf, allocatePacket_mem] at hm
    refine ⟨ip, header, ?_⟩
    rw [he, ← hm]
    dsimp only
    split <;> rfl

theorem sendControlFrame_conn :
    ((sendControlFrame m h flags lower).1.mem k).conn = (m.mem k).conn := by
  obtain ⟨ip, header, hm⟩ := sendControlFrame_mem m h flags lower
  rw [hm, Function.update_apply]
  split
  · next hk => rw [hk]; rfl
  · rfl

theorem sendControlFrame_next :
    ((sendControlFrame m h flags lower).1.mem k).next = (m.mem k).next := by
  obtain ⟨ip, header, hm⟩ := sendControlFrame_mem m h flags lower
  rw [hm, Function.update_apply]
  split
  · next hk => rw [hk]
  · rfl

theorem sendControlFrame_handles :
    (sendControlFrame m h flags lower).1.handles = m.handles := by
  rcases sendControlFrame_cases m h flags lower with ⟨e, -, he⟩ | ⟨pid, -, m', ret, hf, he⟩
  · rw [he]
  · have hc := finalizeAndSendPacket_handles (allocatePacket m (.ok pid) 0#16).1 h flags pid lower
    rw [hf, allocatePacket_handles] at hc
    rw [he, ← hc]
    dsimp only
    split <;> rfl

theorem finalizeAndSendPacket_time :
    (finalizeAndSendPacket m h flags pid lower).1.time = m.time + lower.elapsed := by
  unfold finalizeAndSendPacket recordHanded
  dsimp only
  split <;> rfl

theorem sendControlFrame_time (hr : (sendControlFrame m h flags lower).2.accepted = true) :
    (sendControlFrame m h flags lower).1.time = m.time + lower.elapsed := by
  rcases sendControlFrame_cases m h flags lower with ⟨e, hno, he⟩ | ⟨pid, -, m', ret, hf, he⟩
  · rw [he, hno] at hr
    cases hr
  · have ht := finalizeAndSendPacket_time (allocatePacket m (.ok pid) 0#16).1 h flags pid lower
    rw [hf, allocatePacket_time] at ht
    rw [he] at hr ⊢
    dsimp only at hr ⊢
    rw [if_pos hr]
    exact ht

theorem sendControlFrame_eventsOf :
    (sendControlFrame m h flags lower).1.eventsOf k = m.eventsOf k := by
  rcases sendControlFrame_cases m h flags lower with ⟨e, -, he⟩ | ⟨pid, -, m', ret, hf, he⟩
  · rw [he]
  · have hc := finalizeAndSendPacket_eventsOf (allocatePacket m (.ok pid) 0#16).1 h
      flags pid lower k
    rw [hf, Stack.eventsOf_congr (allocatePacket_log m _ _)] at hc
    rw [he, ← hc]
    dsimp only
    split
    · rfl
    · simp [Stack.eventsOf, Stack.releasePacket]

end Frame

end NanoIp.Tcp
