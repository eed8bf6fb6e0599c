import NanoIp.Core.Carried
import NanoIp.Core.Ipv4Gate
import NanoIp.Icmp.Messages

/-!
# Echo requests and their replies

`NANO_IP_ICMP_RxFrame` on the packet that IPv4 hands over, and the reply of
`NANO_IP_ICMP_HandlePingRequest`. The length of a message is taken from what Ethernet has left of
the frame; IPv4 announces it too, and behind that there may be padding.
-/
namespace NanoIp.Icmp

/-- `ICMP_PROTOCOL`. -/
def protocol : Byte := 1#8

/-- What a message is handled by: `NANO_IP_ICMP_HandlePingRequest` with the start and the size of
the request data, or `NANO_IP_ICMP_HandlePingReply`, which reads the identifier. -/
inductive Handling where
  | pingRequest (startOfRequestData : Packet) (requestDataSize : BitVec 16)
  | pingReply (identifier : BitVec 32)

/-- `NANO_IP_ICMP_RxFrame` up to the handling of the message. -/
def rxFrame (p : Packet) : Except Err Handling :=
  if p.count < icmpHeaderSize then .error .invalidPacketSize
  else
    let headerStart := p.current
    let packetSize := p.count
    let (type, p) := p.read8bits
    let p := p.readSkipBytes 1#16 -- code
    let p := p.readSkipBytes 2#16 -- checksum
    if computeInternetCS [] (p.bytes headerStart packetSize.toNat) = 0#16 then
      if type = echoRequest then .ok (.pingRequest p packetSize)
      else if type = echoReply then .ok (.pingReply p.read32bits.1)
      else .error .ignorePacket
    else .error .invalidCs

/-- The reply in the allocated packet, as `NANO_IP_ICMP_HandlePingRequest` writes it. -/
def writeEchoReply (startOfRequestData : Packet) (requestDataSize : BitVec 16) (packet : Packet) :
    Packet :=
  let headerStart := packet.current
  let packet := (packet.write8bits echoReply).write8bits 0#8
  let checksumPos := packet.current
  let packet := packet.write16bits 0#16
  let packet := packet.writeBuffer
    (startOfRequestData.bytes startOfRequestData.current (requestDataSize - icmpHeaderSize).toNat)
  let checksum := computeInternetCS [] (packet.bytes headerStart requestDataSize.toNat)
  packet.withData (Packet.store packet.data checksumPos (checksumBytes checksum))

/-- `NANO_IP_ICMP_HandlePingRequest`, the packet objects of the allocator given. -/
def handlePingRequest (lower : Lower) (handle : Ipv4.Handle) (packets : PacketId → Packet)
    (ipv4Header : Ipv4.RxHeader) (startOfRequestData : Packet) (requestDataSize : BitVec 16) :
    Except Failure Ipv4.Sent :=
  lower.alloc.map fun pid =>
    Ipv4.sendPacket lower handle ⟨ipv4Header.destAddress, ipv4Header.srcAddress, protocol⟩ pid
      (writeEchoReply startOfRequestData requestDataSize
        (Ipv4.allocatePacket requestDataSize (packets pid)))

/-- The test behind `Compute checkum`. -/
def checksumPasses (p : Packet) : Bool :=
  computeInternetCS [] (p.bytes p.current p.count.toNat) = 0#16

def behindHeader (p : Packet) : Packet := p.readSkipBytes icmpHeaderSize

theorem rxFrame_eq (p : Packet) : rxFrame p =
    if p.count < icmpHeaderSize then .error .invalidPacketSize
    else if checksumPasses p then
      if p.byteAt 0 = echoRequest then .ok (.pingRequest (behindHeader p) p.count)
      else if p.byteAt 0 = echoReply then .ok (.pingReply (p.longAt 4))
      else .error .ignorePacket
    else .error .invalidCs := by
  unfold rxFrame
  simp only [Packet.read8bits, Packet.read32bits]
  simp (disch := decide) only [Packet.readSkipBytes_add, Packet.readSkipBytes_longAt,
    BitVec.reduceAdd,
    BitVec.reduceToNat, Nat.reduceAdd]
  rw [checksumPasses]
  simp only [decide_eq_true_eq]
  rfl

/-- The offsets that are read: the type and all that is summed, and then what is copied of a
request, or the identifier of a reply. -/
def readOffsets (p : Packet) : List Nat :=
  if p.count < icmpHeaderSize then []
  else (0 :: List.range p.count.toNat ++
    if checksumPasses p then
      if p.byteAt 0 = echoRequest then (List.range (p.count - icmpHeaderSize).toNat).map (4 + ·)
      else if p.byteAt 0 = echoReply then [4, 5, 6, 7]
      else []
    else []).map (p.current + ·)

/-- What a handling is given of the message. -/
def Handling.content : Handling → BitVec 16 × List Byte ⊕ BitVec 32
  | .pingRequest start size => .inl (size, start.bytes start.current (size - icmpHeaderSize).toNat)
  | .pingReply identifier => .inr identifier

/-- Messages with the same bytes at these offsets are treated the same. -/
theorem rxFrame_congr {p p' : Packet} (hcurrent : p'.current = p.current)
    (hcount : p'.count = p.count) (hread : ∀ i ∈ readOffsets p, p'.data i = p.data i) :
    (rxFrame p').map Handling.content = (rxFrame p).map Handling.content := by
  rw [rxFrame_eq, rxFrame_eq, hcount]
  by_cases hsize : p.count < icmpHeaderSize
  · rw [if_pos hsize, if_pos hsize]
  rw [readOffsets, if_neg hsize, List.forall_mem_map, List.forall_mem_append,
    List.forall_mem_cons] at hread
  obtain ⟨⟨htype, hsummed⟩, hrest⟩ := hread
  have hbyte : p'.byteAt 0 = p.byteAt 0 := by
    rw [Packet.byteAt, Packet.byteAt, hcurrent]
    exact htype
  have hpasses : checksumPasses p' = checksumPasses p := by
    have hbytes : p'.bytes p'.current p'.count.toNat = p.bytes p.current p.count.toNat := by
      rw [hcurrent, hcount]
      exact Packet.bytes_data _ _ fun i hi => hsummed i (List.mem_range.mpr hi)
    rw [checksumPasses, checksumPasses, hbytes]
  rw [if_neg hsize, if_neg hsize, hpasses, hbyte]
  split_ifs at hrest ⊢ with hsum hrequest hreply
  · have hcopied : p'.bytes (p'.current + 4) (p.count - icmpHeaderSize).toNat =
        p.bytes (p.current + 4) (p.count - icmpHeaderSize).toNat := by
      rw [hcurrent]
      refine Packet.bytes_data _ _ fun i hi => ?_
      rw [Nat.add_assoc]
      exact hrest _ (List.mem_map_of_mem (List.mem_range.mpr hi))
    exact congrArg (fun bs => Except.ok (Sum.inl (p.count, bs))) hcopied
  · have hidentifier : p'.longAt 4 = p.longAt 4 := by
      have hfour {i : Nat} (hi : i ∈ [4, 5, 6, 7]) : p'.byteAt i = p.byteAt i := by
        rw [Packet.byteAt, Packet.byteAt, hcurrent]
        exact hrest i hi
      rw [Packet.longAt, Packet.longAt, hfour (by decide), hfour (by decide), hfour (by decide),
        hfour (by decide)]
    rw [hidentifier]
  · rfl
  · rfl

section Reply

variable {start packet : Packet} {size : BitVec 16}

/-- A reply: type and code, the checksum, and the rest of the message it answers. -/
def replyOf (rest : List Byte) : List Byte :=
  [echoReply, 0#8] ++ checksumBytes (computeInternetCS [] ([echoReply, 0#8, 0#8, 0#8] ++ rest)) ++
    rest

theorem replyOf_length (rest : List Byte) : (replyOf rest).length = rest.length + 4 := by
  rw [replyOf, List.length_append, List.length_append, checksumBytes]
  simp only [List.length_cons, List.length_nil]
  omega

theorem replyOf_checksum {rest : List Byte} (hlen : rest.length < 2 ^ 16) :
    computeInternetCS [] (replyOf rest) = 0#16 := by
  rw [computeInternetCS_eq_zero_iff]
  · exact residue_stored [] [echoReply, 0#8] rest rfl (by simp; omega)
  · rw [replyOf_length, List.length_nil]
    omega

/-- The reply stands behind the room of the headers, and both are counted. -/
theorem writeEchoReply_bytes (size : BitVec 16) (start packet : Packet) (hsize : 4 ≤ size.toNat)
    (hfit : size.toNat + 34 < 2 ^ 16) :
    let reply := replyOf (start.bytes start.current (size.toNat - 4))
    (writeEchoReply start size (Ipv4.allocatePacket size packet)).bytes 34 reply.length = reply ∧
      (writeEchoReply start size (Ipv4.allocatePacket size packet)).count.toNat =
        34 + reply.length ∧
      (writeEchoReply start size (Ipv4.allocatePacket size packet)).current =
        34 + reply.length := by
  intro reply
  have hrest : (size - icmpHeaderSize).toNat = size.toNat - 4 := BitVec.toNat_sub_of_le hsize
  have hreply : reply.length = size.toNat := by
    rw [replyOf_length, Packet.bytes_length]
    omega
  have hroom := Ipv4.allocatePacket_composed size packet
  have hheader := ((hroom.writeBuffer [echoReply] (by simp)).writeBuffer [0#8]
    (by simp)).writeBuffer
    (Packet.be16 0#16) (by simp [Packet.be16])
  have hall := hheader.writeBuffer (start.bytes start.current (size.toNat - 4))
    (by
      simp only [List.length_append, Packet.bytes_length, Packet.be16, List.length_cons,
      List.length_nil]; omega)
  have hlen : (packet.bytes 0 34 ++ [echoReply] ++ [0#8] ++ Packet.be16 0#16 ++
      start.bytes start.current (size.toNat - 4)).length = 34 + reply.length := by
    simp only [List.length_append, Packet.bytes_length, Packet.be16, List.length_cons,
      List.length_nil]
    omega
  -- the message as it stands there with a zero checksum
  let written := ((((Ipv4.allocatePacket size packet).writeBuffer [echoReply]).writeBuffer
    [0#8]).writeBuffer
    (Packet.be16 0#16)).writeBuffer (start.bytes start.current (size.toNat - 4))
  have hmessage : written.bytes 34 reply.length =
      [echoReply, 0#8] ++ [0#8, 0#8] ++ start.bytes start.current (size.toNat - 4) := by
    have hbytes := hall.bytes
    rw [hlen, Packet.bytes_append, List.append_assoc, List.append_assoc,
      List.append_assoc] at hbytes
    exact (List.append_inj hbytes (by rw [Packet.bytes_length, Packet.bytes_length])).2
  have hwhole : writeEchoReply start size (Ipv4.allocatePacket size packet) =
      written.withData (Packet.store written.data (34 + 2) (checksumBytes (computeInternetCS []
        (written.bytes 34 size.toNat)))) := by
    rw [writeEchoReply, hrest]
    rfl
  rw [hwhole, ← hreply, hmessage]
  refine ⟨?_, hall.count.trans hlen, hall.current.trans (by rw [hlen, Nat.zero_add])⟩
  exact written.bytes_store_inside hmessage rfl

end Reply

def messageOf (header : Ipv4.RxHeader) (p : Packet) : List Byte :=
  p.bytes p.current header.dataLength.toNat

/-- An echo request of any size is received: IPv4 announces no more than there is, and the
checksum of what it announces is right. The headers in front of the message are counted in the
same 16 bits. -/
structure IsRequest (header : Ipv4.RxHeader) (p : Packet) : Prop where
  received : header.dataLength.toNat ≤ p.count.toNat
  size : 4 ≤ header.dataLength.toNat
  counted : header.dataLength.toNat + 34 < 2 ^ 16
  type : p.byteAt 0 = echoRequest
  checksum : computeInternetCS [] (messageOf header p) = 0#16

/-- The frame carries the reply to a request back to where it comes from. -/
def Mirrors (header : Ipv4.RxHeader) (message : List Byte) (frame : Packet) : Prop :=
  ∃ netIf reply, frame.bytes 14 (20 + reply.length) =
      Ipv4.packetBytes (Ipv4.sentHeader ⟨header.destAddress, header.srcAddress, protocol⟩ netIf)
        reply ∧
    reply.length = message.length ∧ reply.take 2 = [echoReply, 0#8] ∧
      computeInternetCS [] reply = 0#16 ∧
    reply.drop 4 = message.drop 4

/-- Nothing but the message is read, and the reply to an echo request mirrors it whenever it goes
out. -/
structure EchoInside (header : Ipv4.RxHeader) (p : Packet) : Prop where
  reads : ∀ i ∈ readOffsets p, p.current ≤ i ∧
    i < p.current + min header.dataLength.toNat p.count.toNat
  mirrors : IsRequest header p → ∃ start size, rxFrame p = .ok (.pingRequest start size) ∧
    ∀ lower handle packets sent frame, handlePingRequest lower handle packets header start
      size = .ok sent →
      Ipv4.GoesOut sent frame → Mirrors header (messageOf header p) frame

/-- Ethernet has left nothing behind a message, and an echo reply with a right checksum has an
identifier. -/
structure Unpadded (header : Ipv4.RxHeader) (p : Packet) : Prop where
  whole : ¬ p.count < icmpHeaderSize → p.count.toNat ≤ header.dataLength.toNat
  reply : ¬ p.count < icmpHeaderSize → checksumPasses p = true → p.byteAt 0 = echoReply →
    8 ≤ p.count.toNat

theorem reads_iff {header : Ipv4.RxHeader} {p : Packet} :
    (∀ i ∈ readOffsets p, p.current ≤ i ∧
      i < p.current + min header.dataLength.toNat p.count.toNat) ↔
      Unpadded header p := by
  rw [readOffsets]
  by_cases hsize : p.count < icmpHeaderSize
  · rw [if_pos hsize]
    exact iff_of_true (List.forall_mem_nil _) ⟨fun h => absurd hsize h, fun h => absurd hsize h⟩
  have hheader : 4 ≤ p.count.toNat := Nat.le_of_not_lt hsize
  have hrest : (p.count - icmpHeaderSize).toNat = p.count.toNat - 4 :=
    BitVec.toNat_sub_of_le hheader
  rw [if_neg hsize, List.forall_mem_map, List.forall_mem_append, List.forall_mem_cons]
  constructor
  · rintro ⟨⟨-, hsummed⟩, hread⟩
    refine ⟨fun _ => ?_, fun _ hsum hreply => ?_⟩
    · have hlast := hsummed (p.count.toNat - 1) (List.mem_range.mpr (by omega))
      omega
    · rw [if_pos hsum, if_neg (by rw [hreply]; decide), if_pos hreply] at hread
      have hlast := hread 7 (by decide)
      omega
  · rintro ⟨hwhole, hreply⟩
    have hwhole := hwhole hsize
    refine ⟨⟨by omega, fun i hi => ?_⟩, fun i hi => ?_⟩
    · have hi := List.mem_range.mp hi
      omega
    · split_ifs at hi with hsum hrequest htype
      · obtain ⟨j, hj, rfl⟩ := List.mem_map.mp hi
        have hj := List.mem_range.mp hj
        omega
      · have h8 := hreply hsize hsum htype
        have hi' : i < 8 := by
          revert i
          decide
        omega
      · cases hi
      · cases hi

/-- Without padding the reply mirrors the request. -/
theorem mirrors_of_unpadded {header : Ipv4.RxHeader} {p : Packet} (h : IsRequest header p)
    (hwhole : Unpadded header p) :
    rxFrame p = .ok (.pingRequest (behindHeader p) p.count) ∧
      ∀ lower handle packets sent frame,
        handlePingRequest lower handle packets header (behindHeader p) p.count = .ok sent →
        Ipv4.GoesOut sent frame → Mirrors header (messageOf header p) frame := by
  have hsize : ¬ p.count < icmpHeaderSize := Nat.not_lt.mpr (Nat.le_trans h.size h.received)
  have hcount : p.count.toNat = header.dataLength.toNat :=
    Nat.le_antisymm (hwhole.whole hsize) h.received
  have hsum : checksumPasses p = true := by
    rw [checksumPasses, hcount]
    exact decide_eq_true h.checksum
  refine ⟨by rw [rxFrame_eq, if_neg hsize, if_pos hsum, if_pos h.type], ?_⟩
  intro lower handle packets sent frame hsent hout
  cases halloc : lower.alloc with
  | error e =>
    rw [handlePingRequest, halloc] at hsent
    cases hsent
  | ok pid =>
    rw [handlePingRequest, halloc] at hsent
    obtain rfl := Except.ok.inj hsent
    obtain ⟨hbytes, hpcount, hpcurrent⟩ := writeEchoReply_bytes p.count (behindHeader p)
      (packets pid)
      (by rw [hcount]; exact h.size) (by rw [hcount]; exact h.counted)
    obtain ⟨netIf, mac, q, hfill, rfl⟩ := Ipv4.goesOut_filled hout
    obtain ⟨q', hfill', hqcount, hqcurrent, -, hq⟩ := Ipv4.fillHeader_bytes
      (Ipv4.sentHeader ⟨header.destAddress, header.srcAddress, protocol⟩ netIf) hpcount hbytes
    obtain rfl := Except.ok.inj (hfill.symm.trans hfill')
    have hdrop : (messageOf header p).drop 4 = (behindHeader p).bytes (behindHeader p).current
        (p.count.toNat - 4) := by
      have hsplit : messageOf header p = p.bytes p.current 4 ++ p.bytes (p.current + 4)
          (p.count.toNat - 4) := by
        rw [messageOf, ← hcount, ← Packet.bytes_append]
        refine congrArg (p.bytes p.current) ?_
        have := h.size
        omega
      rw [hsplit, List.drop_left' (Packet.bytes_length _ _ _)]
      rfl
    refine ⟨netIf, replyOf ((behindHeader p).bytes (behindHeader p).current (p.count.toNat - 4)),
      ?_, ?_, rfl,
      replyOf_checksum ?_, hdrop.symm⟩
    · rw [← hq]
      refine Packet.bytes_data _ _ fun i hi =>
        Ethernet.sendPacket_data _ _ _ (Nat.le_add_right _ _) ?_ ?_
      · rw [hqcount, hpcount]
        omega
      · rw [hqcurrent, hpcurrent]
        omega
    · rw [replyOf_length, Packet.bytes_length, messageOf, Packet.bytes_length, hcount]
      have := h.size
      omega
    · rw [Packet.bytes_length]
      have := p.count.isLt
      omega

/-- Messages are treated rightly exactly when nothing follows them and replies have an identifier.
-/
theorem echoInside_iff (header : Ipv4.RxHeader) (p : Packet) :
    EchoInside header p ↔ Unpadded header p := by
  constructor
  · exact fun h => reads_iff.mp h.reads
  · exact fun h => ⟨reads_iff.mpr h, fun hrequest => ⟨_, _, mirrors_of_unpadded hrequest h⟩⟩

/-- A received message, and what IPv4 says of it. -/
def received (message : List Byte) (count : BitVec 16) : Packet :=
  ⟨fun i => message.getD i 0#8, 0, count, count, 0#32, none⟩
def announcing (dataLength : BitVec 16) : Ipv4.RxHeader :=
  ⟨⟨0x0A000002#32, 0x0A000001#32, protocol⟩,
    ⟨Ethernet.broadcast, Ethernet.broadcast, Ipv4.ipProtocol⟩, dataLength⟩

/-- A message with identifier, sequence number and four bytes of data, and a reply that ends
behind its checksum. -/
def shortPing : List Byte :=
  [echoRequest, 0#8, 0xED#8, 0xF6#8, 0#8, 1#8, 0#8, 1#8, 5#8, 3#8, 5#8, 4#8]
def truncatedReply : List Byte := [echoReply, 0#8, 0xFF#8, 0xFF#8]

/-- A ping of twelve bytes in a padded frame is answered with 26 bytes; of a reply of four bytes
eight are read. -/
theorem padding_echoed :
    (IsRequest (announcing 12#16) (received shortPing 26#16) ∧
      rxFrame (received shortPing 26#16) =
        .ok (.pingRequest (behindHeader (received shortPing 26#16)) 26#16) ∧
      ¬ EchoInside (announcing 12#16) (received shortPing 26#16)) ∧
    ¬ EchoInside (announcing 4#16) (received truncatedReply 4#16) := by
  refine ⟨⟨⟨by decide, by decide, by decide, by decide, by decide⟩, ?_, ?_⟩, ?_⟩
  · rw [rxFrame_eq, if_neg (by decide), if_pos (by decide), if_pos (by decide)]
    rfl
  · exact fun h => absurd (h.reads 25 (by decide)).2 (by decide)
  · exact fun h => absurd (h.reads 7 (by decide)).2 (by decide)

end NanoIp.Icmp
