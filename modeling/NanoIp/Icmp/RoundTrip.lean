import NanoIp.Icmp.Echo
import NanoIp.Icmp.Pings

/-!
# A ping and its reply

An echo request goes out, and the node that it reaches sends its data back with the padding of the
frame, which counts as data where ICMP looks at it. The sum over the message does not notice the
zeros, and the identifier is in front of them, so that the reply ends the request whatever its
size.
-/
namespace NanoIp.Icmp

open Ethernet (Framed Arrived Received Spoils)

variable {n : Nat}

/-- The packet of `NANO_IP_ICMP_PingRequest`, with what its loop writes. -/
def writeEchoRequest (identifier : BitVec 32) (data : List Byte) (packetSize : BitVec 16)
    (packet : Packet) :
    Packet :=
  let headerStart := packet.current
  let packet := (packet.write8bits echoRequest).write8bits 0#8
  let checksumPos := packet.current
  let packet := packet.write16bits 0#16
  let packet := packet.write32bits identifier
  let packet := data.foldl Packet.write8bits packet
  let checksum := computeInternetCS [] (packet.bytes headerStart packetSize.toNat)
  packet.withData (Packet.store packet.data checksumPos (checksumBytes checksum))

/-- `packet_size` of `NANO_IP_ICMP_PingRequest`. -/
def requestSize (dataSize : BitVec 8) : BitVec 16 :=
  icmpHeaderSize + pingReqHeaderSize + BitVec.ofNat 16 (paddedSize dataSize)

/-- A node that pings and is pinged: its ICMP module stands in the lists of the layers below. -/
structure Station where
  netIf : NetIf
  lower : Lower
  handle : Ipv4.Handle
  packets : PacketId → Packet
  ipv4Protocols : List (Ipv4.Protocol (Except Err (Ipv4.RxHeader × Handling)))
  ethProtocols : List (Ethernet.Protocol (Except Err (Except Err (Ipv4.RxHeader × Handling))))
  icmp_registered : ipv4Protocols.find? (fun p => p.protocol = protocol) =
    some ⟨protocol, fun _ header p => (rxFrame p).map (Prod.mk header)⟩
  ipv4_registered : ethProtocols.find? (fun p => p.etherType = Ipv4.ipProtocol) =
    some (Ipv4.ethernetProtocol ipv4Protocols)

namespace Station

/-- `NANO_IP_ICMP_PingRequest` with its transmission, if its loop ends. -/
def pingRequest (x : Station) (m : Module n) (r : Fin n) (ipv4Address : Ipv4Address)
    (timeout : BitVec 32) (dataSize : BitVec 8) (identifier now : BitVec 32) :
    Option (Outcome n × Option Ipv4.Sent) :=
  match x.lower.alloc with
  | .error e =>
    (Icmp.pingRequest m r ipv4Address timeout dataSize ⟨.ok (), .error e, .success⟩ identifier
      now).map (·, none)
  | .ok pid =>
    (requestData (paddedSize dataSize) (2 ^ 8) 0#8).bind fun data =>
      let packet := writeEchoRequest identifier data (requestSize dataSize)
        (Ipv4.allocatePacket (requestSize dataSize) (x.packets pid))
      let sent := Ipv4.sendPacket x.lower x.handle ⟨0#32, ipv4Address, protocol⟩ pid packet
      (Icmp.pingRequest m r ipv4Address timeout dataSize ⟨.ok (), .ok (), sent.ret⟩ identifier
        now).map (·, some sent)

/-- What the reception of a frame leaves of the module, and what is sent. -/
def rxFrame (x : Station) (m : Module n) (q : Packet) (now : BitVec 32) :
    Option (Outcome n × Option Ipv4.Sent) :=
  match Ethernet.rxFrame x.ethProtocols x.netIf q with
  | .ok (.ok (.ok (header, .pingRequest start size))) =>
    match handlePingRequest x.lower x.handle x.packets header start size with
    | .ok sent => some (⟨m, [], sent.ret⟩, some sent)
    | .error e => some (⟨m, [], e⟩, none)
  | .ok (.ok (.ok (_, .pingReply identifier))) => some (handlePingReply m identifier now, none)
  | _ => none

/-- The node can send to another one at once: its handle is free, there is a packet and a route,
and ARP knows the MAC address. -/
structure Reaches (x : Station) (netIf : NetIf) : Prop where
  free : x.handle.busy = false
  alloc : ∃ pid, x.lower.alloc = .ok pid
  known : ∃ gateway, x.lower.route netIf.ipv4Address = .ok (gateway, x.netIf) ∧
    x.lower.arp (if gateway ≠ 0#32 then gateway else netIf.ipv4Address) = .resolved netIf.macAddress

end Station

def messageOfType (type : Byte) (rest : List Byte) : List Byte :=
  [type, 0#8] ++ checksumBytes (computeInternetCS [] ([type, 0#8, 0#8, 0#8] ++ rest)) ++ rest

section Messages

variable {type : Byte} {rest : List Byte} {k : Nat}

theorem messageOfType_length : (messageOfType type rest).length = rest.length + 4 := by
  rw [messageOfType, List.length_append, List.length_append, checksumBytes]
  simp only [List.length_cons, List.length_nil]
  omega

theorem messageOfType_checksum (hlen : rest.length + k < 2 ^ 16) :
    computeInternetCS [] (messageOfType type rest ++ List.replicate k 0#8) = 0#16 := by
  rw [computeInternetCS_eq_zero_iff, Lib.wordSum_zeros]
  · exact residue_stored [] [type, 0#8] rest (by simp) (by simp; omega)
  · rw [List.length_append, messageOfType_length, List.length_replicate, List.length_nil]
    omega

end Messages

section Send

variable {data : List Byte}

/-- The request stands behind the room of the headers, and both are counted. -/
theorem writeEchoRequest_bytes (identifier : BitVec 32) (packet : Packet) (packetSize : BitVec 16)
    (hsize : packetSize.toNat = data.length + 8) (hfit : data.length + 42 < 2 ^ 16) :
    let message := messageOfType echoRequest (Packet.be32 identifier ++ data)
    let sent := writeEchoRequest identifier data packetSize (Ipv4.allocatePacket packetSize packet)
    sent.bytes 34 message.length = message ∧ sent.count.toNat = 34 + message.length ∧
      sent.current = 34 + message.length ∧ sent.netIf = none := by
  intro message
  have hroom := Ipv4.allocatePacket_composed packetSize packet
  have hmessage : message.length = data.length + 8 := by
    rw [messageOfType_length, List.length_append, Nat.add_comm _ data.length]
    rfl
  have hflat : (data.map fun b => [b]).flatten = data := by
    rw [← List.flatMap_def, List.flatMap_singleton']
  let writes := [echoRequest] :: [0#8] :: Packet.be16 0#16 :: Packet.be32 identifier ::
    data.map fun b => [b]
  have hwrites : writes.flatten = [echoRequest, 0#8] ++ [0#8, 0#8] ++
      (Packet.be32 identifier ++ data) := by
    simp only [writes, List.flatten_cons, hflat]
    rfl
  have hlen : writes.flatten.length = data.length + 8 := by
    rw [hwrites, List.length_append, List.length_append, List.length_append]
    simp only [List.length_cons, List.length_nil, Packet.be32]
    omega
  obtain ⟨hall, hnetIf⟩ := hroom.writes writes (by rw [Packet.bytes_length, hlen]; omega)
  -- the message as it stands there with a zero checksum
  let written := writes.foldl Packet.writeBuffer (Ipv4.allocatePacket packetSize packet)
  have hbytes : written.bytes 34 message.length =
      [echoRequest, 0#8] ++ [0#8, 0#8] ++ (Packet.be32 identifier ++ data) := by
    have hall := hall.bytes
    rw [List.length_append, Packet.bytes_length, Packet.bytes_append, hlen, ← hmessage] at hall
    rw [← hwrites]
    exact (List.append_inj hall (by rw [Packet.bytes_length, Packet.bytes_length])).2
  have hwhole : writeEchoRequest identifier data packetSize
    (Ipv4.allocatePacket packetSize packet) =
      written.withData (Packet.store written.data (34 + 2) (checksumBytes (computeInternetCS []
        (written.bytes 34 packetSize.toNat)))) := by
    have hfold (p : Packet) : data.foldl Packet.write8bits p =
        (data.map fun b => [b]).foldl Packet.writeBuffer p := by
      rw [List.foldl_map]
      rfl
    rw [writeEchoRequest, hfold]
    rfl
  intro sent
  have hsent : sent = written.withData
    (Packet.store written.data (34 + 2) (checksumBytes
      (computeInternetCS [] (written.bytes 34 message.length)))) := by
    rw [hmessage, ← hsize]
    exact hwhole
  rw [hsent, hbytes]
  refine ⟨?_, hall.count.trans ?_, hall.current.trans ?_, hnetIf⟩
  · exact written.bytes_store_inside hbytes rfl
  · rw [List.length_append, Packet.bytes_length, hlen, hmessage]
  · rw [List.length_append, Packet.bytes_length, hlen, hmessage, Nat.zero_add]

/-- A message that stands behind the room of the headers goes out behind them. -/
theorem Station.Reaches.sent {x : Station} {netIf : NetIf} (h : x.Reaches netIf)
    {message : List Byte} {p : Packet} (header : Ipv4Header)
    (hdest : header.destAddress = netIf.ipv4Address) (hbytes : p.bytes 34 message.length = message)
    (hcount : p.count.toNat = 34 + message.length) (hcurrent : p.current = 34 + message.length)
    (hnetIf : p.netIf = none) (hfit : message.length + 38 < 2 ^ 16) (pid : PacketId) :
    ∃ q, Framed q (Ipv4.packetBytes (Ipv4.sentHeader header x.netIf) message) ∧
      (Ipv4.sendPacket x.lower x.handle header pid p).handed = true ∧
      (Ipv4.sendPacket x.lower x.handle header pid p).ret = x.lower.driver ∧
      (Ipv4.sendPacket x.lower x.handle header pid p).packet =
        Ethernet.sendPacket x.netIf ⟨netIf.macAddress, x.netIf.macAddress, Ipv4.ipProtocol⟩ q := by
  obtain ⟨gateway, hroute, harp⟩ := h.known
  have hchosen : Ipv4.chooseRoute x.lower header.destAddress p = .ok (gateway, x.netIf) := by
    rw [Ipv4.chooseRoute, hnetIf, hdest]
    exact hroute
  have hpasses : Ipv4.Passes x.lower x.handle header.destAddress p x.netIf netIf.macAddress :=
    ⟨h.free, gateway, hchosen, by rw [hdest]; exact harp⟩
  obtain ⟨q, hfill, hqcount, hqcurrent, -, hqbytes⟩ :=
    Ipv4.fillHeader_bytes (Ipv4.sentHeader header x.netIf) hcount hbytes
  obtain ⟨hhanded, hpacket⟩ := Ipv4.sendPacket_filled hpasses hfill pid
  refine ⟨q, ⟨?_, ?_, ?_, ?_⟩, hhanded, ?_, hpacket⟩
  · rw [hqcount, hcount, Ipv4.packetBytes_length, Ethernet.headerSize, Ipv4.minHeaderSize]
    omega
  · rw [hqcurrent, hcurrent, Ipv4.packetBytes_length, Ethernet.headerSize, Ipv4.minHeaderSize]
    omega
  · rw [Ipv4.packetBytes_length]
    exact hqbytes
  · rw [Ipv4.packetBytes_length, Ethernet.headerSize, Ipv4.minHeaderSize, Ethernet.csSize]
    omega
  · have hsize : ¬ p.count < Ipv4.minPacketSize := by
      rw [BitVec.lt_def, hcount]
      change ¬ _ < 34
      omega
    rw [Ipv4.sendPacket_ret _ _ _ _ hsize, Ipv4.sendResult,
      if_neg (by rw [h.free]; exact Bool.false_ne_true),
      hchosen]
    dsimp only
    rw [hdest, harp]

end Send

section Receive

variable {sender : NetIf} {ethHeader : Ethernet.Header} {p q : Packet} {header : Ipv4Header}
  {message : List Byte}

def behindHeaders (q : Packet) : Packet := Ipv4.behindHeader (Ethernet.behindHeader q)

/-- What ICMP is given of a message that was sent: the message, and the padding of the frame. -/
theorem behindHeaders_arrived (hq : Arrived sender ethHeader p q)
    (hp : Framed p (Ipv4.packetBytes header message))
    (hs : ¬ Spoils sender (Ipv4.packetBytes header message)) :
    (behindHeaders q).Holds 0 (message ++ List.replicate (26 - message.length) 0#8) ∧
      (behindHeaders q).count.toNat = message.length + (26 - message.length) := by
  obtain ⟨-, -, hcount⟩ := hq.behind hp
  rw [Ipv4.packetBytes_length, Ipv4.minHeaderSize] at hcount
  constructor
  · -- the padding follows the content of the frame
    have hwire := Received.bytes hq
    rw [Ethernet.transmit_sent sender ethHeader hp hs, Ethernet.wireFrame,
      Packet.holds_append] at hwire
    have hpadded := hwire.1
    have hzeros : Ethernet.padding 60
      (Ethernet.content ethHeader (Ipv4.packetBytes header message)) =
        List.replicate (26 - message.length) 0#8 := by
      rw [Ethernet.padding, Ethernet.content_length, Ipv4.packetBytes_length, Ethernet.headerSize,
        Ipv4.minHeaderSize]
      congr 1
      omega
    obtain ⟨front, hfront, hlen⟩ : ∃ front, Ipv4.packetBytes header message = front ++ message ∧
        front.length = 20 := ⟨_, rfl, by simp [checksumBytes]⟩
    rw [hzeros, Ethernet.content, hfront, List.append_assoc, List.append_assoc front,
      ← List.append_assoc _ front,
      Packet.holds_append] at hpadded
    have hmessage := hpadded.2
    have hskip : 0 + (ethHeader.destAddress.toList ++ ethHeader.srcAddress.toList ++
        Packet.be16 ethHeader.etherType ++ front).length =
        (14#16 : BitVec 16).toNat + ((20#16 : BitVec 16).toNat + 0) := by
      rw [List.length_append, List.length_append, List.length_append, Vector.length_toList,
        Vector.length_toList, hlen]
      rfl
    rw [hskip, ← Packet.holds_readSkipBytes, ← Packet.holds_readSkipBytes] at hmessage
    exact hmessage
  · change ((Ethernet.behindHeader q).count - 20#16).toNat = _
    rw [BitVec.toNat_sub_of_le (by rw [BitVec.le_def]; change 20 ≤ _; omega), hcount]
    change _ - 20 = _
    omega

/-- A message for the node comes to ICMP. -/
theorem Station.handled (x : Station) (hq : Arrived sender ethHeader p q)
    (hp : Framed p (Ipv4.packetBytes header message))
    (hs : ¬ Spoils sender (Ipv4.packetBytes header message))
    (hmac : ethHeader.destAddress = x.netIf.macAddress)
    (htype : ethHeader.etherType = Ipv4.ipProtocol)
    (haddress : header.destAddress = x.netIf.ipv4Address) (hprotocol : header.protocol = protocol) :
    Ethernet.rxFrame x.ethProtocols x.netIf q = .ok (.ok ((Icmp.rxFrame (behindHeaders q)).map
      (Prod.mk ⟨header, ethHeader, BitVec.ofNat 16 message.length⟩))) := by
  obtain ⟨hbytes, -, hcount⟩ := hq.behind hp
  rw [Ipv4.packetBytes_length, Ipv4.minHeaderSize] at hcount
  have hcontains : Ipv4.Contains (Ethernet.behindHeader q) header message := by
    refine ⟨hbytes, ?_⟩
    rw [Ipv4.minHeaderSize]
    omega
  have hforUs : Ethernet.isForUs x.netIf ethHeader.destAddress = true := by
    simp [Ethernet.isForUs, hmac]
  have hours : Ipv4.isForUs x.netIf header.destAddress = true := by simp [Ipv4.isForUs, haddress]
  have hfound := x.icmp_registered
  have hfound' := x.ipv4_registered
  rw [← hprotocol] at hfound
  rw [← htype] at hfound'
  rw [Ethernet.rxFrame_arrived hq hp, if_neg fun hbad => hs hbad.1, if_pos hforUs,
    Ethernet.dispatch_found hfound']
  exact congrArg Except.ok (Ipv4.rxFrame_contains hcontains hfound hours ethHeader)

/-- A message with a right sum is looked at, with the zeros behind it. -/
theorem message_passes {type : Byte} {rest : List Byte} {k : Nat}
    (hp : p.Holds 0 (messageOfType type rest ++ List.replicate k 0#8))
    (hcount : p.count.toNat = rest.length + 4 + k) (hfit : rest.length + k < 2 ^ 16) :
    ¬ p.count < icmpHeaderSize ∧ checksumPasses p = true ∧ p.byteAt 0 = type ∧
      (behindHeader p).Holds 0 (rest ++ List.replicate k 0#8) := by
  refine ⟨?_, ?_, ?_, ?_⟩
  · rw [BitVec.lt_def, hcount]
    change ¬ _ < 4
    omega
  · have hbytes : p.bytes p.current p.count.toNat = messageOfType type rest ++
      List.replicate k 0#8 := by
      rw [Packet.Holds, List.length_append, messageOfType_length, List.length_replicate, ← hcount,
        Nat.add_zero] at hp
      exact hp
    rw [checksumPasses, hbytes, messageOfType_checksum hfit]
    rfl
  · exact Packet.Holds.byteAt hp
  · rw [messageOfType, List.append_assoc, Packet.holds_append] at hp
    exact (Packet.holds_readSkipBytes icmpHeaderSize).mpr hp.2

end Receive

section RoundTrip

variable {a b : Station} {dataSize : BitVec 8}

/-- The driver pads the frames of the code behind their check sequence, and the ping is in a short
one. -/
def Short (netIf : NetIf) (dataSize : BitVec 8) : Prop :=
  netIf.has netdrvCapEthFramePadding = true ∧ netIf.has netdrvCapEthCsComputation = false ∧
    paddedSize dataSize < 18

instance (netIf : NetIf) (dataSize : BitVec 8) : Decidable (Short netIf dataSize) :=
  inferInstanceAs (Decidable (_ ∧ _ ∧ _))

/-- A ping is handed to the driver. -/
theorem Station.Reaches.pinged (h : a.Reaches b.netIf) (hdata : dataSize ≠ 255#8) (m : Module n)
    (r : Fin n) (timeout identifier now : BitVec 32) :
    ∃ sent data q, a.pingRequest m r b.netIf.ipv4Address timeout dataSize identifier now =
        some (⟨enqueue m r b.netIf.ipv4Address timeout identifier a.lower.driver now, [],
          a.lower.driver⟩, some sent) ∧
      data.length = paddedSize dataSize ∧
      Framed q (Ipv4.packetBytes ⟨a.netIf.ipv4Address, b.netIf.ipv4Address, protocol⟩
        (messageOfType echoRequest (Packet.be32 identifier ++ data))) ∧
      sent.packet = Ethernet.sendPacket a.netIf
        ⟨b.netIf.macAddress, a.netIf.macAddress, Ipv4.ipProtocol⟩ q := by
  obtain ⟨pid, halloc⟩ := h.alloc
  have hlt := paddedSize_lt hdata
  obtain ⟨data, hloop, hlen⟩ := requestData_ends hlt (2 ^ 8) (i := 0#8) (Nat.zero_le _)
    (by simpa using hlt)
  have hlen : data.length = paddedSize dataSize := hlen
  have hsize : (requestSize dataSize).toNat = data.length + 8 := by
    change (4#16 + 4#16 + BitVec.ofNat 16 (paddedSize dataSize)).toNat = _
    rw [BitVec.toNat_add, show (4#16 + 4#16).toNat = 8 from rfl, BitVec.toNat_ofNat, hlen]
    omega
  have hmessage : (messageOfType echoRequest (Packet.be32 identifier ++ data)).length =
      data.length + 8 := by
    rw [messageOfType_length, List.length_append, Nat.add_comm _ data.length]
    rfl
  obtain ⟨hbytes, hcount, hcurrent, hnetIf⟩ := writeEchoRequest_bytes identifier (a.packets pid)
    (requestSize dataSize) hsize (by omega)
  obtain ⟨q, hframed, -, hret, hpacket⟩ :=
    h.sent ⟨0#32, b.netIf.ipv4Address, protocol⟩ rfl hbytes hcount
    hcurrent hnetIf (by omega) pid
  refine ⟨_, data, q, ?_, hlen, hframed, hpacket⟩
  obtain ⟨message, hmade, -⟩ := echoRequestMessage_built identifier hdata
  simp only [Station.pingRequest, halloc, hloop, Option.bind_some, Icmp.pingRequest, hmade, hret]
  rfl

/-- A request is answered with all that follows its checksum in the frame. -/
theorem Station.Reaches.answered (h : b.Reaches a.netIf) {sender : NetIf}
    {ethHeader : Ethernet.Header} {p q : Packet} {rest : List Byte}
    (hq : Arrived sender ethHeader p q)
    (hp : Framed p (Ipv4.packetBytes ⟨a.netIf.ipv4Address, b.netIf.ipv4Address, protocol⟩
      (messageOfType echoRequest rest)))
    (hs : ¬ Spoils sender (Ipv4.packetBytes ⟨a.netIf.ipv4Address, b.netIf.ipv4Address, protocol⟩
      (messageOfType echoRequest rest))) (hmac : ethHeader.destAddress = b.netIf.macAddress)
    (htype : ethHeader.etherType = Ipv4.ipProtocol) (hfit : rest.length + 64 < 2 ^ 16)
    (m : Module n) (now : BitVec 32) :
    ∃ sent q', b.rxFrame m q now = some (⟨m, [], b.lower.driver⟩, some sent) ∧
      Framed q' (Ipv4.packetBytes ⟨b.netIf.ipv4Address, a.netIf.ipv4Address, protocol⟩
        (messageOfType echoReply (rest ++ List.replicate (26 - (rest.length + 4)) 0#8))) ∧
      sent.packet = Ethernet.sendPacket b.netIf
        ⟨a.netIf.macAddress, b.netIf.macAddress, Ipv4.ipProtocol⟩ q' := by
  obtain ⟨pid, halloc⟩ := h.alloc
  obtain ⟨hholds, hcount⟩ := behindHeaders_arrived hq hp hs
  rw [messageOfType_length] at hholds hcount
  obtain ⟨hsize, hsum, hbyte, hbehind⟩ := message_passes hholds hcount (by omega)
  have hhandled := b.handled hq hp hs hmac htype rfl rfl
  have hrequest : Icmp.rxFrame (behindHeaders q) =
      .ok (.pingRequest (behindHeader (behindHeaders q)) (behindHeaders q).count) := by
    rw [rxFrame_eq, if_neg hsize, if_pos hsum, if_pos hbyte]
  have hrest : (behindHeader (behindHeaders q)).bytes (behindHeader (behindHeaders q)).current
      ((behindHeaders q).count.toNat - 4) =
        rest ++ List.replicate (26 - (rest.length + 4)) 0#8 := by
    rw [hcount, show rest.length + 4 + (26 - (rest.length + 4)) - 4 =
      rest.length + (26 - (rest.length + 4)) by omega]
    rw [Packet.Holds, List.length_append, List.length_replicate, Nat.add_zero] at hbehind
    exact hbehind
  obtain ⟨hbytes, hrcount, hrcurrent⟩ := writeEchoReply_bytes (behindHeaders q).count
    (behindHeader (behindHeaders q)) (b.packets pid) (by omega) (by omega)
  rw [hrest] at hbytes hrcount hrcurrent
  have hlen : (replyOf (rest ++ List.replicate (26 - (rest.length + 4)) 0#8)).length + 38 <
      2 ^ 16 := by
    rw [replyOf_length, List.length_append, List.length_replicate]
    omega
  obtain ⟨q', hframed, -, hret, hpacket⟩ := h.sent
    ⟨b.netIf.ipv4Address, a.netIf.ipv4Address, protocol⟩ rfl hbytes hrcount hrcurrent rfl hlen pid
  have hheader : Ipv4.sentHeader ⟨b.netIf.ipv4Address, a.netIf.ipv4Address, protocol⟩ b.netIf =
      ⟨b.netIf.ipv4Address, a.netIf.ipv4Address, protocol⟩ := by
    rw [Ipv4.sentHeader, ite_self]
  rw [hheader] at hframed
  refine ⟨_, q', ?_, hframed, hpacket⟩
  rw [Station.rxFrame, hhandled, hrequest]
  simp only [Except.map, handlePingRequest, halloc, hret]

/-- A reply ends the request with its identifier. -/
theorem Station.concluded (a : Station) {sender : NetIf} {ethHeader : Ethernet.Header}
    {p q : Packet} {source : Ipv4Address} {identifier : BitVec 32} {data : List Byte}
    (hq : Arrived sender ethHeader p q)
    (hp : Framed p (Ipv4.packetBytes ⟨source, a.netIf.ipv4Address, protocol⟩
      (messageOfType echoReply (Packet.be32 identifier ++ data))))
    (hmac : ethHeader.destAddress = a.netIf.macAddress)
    (htype : ethHeader.etherType = Ipv4.ipProtocol) (hlong : 18 ≤ data.length)
    (hfit : data.length + 64 < 2 ^ 16) (m : Module n) (now : BitVec 32) :
    a.rxFrame m q now = some (handlePingReply m identifier now, none) := by
  have hrest : (Packet.be32 identifier ++ data).length = data.length + 4 := by
    rw [List.length_append, Nat.add_comm _ data.length]
    rfl
  have hs : ¬ Spoils sender (Ipv4.packetBytes ⟨source, a.netIf.ipv4Address, protocol⟩
      (messageOfType echoReply (Packet.be32 identifier ++ data))) := by
    rintro ⟨-, -, hshort⟩
    rw [Ipv4.packetBytes_length, messageOfType_length, hrest, Ethernet.headerSize,
      Ipv4.minHeaderSize] at hshort
    omega
  obtain ⟨hholds, hcount⟩ := behindHeaders_arrived hq hp hs
  rw [messageOfType_length] at hholds hcount
  obtain ⟨hsize, hsum, hbyte, hbehind⟩ := message_passes hholds hcount (by omega)
  have hhandled := a.handled hq hp hs hmac htype rfl rfl
  have hidentifier : (behindHeaders q).longAt 4 = identifier := by
    rw [List.append_assoc, Packet.holds_append] at hbehind
    exact (Packet.holds_readSkipBytes icmpHeaderSize).mp hbehind.1 |>.longAt
  have hreply : Icmp.rxFrame (behindHeaders q) = .ok (.pingReply identifier) := by
    rw [rxFrame_eq, if_neg hsize, if_pos hsum, hbyte, if_neg (by decide), if_pos rfl, hidentifier]
  rw [Station.rxFrame, hhandled, hreply]
  rfl

/-- The frame ends the request of an identifier, whatever the list of requests has become. -/
def Concludes (a : Station) (r : Fin n) (identifier : BitVec 32) (q : Packet) : Prop :=
  ∀ (m : Module n) (now : BitVec 32), m.corresponding identifier = some r → ∃ out,
    a.rxFrame m q now = some (out, none) ∧ out.set = [(r, pingReqSuccessFlag)] ∧
    (out.module.mem r).flags = (m.mem r).flags ||| pingReqSuccessFlag ∧
    (out.module.mem r).responseTime = now - (m.mem r).responseTime

/-- The node answers the frame and is not changed by it, and its answer ends the request. -/
def Echoes (a b : Station) (r : Fin n) (identifier : BitVec 32) (q : Packet) : Prop :=
  ∀ {k : Nat} (m : Module k) (now : BitVec 32), ∃ reply,
    b.rxFrame m q now = some (⟨m, [], b.lower.driver⟩, some reply) ∧
    ∀ q', Received (Ethernet.transmit b.netIf reply.packet.frame) q' → Concludes a r identifier q'

theorem removeBehind_fields (m : Module n) (prev : Option (Fin n)) (r k : Fin n) :
    ((m.removeBehind prev r).mem k).flags = (m.mem k).flags ∧
      ((m.removeBehind prev r).mem k).responseTime = (m.mem k).responseTime := by
  cases prev with
  | none => exact ⟨rfl, rfl⟩
  | some p =>
    by_cases hk : k = p
    · subst hk
      simp [Module.removeBehind]
    · simp [Module.removeBehind, hk]

theorem corresponding_enqueue (m : Module n) (r : Fin n) (ipv4Address : Ipv4Address)
    (timeout identifier : BitVec 32) {ret : Err} (haccepted : ret.accepted = true)
    (now : BitVec 32) :
    (enqueue m r ipv4Address timeout identifier ret now).corresponding identifier = some r := by
  obtain ⟨k, rfl⟩ : ∃ k, n = k + 1 := ⟨n - 1, by have := r.isLt; omega⟩
  rw [enqueue, if_pos haccepted, Module.corresponding, Module.cells, Lib.chain]
  simp

/-- A ping of any size comes back and ends its request, unless the driver of the first node pads
the frame behind its check sequence. -/
theorem ping_comes_back (hab : a.Reaches b.netIf) (hba : b.Reaches a.netIf)
    (hdata : dataSize ≠ 255#8) (hshort : ¬ Short a.netIf dataSize)
    (haccepted : a.lower.driver.accepted = true) (m : Module n) (r : Fin n)
    (timeout identifier now : BitVec 32) :
    ∃ out sent, a.pingRequest m r b.netIf.ipv4Address timeout dataSize identifier now =
      some (out, some sent) ∧
      out.module.corresponding identifier = some r ∧
      ∀ q, Received (Ethernet.transmit a.netIf sent.packet.frame) q →
        Echoes a b r identifier q := by
  obtain ⟨sent, data, p, hping, hlen, hframed, hpacket⟩ :=
    hab.pinged hdata m r timeout identifier now
  refine ⟨_, sent, hping, corresponding_enqueue m r _ _ _ haccepted now, fun q hq k m' now' => ?_⟩
  rw [hpacket] at hq
  have hlt := paddedSize_lt hdata
  have hrest : (Packet.be32 identifier ++ data).length = data.length + 4 := by
    rw [List.length_append, Nat.add_comm _ data.length]
    rfl
  have hs : ¬ Spoils a.netIf (Ipv4.packetBytes ⟨a.netIf.ipv4Address, b.netIf.ipv4Address, protocol⟩
      (messageOfType echoRequest (Packet.be32 identifier ++ data))) := by
    rintro ⟨hpad, hcs, hless⟩
    rw [Ipv4.packetBytes_length, messageOfType_length, hrest, Ethernet.headerSize,
      Ipv4.minHeaderSize] at hless
    exact hshort ⟨hpad, hcs, by omega⟩
  obtain ⟨reply, p', hanswer, hframed', hpacket'⟩ :=
    hba.answered hq hframed hs rfl rfl (by omega) m' now'
  refine ⟨reply, hanswer, fun q' hq' m'' now'' hfound => ?_⟩
  rw [hpacket'] at hq'
  rw [List.append_assoc] at hframed'
  have hconcluded := a.concluded hq' hframed' rfl rfl
    (by rw [List.length_append, List.length_replicate]; omega)
    (by rw [List.length_append, List.length_replicate]; omega) m'' now''
  have hended : handlePingReply m'' identifier now'' =
      ⟨((m''.respond r now'').removeBehind ((Lib.findPrev r none m''.cells).getD none) r).setFlag r
        pingReqSuccessFlag,
        [(r, pingReqSuccessFlag)], .success⟩ := by
    rw [handlePingReply, hfound]
  rw [hended] at hconcluded
  obtain ⟨hflags, htime⟩ :=
    removeBehind_fields (m''.respond r now'') ((Lib.findPrev r none m''.cells).getD none) r r
  refine ⟨_, hconcluded, rfl, ?_, ?_⟩
  · simp only [Module.setFlag, Function.update_self, hflags]
    simp only [Module.respond, Function.update_self]
  · simp only [Module.setFlag, Function.update_self, htime]
    simp only [Module.respond, Function.update_self]

/-- The nodes 192.168.1.1 and 192.168.1.2, which know each other. -/
def sampleStation (netIf other : NetIf) : Station where
  netIf := netIf
  lower := ⟨.ok 0, fun _ => .ok (0#32, netIf), fun _ => .resolved other.macAddress, .success, 0⟩
  handle := Ipv4.Handle.init
  packets _ := ⟨fun _ => 0#8, 0, 0#16, 0#16, 0#32, none⟩
  ipv4Protocols := [⟨protocol, fun _ header p => (rxFrame p).map (Prod.mk header)⟩]
  ethProtocols := [Ipv4.ethernetProtocol
    [⟨protocol, fun _ header p => (rxFrame p).map (Prod.mk header)⟩]]
  icmp_registered := rfl
  ipv4_registered := rfl
def firstNetIf : NetIf := ⟨Vector.replicate 6 1#8, 0xC0A80101#32, 0#32⟩
def secondNetIf : NetIf := ⟨Vector.replicate 6 2#8, 0xC0A80102#32, 0#32⟩

theorem sampleStation_reaches (netIf other : NetIf) : (sampleStation netIf other).Reaches other :=
  ⟨rfl, ⟨0, rfl⟩, 0#32, rfl, rfl⟩

/-- A ping with ten bytes in a frame that is padded. -/
theorem ping_comes_back_ten : ∃ out sent,
    (sampleStation firstNetIf secondNetIf).pingRequest idleRequests ⟨0, Nat.two_pos⟩ 0xC0A80102#32
      1000#32 10#8 7#32
      9#32 = some (out, some sent) ∧ out.module.corresponding 7#32 = some ⟨0, Nat.two_pos⟩ ∧
    ∀ q, Received (Ethernet.transmit firstNetIf sent.packet.frame) q →
      Echoes (n := 2) (sampleStation firstNetIf secondNetIf) (sampleStation secondNetIf firstNetIf)
        ⟨0, Nat.two_pos⟩
        7#32 q :=
  ping_comes_back (b := sampleStation secondNetIf firstNetIf)
    (sampleStation_reaches firstNetIf secondNetIf)
    (sampleStation_reaches secondNetIf firstNetIf) (by decide) (by decide) rfl idleRequests
      ⟨0, Nat.two_pos⟩ 1000#32
    7#32 9#32

end RoundTrip

end NanoIp.Icmp
