import NanoIp.Udp.RoundTrip

/-!
# Datagrams as they stand in a frame

A received datagram is described by the bytes of its frame, behind an IPv4 header with or
without options. `NANO_IP_UDP_ReadHeader` finds its source again when the packet stands
behind the UDP header: the address where the frame begins, the port right before
`current`.
-/
namespace NanoIp.Udp

variable {n : Nat}

/-- A datagram as it is to reach an application. -/
structure Datagram where
  payload : List Byte
  address : Ipv4Address
  port : BitVec 16
  deriving DecidableEq

def ipv4LengthOf (q : Packet) : Nat := 4 * (q.byteAt 14 &&& 0x0F#8).toNat

def udpOffset (q : Packet) : Nat := 14 + ipv4LengthOf q

/-- A frame with a UDP datagram, as an interface hands it to Ethernet. -/
structure CarriesUdp (q : Packet) : Prop where
  current : q.current = 0
  etherType : q.wordAt 12 = Ipv4.ipProtocol
  ipv4Length : 20 ≤ ipv4LengthOf q
  protocol : q.byteAt 23 = protocol
  udpLength : 8 ≤ (q.wordAt (udpOffset q + 4)).toNat

instance (q : Packet) : Decidable (CarriesUdp q) :=
  decidable_of_iff (q.current = 0 ∧ q.wordAt 12 = Ipv4.ipProtocol ∧ 20 ≤ ipv4LengthOf q ∧
    q.byteAt 23 = protocol ∧
      8 ≤ (q.wordAt (udpOffset q + 4)).toNat)
    ⟨fun ⟨hc, he, hi, hp, hu⟩ => ⟨hc, he, hi, hp, hu⟩,
      fun h => ⟨h.current, h.etherType, h.ipv4Length, h.protocol, h.udpLength⟩⟩

/-- The datagram of a frame. -/
def datagramOf (q : Packet) : Datagram where
  payload := q.bytes (udpOffset q + 8) ((q.wordAt (udpOffset q + 4)).toNat - 8)
  address := q.longAt 26
  port := q.wordAt (udpOffset q)

/-- The datagram as an application reads it from the packet it was delivered in. -/
def readDatagram (p : Packet) : Datagram where
  payload := p.bytes p.current p.count.toNat
  address := (readHeader p).1
  port := (readHeader p).2

/-- The packet behind the IPv4 header of a frame. -/
def behindIpv4 (q : Packet) : Packet :=
  (Ipv4.behindHeader (Ethernet.behindHeader q)).readSkipBytes
    ((Ipv4.headerLengthOf (Ethernet.behindHeader q)).zeroExtend 16 - Ipv4.rxMinHeaderSize)

theorem headerLengthOf_toNat (q : Packet) :
    (Ipv4.headerLengthOf (Ethernet.behindHeader q)).toNat = ipv4LengthOf q := by
  have hbyte : (Ethernet.behindHeader q).byteAt 0 = q.byteAt 14 := Packet.readSkipBytes_byteAt ..
  have hall : ∀ b : Byte, ((b &&& 0x0F#8) * 4#8).toNat = 4 * (b &&& 0x0F#8).toNat := by decide
  rw [Ipv4.headerLengthOf, Ipv4.headerLength, hbyte]
  exact hall _

theorem behindIpv4_current {q : Packet} (hq : CarriesUdp q) :
    (behindIpv4 q).current = udpOffset q := by
  have hlen := headerLengthOf_toNat q
  have hmin := hq.ipv4Length
  have hskip : ((Ipv4.headerLengthOf (Ethernet.behindHeader q)).zeroExtend 16 -
    Ipv4.rxMinHeaderSize).toNat =
      ipv4LengthOf q - 20 := by
    have hbound := (Ipv4.headerLengthOf (Ethernet.behindHeader q)).isLt
    rw [Ipv4.rxMinHeaderSize, BitVec.toNat_sub, BitVec.zeroExtend, BitVec.toNat_setWidth,
      BitVec.toNat_ofNat]
    omega
  change q.current + 14 + 20 + (BitVec.toNat _) = _
  rw [hskip, hq.current, udpOffset]
  omega

/-- What is delivered for a frame stands behind its headers. -/
theorem Receiver.rxFrame_carried (r : Receiver n) {netIf : NetIf} {q : Packet} {d : Delivery n}
    (hq : CarriesUdp q) (h : r.rxFrame netIf q = some d) : d.packet = contentOf (behindIpv4 q) := by
  rw [Receiver.rxFrame, Ethernet.rxFrame_eq] at h
  have hether : (Ethernet.headerOf q).etherType = Ipv4.ipProtocol := hq.etherType
  have hproto : Ipv4.protocolOf (Ethernet.behindHeader q) = protocol :=
    (Packet.readSkipBytes_byteAt ..).trans hq.protocol
  have hipv4 := r.ipv4_registered
  have hudp := r.udp_registered
  rw [← hether] at hipv4
  rw [← hproto] at hudp
  have hcalled : Ipv4.dispatch r.ipv4Protocols netIf
    (Ipv4.rxHeaderOf (Ethernet.headerOf q) (Ethernet.behindHeader q))
      (Ipv4.headerLengthOf (Ethernet.behindHeader q))
        (Ipv4.behindHeader (Ethernet.behindHeader q)) =
        .ok (Udp.rxFrame r.module netIf
          (Ipv4.rxHeaderOf (Ethernet.headerOf q) (Ethernet.behindHeader q))
          (behindIpv4 q)) := by
    rw [Ipv4.dispatch, show
      (Ipv4.rxHeaderOf (Ethernet.headerOf q) (Ethernet.behindHeader q)).protocol =
      Ipv4.protocolOf (Ethernet.behindHeader q) from rfl, hudp]
    rfl
  rw [Ethernet.dispatch_found hipv4] at h
  dsimp only [Ipv4.ethernetProtocol] at h
  rw [Ipv4.rxFrame_eq, hcalled] at h
  cases hmade : Udp.rxFrame r.module netIf
    (Ipv4.rxHeaderOf (Ethernet.headerOf q) (Ethernet.behindHeader q))
      (behindIpv4 q) with
  | error e =>
    rw [hmade] at h
    split_ifs at h
  | ok d' =>
    obtain ⟨-, k, -, rfl⟩ := rxFrame_ok_iff.mp hmade
    rw [hmade] at h
    split_ifs at h
    obtain rfl := Option.some.inj h
    rfl

/-- `current` stands right behind the ports again. -/
theorem readHeader_contentOf (p : Packet) :
    readHeader (contentOf p) =
      ({ p with current := Ethernet.headerSize + 12 }.longAt 0, p.wordAt 0) := by
  refine Prod.ext rfl (Packet.wordAt_congr rfl ?_)
  exact Nat.add_sub_cancel _ 8

/-- An application that reads the packet a frame was delivered in finds the datagram of
the frame. -/
theorem readDatagram_carried (r : Receiver n) {netIf : NetIf} {q : Packet} {d : Delivery n}
    (hq : CarriesUdp q) (h : r.rxFrame netIf q = some d) :
    readDatagram d.packet = datagramOf q := by
  have hcurrent := behindIpv4_current hq
  have hzero := hq.current
  have hword (i : Nat) : (behindIpv4 q).wordAt i = q.wordAt (udpOffset q + i) := by
    rw [Packet.wordAt, Packet.wordAt, Packet.byteAt, Packet.byteAt, Packet.byteAt, Packet.byteAt,
      hcurrent, hzero,
      Nat.zero_add, Nat.zero_add]
    rfl
  have hcount : (announcedOf (behindIpv4 q) - headerSize).toNat =
      (q.wordAt (udpOffset q + 4)).toNat - 8 := by
    rw [announcedOf, hword, BitVec.toNat_sub_of_le (by rw [BitVec.le_def]; exact hq.udpLength)]
    rfl
  have hpayload : (contentOf (behindIpv4 q)).bytes (contentOf (behindIpv4 q)).current
      (contentOf (behindIpv4 q)).count.toNat =
        q.bytes (udpOffset q + 8) ((q.wordAt (udpOffset q + 4)).toNat - 8) := by
    change q.bytes ((behindIpv4 q).current + 8) (announcedOf (behindIpv4 q) - headerSize).toNat = _
    rw [hcurrent, hcount]
  have haddress : { behindIpv4 q with current := Ethernet.headerSize + 12 }.longAt 0 =
      q.longAt 26 := by
    refine Packet.longAt_congr rfl ?_
    rw [hzero]
    rfl
  have hport : (behindIpv4 q).wordAt 0 = q.wordAt (udpOffset q) := hword 0
  rw [r.rxFrame_carried hq h, readDatagram, readHeader_contentOf, hpayload, haddress,
    hport, datagramOf]

end NanoIp.Udp
