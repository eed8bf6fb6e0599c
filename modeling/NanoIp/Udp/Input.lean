import NanoIp.Udp.Types

/-!
# UDP reception

`NANO_IP_UDP_RxFrame` up to the call of the handle's callback, with the checksum
of received datagrams checked.
-/
namespace NanoIp.Udp

variable {n : Nat}

/-- The pseudo-header of `NANO_IP_UDP_ComputeCS`. -/
def pseudoHeader (header : Ipv4Header) (size : BitVec 16) : List Byte :=
  Packet.be32 header.srcAddress ++ Packet.be32 header.destAddress ++ [0#8, protocol] ++
    Packet.be16 size

/-- `NANO_IP_UDP_ComputeCS`. -/
def computeCS (header : Ipv4Header) (buffer : List Byte) (size : BitVec 16) : BitVec 16 :=
  computeInternetCS (pseudoHeader header size) buffer

/-- The test of the handle search: the port, and the address by its bits. -/
def Handle.receives (k : Handle n) (destPort : BitVec 16) (destAddress : Ipv4Address) : Bool :=
  k.port = destPort && k.ipv4Address &&& destAddress = k.ipv4Address

/-- The search of `NANO_IP_UDP_RxFrame` in the list of bound handles. -/
def lookup (m : Module n) (destPort : BitVec 16) (destAddress : Ipv4Address) : Option (Fin n) :=
  m.bound.find? fun h => (m.mem h).receives destPort destAddress

/-- The event `UDP_EVENT_RX`: the handle whose callback is called, the UDP header and
the packet, cut to the announced length. -/
structure Delivery (n : Nat) where
  handle : Fin n
  header : Header
  packet : Packet

/-- The checksum of a datagram is absent, left to the driver, or right. -/
def checksumPasses (netIf : NetIf) (header : Ipv4Header) (p : Packet) (size checksum : BitVec 16) :
    Bool :=
  checksum = 0#16 || netIf.has netdrvCapUdpIpv4CsCheck ||
    computeCS header (p.bytes p.current size.toNat) size = 0#16

/-- `NANO_IP_UDP_RxFrame`: the delivery it makes, or the error when it makes none. -/
def rxFrame (m : Module n) (netIf : NetIf) (ipv4Header : Ipv4.RxHeader) (p : Packet) :
    Except Err (Delivery n) :=
  if p.count < headerSize then .error .invalidPacketSize
  else
    let start := p
    let (srcPort, p) := p.read16bits
    let (destPort, p) := p.read16bits
    let (announced, p) := p.read16bits
    let length := announced - headerSize
    let (checksum, p) := p.read16bits
    if checksumPasses netIf ipv4Header.toIpv4Header start (length + headerSize) checksum then
      if length ≤ p.count then
        let p := { p with count := length }
        match lookup m destPort ipv4Header.destAddress with
        | some h => .ok ⟨h, ⟨ipv4Header, srcPort, destPort⟩, p⟩
        | none => .error .ignorePacket
      else .error .invalidPacketSize
    else .error .invalidCs

/-- `NANO_IP_UDP_ReadHeader`: the source address, taken from where the IPv4 header
stands in the buffer, and the source port. -/
def readHeader (p : Packet) : Ipv4Address × BitVec 16 :=
  ({ p with current := Ethernet.headerSize + 12 }.longAt 0,
    { p with current := p.current - headerSize.toNat }.wordAt 0)

def ipv4Protocol (m : Module n) : Ipv4.Protocol (Except Err (Delivery n)) := ⟨protocol, rxFrame m⟩

/-- The header at `current`, field by field. -/
def srcPortOf (p : Packet) : BitVec 16 := p.wordAt 0
def destPortOf (p : Packet) : BitVec 16 := p.wordAt 2
def announcedOf (p : Packet) : BitVec 16 := p.wordAt 4
def checksumOf (p : Packet) : BitVec 16 := p.wordAt 6

/-- The datagram is well formed: it fits the packet and its checksum passes. -/
def wellFormed (netIf : NetIf) (header : Ipv4Header) (p : Packet) : Bool :=
  headerSize ≤ p.count && checksumPasses netIf header p (announcedOf p) (checksumOf p) &&
    announcedOf p - headerSize ≤ p.count - headerSize

/-- Why a datagram that is not well formed is refused. -/
def rejection (netIf : NetIf) (header : Ipv4Header) (p : Packet) : Err :=
  if p.count < headerSize then .invalidPacketSize
  else if checksumPasses netIf header p (announcedOf p) (checksumOf p) then .invalidPacketSize
  else .invalidCs

def contentOf (p : Packet) : Packet :=
  { p.readSkipBytes headerSize with count := announcedOf p - headerSize }

theorem rxFrame_eq (m : Module n) (netIf : NetIf) (header : Ipv4.RxHeader) (p : Packet) :
    rxFrame m netIf header p =
      if wellFormed netIf header.toIpv4Header p then
        match lookup m (destPortOf p) header.destAddress with
        | some h => .ok ⟨h, ⟨header, srcPortOf p, destPortOf p⟩, contentOf p⟩
        | none => .error .ignorePacket
      else .error (rejection netIf header.toIpv4Header p) := by
  have hsize : announcedOf p - headerSize + headerSize = announcedOf p := BitVec.sub_add_cancel _ _
  unfold rxFrame
  simp only [Packet.read16bits]
  simp (disch := decide) only [Packet.readSkipBytes_add, Packet.readSkipBytes_wordAt,
    BitVec.reduceAdd,
    BitVec.reduceToNat, Nat.reduceAdd]
  have hwell : wellFormed netIf header.toIpv4Header p = true ↔ ¬ p.count < headerSize ∧
      checksumPasses netIf header.toIpv4Header p (announcedOf p) (checksumOf p) = true ∧
      announcedOf p - headerSize ≤ p.count - headerSize := by
    simp only [wellFormed, Bool.and_eq_true, decide_eq_true_eq, BitVec.not_lt, and_assoc]
  by_cases hc : p.count < headerSize
  · rw [if_pos hc, if_neg fun h => (hwell.mp h).1 hc, rejection, if_pos hc]
  rw [if_neg hc]
  change (if checksumPasses netIf header.toIpv4Header p (announcedOf p - headerSize + headerSize)
    (checksumOf p) = true then _ else _) = _
  rw [hsize]
  by_cases hk : checksumPasses netIf header.toIpv4Header p (announcedOf p) (checksumOf p) = true
  · rw [if_pos hk]
    by_cases hl : announcedOf p - headerSize ≤ p.count - headerSize
    · rw [if_pos (hwell.mpr ⟨hc, hk, hl⟩)]
      exact if_pos hl
    · rw [if_neg fun h => hl (hwell.mp h).2.2, rejection, if_neg hc, if_pos hk]
      exact if_neg hl
  · rw [if_neg hk, if_neg fun h => hk (hwell.mp h).2.1, rejection, if_neg hc, if_neg hk]

theorem rxFrame_ok_iff {m : Module n} {netIf : NetIf} {header : Ipv4.RxHeader} {p : Packet}
    {d : Delivery n} :
    rxFrame m netIf header p = .ok d ↔ wellFormed netIf header.toIpv4Header p = true ∧
      ∃ h, lookup m (destPortOf p) header.destAddress = some h ∧
        d = ⟨h, ⟨header, srcPortOf p, destPortOf p⟩, contentOf p⟩ := by
  rw [rxFrame_eq]
  by_cases hw : wellFormed netIf header.toIpv4Header p = true
  · rw [if_pos hw]
    cases lookup m (destPortOf p) header.destAddress with
    | none => simp
    | some h => simp [hw, eq_comm]
  · rw [if_neg hw]
    simp [hw]

end NanoIp.Udp
