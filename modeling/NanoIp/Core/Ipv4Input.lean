import NanoIp.Core.Ethernet
import NanoIp.Core.Checksum

/-!
# IPv4 reception

`NANO_IP_IPV4_RxFrame` on the packet object that Ethernet hands over, `current`
standing on the IPv4 header. The upper protocols are the registered list; what
their handlers do is a parameter.
-/
namespace NanoIp.Ipv4

/-- `IPV4_MIN_HEADER_SIZE`, as the reception path compares and subtracts it. -/
def rxMinHeaderSize : BitVec 16 := 20#16

/-- `ipv4_header_t`, as a receiver fills it. -/
structure RxHeader extends Ipv4Header where
  ethHeader : Ethernet.Header
  dataLength : BitVec 16
  deriving DecidableEq

/-- `nano_ip_ipv4_protocol_t`; `γ` is what a handler answers. -/
structure Protocol (γ : Type) where
  protocol : Byte
  rxFrame : NetIf → RxHeader → Packet → γ

variable {γ : Type}

def headerLength (ipVersion : Byte) : Byte := (ipVersion &&& 0x0F#8) * 4#8

/-- The test behind `Check if packet is for us`. -/
def isForUs (netIf : NetIf) (dest : Ipv4Address) : Bool :=
  netIf.has netdrvCapIpv4AddressCheck || netIf.ipv4Address &&& dest = netIf.ipv4Address

/-- The test behind `Check fragmented frame`, on the field as it is masked. -/
def isUnfragmented (fragment : BitVec 16) : Bool := (fragment &&& 0x07#16) &&& 0x04#16 = 0#16

/-- The search of the registered protocols and the call of the one found. -/
def dispatch (protocols : List (Protocol γ)) (netIf : NetIf) (header : RxHeader)
    (headerLength : Byte) (p : Packet) : Except Err γ :=
  match protocols.find? fun protocol => protocol.protocol = header.protocol with
  | some protocol =>
    let optionsSize := headerLength.zeroExtend 16 - rxMinHeaderSize
    .ok (protocol.rxFrame netIf header (p.readSkipBytes optionsSize))
  | none => .error .protocolNotFound

/-- `NANO_IP_IPV4_RxFrame`: the answer of the protocol handler, or the error when
none is called. -/
def rxFrame (protocols : List (Protocol γ)) (netIf : NetIf) (ethHeader : Ethernet.Header)
    (p : Packet) :
    Except Err γ :=
  if p.count < rxMinHeaderSize then .error .invalidPacketSize
  else
    let headerStart := p.current
    let (ipVersion, p) := p.read8bits
    let headerLength := headerLength ipVersion
    let p := p.readSkipBytes 1#16 -- tos
    let (totalLength, p) := p.read16bits
    let dataLength := totalLength - headerLength.zeroExtend 16
    let (_, p) := p.read16bits -- identification
    let (fragment, p) := p.read16bits
    if isUnfragmented fragment then
      let p := p.readSkipBytes 1#16 -- ttl
      let (protocol, p) := p.read8bits
      let p := p.readSkipBytes 2#16 -- checksum
      let (srcAddress, p) := p.read32bits
      let (destAddress, p) := p.read32bits
      if netIf.has netdrvCapIpv4CsCheck ||
          computeInternetCS [] (p.bytes headerStart headerLength.toNat) = 0#16 then
        if isForUs netIf destAddress then
          dispatch protocols netIf ⟨⟨srcAddress, destAddress, protocol⟩, ethHeader, dataLength⟩
            headerLength p
        else .error .ignorePacket
      else .error .invalidCs
    else .error .ignorePacket

/-- The header at `current`, field by field. -/
def headerLengthOf (p : Packet) : Byte := headerLength (p.byteAt 0)
def totalLengthOf (p : Packet) : BitVec 16 := p.wordAt 2
def fragmentOf (p : Packet) : BitVec 16 := p.wordAt 6
def protocolOf (p : Packet) : Byte := p.byteAt 9
def srcAddressOf (p : Packet) : Ipv4Address := p.longAt 12
def destAddressOf (p : Packet) : Ipv4Address := p.longAt 16

/-- The header that the handler of the packet receives. -/
def rxHeaderOf (ethHeader : Ethernet.Header) (p : Packet) : RxHeader :=
  ⟨⟨srcAddressOf p, destAddressOf p, protocolOf p⟩, ethHeader,
    totalLengthOf p - (headerLengthOf p).zeroExtend 16⟩

def behindHeader (p : Packet) : Packet := p.readSkipBytes rxMinHeaderSize

/-- The header checksum is right, or the driver has checked it. -/
def checksumPasses (netIf : NetIf) (p : Packet) : Bool :=
  netIf.has netdrvCapIpv4CsCheck ||
    computeInternetCS [] (p.bytes p.current (headerLengthOf p).toNat) = 0#16

theorem rxFrame_eq (protocols : List (Protocol γ)) (netIf : NetIf) (ethHeader : Ethernet.Header)
    (p : Packet) : rxFrame protocols netIf ethHeader p =
      if p.count < rxMinHeaderSize then .error .invalidPacketSize
      else if isUnfragmented (fragmentOf p) then
        if checksumPasses netIf p then
          if isForUs netIf (destAddressOf p) then
            dispatch protocols netIf (rxHeaderOf ethHeader p) (headerLengthOf p) (behindHeader p)
          else .error .ignorePacket
        else .error .invalidCs
      else .error .ignorePacket := by
  unfold rxFrame
  simp only [Packet.read8bits, Packet.read16bits, Packet.read32bits]
  simp (disch := decide) only [Packet.readSkipBytes_add, Packet.readSkipBytes_byteAt,
    Packet.readSkipBytes_wordAt, Packet.readSkipBytes_longAt, BitVec.reduceAdd, BitVec.reduceToNat,
    Nat.reduceAdd]
  rfl

theorem dispatch_ok {protocols : List (Protocol γ)} {netIf : NetIf} {ethHeader : Ethernet.Header}
    {p : Packet} (hr : ∃ protocol ∈ protocols, protocol.protocol = protocolOf p)
    (headerLength : Byte) (q : Packet) :
    ∃ r, dispatch protocols netIf (rxHeaderOf ethHeader p) headerLength q = .ok r := by
  obtain ⟨protocol, hin, hp⟩ := hr
  unfold dispatch
  cases hf : protocols.find? fun protocol => protocol.protocol =
    (rxHeaderOf ethHeader p).protocol with
  | none =>
    have hno := List.find?_eq_none.mp hf protocol hin
    exact absurd (decide_eq_true hp) hno
  | some found => exact ⟨_, rfl⟩

/-- The header of a received datagram as it stands on the wire, checksum included. -/
def wireHeader (header : Ipv4Header) (identification fragment totalLength : BitVec 16) :
    List Byte :=
  let written (checksum : List Byte) := [0x45#8, 0#8] ++ Packet.be16 totalLength ++
    Packet.be16 identification ++ Packet.be16 fragment ++ [0x40#8, header.protocol] ++ checksum ++
    Packet.be32 header.srcAddress ++ Packet.be32 header.destAddress
  written (checksumBytes (computeInternetCS [] (written [0#8, 0#8])))

/-- A packet object that holds a received datagram, or a fragment of one. -/
def wireFrame (header : Ipv4Header) (identification fragment : BitVec 16) (payload : List Byte) :
    Packet :=
  let size := BitVec.ofNat 16 (20 + payload.length)
  let bs := wireHeader header identification fragment size ++ payload
  { data := fun i => bs.getD i 0#8, current := 0, size := size, count := size,
    flags := 0#32, netIf := none }

end NanoIp.Ipv4
