import NanoIp.Core.Carried
import NanoIp.Tcp.Output

/-!
# TCP decoding

`NANO_IP_TCP_RxFrame` up to the handle lookup: the header is read, the checksum is tried
over the length that IPv4 announces, and what follows the options is the payload.
-/
namespace NanoIp.Tcp

open Packet (be16 be32)

variable {n : Nat}

/-- `NANO_IP_TCP_ComputeCS`. -/
def computeCS (header : Ipv4Header) (buffer : List Byte) (size : BitVec 16) : BitVec 16 :=
  computeInternetCS (pseudoHeader header size) buffer

def checksumPasses (netIf : NetIf) (header : Ipv4Header) (p : Packet) (size : BitVec 16) : Bool :=
  netIf.has netdrvCapTcpIpv4CsCheck || computeCS header (p.bytes p.current size.toNat) size = 0#16

/-- `Decode packet` and the checks up to the search of a handle: the segment that the
state machine receives, or the error when it receives none. -/
def decode (netIf : NetIf) (ipv4Header : Ipv4.RxHeader) (p : Packet) : Except Err Segment :=
  if p.count < headerSize then .error .invalidPacketSize
  else
    let start := p
    let (srcPort, p) := p.read16bits
    let (destPort, p) := p.read16bits
    let (seqNumber, p) := p.read32bits
    let (ackNumber, p) := p.read32bits
    let (offset, p) := p.read8bits
    let dataOffset := offset >>> 4
    let (flags, p) := p.read8bits
    let (_, p) := p.read16bits -- window
    let optionsLength := dataOffset.zeroExtend 16 * 4#16 - headerSize
    let p := p.readSkipBytes 2#16 -- checksum
    let p := p.readSkipBytes 2#16 -- urgent pointer
    let p := p.readSkipBytes optionsLength
    if checksumPasses netIf ipv4Header.toIpv4Header start ipv4Header.dataLength then
      let length := ipv4Header.dataLength - (headerSize + optionsLength)
      if length ≤ p.count then
        .ok ⟨ipv4Header.srcAddress, ipv4Header.destAddress, srcPort, destPort, seqNumber,
          ackNumber, flags,
          p.bytes p.current length.toNat, by rw [Packet.bytes_length]; exact length.isLt⟩
      else .error .invalidPacketSize
    else .error .invalidCs

def ipv4Protocol : Ipv4.Protocol (Except Err Segment) := ⟨protocol, decode⟩

/-- The header at `current`, field by field. -/
def srcPortOf (p : Packet) : BitVec 16 := p.wordAt 0
def destPortOf (p : Packet) : BitVec 16 := p.wordAt 2
def seqNumberOf (p : Packet) : BitVec 32 := p.longAt 4
def ackNumberOf (p : Packet) : BitVec 32 := p.longAt 8
def optionsLengthOf (p : Packet) : BitVec 16 :=
  (p.byteAt 12 >>> 4).zeroExtend 16 * 4#16 - headerSize
def flagsOf (p : Packet) : Byte := p.byteAt 13

def behindOptions (p : Packet) : Packet :=
  (p.readSkipBytes headerSize).readSkipBytes (optionsLengthOf p)

def payloadLength (ipv4Header : Ipv4.RxHeader) (p : Packet) : BitVec 16 :=
  ipv4Header.dataLength - (headerSize + optionsLengthOf p)

/-- The segment at `current`. -/
def segmentOf (ipv4Header : Ipv4.RxHeader) (p : Packet) : Segment :=
  ⟨ipv4Header.srcAddress, ipv4Header.destAddress, srcPortOf p, destPortOf p, seqNumberOf p,
    ackNumberOf p, flagsOf p,
    (behindOptions p).bytes (behindOptions p).current (payloadLength ipv4Header p).toNat,
    by rw [Packet.bytes_length]; exact (payloadLength ipv4Header p).isLt⟩

theorem decode_eq (netIf : NetIf) (ipv4Header : Ipv4.RxHeader) (p : Packet) :
    decode netIf ipv4Header p =
      if p.count < headerSize then .error .invalidPacketSize
      else if checksumPasses netIf ipv4Header.toIpv4Header p ipv4Header.dataLength then
        if payloadLength ipv4Header p ≤ (behindOptions p).count then .ok (segmentOf ipv4Header p)
        else .error .invalidPacketSize
      else .error .invalidCs := by
  unfold decode
  simp only [Packet.read8bits, Packet.read16bits, Packet.read32bits]
  simp (disch := decide) only [Packet.readSkipBytes_add, Packet.readSkipBytes_byteAt,
    Packet.readSkipBytes_wordAt, Packet.readSkipBytes_longAt, BitVec.reduceAdd, BitVec.reduceToNat,
    Nat.reduceAdd]
  rfl

section Output

variable {p : Packet} {payload : List Byte} (k : Handle n) (flags : Byte) (header : Ipv4Header)

/-- The header fields in front of the checksum. -/
def beforeChecksum (k : Handle n) (flags : Byte) : List Byte :=
  be16 k.port ++ be16 k.destPort ++ be32 k.seqNumber ++
    be32 (if flags &&& flagAck ≠ 0#8 then k.ackNumber else 0#32) ++ [headerDataOffset, flags] ++
      be16 windowSize

@[simp] theorem beforeChecksum_length : (beforeChecksum k flags).length = 16 := rfl

/-- A segment as it is sent, with the checksum the sender computes; behind the checksum
stands the urgent pointer. -/
def segmentBytes (k : Handle n) (flags : Byte) (header : Ipv4Header) (payload : List Byte) :
    List Byte :=
  let size := BitVec.ofNat 16 (payload.length + 20)
  beforeChecksum k flags ++ checksumBytes (computeCS header
    (beforeChecksum k flags ++ [0#8, 0#8] ++ ([0#8, 0#8] ++ payload)) size) ++
      ([0#8, 0#8] ++ payload)

@[simp] theorem segmentBytes_length :
    (segmentBytes k flags header payload).length = payload.length + 20 := by
  simp only [segmentBytes, checksumBytes, List.length_append, beforeChecksum_length,
    List.length_cons, List.length_nil]
  omega

/-- `NANO_IP_TCP_AllocatePacket` leaves room for the headers, and no payload. -/
theorem allocatedPacket_composed (packetSize : BitVec 16) (p : Packet) :
    (allocatedPacket packetSize p).Composed 54 [] := ⟨rfl, rfl, rfl⟩

theorem completePacket_eq (h : p.Composed 54 payload) (hfit : payload.length + 20 < 2 ^ 16) :
    (completePacket k flags header p).data = (p.writeChecksummed 34
      (pseudoHeader header (BitVec.ofNat 16 (payload.length + 20)))
        (beforeChecksum k flags) [0#8, 0#8]
      (payload.length + 20)).data := by
  have htotal : p.count + headerSize = BitVec.ofNat 16 (payload.length + 20) := by
    apply BitVec.eq_of_toNat_eq
    rw [headerSize, BitVec.toNat_add, h.count, BitVec.toNat_ofNat, BitVec.toNat_ofNat]
  have hlen : (BitVec.ofNat 16 (payload.length + 20)).toNat = payload.length + 20 := by
    rw [BitVec.toNat_ofNat, Nat.mod_eq_of_lt hfit]
  have hstart : p.current - (payload.length + 20) = 34 := by
    rw [h.current]
    omega
  have hheader : headerBytes k flags = beforeChecksum k flags ++ [0#8, 0#8] ++ [0#8, 0#8] := by
    simp only [headerBytes, beforeChecksum, List.append_assoc]
    rfl
  unfold completePacket Packet.writeChecksummed
  dsimp only
  rw [htotal, hlen, hstart, hheader, beforeChecksum_length]
  rfl

theorem completePacket_bytes (h : p.Composed 54 payload) (hfit : payload.length + 20 < 2 ^ 16) :
    (completePacket k flags header p).bytes 34 (payload.length + 20) =
      segmentBytes k flags header payload := by
  have hwritten := p.writeChecksummed_bytes 34
    (pseudoHeader header (BitVec.ofNat 16 (payload.length + 20)))
    (beforeChecksum k flags) [0#8, 0#8] payload.length
  rw [beforeChecksum_length, show [0#8, 0#8].length = 2 from rfl,
    show 16 + 2 + 2 + payload.length = payload.length + 20 from by omega,
    show 34 + 16 + 2 + 2 = 54 from rfl, h.bytes] at hwritten
  dsimp only [segmentBytes]
  rw [computeCS, ← hwritten]
  exact Packet.bytes_data _ _ fun i _ => congrFun (completePacket_eq k flags header h hfit) _

theorem completePacket_outside (h : p.Composed 54 payload) (hfit : payload.length + 20 < 2 ^ 16)
    {i : Nat} (hi : i < 34 ∨ 54 ≤ i) : (completePacket k flags header p).data i = p.data i := by
  rw [completePacket_eq k flags header h hfit]
  exact p.writeChecksummed_outside 34 _ _ _ _ hi

/-- The packet is ready for IPv4, the segment standing behind the room for its header. -/
theorem completePacket_framed (h : p.Composed 54 payload) (hfit : payload.length + 58 < 2 ^ 16) :
    Ethernet.Framed (completePacket k flags header p)
      (p.bytes 14 20 ++ segmentBytes k flags header payload) := by
  have hcurrent := h.current
  constructor
  · rw [List.length_append, Packet.bytes_length, segmentBytes_length]
    change (BitVec.ofNat 16 p.current).toNat = 14 + _
    rw [BitVec.toNat_ofNat]
    omega
  · rw [List.length_append, Packet.bytes_length, segmentBytes_length]
    change p.current = 14 + _
    omega
  · rw [List.length_append, Packet.bytes_length, Packet.bytes_append, segmentBytes_length]
    refine congrArg₂ (· ++ ·) ?_ (completePacket_bytes k flags header h (by omega))
    refine Packet.bytes_data _ _ fun i hi =>
      completePacket_outside k flags header h (by omega) (.inl ?_)
    rw [Ethernet.headerSize]
    omega
  · rw [List.length_append, Packet.bytes_length, segmentBytes_length, Ethernet.headerSize,
      Ethernet.csSize]
    omega

end Output

end NanoIp.Tcp
