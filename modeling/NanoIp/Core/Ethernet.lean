import NanoIp.Core.Packet

/-!
# Ethernet transmission

Padding to the minimum frame, the Ethernet header and the frame check sequence
are written into the packet object itself, which is then handed to the driver.
-/
namespace NanoIp.Ethernet

def headerSize : Nat := 14
def csSize : Nat := 4
/-- `MIN_ETHERNET_FRAME_SIZE`. -/
def minFrameSize : BitVec 16 := 60#16

/-- `ethernet_header_t`. -/
structure Header where
  destAddress : MacAddress
  srcAddress : MacAddress
  etherType : BitVec 16
  deriving DecidableEq

/-- The state in which the allocator returns a packet; the buffer keeps its bytes. -/
def fresh (p : Packet) (size : BitVec 16) : Packet :=
  { p with current := 0, size := size, count := 0#16, flags := 0#32, netIf := none }

/-- `NANO_IP_ETHERNET_AllocatePacket` on the packet object the allocator chose. -/
def allocatePacket (packetSize : BitVec 16) (p : Packet) : Packet :=
  let total := packetSize + BitVec.ofNat 16 headerSize + BitVec.ofNat 16 csSize
  let total := if total < minFrameSize then minFrameSize else total
  let p := { fresh p total with flags := packetFlagTx }
  p.writeSkipBytes (BitVec.ofNat 16 headerSize)

/-- One 4-bit step of `NANO_IP_ETHERNET_ComputeCrc`. -/
def crcNibble (crc : BitVec 32) (byte : Byte) : BitVec 32 :=
  let q3 := if crc.getLsbD 28 ^^ byte.getLsbD 3 then 0x04C11DB7#32 else 0#32
  let q2 := if crc.getLsbD 29 ^^ byte.getLsbD 2 then 0x09823B6E#32 else 0#32
  let q1 := if crc.getLsbD 30 ^^ byte.getLsbD 1 then 0x130476DC#32 else 0#32
  let q0 := if crc.getLsbD 31 ^^ byte.getLsbD 0 then 0x2608EDB8#32 else 0#32
  (crc <<< 4) ^^^ q3 ^^^ q2 ^^^ q1 ^^^ q0

def crcByte (crc : BitVec 32) (byte : Byte) : BitVec 32 :=
  crcNibble (crcNibble crc byte) (byte >>> 4)

/-- `NANO_IP_ETHERNET_ComputeCrc`: four more bytes are covered when the residue is wanted. -/
def computeCrc (p : Packet) (computeResidue : Bool) : BitVec 32 :=
  let count := if computeResidue then p.count.toNat + 4 else p.count.toNat
  (p.bytes 0 count).foldl crcByte 0xFFFFFFFF#32

/-- Pad to the minimum frame size unless the driver does. -/
def pad (netIf : NetIf) (p : Packet) : Packet :=
  if p.count < minFrameSize ∧ netIf.has netdrvCapEthFramePadding = false then
    { p with
      data := Packet.store p.data p.current (List.replicate (minFrameSize - p.count).toNat 0#8)
      count := minFrameSize }
  else p

/-- The Ethernet header is written from `data` on and is not counted again. -/
def writeHeader (header : Header) (p : Packet) : Packet :=
  (({ p with current := 0 }.writeBufferNoCount header.destAddress.toList).writeBufferNoCount
    header.srcAddress.toList).write16bitsNoCount header.etherType

/-- Append the frame check sequence unless the driver computes it. -/
def appendFcs (netIf : NetIf) (p : Packet) : Packet :=
  if netIf.has netdrvCapEthCsComputation = false then
    let fcs := ~~~ (computeCrc p false).reverse
    { p with
      data := Packet.store p.data p.count.toNat
        [fcs.truncate 8, (fcs >>> 8).truncate 8, (fcs >>> 16).truncate 8, (fcs >>> 24).truncate 8]
      count := p.count + 4#16 }
  else p

/-- `NANO_IP_ETHERNET_SendPacket` up to the call of the driver. -/
def sendPacket (netIf : NetIf) (header : Header) (p : Packet) : Packet :=
  appendFcs netIf (writeHeader header (pad netIf p))

@[simp] theorem pad_current (netIf : NetIf) (p : Packet) : (pad netIf p).current = p.current := by
  unfold pad; split <;> rfl

@[simp] theorem sendPacket_flags (netIf : NetIf) (header : Header) (p : Packet) :
    (sendPacket netIf header p).flags = p.flags := by
  unfold sendPacket appendFcs pad
  split <;> split <;> rfl

theorem writeHeader_data (header : Header) (p : Packet) {i : Nat} (hi : headerSize ≤ i) :
    (writeHeader header p).data i = p.data i := by
  have hd : header.destAddress.toList.length = 6 := header.destAddress.length_toList
  have hs : header.srcAddress.toList.length = 6 := header.srcAddress.length_toList
  rw [headerSize] at hi
  change Packet.store (Packet.store (Packet.store p.data 0 header.destAddress.toList)
    (0 + header.destAddress.toList.length) header.srcAddress.toList)
    (0 + header.destAddress.toList.length + header.srcAddress.toList.length)
    (Packet.be16 header.etherType) i = p.data i
  rw [Packet.store_outside _ _ _ _ (.inr (by rw [hd, hs]; exact hi)),
    Packet.store_outside _ _ _ _ (.inr (by omega)), Packet.store_outside _ _ _ _ (.inr (by omega))]

theorem pad_data (netIf : NetIf) (p : Packet) {i : Nat} (hi : i < p.current) :
    (pad netIf p).data i = p.data i := by
  unfold pad
  split
  · exact Packet.store_outside _ _ _ _ (.inl hi)
  · rfl

theorem le_pad_count (netIf : NetIf) (p : Packet) : p.count.toNat ≤ (pad netIf p).count.toNat := by
  unfold pad
  split
  · next h => exact Nat.le_of_lt (BitVec.lt_def.mp h.1)
  · exact Nat.le_refl _

theorem appendFcs_data (netIf : NetIf) (p : Packet) {i : Nat} (hi : i < p.count.toNat) :
    (appendFcs netIf p).data i = p.data i := by
  unfold appendFcs
  split
  · exact Packet.store_outside _ _ _ _ (.inl hi)
  · rfl

theorem sendPacket_data (netIf : NetIf) (header : Header) (p : Packet) {i : Nat}
    (h₁ : headerSize ≤ i) (h₂ : i < p.count.toNat) (h₃ : i < p.current) :
    (sendPacket netIf header p).data i = p.data i := by
  have hcount : i < (writeHeader header (pad netIf p)).count.toNat :=
    Nat.lt_of_lt_of_le h₂ (le_pad_count netIf p)
  rw [sendPacket, appendFcs_data netIf _ hcount, writeHeader_data header _ h₁, pad_data netIf p h₃]

end NanoIp.Ethernet
