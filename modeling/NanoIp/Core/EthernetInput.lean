import NanoIp.Core.Crc
import NanoIp.Core.Written

/-!
# Ethernet reception

`NANO_IP_ETHERNET_RxFrame` on the packet object a driver hands over, `current` standing
on its first byte and the frame check sequence left out of `count`. The protocols are the
registered list; what their handlers do is a parameter.
-/
namespace NanoIp.Ethernet

variable {γ : Type}

/-- `ETHERNET_BROADCAST_MAC_ADDRESS`. -/
def broadcast : MacAddress := Vector.replicate 6 0xFF#8

/-- `nano_ip_ethernet_protocol_t`; `γ` is what a handler answers. -/
structure Protocol (γ : Type) where
  etherType : BitVec 16
  rxFrame : NetIf → Header → Packet → γ

/-- `NANO_IP_PACKET_ReadBuffer` into an array of a MAC address. -/
def readMacAddress (p : Packet) : MacAddress × Packet := (p.macAt 0, p.readSkipBytes 6#16)

/-- The test behind `Check packet size`. -/
def isLongEnough (netIf : NetIf) (p : Packet) : Bool :=
  netIf.has netdrvCapsEthMinFrameSize || minFrameSize ≤ p.count

/-- The test behind `Check packet CRC`. -/
def crcPasses (netIf : NetIf) (p : Packet) : Bool :=
  netIf.has netdrvCapEthCsCheck || computeCrc p true = csResidue

/-- The test behind `Check if packet is for us`. -/
def isForUs (netIf : NetIf) (destAddress : MacAddress) : Bool :=
  netIf.has netdrvCapDestMacAddrCheck || destAddress = netIf.macAddress || destAddress = broadcast

/-- The search of the registered protocols and the call of the one found. -/
def dispatch (protocols : List (Protocol γ)) (netIf : NetIf) (header : Header) (p : Packet) :
    Except Err γ :=
  match protocols.find? fun protocol => protocol.etherType = header.etherType with
  | some protocol => .ok (protocol.rxFrame netIf header p)
  | none => .error .protocolNotFound

/-- `NANO_IP_ETHERNET_RxFrame`: the answer of the protocol handler, or the error when
none is called. -/
def rxFrame (protocols : List (Protocol γ)) (netIf : NetIf) (p : Packet) : Except Err γ :=
  if isLongEnough netIf p then
    if crcPasses netIf p then
      let (destAddress, p) := readMacAddress p
      let (srcAddress, p) := readMacAddress p
      if isForUs netIf destAddress then
        let (etherType, p) := p.read16bits
        dispatch protocols netIf ⟨destAddress, srcAddress, etherType⟩ p
      else .error .ignorePacket
    else .error .invalidCrc
  else .error .packetTooShort

/-- The header at `current`. -/
def headerOf (p : Packet) : Header := ⟨p.macAt 0, p.macAt 6, p.wordAt 12⟩

def behindHeader (p : Packet) : Packet := p.readSkipBytes (BitVec.ofNat 16 headerSize)

theorem rxFrame_eq (protocols : List (Protocol γ)) (netIf : NetIf) (p : Packet) :
    rxFrame protocols netIf p =
      if isLongEnough netIf p then
        if crcPasses netIf p then
          if isForUs netIf (headerOf p).destAddress then dispatch protocols netIf (headerOf p)
            (behindHeader p)
          else .error .ignorePacket
        else .error .invalidCrc
      else .error .packetTooShort := by
  unfold rxFrame
  simp only [readMacAddress, Packet.read16bits]
  simp (disch := decide) only [Packet.readSkipBytes_add, Packet.readSkipBytes_macAt,
    Packet.readSkipBytes_wordAt, BitVec.reduceAdd, BitVec.reduceToNat, Nat.reduceAdd]
  rfl

theorem dispatch_found {protocols : List (Protocol γ)} {header : Header} {protocol : Protocol γ}
    (h : protocols.find? (fun protocol => protocol.etherType = header.etherType) = some protocol)
    (netIf : NetIf) (p : Packet) :
    dispatch protocols netIf header p = .ok (protocol.rxFrame netIf header p) := by
  rw [dispatch, h]

def unchecked (netIf : NetIf) (header : Header) (p : Packet) : Packet :=
  writeHeader header (pad netIf p)

/-- The bytes the code appends behind the frame are those of the complemented mirror image,
the lowest first. -/
theorem sendPacket_appended (netIf : NetIf) (header : Header) (p : Packet)
    (h : netIf.has netdrvCapEthCsComputation = false) :
    (sendPacket netIf header p).bytes 0 ((unchecked netIf header p).count.toNat + csSize) =
      (unchecked netIf header p).frame ++
        fcsBytes (crcOf (unchecked netIf header p).frame) := by
  have hself : (unchecked netIf header p).bytes 0 (unchecked netIf header p).frame.length =
      (unchecked netIf header p).frame := by
    rw [Packet.frame, Packet.bytes_length]
  have hbehind := (unchecked netIf header p).bytes_store_behind
    (fcsBytes (crcOf (unchecked netIf header p).frame)) hself
  rw [Packet.frame, Packet.bytes_length, Nat.zero_add] at hbehind
  have hsent : sendPacket netIf header p = appendFcs netIf (unchecked netIf header p) := rfl
  rw [hsent, appendFcs, if_pos h]
  exact hbehind

/-- The table-free computation is the bit-serial one of the Ethernet polynomial, and a frame
that arrives with the four bytes sent behind it leaves the residue. -/
theorem computeCrc_bitSerial (netIf : NetIf) (header : Header) (p : Packet) :
    (∀ (q : Packet) (computeResidue : Bool), computeCrc q computeResidue =
      Lib.crc polynomial 0xFFFFFFFF#32
      (allBits (q.bytes 0 (if computeResidue then q.count.toNat + csSize else q.count.toNat)))) ∧
    (netIf.has netdrvCapEthCsComputation = false →
      (let fcs : BitVec 32 := ~~~ invertBitsOrder (computeCrc (unchecked netIf header p) false);
        (sendPacket netIf header p).bytes (unchecked netIf header p).count.toNat csSize =
          [fcs.truncate 8, (fcs >>> 8).truncate 8, (fcs >>> 16).truncate 8,
            (fcs >>> 24).truncate 8]) ∧
      ∀ q : Packet, q.count = (unchecked netIf header p).count →
        q.bytes 0 (q.count.toNat + csSize) =
          (sendPacket netIf header p).bytes 0 (q.count.toNat + csSize) →
        computeCrc q true = csResidue ∧ ∀ receiver, crcPasses receiver q = true) := by
  refine ⟨fun q computeResidue => ?_, fun hcap => ⟨?_, fun q hcount hbytes => ?_⟩⟩
  · rw [computeCrc, foldl_crcByte]
    rfl
  · have happended := sendPacket_appended netIf header p hcap
    rw [Packet.bytes_append, Nat.zero_add] at happended
    rw [invertBitsOrder_eq]
    exact (List.append_inj happended
      (by rw [Packet.frame, Packet.bytes_length, Packet.bytes_length])).2
  · have hresidue : computeCrc q true = csResidue := by
      rw [hcount, sendPacket_appended netIf header p hcap, ← hcount] at hbytes
      change crcOf (q.bytes 0 (q.count.toNat + csSize)) = csResidue
      rw [hbytes, crcOf_fcs]
    refine ⟨hresidue, fun receiver => ?_⟩
    rw [crcPasses, hresidue, decide_eq_true rfl, Bool.or_true]

/-- A frame of a driver without capabilities, and the frame as it arrives. -/
theorem computeCrc_bitSerial_plain :
    let netIf : NetIf := ⟨Vector.replicate 6 2#8, 0x0A000001#32, 0#32⟩
    let p := allocatePacket 0#16 ⟨fun _ => 0x5A#8, 0, 0#16, 0#16, 0#32, none⟩
    computeCrc { sendPacket netIf ⟨broadcast, netIf.macAddress, 0x0800#16⟩ p with count := 60#16 }
      true = csResidue :=
  (((computeCrc_bitSerial ⟨Vector.replicate 6 2#8, 0x0A000001#32, 0#32⟩
    ⟨broadcast, Vector.replicate 6 2#8, 0x0800#16⟩
    (allocatePacket 0#16 ⟨fun _ => 0x5A#8, 0, 0#16, 0#16, 0#32, none⟩)).2 (by decide)).2
    { sendPacket _ _ _ with count := 60#16 } (by decide) rfl).1

end NanoIp.Ethernet
