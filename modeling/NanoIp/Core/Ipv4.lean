import NanoIp.Core.Ethernet
import NanoIp.Core.Checksum

/-!
# IPv4 transmission

One IPv4 handle serves one upper-layer handle. The layers below it (allocator,
routes, ARP table and requests, driver) are seen through what they answer during
one call; a request that ARP queues leaves the handle busy until it completes.
-/
namespace NanoIp

/-- The identity of a packet object of the allocator. -/
abbrev PacketId := Nat

/-- An error code that is neither success nor in progress. -/
abbrev Failure := { e : Err // e.accepted = false }

theorem Failure.not_inProgress (e : Failure) : e.1 ≠ .inProgress := by
  intro h
  have hno := e.2
  rw [h] at hno
  cases hno

/-- What `NANO_IP_ARP_Request` answers. -/
inductive ArpAnswer where
  | resolved (mac : MacAddress)
  | pending
  | failed (e : Failure)

/-- What the layers below answer during one transmission, and how long it takes. -/
structure Lower where
  alloc : Except Failure PacketId
  route : Ipv4Address → Except Failure (Ipv4Address × NetIf)
  arp : Ipv4Address → ArpAnswer
  driver : Err
  elapsed : Nat

namespace Ipv4

def minHeaderSize : Nat := 20
/-- `IPV4_MIN_PACKET_SIZE`. -/
def minPacketSize : BitVec 16 := BitVec.ofNat 16 (Ethernet.headerSize + minHeaderSize)
/-- `IP_PROTOCOL`. -/
def ipProtocol : BitVec 16 := 0x0800#16

/-- `nano_ip_ipv4_handle_t`; of the ARP request it keeps the answer. -/
structure Handle where
  header : Ipv4Header
  arpMac : MacAddress
  netIf : Option NetIf
  packet : Option PacketId
  busy : Bool
  deriving DecidableEq

/-- `NANO_IP_IPV4_InitializeHandle`. -/
def Handle.init : Handle := ⟨Ipv4Header.zero, Vector.replicate 6 0#8, none, none, false⟩

/-- `NANO_IP_IPV4_AllocatePacket` on the packet object the allocator chose. -/
def allocatePacket (packetSize : BitVec 16) (p : Packet) : Packet :=
  (Ethernet.allocatePacket (packetSize + BitVec.ofNat 16 minHeaderSize) p).writeSkipBytes
    (BitVec.ofNat 16 minHeaderSize)

/-- The header fields in the order they are written, with a zero checksum. -/
def headerBytes (header : Ipv4Header) (totalPacketSize : BitVec 16) : List Byte :=
  [0x45#8, 0#8] ++ Packet.be16 totalPacketSize ++ Packet.be32 0#32 ++ [0x80#8, header.protocol] ++
    Packet.be16 0#16 ++ Packet.be32 header.srcAddress ++ Packet.be32 header.destAddress

/-- `NANO_IP_IPV4_FillHeader`. -/
def fillHeader (header : Ipv4Header) (p : Packet) : Except Failure Packet :=
  if p.count < minPacketSize then .error ⟨.invalidPacketSize, rfl⟩
  else
    let start := Ethernet.headerSize
    let total := p.count - BitVec.ofNat 16 Ethernet.headerSize
    let data := Packet.store p.data start (headerBytes header total)
    let checksum := computeInternetCS [] ({ p with data := data }.bytes start minHeaderSize)
    .ok { p with data := Packet.store data (start + 10) (checksumBytes checksum) }

/-- The outcome of a transmission: the handle and packet it leaves, its result and
whether the packet reached the driver. -/
structure Sent where
  handle : Handle
  packet : Packet
  ret : Err
  handed : Bool

/-- `NANO_IP_IPV4_FinalizeSendPacket`. -/
def finalizeSendPacket (handle : Handle) (driver : Err) (p : Packet) : Sent :=
  match fillHeader handle.header p, handle.netIf with
  | .error e, _ => ⟨handle, p, e, false⟩
  | .ok p, some netIf =>
    let ethHeader := ⟨handle.arpMac, netIf.macAddress, ipProtocol⟩
    ⟨handle, Ethernet.sendPacket netIf ethHeader p, driver, true⟩
  -- a handle with a packet to send always has its interface set
  | .ok p, none => ⟨handle, p, .invalidArg, false⟩

/-- The interface and gateway for a packet: its own interface, or the route's. -/
def chooseRoute (lower : Lower) (dest : Ipv4Address) (p : Packet) :
    Except Failure (Ipv4Address × NetIf) :=
  match p.netIf with
  | some netIf => .ok (0#32, netIf)
  | none => lower.route dest

/-- The handle once the route is known. -/
def Handle.prepare (handle : Handle) (header : Ipv4Header) (netIf : NetIf) (pid : PacketId) :
    Handle :=
  { handle with
    netIf := some netIf
    packet := some pid
    header := { header with
      srcAddress := if header.srcAddress = 0#32 then netIf.ipv4Address else header.srcAddress } }

/-- `NANO_IP_IPV4_SendPacket`. -/
def sendPacket (lower : Lower) (handle : Handle) (header : Ipv4Header) (pid : PacketId)
    (p : Packet) : Sent :=
  if handle.busy then ⟨handle, p, .busy, false⟩
  else match chooseRoute lower header.destAddress p with
  | .error e => ⟨handle, p, e, false⟩
  | .ok (gateway, netIf) =>
    let handle := handle.prepare header netIf pid
    match lower.arp (if gateway ≠ 0#32 then gateway else header.destAddress) with
    | .resolved mac => finalizeSendPacket { handle with arpMac := mac } lower.driver p
    | .pending => ⟨{ handle with busy := true }, p, .inProgress, false⟩
    | .failed e => ⟨handle, p, e, false⟩

/-- The result of `NANO_IP_IPV4_SendPacket` for a packet of a valid size. -/
def sendResult (lower : Lower) (handle : Handle) (dest : Ipv4Address) (p : Packet) : Err :=
  if handle.busy then .busy
  else match chooseRoute lower dest p with
  | .error e => e
  | .ok (gateway, _) =>
    match lower.arp (if gateway ≠ 0#32 then gateway else dest) with
    | .resolved _ => lower.driver
    | .pending => .inProgress
    | .failed e => e

theorem fillHeader_ok (header : Ipv4Header) {p : Packet} (hsize : ¬ p.count < minPacketSize) :
    ∃ q, fillHeader header p = .ok q := by
  simp only [fillHeader, if_neg hsize]
  exact ⟨_, rfl⟩

theorem sendPacket_ret (lower : Lower) (handle : Handle) (header : Ipv4Header) (pid : PacketId)
    {p : Packet} (hsize : ¬ p.count < minPacketSize) :
    (sendPacket lower handle header pid p).ret = sendResult lower handle header.destAddress p := by
  unfold sendPacket sendResult
  cases handle.busy with
  | true => rfl
  | false =>
    simp only [Bool.false_eq_true, ↓reduceIte]
    cases chooseRoute lower header.destAddress p with
    | error e => rfl
    | ok r =>
      obtain ⟨gateway, netIf⟩ := r
      dsimp only
      cases lower.arp (if gateway ≠ 0#32 then gateway else header.destAddress) with
      | resolved mac =>
        obtain ⟨q, hq⟩ := fillHeader_ok (handle.prepare header netIf pid).header hsize
        simp only [finalizeSendPacket, hq]
        rfl
      | pending => rfl
      | failed e => rfl

theorem sendPacket_busy {lower : Lower} {handle : Handle} {header : Ipv4Header} {pid : PacketId}
    {p : Packet} (hb : handle.busy = true) :
    sendPacket lower handle header pid p = ⟨handle, p, .busy, false⟩ := by
  rw [sendPacket, if_pos hb]

/-- Completing a frame leaves its flags and the handle as they are. -/
theorem finalizeSendPacket_same (handle : Handle) (driver : Err) (p : Packet) :
    (finalizeSendPacket handle driver p).handle = handle ∧
      (finalizeSendPacket handle driver p).packet.flags = p.flags := by
  unfold finalizeSendPacket
  cases hfill : fillHeader handle.header p with
  | error e => exact ⟨rfl, rfl⟩
  | ok q =>
    have hq : q.flags = p.flags := by
      unfold fillHeader at hfill
      split_ifs at hfill
      obtain rfl := Except.ok.inj hfill
      rfl
    cases hn : handle.netIf with
    | none => exact ⟨rfl, hq⟩
    | some netIf =>
      refine ⟨rfl, Eq.trans ?_ hq⟩
      exact Ethernet.sendPacket_flags netIf _ q

/-- A transmission that leaves its handle busy did not reach the driver: the handle was busy
before, or it waits with this packet now. -/
theorem sendPacket_waits {lower : Lower} {handle : Handle} {header : Ipv4Header} {pid : PacketId}
    {p : Packet} (hb : (sendPacket lower handle header pid p).handle.busy = true) :
    (sendPacket lower handle header pid p).handed = false ∧
      ((sendPacket lower handle header pid p).handle = handle ∨ handle.busy = false ∧
        (sendPacket lower handle header pid p).handle.packet = some pid ∧
          (sendPacket lower handle header pid p).ret = .inProgress) := by
  unfold sendPacket at hb ⊢
  by_cases hbusy : handle.busy = true
  · rw [if_pos hbusy]
    exact ⟨rfl, .inl rfl⟩
  rw [if_neg hbusy] at hb ⊢
  cases hroute : chooseRoute lower header.destAddress p with
  | error e => exact ⟨rfl, .inl rfl⟩
  | ok r =>
    obtain ⟨gateway, netIf⟩ := r
    rw [hroute] at hb
    dsimp only at hb ⊢
    cases harp : lower.arp (if gateway ≠ 0#32 then gateway else header.destAddress) with
    | pending => exact ⟨rfl, .inr ⟨Bool.eq_false_iff.mpr hbusy, rfl, rfl⟩⟩
    | failed e => rw [harp] at hb; exact absurd hb hbusy
    | resolved mac =>
      rw [harp] at hb
      dsimp only at hb
      rw [(finalizeSendPacket_same _ _ _).1] at hb
      exact absurd hb hbusy

theorem sendPacket_flags (lower : Lower) (handle : Handle) (header : Ipv4Header) (pid : PacketId)
    (p : Packet) :
    (sendPacket lower handle header pid p).packet.flags = p.flags := by
  unfold sendPacket
  split_ifs
  · rfl
  · cases chooseRoute lower header.destAddress p with
    | error e => rfl
    | ok r =>
      dsimp only
      cases lower.arp (if r.1 ≠ 0#32 then r.1 else header.destAddress) with
      | resolved mac => exact (finalizeSendPacket_same _ _ _).2
      | pending | failed => rfl

end Ipv4

end NanoIp
