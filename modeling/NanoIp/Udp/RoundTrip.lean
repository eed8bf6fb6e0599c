import NanoIp.Arp.Module
import NanoIp.Core.Carried
import NanoIp.Ipv4.Machine
import NanoIp.Udp.Corruption

/-!
# A datagram through the whole stack

What is written into an allocated packet and sent comes out of the handle bound to the
port at the other end, header by header, unless the sender's driver pads the frame behind
the check sequence that the code has appended, and the receiver looks at it.
-/
namespace NanoIp.Udp

open Ethernet (Framed Arrived Received Spoils)
open Ipv4 (Passes)

variable {n : Nat}

/-- A node that receives UDP: its module stands in the lists of the layers below. -/
structure Receiver (n : Nat) where
  module : Module n
  ipv4Protocols : List (Ipv4.Protocol (Except Err (Delivery n)))
  ethProtocols : List (Ethernet.Protocol (Except Err (Except Err (Delivery n))))
  udp_registered : ipv4Protocols.find? (fun p => p.protocol = protocol) = some (ipv4Protocol module)
  ipv4_registered : ethProtocols.find? (fun p => p.etherType = Ipv4.ipProtocol) =
    some (Ipv4.ethernetProtocol ipv4Protocols)

/-- `NANO_IP_ETHERNET_RxFrame` of the node, and the delivery it makes, if any. -/
def Receiver.rxFrame (r : Receiver n) (netIf : NetIf) (q : Packet) : Option (Delivery n) :=
  match Ethernet.rxFrame r.ethProtocols netIf q with
  | .ok (.ok (.ok d)) => some d
  | _ => none

/-- The handle is the only one bound to the port, and takes what is sent to the address. -/
structure Listens (m : Module n) (h : Fin n) (port : BitVec 16) (ipv4Address : Ipv4Address) :
    Prop where
  bound : h ∈ m.bound
  ours : (m.mem h).port = port
  address : (m.mem h).ipv4Address = 0#32 ∨ (m.mem h).ipv4Address = ipv4Address
  alone : ∀ k ∈ m.bound, (m.mem k).port = port → k = h

theorem Listens.lookup {m : Module n} {h : Fin n} {port : BitVec 16} {ipv4Address : Ipv4Address}
    (hl : Listens m h port ipv4Address) : lookup m port ipv4Address = some h := by
  have hreceives : (m.mem h).receives port ipv4Address = true := by
    rw [Handle.receives, hl.ours]
    rcases hl.address with ha | ha <;> simp [ha]
  cases hf : Udp.lookup m port ipv4Address with
  | none => exact absurd hreceives (List.find?_eq_none.mp hf h hl.bound)
  | some k =>
    have hk := List.find?_some hf
    rw [Handle.receives, Bool.and_eq_true, decide_eq_true_eq] at hk
    rw [hl.alone k (List.mem_of_find?_eq_some hf) hk.1]

section Receive

variable {q : Packet} {header : Ipv4Header} {srcPort destPort : BitVec 16} {payload : List Byte}

/-- A datagram stands at `current`; padding may follow it. -/
structure Contains (q : Packet) (header : Ipv4Header) (srcPort destPort : BitVec 16)
    (payload : List Byte) :
    Prop where
  bytes : q.Holds 0 (datagram header srcPort destPort payload)
  count : payload.length + 8 ≤ q.count.toNat

theorem Contains.fields (h : Contains q header srcPort destPort payload) :
    srcPortOf q = srcPort ∧ destPortOf q = destPort ∧
      announcedOf q = BitVec.ofNat 16 (payload.length + 8) ∧
      (contentOf q).Holds 0 payload := by
  have hbytes := h.bytes
  dsimp only [datagram, headerBytes] at hbytes
  simp only [List.append_assoc, Packet.holds_append] at hbytes
  obtain ⟨hsrc, hdest, hlength, -, hpayload⟩ := hbytes
  exact ⟨hsrc.wordAt, hdest.wordAt, hlength.wordAt,
    (Packet.holds_readSkipBytes headerSize).mpr hpayload⟩

theorem Contains.checksum (h : Contains q header srcPort destPort payload) (netIf : NetIf)
    (checksum : BitVec 16) :
    checksumPasses netIf header q (announcedOf q) checksum = true := by
  have hfit : payload.length + 8 < 2 ^ 16 := Nat.lt_of_le_of_lt h.count q.count.isLt
  have hlen : (BitVec.ofNat 16 (payload.length + 8)).toNat = payload.length + 8 := by
    rw [BitVec.toNat_ofNat, Nat.mod_eq_of_lt hfit]
  have hbytes := h.bytes
  rw [Packet.Holds, datagram_length, Nat.add_zero] at hbytes
  have hright : computeCS header (q.bytes q.current (announcedOf q).toNat) (announcedOf q) =
      0#16 := by
    rw [h.fields.2.2.1, hlen, hbytes, computeCS, computeInternetCS_eq_zero_iff]
    · exact residue_datagram hfit
    · rw [pseudoHeader_length, datagram_length]
      omega
  rw [checksumPasses, Bool.or_eq_true]
  exact .inr (decide_eq_true hright)

/-- The datagram is delivered to the handle that listens, cut to its payload. -/
theorem rxFrame_contains (h : Contains q header srcPort destPort payload) {m : Module n} {k : Fin n}
    (hl : Listens m k destPort header.destAddress) (netIf : NetIf) (rxHeader : Ipv4.RxHeader)
    (hh : rxHeader.toIpv4Header = header) :
    rxFrame m netIf rxHeader q = .ok ⟨k, ⟨rxHeader, srcPort, destPort⟩, contentOf q⟩ ∧
      (contentOf q).count.toNat = payload.length := by
  obtain ⟨hsrc, hdest, hlength, -⟩ := h.fields
  have hcount := h.count
  have hfit : payload.length + 8 < 2 ^ 16 := Nat.lt_of_le_of_lt h.count q.count.isLt
  have hcut : (announcedOf q - headerSize).toNat = payload.length := by
    rw [hlength, BitVec.toNat_sub, headerSize]
    simp only [BitVec.toNat_ofNat]
    omega
  have hmin : headerSize ≤ q.count := by
    rw [BitVec.le_def]
    change 8 ≤ _
    omega
  have hroom : announcedOf q - headerSize ≤ q.count - headerSize := by
    rw [BitVec.le_def, hcut, BitVec.toNat_sub_of_le hmin]
    change _ ≤ _ - 8
    omega
  have hwell : wellFormed netIf rxHeader.toIpv4Header q = true := by
    rw [wellFormed, hh, h.checksum, decide_eq_true hmin, decide_eq_true hroom]
    rfl
  refine ⟨rxFrame_ok_iff.mpr ⟨hwell, k, ?_, ?_⟩, hcut⟩
  · rw [hdest, show rxHeader.destAddress =
      header.destAddress from congrArg Ipv4Header.destAddress hh]
    exact hl.lookup
  · rw [hsrc, hdest]

end Receive

section Send

def sourceAddress (k : Handle n) (netIf : NetIf) : Ipv4Address :=
  if k.ipv4Address = 0#32 then netIf.ipv4Address else k.ipv4Address

variable {k : Handle n} {lower : Lower} {dest : Ipv4Address} {p : Packet} {netIf : NetIf}
  {mac : MacAddress}
  {payload : List Byte}

theorem outputHeader_sent (hp : Passes lower k.ipv4Handle dest p netIf mac) :
    outputHeader k lower dest p = ⟨sourceAddress k netIf, dest, protocol⟩ ∧
      Ipv4.sentHeader (outputHeader k lower dest p) netIf =
        ⟨sourceAddress k netIf, dest, protocol⟩ := by
  obtain ⟨gateway, hroute, -⟩ := hp.known
  have hout : outputHeader k lower dest p = ⟨sourceAddress k netIf, dest, protocol⟩ := by
    rw [outputHeader, hroute, sourceAddress]
  refine ⟨hout, ?_⟩
  rw [hout, Ipv4.sentHeader, sourceAddress]
  split_ifs with h₁ h₂ <;> simp_all

/-- The packet is ready for IPv4, the datagram standing behind the room for its header. -/
theorem completePacket_framed (k : Handle n) (port : BitVec 16) (header : Ipv4Header)
    (h : p.Composed 42 payload) (hfit : payload.length + 46 < 2 ^ 16) :
    Framed (completePacket k port header p)
      (p.bytes 14 20 ++ datagram header k.port port payload) := by
  have hs : Sendable p 34 payload := ⟨h, by omega⟩
  have hcurrent := h.current
  constructor
  · rw [List.length_append, Packet.bytes_length, datagram_length]
    change (BitVec.ofNat 16 p.current).toNat = 14 + _
    rw [BitVec.toNat_ofNat]
    omega
  · rw [List.length_append, Packet.bytes_length, datagram_length]
    change p.current = 14 + _
    omega
  · rw [List.length_append, Packet.bytes_length, Packet.bytes_append, datagram_length]
    refine congrArg₂ (· ++ ·) ?_ (completePacket_bytes k port header hs)
    refine Packet.bytes_data _ _ fun i hi => completePacket_outside k port header hs (.inl ?_)
    rw [Ethernet.headerSize]
    omega
  · rw [List.length_append, Packet.bytes_length, datagram_length, Ethernet.headerSize,
      Ethernet.csSize]
    omega

theorem sendPacket_passes (hp : Passes lower k.ipv4Handle dest p netIf mac)
    (h : p.Composed 42 payload) (hfit : payload.length + 46 < 2 ^ 16) (port : BitVec 16)
    (pid : PacketId) :
    ∃ q, Framed q (Ipv4.packetBytes ⟨sourceAddress k netIf, dest, protocol⟩
        (datagram ⟨sourceAddress k netIf, dest, protocol⟩ k.port port payload)) ∧
      (sendPacket lower k dest port pid p).handed = true ∧
      (sendPacket lower k dest port pid p).packet =
        Ethernet.sendPacket netIf ⟨mac, netIf.macAddress, Ipv4.ipProtocol⟩ q := by
  obtain ⟨hout, hsent⟩ := outputHeader_sent hp
  have hframed := completePacket_framed k port (outputHeader k lower dest p) h hfit
  have hpasses : Passes lower k.ipv4Handle (outputHeader k lower dest p).destAddress
      (completePacket k port (outputHeader k lower dest p) p) netIf mac := ⟨hp.free, hp.known⟩
  obtain ⟨q, hq, hhanded, hpacket⟩ :=
    Ipv4.sendPacket_passes hpasses hframed (Packet.bytes_length _ _ _) pid
  rw [hsent, hout] at hq
  exact ⟨q, hq, hhanded, hpacket⟩

end Send

section RoundTrip

/-- The delivery of a datagram: the handle called, what its header says, and the payload. -/
structure Delivers (d : Delivery n) (h : Fin n) (source : Ipv4Address × BitVec 16)
    (destPort : BitVec 16) (payload : List Byte) : Prop where
  called : d.handle = h
  sender : (d.header.ipv4Header.srcAddress, d.header.srcPort) = source
  port : d.header.destPort = destPort
  count : d.packet.count.toNat = payload.length
  bytes : d.packet.Holds 0 payload
  read : readHeader d.packet = source

variable {m c a : Nat}

/-- The layers below a send, ARP being a module that is asked through the interface. -/
def through (below : Ipv4.Below) (arp : Arp.Module c a) (netIf : NetIf) (request : Fin a)
    (now : BitVec 32) : Lower :=
  { below.lower .pending with
    arp := fun ipv4Address => (Arp.request arp netIf request ipv4Address below.link now).answer }

/-- The handle is free, the destination has a route, and the ARP table holds the MAC
address of the next hop. -/
structure Reaches (k : Handle m) (below : Ipv4.Below) (arp : Arp.Module c a) (now : BitVec 32)
    (dest : Ipv4Address) (netIf : NetIf) (mac : MacAddress) : Prop where
  free : k.ipv4Handle.busy = false
  known : ∃ gateway, below.route dest = .ok (gateway, netIf) ∧
    (Arp.search arp.entries (if gateway ≠ 0#32 then gateway else dest) now).1 = some mac

theorem Reaches.passes {k : Handle m} {below : Ipv4.Below} {arp : Arp.Module c a} {now : BitVec 32}
    {dest : Ipv4Address} {netIf : NetIf} {mac : MacAddress}
    (hr : Reaches k below arp now dest netIf mac) (request : Fin a) {p : Packet}
    (hp : p.netIf = none) :
    Passes (through below arp netIf request now) k.ipv4Handle dest p netIf mac := by
  obtain ⟨gateway, hroute, hmac⟩ := hr.known
  refine ⟨hr.free, gateway, ?_, ?_⟩
  · rw [Ipv4.chooseRoute, hp]
    exact hroute
  · exact Arp.request_resolved hmac

/-- Behind the two headers stands the datagram, and `NANO_IP_UDP_ReadHeader` finds the
source in them. -/
theorem behind_arrived {sender : NetIf} {ethHeader : Ethernet.Header} {p q : Packet}
    {header : Ipv4Header} {srcPort destPort : BitVec 16} {payload : List Byte}
    (hq : Arrived sender ethHeader p q)
    (hp : Framed p (Ipv4.packetBytes header (datagram header srcPort destPort payload))) :
    Ipv4.Contains (Ethernet.behindHeader q) header (datagram header srcPort destPort payload) ∧
      Contains (Ipv4.behindHeader (Ethernet.behindHeader q)) header srcPort destPort payload ∧
      readHeader (contentOf (Ipv4.behindHeader (Ethernet.behindHeader q))) =
        (header.srcAddress, srcPort) := by
  obtain ⟨hbytes, hcurrent, hcount⟩ := hq.behind hp
  rw [Ipv4.packetBytes_length, datagram_length, Ipv4.minHeaderSize] at hcount
  have hip : Ipv4.Contains (Ethernet.behindHeader q) header
      (datagram header srcPort destPort payload) := by
    refine ⟨hbytes, ?_⟩
    rw [datagram_length, Ipv4.minHeaderSize]
    omega
  obtain ⟨-, -, hheader, hbehind⟩ := hip.fields ethHeader
  have hudp : Contains (Ipv4.behindHeader (Ethernet.behindHeader q)) header srcPort destPort
      payload := by
    refine ⟨hbehind, ?_⟩
    change _ ≤ ((Ethernet.behindHeader q).count - 20#16).toNat
    rw [BitVec.toNat_sub_of_le (by rw [BitVec.le_def]; change 20 ≤ _; omega), hcount]
    change _ ≤ _ - 20
    omega
  refine ⟨hip, hudp, ?_⟩
  have hsrc : Ipv4.srcAddressOf (Ethernet.behindHeader q) = header.srcAddress :=
    congrArg (fun r => r.srcAddress) hheader
  have hport := hudp.fields.1
  rw [← hsrc, ← hport]
  refine Prod.ext (Packet.longAt_congr rfl ?_) (Packet.wordAt_congr rfl ?_)
  · rw [hcurrent]
  · exact Nat.add_sub_cancel _ 8

/-- What the receiving node makes of the frame. -/
theorem Receiver.rxFrame_arrived {sender netIf : NetIf} {ethHeader : Ethernet.Header} {p q : Packet}
    {header : Ipv4Header} {srcPort destPort : BitVec 16} {payload : List Byte}
    (hq : Arrived sender ethHeader p q)
    (hp : Framed p (Ipv4.packetBytes header (datagram header srcPort destPort payload)))
    (hmac : ethHeader.destAddress = netIf.macAddress)
    (htype : ethHeader.etherType = Ipv4.ipProtocol)
    (haddress : header.destAddress = netIf.ipv4Address) (hprotocol : header.protocol = protocol)
    (r : Receiver n) {h : Fin n} (hl : Listens r.module h destPort header.destAddress) :
    (Spoils sender (Ipv4.packetBytes header (datagram header srcPort destPort payload)) ∧
        netIf.has netdrvCapEthCsCheck = false ∧ r.rxFrame netIf q = none) ∨
      (¬ (Spoils sender (Ipv4.packetBytes header (datagram header srcPort destPort payload)) ∧
        netIf.has netdrvCapEthCsCheck = false) ∧
        ∃ d, r.rxFrame netIf q = some d ∧
          Delivers d h (header.srcAddress, srcPort) destPort payload) := by
  obtain ⟨hip, hudp, hread⟩ := behind_arrived hq hp
  have hforUs : Ethernet.isForUs netIf ethHeader.destAddress = true := by
    simp [Ethernet.isForUs, hmac]
  have hours : Ipv4.isForUs netIf header.destAddress = true := by simp [Ipv4.isForUs, haddress]
  have hframe := Ethernet.rxFrame_arrived hq hp r.ethProtocols netIf
  have hfound := r.udp_registered
  have hfound' := r.ipv4_registered
  rw [← hprotocol] at hfound
  rw [← htype] at hfound'
  obtain ⟨hdelivery, hcount⟩ := rxFrame_contains hudp hl netIf
    ⟨header, ethHeader, BitVec.ofNat 16 (datagram header srcPort destPort payload).length⟩ rfl
  rcases Classical.em (Spoils sender
    (Ipv4.packetBytes header (datagram header srcPort destPort payload)) ∧
    netIf.has netdrvCapEthCsCheck = false) with hbad | hgood
  · rw [if_pos hbad] at hframe
    exact .inl ⟨hbad.1, hbad.2, by rw [Receiver.rxFrame, hframe]⟩
  · rw [if_neg hgood, if_pos hforUs, Ethernet.dispatch_found hfound'] at hframe
    have hcalled : Ipv4.rxFrame r.ipv4Protocols netIf ethHeader (Ethernet.behindHeader q) =
        .ok (Udp.rxFrame r.module netIf ⟨header, ethHeader, BitVec.ofNat 16 _⟩
          (Ipv4.behindHeader (Ethernet.behindHeader q))) :=
            Ipv4.rxFrame_contains hip hfound hours ethHeader
    rw [hdelivery] at hcalled
    have hsome : r.rxFrame netIf q = some ⟨h, ⟨⟨header, ethHeader, BitVec.ofNat 16
        (datagram header srcPort destPort payload).length⟩, srcPort, destPort⟩,
        contentOf (Ipv4.behindHeader (Ethernet.behindHeader q))⟩ := by
      rw [Receiver.rxFrame, hframe]
      dsimp only [Ipv4.ethernetProtocol]
      rw [hcalled]
    exact .inr ⟨hgood, _, hsome, rfl, rfl, rfl, hcount, hudp.fields.2.2.2, hread⟩

/-- The driver pads a short frame that the code has given its check sequence, and the
receiver's driver leaves the check to the code. -/
def Misplaced (sender netIf : NetIf) (len : Nat) : Prop :=
  sender.has netdrvCapEthFramePadding = true ∧ sender.has netdrvCapEthCsComputation =
    false ∧ len < 18 ∧
    netIf.has netdrvCapEthCsCheck = false

instance (sender netIf : NetIf) (len : Nat) : Decidable (Misplaced sender netIf len) :=
  inferInstanceAs (Decidable (_ ∧ _ ∧ _ ∧ _))

section Sent

variable {k : Handle m} {below : Ipv4.Below} {arp : Arp.Module c a} {now : BitVec 32}
  {sender netIf : NetIf}

/-- The packet that a handle sends to the receiver's address, made of what is written. -/
def sentDatagram (k : Handle m) (below : Ipv4.Below) (arp : Arp.Module c a) (now : BitVec 32)
    (sender netIf : NetIf) (request : Fin a) (port : BitVec 16) (packetSize : BitVec 16)
    (p : Packet) (writes : List (List Byte)) (pid : PacketId) : Ipv4.Sent :=
  sendPacket (through below arp sender request now) k netIf.ipv4Address port pid
    (composed packetSize p writes)

/-- The packet is handed to the driver, and what the receiver makes of it is decided by
the drivers and the length. -/
theorem sentDatagram_received
    (hr : Reaches k below arp now netIf.ipv4Address sender netIf.macAddress) (request : Fin a)
    (r : Receiver n) {h : Fin n} {port : BitVec 16} (hl : Listens r.module h port netIf.ipv4Address)
    (packetSize : BitVec 16) (p : Packet) (writes : List (List Byte))
    (hfit : writes.flatten.length + 46 < 2 ^ 16) (pid : PacketId) :
    (sentDatagram k below arp now sender netIf request port packetSize p writes pid).handed = true ∧
      ∀ q, Received (Ethernet.transmit sender
          (sentDatagram k below arp now sender netIf request port packetSize p writes
            pid).packet.frame) q →
        if Misplaced sender netIf writes.flatten.length then r.rxFrame netIf q = none
        else ∃ d, r.rxFrame netIf q = some d ∧
          Delivers d h (sourceAddress k sender, k.port) port writes.flatten := by
  obtain ⟨hcomposed, hnetIf⟩ := composed_composed packetSize p writes (by omega)
  obtain ⟨q₀, hframed, hhanded, hpacket⟩ :=
    sendPacket_passes (hr.passes request hnetIf) hcomposed hfit port pid
  refine ⟨hhanded, fun q hq => ?_⟩
  rw [sentDatagram, hpacket] at hq
  have hspoils : Spoils sender
    (Ipv4.packetBytes ⟨sourceAddress k sender, netIf.ipv4Address, protocol⟩
      (datagram ⟨sourceAddress k sender, netIf.ipv4Address, protocol⟩ k.port port writes.flatten)) ↔
      sender.has netdrvCapEthFramePadding = true ∧ sender.has netdrvCapEthCsComputation = false ∧
        writes.flatten.length < 18 := by
    rw [Spoils, Ipv4.packetBytes_length, datagram_length, Ethernet.headerSize, Ipv4.minHeaderSize]
    refine and_congr_right fun _ => and_congr_right fun _ => ?_
    omega
  rcases Receiver.rxFrame_arrived hq hframed rfl rfl rfl rfl r hl with
    ⟨hbad, hcheck, hnone⟩ | ⟨hgood, hdelivers⟩
  · obtain ⟨hpad, hfcs, hshort⟩ := hspoils.mp hbad
    rw [if_pos ⟨hpad, hfcs, hshort, hcheck⟩]
    exact hnone
  · rw [if_neg fun hbad => hgood ⟨hspoils.mpr ⟨hbad.1, hbad.2.1, hbad.2.2.1⟩, hbad.2.2.2⟩]
    exact hdelivers

end Sent

/-- A datagram comes out at the other end as it was put in, whatever the drivers do,
unless the sender's driver pads the short frame behind its check sequence and the
receiver's code looks at it. -/
theorem roundTrip_iff {k : Handle m} {below : Ipv4.Below} {arp : Arp.Module c a} {now : BitVec 32}
    {sender netIf : NetIf} (hr : Reaches k below arp now netIf.ipv4Address sender netIf.macAddress)
    (request : Fin a) (r : Receiver n) {h : Fin n} {port : BitVec 16}
    (hl : Listens r.module h port netIf.ipv4Address) (packetSize : BitVec 16) (p : Packet)
    (writes : List (List Byte)) (hfit : writes.flatten.length + 46 < 2 ^ 16) (pid : PacketId) :
    let sent := sentDatagram k below arp now sender netIf request port packetSize p writes pid
    sent.handed = true ∧ ∀ q, Received (Ethernet.transmit sender sent.packet.frame) q →
      ((∃ d, r.rxFrame netIf q = some d ∧
        Delivers d h (sourceAddress k sender, k.port) port writes.flatten) ↔
        ¬ Misplaced sender netIf writes.flatten.length) := by
  obtain ⟨hhanded, hreceived⟩ := sentDatagram_received hr request r hl packetSize p writes hfit pid
  refine ⟨hhanded, fun q hq => ?_⟩
  have hrx := hreceived q hq
  split_ifs at hrx with hbad
  · rw [hrx]
    refine iff_of_false ?_ (not_not_intro hbad)
    rintro ⟨d, hd, -⟩
    cases hd
  · exact iff_of_true hrx hbad

/-- The node 192.168.1.1 whose handle is bound to port 7, and the neighbour 192.168.1.2
that knows its MAC address, with a driver of some capabilities. -/
def receiver : Receiver 1 where
  module := boundModule
  ipv4Protocols := [ipv4Protocol boundModule]
  ethProtocols := [Ipv4.ethernetProtocol [ipv4Protocol boundModule]]
  udp_registered := rfl
  ipv4_registered := rfl
def neighbour (caps : BitVec 32) : NetIf := ⟨Vector.replicate 6 2#8, 0xC0A80102#32, caps⟩
def knowing : Arp.Module 1 1 :=
  { Arp.Module.init 1 1 with entries := fun _ =>
    ⟨.dynamic, Vector.replicate 6 1#8, 0xC0A80101#32, 0#32⟩ }
/-- An unused packet object, and a route to every address. -/
def blank : Packet := ⟨fun _ => 0#8, 0, 0#16, 0#16, 0#32, none⟩
def direct (caps : BitVec 32) : Ipv4.Below :=
  ⟨fun _ => .ok (0#32, neighbour caps), ⟨.ok blank, .ok (), 0⟩, .ok ()⟩

theorem neighbour_reaches (caps : BitVec 32) : Reaches sender (direct caps) knowing 0#32
    Ipv4.sampleNetIf.ipv4Address (neighbour caps) Ipv4.sampleNetIf.macAddress := by
  refine ⟨rfl, 0#32, rfl, ?_⟩
  decide

theorem receiver_listens : Listens receiver.module 0 7#16 Ipv4.sampleNetIf.ipv4Address where
  bound := by decide
  ours := rfl
  address := .inr rfl
  alone k _ _ := Subsingleton.elim k 0

/-- Two bytes as the neighbour sends them to the handle. -/
def twoBytes (caps : BitVec 32) : Ipv4.Sent :=
  sentDatagram sender (direct caps) knowing 0#32 (neighbour caps) Ipv4.sampleNetIf
    ⟨0, Nat.one_pos⟩ 7#16 2#16
    blank [[1, 2]] 0

theorem roundTrip_iff_sample :
    ∃ d, receiver.rxFrame Ipv4.sampleNetIf (Ethernet.filled (Ethernet.transmit (neighbour 0#32)
      (twoBytes 0#32).packet.frame)) = some d ∧ Delivers d 0 (0xC0A80102#32, 9#16) 7#16 [1, 2] :=
  ((roundTrip_iff (neighbour_reaches 0#32) 0 receiver receiver_listens 2#16 _ [[1, 2]]
    (by decide) 0).2 _
    (Ethernet.filled_received (by decide) (by decide))).mpr (by decide)

/-- With a driver that pads but does not compute check sequences the two bytes are
refused. -/
theorem padded_datagram_refused :
    ¬ ∀ (k : Handle 1) (below : Ipv4.Below) (arp : Arp.Module 1 1) (now : BitVec 32)
    (sender netIf : NetIf) (r : Receiver 1) (h : Fin 1) (port : BitVec 16) (p : Packet)
      (writes : List (List Byte))
    (q : Packet), Reaches k below arp now netIf.ipv4Address sender netIf.macAddress →
    Listens r.module h port netIf.ipv4Address → writes.flatten.length + 46 < 2 ^ 16 →
    Received (Ethernet.transmit sender (sentDatagram k below arp now sender netIf 0 port
      (BitVec.ofNat 16 writes.flatten.length) p writes 0).packet.frame) q →
    ∃ d, r.rxFrame netIf q = some d ∧
      Delivers d h (sourceAddress k sender, k.port) port writes.flatten := by
  intro hall
  have hq : Received (Ethernet.transmit (neighbour 16#32) (twoBytes 16#32).packet.frame)
      (Ethernet.filled (Ethernet.transmit (neighbour 16#32) (twoBytes 16#32).packet.frame)) :=
    Ethernet.filled_received (by decide) (by decide)
  obtain ⟨d, hd, -⟩ := hall _ _ _ _ _ _ _ _ _ _ [[1, 2]] _ (neighbour_reaches 16#32)
    receiver_listens (by decide) hq
  have hrx := (sentDatagram_received (neighbour_reaches 16#32) 0 receiver receiver_listens 2#16 _
    [[1, 2]] (by decide) 0).2 _ hq
  rw [if_pos (by decide)] at hrx
  rw [hrx] at hd
  cases hd

end RoundTrip

end NanoIp.Udp
