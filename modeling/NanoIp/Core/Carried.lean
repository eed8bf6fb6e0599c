import NanoIp.Core.Ipv4
import NanoIp.Core.Ipv4Input
import NanoIp.Core.Wire

/-!
# Payloads carried by IPv4

A packet that IPv4 sends at once goes out behind a header whose length and checksum are
right, and the receiver that owns its address gives the protocol of the header the same
addresses, the length of the payload, and the payload, whatever padding follows it.
-/
namespace NanoIp.Ipv4

open Packet (be16 be32)
open Ethernet (Framed)

variable {γ : Type}

/-- The header fields in front of the checksum, and behind it. -/
def beforeChecksum (header : Ipv4Header) (total : BitVec 16) : List Byte :=
  [0x45#8, 0#8] ++ be16 total ++ be32 0#32 ++ [0x80#8, header.protocol]
def afterChecksum (header : Ipv4Header) : List Byte :=
  be32 header.srcAddress ++ be32 header.destAddress

/-- An IPv4 packet as it is sent. -/
def packetBytes (header : Ipv4Header) (payload : List Byte) : List Byte :=
  let before := beforeChecksum header (BitVec.ofNat 16 (minHeaderSize + payload.length))
  let after := afterChecksum header
  before ++ checksumBytes (computeInternetCS [] (before ++ [0#8, 0#8] ++ after)) ++ after ++ payload

@[simp] theorem beforeChecksum_length (header : Ipv4Header) (total : BitVec 16) :
    (beforeChecksum header total).length = 10 := rfl
@[simp] theorem afterChecksum_length (header : Ipv4Header) : (afterChecksum header).length = 8 :=
  rfl

@[simp] theorem packetBytes_length (header : Ipv4Header) (payload : List Byte) :
    (packetBytes header payload).length = minHeaderSize + payload.length := by
  simp only [packetBytes, checksumBytes, List.length_append, beforeChecksum_length,
    afterChecksum_length,
    List.length_cons, List.length_nil, minHeaderSize]

def ethernetProtocol (protocols : List (Protocol γ)) : Ethernet.Protocol (Except Err γ) :=
  ⟨ipProtocol, rxFrame protocols⟩

section Send

variable {p : Packet} {room payload : List Byte} (header : Ipv4Header)

theorem headerBytes_eq (total : BitVec 16) :
    headerBytes header total = beforeChecksum header total ++ [0#8, 0#8] ++ afterChecksum
      header := by
  simp only [headerBytes, beforeChecksum, afterChecksum, List.append_assoc]
  rfl

theorem allocatePacket_composed (packetSize : BitVec 16) (p : Packet) :
    (allocatePacket packetSize p).Composed 0 (p.bytes 0 34) :=
  ⟨(Packet.bytes_length _ _ _).symm, by rw [Packet.bytes_length]; rfl, by
    rw [Packet.bytes_length]; rfl⟩

/-- The header is written in front of the payload. -/
theorem fillHeader_bytes (hcount : p.count.toNat = 34 + payload.length)
    (hpayload : p.bytes 34 payload.length = payload) :
    ∃ q, fillHeader header p = .ok q ∧ q.count = p.count ∧ q.current = p.current ∧
      q.netIf = p.netIf ∧
      q.bytes Ethernet.headerSize (minHeaderSize + payload.length) =
        packetBytes header payload := by
  have hmin : ¬ p.count < minPacketSize := by
    rw [BitVec.lt_def, hcount]
    change ¬ _ < 34
    omega
  have htotal : p.count - BitVec.ofNat 16 Ethernet.headerSize =
      BitVec.ofNat 16 (minHeaderSize + payload.length) := by
    have hlt := p.count.isLt
    apply BitVec.eq_of_toNat_eq
    rw [BitVec.toNat_sub, hcount, Ethernet.headerSize, minHeaderSize]
    simp only [BitVec.toNat_ofNat]
    omega
  refine ⟨p.writeChecksummed Ethernet.headerSize []
    (beforeChecksum header (BitVec.ofNat 16 (minHeaderSize + payload.length)))
      (afterChecksum header) minHeaderSize,
    ?_, rfl, rfl, rfl, ?_⟩
  · rw [fillHeader, if_neg hmin]
    dsimp only
    rw [htotal, headerBytes_eq]
    rfl
  · have hhead := p.writeChecksummed_bytes Ethernet.headerSize []
      (beforeChecksum header (BitVec.ofNat 16 (minHeaderSize + payload.length)))
        (afterChecksum header) 0
    rw [show ∀ at_, p.bytes at_ 0 = [] from fun _ => rfl, List.append_nil] at hhead
    rw [Packet.bytes_append]
    dsimp only [packetBytes]
    refine congrArg₂ (· ++ ·) hhead (Eq.trans ?_ hpayload)
    refine Packet.bytes_data _ _ fun i hi => p.writeChecksummed_outside _ _ _ _ _ (.inr ?_)
    rw [beforeChecksum_length, afterChecksum_length, Ethernet.headerSize, minHeaderSize]
    omega

theorem fillHeader_framed (h : Framed p (room ++ payload)) (hroom : room.length = minHeaderSize) :
    ∃ q, fillHeader header p = .ok q ∧ Framed q (packetBytes header payload) ∧
      q.netIf = p.netIf := by
  have hcount := h.count
  have hfits := h.fits
  have hbody := h.bytes
  rw [List.length_append, Packet.bytes_append, hroom] at hbody
  have hpayload := (List.append_inj hbody (by rw [Packet.bytes_length, hroom])).2
  rw [List.length_append, hroom, ← Nat.add_assoc] at hcount
  obtain ⟨q, hfill, hqcount, hqcurrent, hnetIf, hbytes⟩ := fillHeader_bytes header hcount hpayload
  refine ⟨q, hfill, ⟨?_, ?_, ?_, ?_⟩, hnetIf⟩
  · rw [packetBytes_length, hqcount, hcount, Nat.add_assoc]
  · rw [packetBytes_length, hqcurrent, h.current, List.length_append, hroom]
  · rw [packetBytes_length]
    exact hbytes
  · rw [packetBytes_length, ← hroom, ← List.length_append]
    exact h.fits

theorem fillHeader_outside {q : Packet} (h : fillHeader header p = .ok q) {i : Nat}
    (hi : Ethernet.headerSize + minHeaderSize ≤ i) : q.data i = p.data i := by
  rw [Ethernet.headerSize, minHeaderSize] at hi
  rw [fillHeader] at h
  split at h
  · cases h
  · obtain rfl := Except.ok.inj h
    dsimp only
    rw [Packet.store_outside _ _ _ _
      (.inr (Nat.le_trans (Nat.add_le_add_left (by decide : 10 + 2 ≤ 20) 14) hi)),
      Packet.store_outside _ _ _ _ (.inr hi)]

variable {header}

def sentHeader (header : Ipv4Header) (netIf : NetIf) : Ipv4Header :=
  { header with srcAddress :=
    if header.srcAddress = 0#32 then netIf.ipv4Address else header.srcAddress }

/-- Nothing holds a packet back: the handle is free, there is a route and ARP knows the
MAC address of the next hop. -/
structure Passes (lower : Lower) (handle : Handle) (dest : Ipv4Address) (p : Packet) (netIf : NetIf)
    (mac : MacAddress) : Prop where
  free : handle.busy = false
  known : ∃ gateway, chooseRoute lower dest p = .ok (gateway, netIf) ∧
    lower.arp (if gateway ≠ 0#32 then gateway else dest) = .resolved mac

theorem sendPacket_filled {lower : Lower} {handle : Handle} {netIf : NetIf} {mac : MacAddress}
    {q : Packet} (hp : Passes lower handle header.destAddress p netIf mac)
    (hfill : fillHeader (sentHeader header netIf) p = .ok q) (pid : PacketId) :
    (sendPacket lower handle header pid p).handed = true ∧
      (sendPacket lower handle header pid p).packet =
        Ethernet.sendPacket netIf ⟨mac, netIf.macAddress, ipProtocol⟩ q := by
  obtain ⟨gateway, hroute, harp⟩ := hp.known
  have hfill' : fillHeader (handle.prepare header netIf pid).header p = .ok q := hfill
  simp only [sendPacket, hp.free, Bool.false_eq_true, if_false, hroute, harp,
    finalizeSendPacket, hfill']
  exact ⟨rfl, rfl⟩

/-- The frame of a transmission as it reaches the driver, at once or when ARP has answered. -/
def GoesOut (sent : Sent) (frame : Packet) : Prop :=
  (sent.handed = true ∧ frame = sent.packet) ∨
    (sent.handed = false ∧ sent.ret = .inProgress ∧ ∃ mac driver,
      (finalizeSendPacket { sent.handle with arpMac := mac } driver sent.packet).handed = true ∧
      frame = (finalizeSendPacket { sent.handle with arpMac := mac } driver sent.packet).packet)

theorem finalizeSendPacket_handed {handle : Handle} {driver : Err}
    (h : (finalizeSendPacket handle driver p).handed = true) :
    ∃ netIf q, handle.netIf = some netIf ∧
      fillHeader handle.header p = .ok q ∧ (finalizeSendPacket handle driver p).packet =
        Ethernet.sendPacket netIf ⟨handle.arpMac, netIf.macAddress, ipProtocol⟩ q := by
  rw [finalizeSendPacket] at h ⊢
  cases hfill : fillHeader handle.header p with
  | error e =>
    rw [hfill] at h
    cases h
  | ok q =>
    cases hnetIf : handle.netIf with
    | none =>
      rw [hfill, hnetIf] at h
      cases h
    | some netIf => exact ⟨netIf, q, rfl, rfl, rfl⟩

theorem finalizeSendPacket_kept {handle : Handle} {driver : Err} {netIf : NetIf}
    (h : (finalizeSendPacket handle driver p).handed = false) (hnetIf : handle.netIf = some netIf) :
    (finalizeSendPacket handle driver p).ret ≠ .inProgress := by
  cases hfill : fillHeader handle.header p with
  | error e =>
    have hret : (finalizeSendPacket handle driver p).ret = e.1 := by
      simp only [finalizeSendPacket, hfill]
    rw [hret]
    exact e.not_inProgress
  | ok q =>
    have hhanded : (finalizeSendPacket handle driver p).handed = true := by
      simp only [finalizeSendPacket, hfill, hnetIf]
    rw [hhanded] at h
    cases h

/-- Whenever it goes out, it is the packet with its header filled in. -/
theorem goesOut_filled {lower : Lower} {handle : Handle} {pid : PacketId} {frame : Packet}
    (h : GoesOut (sendPacket lower handle header pid p) frame) : ∃ netIf mac q,
      fillHeader (sentHeader header netIf) p = .ok q ∧
        frame = Ethernet.sendPacket netIf ⟨mac, netIf.macAddress, ipProtocol⟩ q := by
  by_cases hbusy : handle.busy = true
  · rw [sendPacket_busy hbusy] at h
    rcases h with ⟨hhanded, -⟩ | ⟨-, hret, -⟩
    · cases hhanded
    · cases hret
  rw [sendPacket, if_neg hbusy] at h
  cases hroute : chooseRoute lower header.destAddress p with
  | error e =>
    rw [hroute] at h
    rcases h with ⟨hhanded, -⟩ | ⟨-, hret, -⟩
    · cases hhanded
    · exact absurd hret e.not_inProgress
  | ok r =>
    obtain ⟨gateway, netIf⟩ := r
    rw [hroute] at h
    dsimp only at h
    cases harp : lower.arp (if gateway ≠ 0#32 then gateway else header.destAddress) with
    | failed e =>
      rw [harp] at h
      rcases h with ⟨hhanded, -⟩ | ⟨-, hret, -⟩
      · cases hhanded
      · exact absurd hret e.not_inProgress
    | pending =>
      rw [harp] at h
      rcases h with ⟨hhanded, -⟩ | ⟨-, -, mac, driver, hhanded, rfl⟩
      · cases hhanded
      · obtain ⟨netIf', q, hnetIf, hfill, hpacket⟩ := finalizeSendPacket_handed hhanded
        obtain rfl := Option.some.inj hnetIf
        exact ⟨netIf, mac, q, hfill, hpacket⟩
    | resolved mac =>
      rw [harp] at h
      rcases h with ⟨hhanded, rfl⟩ | ⟨hno, hret, mac', driver', hhanded, rfl⟩
      · obtain ⟨netIf', q, hnetIf, hfill, hpacket⟩ := finalizeSendPacket_handed hhanded
        obtain rfl := Option.some.inj hnetIf
        exact ⟨netIf, mac, q, hfill, hpacket⟩
      · exact absurd hret (finalizeSendPacket_kept hno rfl)

theorem sendPacket_passes {lower : Lower} {handle : Handle} {netIf : NetIf} {mac : MacAddress}
    (hp : Passes lower handle header.destAddress p netIf mac) (h : Framed p (room ++ payload))
    (hroom : room.length = minHeaderSize) (pid : PacketId) :
    ∃ q, Framed q (packetBytes (sentHeader header netIf) payload) ∧
      (sendPacket lower handle header pid p).handed = true ∧
      (sendPacket lower handle header pid p).packet =
        Ethernet.sendPacket netIf ⟨mac, netIf.macAddress, ipProtocol⟩ q := by
  obtain ⟨q, hfill, hq, -⟩ := fillHeader_framed (sentHeader header netIf) h hroom
  exact ⟨q, hq, sendPacket_filled hp hfill pid⟩

end Send

section Receive

variable {q : Packet} {header : Ipv4Header} {payload : List Byte}

/-- A packet stands at `current`; padding may follow it. -/
structure Contains (q : Packet) (header : Ipv4Header) (payload : List Byte) : Prop where
  bytes : q.Holds 0 (packetBytes header payload)
  count : minHeaderSize + payload.length ≤ q.count.toNat

/-- The fields of the header are read as they were written. -/
theorem Contains.fields (h : Contains q header payload) (ethHeader : Ethernet.Header) :
    headerLengthOf q = 20#8 ∧ fragmentOf q = 0#16 ∧
      rxHeaderOf ethHeader q = ⟨header, ethHeader, BitVec.ofNat 16 payload.length⟩ ∧
      (behindHeader q).Holds 0 payload := by
  have hbytes := h.bytes
  dsimp only [packetBytes, beforeChecksum, afterChecksum] at hbytes
  simp only [List.append_assoc, Packet.holds_append] at hbytes
  obtain ⟨hversion, htotal, hzero, hprotocol, -, hsrc, hdest, hpayload⟩ := hbytes
  have hlength : headerLengthOf q = 20#8 := by
    rw [headerLengthOf, hversion.byteAt]
    rfl
  have hfragment : fragmentOf q = 0#16 := by
    have hzero' : q.Holds 4 (be16 0#16 ++ be16 0#16) := hzero
    exact (Packet.holds_append.mp hzero').2.wordAt
  refine ⟨hlength, hfragment, ?_, ?_⟩
  · have htotal' : totalLengthOf q = BitVec.ofNat 16 (minHeaderSize + payload.length) :=
      htotal.wordAt
    have hprotocol' : protocolOf q = header.protocol := hprotocol.tail.byteAt
    have hsrc' : srcAddressOf q = header.srcAddress := hsrc.longAt
    have hdest' : destAddressOf q = header.destAddress := hdest.longAt
    have hdata : BitVec.ofNat 16 (minHeaderSize + payload.length) - (20#8 : Byte).zeroExtend 16 =
        BitVec.ofNat 16 payload.length := by
      apply BitVec.eq_of_toNat_eq
      rw [BitVec.toNat_sub, minHeaderSize]
      simp only [BitVec.truncate_eq_setWidth, BitVec.toNat_ofNat, BitVec.toNat_setWidth]
      omega
    rw [rxHeaderOf, hsrc', hdest', hprotocol', htotal', hlength, hdata]
  · rw [behindHeader, Packet.holds_readSkipBytes]
    exact hpayload

theorem Contains.checksum (h : Contains q header payload) (netIf : NetIf) :
    checksumPasses netIf q = true := by
  have hbytes := h.bytes
  dsimp only [packetBytes] at hbytes
  have hhead := (Packet.holds_append.mp hbytes).1
  rw [Packet.Holds, Nat.add_zero] at hhead
  rw [checksumPasses, (h.fields ⟨Ethernet.broadcast, Ethernet.broadcast, 0#16⟩).1, Bool.or_eq_true,
    decide_eq_true_eq]
  refine .inr ?_
  have hread : q.bytes q.current (20#8 : Byte).toNat = _ := hhead
  rw [hread, computeInternetCS_eq_zero_iff]
  · exact residue_stored _ _ _ (by simp) (by simp)
  · simp [checksumBytes]

theorem Contains.isUnfragmented (h : Contains q header payload) :
    Ipv4.isUnfragmented (fragmentOf q) = true := by
  rw [(h.fields ⟨Ethernet.broadcast, Ethernet.broadcast, 0#16⟩).2.1]
  rfl

/-- The protocol of the header is given the addresses, the length and the payload. -/
theorem rxFrame_contains (h : Contains q header payload) {protocols : List (Protocol γ)}
    {protocol : Protocol γ}
    (hfound : protocols.find? (fun protocol => protocol.protocol = header.protocol) = some protocol)
    {netIf : NetIf} (hours : isForUs netIf header.destAddress = true)
    (ethHeader : Ethernet.Header) :
    rxFrame protocols netIf ethHeader q =
      .ok (protocol.rxFrame netIf ⟨header, ethHeader, BitVec.ofNat 16 payload.length⟩
        (behindHeader q)) := by
  obtain ⟨hlength, hfragment, hheader, -⟩ := h.fields ethHeader
  have hmin : ¬ q.count < rxMinHeaderSize := by
    have hcount := h.count
    rw [minHeaderSize] at hcount
    rw [BitVec.lt_def]
    change ¬ _ < 20
    omega
  have hdest : destAddressOf q = header.destAddress := congrArg (fun r => r.destAddress) hheader
  have hskip : (behindHeader q).readSkipBytes ((20#8 : Byte).zeroExtend 16 - rxMinHeaderSize) =
      behindHeader q := by
    rw [show ((20#8 : Byte).zeroExtend 16 - rxMinHeaderSize : BitVec 16) = 0#16 from rfl]
    simp [Packet.readSkipBytes]
  rw [rxFrame_eq, if_neg hmin, if_pos h.isUnfragmented, if_pos (h.checksum netIf), hdest,
    if_pos hours, hheader,
    hlength, dispatch, hfound]
  dsimp only
  rw [hskip]

end Receive

end NanoIp.Ipv4
