import NanoIp.Tcp.Decode
import NanoIp.Udp.RoundTrip

/-!
# The room of an allocated packet

The size of a packet is added up layer by layer in 16 bits and raised to the least frame
at the bottom; headers, padding and check sequence are written at sending. The payload
size and the capabilities of the driver decide whether all of it is inside.
-/
namespace NanoIp

open Ethernet (Framed)

/-- A layer that allocates and sends, with what it writes into its headers. -/
inductive Layer where
  | ethernet (header : Ethernet.Header)
  | ipv4 (handle : Ipv4.Handle)
  | udp {n : Nat} (k : Udp.Handle n) (port : BitVec 16) (header : Ipv4Header) (handle : Ipv4.Handle)
  | tcp {n : Nat} (k : Tcp.Handle n) (flags : Byte) (header : Ipv4Header) (handle : Ipv4.Handle)

namespace Layer

/-- The bytes of the headers above Ethernet. -/
def overhead : Layer → Nat
  | ethernet .. => 0
  | ipv4 .. => 20
  | udp .. => 28
  | tcp .. => 40

/-- The packet that is allocated, in the packet object the allocator chose. -/
def allocate (packetSize : BitVec 16) (p : Packet) : Layer → Packet
  | ethernet .. => Ethernet.allocatePacket packetSize p
  | ipv4 .. => Ipv4.allocatePacket packetSize p
  | udp .. => Udp.allocatedPacket packetSize p
  | tcp .. => Tcp.allocatedPacket packetSize p

/-- The packet that is sent. IPv4 ends in `NANO_IP_IPV4_FinalizeSendPacket`, at once or when
ARP has answered. -/
def send (netIf : NetIf) (p : Packet) : Layer → Packet
  | ethernet header => Ethernet.sendPacket netIf header p
  | ipv4 handle => (Ipv4.finalizeSendPacket { handle with netIf := some netIf } .success p).packet
  | udp k port header handle =>
    (Ipv4.finalizeSendPacket { handle with netIf := some netIf } .success
      (Udp.completePacket k port header p)).packet
  | tcp k flags header handle =>
    (Ipv4.finalizeSendPacket { handle with netIf := some netIf } .success
      (Tcp.completePacket k flags header p)).packet

/-- Writing a payload of the size asked for and sending it touch nothing from the size of
the packet on. -/
def StaysInside (layer : Layer) (netIf : NetIf) (packetSize : BitVec 16) : Prop :=
  ∀ (p : Packet) (payload : List Byte), payload.length = packetSize.toNat →
    ∀ i, (layer.allocate packetSize p).size.toNat ≤ i →
      ((layer.allocate packetSize p).writeBuffer payload).data i = p.data i ∧
        (layer.send netIf ((layer.allocate packetSize p).writeBuffer payload)).data i = p.data i

/-- The sizes do not wrap, and a frame that is padded has no check sequence to append to
it, or none of the two is the code's. -/
def HasRoom (layer : Layer) (netIf : NetIf) (packetSize : BitVec 16) : Prop :=
  packetSize.toNat + layer.overhead + 18 < 2 ^ 16 ∧
    (46 ≤ packetSize.toNat + layer.overhead ∨ netIf.has netdrvCapEthFramePadding = true ∨
      netIf.has netdrvCapEthCsComputation = true)

variable (layer : Layer) (netIf : NetIf) {packetSize : BitVec 16} (p : Packet) {payload : List Byte}

theorem ethernet_size (packetSize : BitVec 16) (p : Packet) :
    (Ethernet.allocatePacket packetSize p).size.toNat =
      max 60 ((packetSize.toNat + 18) % 2 ^ 16) := by
  have htotal : (packetSize + BitVec.ofNat 16 Ethernet.headerSize + BitVec.ofNat 16
    Ethernet.csSize).toNat =
      (packetSize.toNat + 18) % 2 ^ 16 := by
    rw [BitVec.add_assoc, BitVec.toNat_add]
    rfl
  change (if _ < Ethernet.minFrameSize then Ethernet.minFrameSize else _).toNat = _
  by_cases h : packetSize + BitVec.ofNat 16 Ethernet.headerSize + BitVec.ofNat 16 Ethernet.csSize <
      Ethernet.minFrameSize
  · rw [if_pos h, Ethernet.minFrameSize_toNat]
    rw [BitVec.lt_def, htotal, Ethernet.minFrameSize_toNat] at h
    omega
  · rw [if_neg h, htotal]
    rw [BitVec.lt_def, htotal, Ethernet.minFrameSize_toNat] at h
    omega

theorem writeSkipBytes_size (p : Packet) (count : BitVec 16) :
    (p.writeSkipBytes count).size = p.size := rfl

theorem ipv4_size (packetSize : BitVec 16) (p : Packet) :
    (Ipv4.allocatePacket packetSize p).size.toNat =
    max 60 ((packetSize.toNat + 20 + 18) % 2 ^ 16) := by
  rw [Ipv4.allocatePacket, writeSkipBytes_size, ethernet_size, BitVec.toNat_add,
    show (BitVec.ofNat 16 Ipv4.minHeaderSize).toNat = 20 from rfl]
  omega

theorem allocate_size (packetSize : BitVec 16) :
    (layer.allocate packetSize p).size.toNat =
      max 60 ((packetSize.toNat + layer.overhead + 18) % 2 ^ 16) := by
  cases layer with
  | ethernet header => exact ethernet_size packetSize p
  | ipv4 handle => exact ipv4_size packetSize p
  | udp k port header handle =>
    rw [allocate, Udp.allocatedPacket, writeSkipBytes_size, ipv4_size, BitVec.toNat_add,
      show Udp.headerSize.toNat = 8 from rfl, overhead]
    omega
  | tcp k flags header handle =>
    rw [allocate, Tcp.allocatedPacket, writeSkipBytes_size, ipv4_size, BitVec.toNat_add,
      show Tcp.headerSize.toNat = 20 from rfl, overhead]
    omega

theorem allocate_data (packetSize : BitVec 16) : (layer.allocate packetSize p).data = p.data := by
  cases layer <;> rfl

theorem allocate_current (packetSize : BitVec 16) :
    (layer.allocate packetSize p).current = 14 + layer.overhead := by
  cases layer <;> rfl

/-- What stands behind the Ethernet header when the frame is sent. -/
def body (payload : List Byte) : Layer → List Byte
  | ethernet _ => payload
  | ipv4 handle => Ipv4.packetBytes handle.header payload
  | udp k port header handle =>
      Ipv4.packetBytes handle.header (Udp.datagram header k.port port payload)
  | tcp k flags header handle =>
      Ipv4.packetBytes handle.header (Tcp.segmentBytes k flags header payload)

def ethernetHeader : Layer → Ethernet.Header
  | ethernet header => header
  | ipv4 handle | udp _ _ _ handle | tcp _ _ _ handle =>
      ⟨handle.arpMac, netIf.macAddress, Ipv4.ipProtocol⟩

theorem body_length (payload : List Byte) :
    (layer.body payload).length = payload.length + layer.overhead := by
  cases layer with
  | ethernet => rfl
  | ipv4 =>
    rw [body, Ipv4.packetBytes_length, overhead, Ipv4.minHeaderSize]
    omega
  | udp =>
    rw [body, Ipv4.packetBytes_length, Udp.datagram_length, overhead, Ipv4.minHeaderSize]
    omega
  | tcp =>
    rw [body, Ipv4.packetBytes_length, Tcp.segmentBytes_length, overhead, Ipv4.minHeaderSize]
    omega

theorem finalize_framed (handle : Ipv4.Handle) {q : Packet} {room content : List Byte}
    (h : Framed q (room ++ content)) (hroom : room.length = Ipv4.minHeaderSize) :
    ∃ q', (Ipv4.finalizeSendPacket { handle with netIf := some netIf } .success q).packet =
        Ethernet.sendPacket netIf ⟨handle.arpMac, netIf.macAddress, Ipv4.ipProtocol⟩ q' ∧
      Framed q' (Ipv4.packetBytes handle.header content) ∧ ∀ i, 34 ≤ i → q'.data i = q.data i := by
  obtain ⟨q', hfill, hframed, -⟩ := Ipv4.fillHeader_framed handle.header h hroom
  refine ⟨q', ?_, hframed, fun i hi => Ipv4.fillHeader_outside handle.header hfill hi⟩
  rw [Ipv4.finalizeSendPacket, hfill]

/-- What is written in the end: a frame made of the payload and the headers. -/
theorem send_framed (packetSize : BitVec 16) (payload : List Byte) (p : Packet)
    (hfit : payload.length + layer.overhead + 18 < 2 ^ 16) :
    ∃ q, layer.send netIf ((layer.allocate packetSize p).writeBuffer payload) =
        Ethernet.sendPacket netIf (layer.ethernetHeader netIf) q ∧ Framed q (layer.body payload) ∧
      ∀ i, 14 + layer.overhead + payload.length ≤ i → q.data i = p.data i := by
  have hwritten : ∀ i, 14 + layer.overhead + payload.length ≤ i →
      ((layer.allocate packetSize p).writeBuffer payload).data i = p.data i := by
    intro i hi
    refine (Packet.store_outside _ _ _ _ (.inr ?_)).trans
      (congrFun (layer.allocate_data p packetSize) i)
    rw [allocate_current]
    exact hi
  cases layer with
  | ethernet header =>
    have hroom : (Ethernet.allocatePacket packetSize p).Composed 0 (p.bytes 0 14) :=
      ⟨(Packet.bytes_length _ _ _).symm, by rw [Packet.bytes_length]; rfl, by
        rw [Packet.bytes_length]; rfl⟩
    have hall := hroom.writeBuffer payload
      (by rw [Packet.bytes_length]; rw [overhead] at hfit; omega)
    refine ⟨_, rfl, Ethernet.framed_of_composed hall (Packet.bytes_length _ _ _) ?_, hwritten⟩
    rw [overhead] at hfit
    rw [body, Ethernet.headerSize, Ethernet.csSize]
    omega
  | ipv4 handle =>
    have hroom := Ipv4.allocatePacket_composed packetSize p
    rw [p.bytes_append 0 14 20] at hroom
    rw [overhead] at hfit
    have hall := hroom.writeBuffer payload (by
      rw [List.length_append, Packet.bytes_length, Packet.bytes_length]; omega)
    rw [List.append_assoc] at hall
    have hframed := Ethernet.framed_of_composed hall (Packet.bytes_length _ _ _) (by
      rw [List.length_append, Packet.bytes_length, Ethernet.headerSize, Ethernet.csSize]; omega)
    obtain ⟨q, hsend, hq, houtside⟩ :=
      finalize_framed netIf handle hframed (Packet.bytes_length _ _ _)
    exact ⟨q, hsend, hq, fun i hi =>
      (houtside i (by rw [overhead] at hi; omega)).trans (hwritten i hi)⟩
  | udp k port header handle =>
    rw [overhead] at hfit
    have hall := (Udp.allocatedPacket_composed packetSize p).writeBuffer payload
      (by rw [List.length_nil]; omega)
    rw [List.nil_append] at hall
    have hframed := Udp.completePacket_framed k port header hall (by omega)
    obtain ⟨q, hsend, hq, houtside⟩ :=
      finalize_framed netIf handle hframed (Packet.bytes_length _ _ _)
    refine ⟨q, hsend, hq, fun i hi => ?_⟩
    rw [overhead] at hi
    rw [houtside i (by omega), Udp.completePacket_outside k port header ⟨hall, by omega⟩
      (.inr (by omega))]
    exact hwritten i hi
  | tcp k flags header handle =>
    rw [overhead] at hfit
    have hall := (Tcp.allocatedPacket_composed packetSize p).writeBuffer payload
      (by rw [List.length_nil]; omega)
    rw [List.nil_append] at hall
    have hframed := Tcp.completePacket_framed k flags header hall (by omega)
    obtain ⟨q, hsend, hq, houtside⟩ :=
      finalize_framed netIf handle hframed (Packet.bytes_length _ _ _)
    refine ⟨q, hsend, hq, fun i hi => ?_⟩
    rw [overhead] at hi
    rw [houtside i (by omega), Tcp.completePacket_outside k flags header hall (by omega)
      (.inr (by omega))]
    exact hwritten i hi

/-- With room everything stays inside. -/
theorem staysInside_of_hasRoom (h : layer.HasRoom netIf packetSize) :
    layer.StaysInside netIf packetSize := by
  obtain ⟨hfit, hpad⟩ := h
  intro p payload hlen i hi
  rw [allocate_size, Nat.mod_eq_of_lt hfit] at hi
  rw [← hlen] at hfit hpad hi
  obtain ⟨q, hsend, hframed, houtside⟩ := layer.send_framed netIf packetSize payload p hfit
  refine ⟨?_, ?_⟩
  · refine (Packet.store_outside _ _ _ _ (.inr ?_)).trans
      (congrFun (layer.allocate_data p packetSize) i)
    rw [allocate_current]
    omega
  · rw [hsend, Ethernet.sendPacket_outside netIf _ hframed, houtside i (by omega)]
    have hbody := layer.body_length payload
    rw [Ethernet.headerSize, Ethernet.csSize, Ethernet.codePadding]
    by_cases hframe : netIf.has netdrvCapEthFramePadding = false
    · rw [if_pos hframe, List.length_replicate, Ethernet.headerSize]
      rw [hframe] at hpad
      by_cases hcs : netIf.has netdrvCapEthCsComputation = true
      · rw [if_pos hcs]
        omega
      · rw [if_neg hcs]
        have hlong : 46 ≤ payload.length + layer.overhead := by
          rcases hpad with hlong | hpad | hpad
          · exact hlong
          · cases hpad
          · exact absurd hpad hcs
        omega
    · rw [if_neg hframe, List.length_nil]
      split <;> omega

theorem not_staysInside_of_wrap (h : 2 ^ 16 ≤ packetSize.toNat + layer.overhead + 18) :
    ¬ layer.StaysInside netIf packetSize := by
  intro hinside
  have hlt := packetSize.isLt
  have hoverhead : layer.overhead ≤ 40 := by cases layer <;> exact of_decide_eq_true rfl
  have hsize := layer.allocate_size ⟨fun _ => 0#8, 0, 0#16, 0#16, 0#32, none⟩ packetSize
  obtain ⟨hlast, -⟩ := hinside ⟨fun _ => 0#8, 0, 0#16, 0#16, 0#32, none⟩
    (List.replicate packetSize.toNat 1#8)
    List.length_replicate (14 + layer.overhead + (packetSize.toNat - 1)) (by rw [hsize]; omega)
  have hwritten := Packet.store_inside
    (layer.allocate packetSize ⟨fun _ => 0#8, 0, 0#16, 0#16, 0#32, none⟩).data
    (List.replicate packetSize.toNat 1#8) (14 + layer.overhead) (packetSize.toNat - 1)
    (by rw [List.length_replicate]; omega)
  rw [List.getElem_replicate, ← layer.allocate_current ⟨fun _ => 0#8, 0, 0#16, 0#16, 0#32, none⟩
    packetSize] at hwritten
  rw [← layer.allocate_current ⟨fun _ => 0#8, 0, 0#16, 0#16, 0#32, none⟩ packetSize] at hlast
  exact absurd (hwritten.symm.trans hlast : 1#8 = 0#8) (by decide)

/-- The frame that is handed to the driver. -/
def frame (payload : List Byte) : List Byte :=
  let padded := Ethernet.content (layer.ethernetHeader netIf)
    (layer.body payload ++ Ethernet.codePadding netIf (layer.body payload))
  padded ++ Ethernet.codeFcs netIf padded

theorem getD_frame {q : Packet} {i : Nat} (h : i < q.count.toNat) :
    q.frame.getD i 0#8 = q.data i := by
  have hi : i < q.frame.length := by rwa [Packet.frame, Packet.bytes_length]
  rw [List.getD_eq_getElem?_getD, List.getElem?_eq_getElem hi, Option.getD_some]
  exact (Packet.bytes_getElem q 0 _ i hi).trans (congrArg q.data (Nat.zero_add i))

theorem short_frame_length (hshort : payload.length + layer.overhead < 46)
    (hframe : netIf.has netdrvCapEthFramePadding = false)
    (hcs : netIf.has netdrvCapEthCsComputation = false) :
    (layer.frame netIf payload).length = 64 := by
  have hbody := layer.body_length payload
  rw [frame, List.length_append, Ethernet.content_length, List.length_append, Ethernet.codePadding,
    if_pos hframe,
    List.length_replicate, Ethernet.codeFcs, if_pos hcs, Ethernet.fcsBytes_length,
      Ethernet.headerSize, Ethernet.csSize]
  omega

/-- The check sequence behind a padded frame ends at the offset 63, which is outside. -/
theorem not_staysInside_of_short (hfit : packetSize.toNat + layer.overhead + 18 < 2 ^ 16)
    (hshort : packetSize.toNat + layer.overhead < 46)
    (hframe : netIf.has netdrvCapEthFramePadding = false)
    (hcs : netIf.has netdrvCapEthCsComputation = false) : ¬ layer.StaysInside netIf packetSize := by
  intro hinside
  have hlen : (List.replicate packetSize.toNat 0#8).length = packetSize.toNat :=
    List.length_replicate
  -- the frame does not depend on what stood behind it
  have hlast : ∀ v : Byte, v = (layer.frame netIf (List.replicate packetSize.toNat 0#8)).getD
      63 0#8 := by
    intro v
    obtain ⟨-, hdata⟩ := hinside ⟨fun _ => v, 0, 0#16, 0#16, 0#32, none⟩ _ hlen 63
      (by rw [allocate_size, Nat.mod_eq_of_lt hfit]; omega)
    obtain ⟨q, hsend, hframed, -⟩ :=
      layer.send_framed netIf packetSize (List.replicate packetSize.toNat 0#8)
      ⟨fun _ => v, 0, 0#16, 0#16, 0#32, none⟩ (by rwa [hlen])
    have hbytes : (Ethernet.sendPacket netIf (layer.ethernetHeader netIf) q).frame =
        layer.frame netIf (List.replicate packetSize.toNat 0#8) :=
          Ethernet.sendPacket_frame netIf _ hframed
    have hcount : (Ethernet.sendPacket netIf (layer.ethernetHeader netIf) q).count.toNat = 64 := by
      rw [← layer.short_frame_length netIf (by rwa [hlen]) hframe hcs, ← hbytes, Packet.frame,
        Packet.bytes_length]
    rw [← hbytes, getD_frame (by rw [hcount]; decide), ← hsend]
    exact hdata.symm
  exact absurd ((hlast 0#8).trans (hlast 1#8).symm) (by decide)

/-- The layers and sizes that have room are those that stay inside. -/
theorem staysInside_iff (packetSize : BitVec 16) :
    layer.StaysInside netIf packetSize ↔ layer.HasRoom netIf packetSize := by
  refine ⟨fun h => ?_, layer.staysInside_of_hasRoom netIf⟩
  have hfit : packetSize.toNat + layer.overhead + 18 < 2 ^ 16 := by
    by_contra hwrap
    exact layer.not_staysInside_of_wrap netIf (by omega) h
  refine ⟨hfit, ?_⟩
  by_contra hnot
  rw [not_or, not_or, Bool.not_eq_true, Bool.not_eq_true] at hnot
  exact layer.not_staysInside_of_short netIf hfit (by omega) hnot.2.1 hnot.2.2 h

/-- An empty datagram to a driver that neither pads nor computes the check sequence. -/
theorem empty_datagram_outside :
    ¬ (udp (Udp.Handle.init 1) 53#16 Ipv4Header.zero Ipv4.Handle.init).StaysInside
    ⟨Vector.replicate 6 0#8, 0#32, 0#32⟩ 0#16 :=
  not_staysInside_of_short _ _ (by decide) (by decide) (by decide) (by decide)

end Layer

end NanoIp
