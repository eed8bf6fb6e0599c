import NanoIp.Arp.Map
import NanoIp.Core.Wire

/-!
# ARP frames on the wire

What both senders write is what the receiver decodes, behind the Ethernet header and in
front of the padding that a frame of this length always gets.
-/
namespace NanoIp.Arp

open Ethernet (Arrived Framed Spoils)
open Packet (be16 be32)

/-- The fields of a frame, each as it is written. -/
def frameWrites (frame : Frame) : List (List Byte) :=
  [be16 frame.hardwareType, be16 frame.protocolType, [frame.hwAddressLength],
    [frame.protoAddressLength],
    be16 frame.operation, frame.senderHwAddress.toList, be32 frame.senderProtoAddress,
    frame.targetHwAddress.toList, be32 frame.targetProtoAddress]

def frameBytes (frame : Frame) : List Byte := (frameWrites frame).flatten

@[simp] theorem frameBytes_length (frame : Frame) : (frameBytes frame).length = 28 := by
  simp only [frameBytes, frameWrites, List.flatten_cons, List.flatten_nil, List.length_append,
    Vector.length_toList]
  rfl

theorem writeFrame_framed (p : Packet) (frame : Frame) :
    Framed (writeFrame (Ethernet.allocatePacket packetSizeIpv4 p) frame) (frameBytes frame) := by
  -- the room for the Ethernet header is counted from the start
  have hroom : (Ethernet.allocatePacket packetSizeIpv4 p).Composed 0 (p.bytes 0 14) := by
    refine ⟨?_, ?_, ?_⟩
    · rw [Packet.bytes_length]
      rfl
    · rw [Packet.bytes_length]
      rfl
    · rw [Packet.bytes_length]
      rfl
  have hflat : (frameWrites frame).flatten.length = 28 := frameBytes_length frame
  have hwritten := (hroom.writes (frameWrites frame) (by rw [Packet.bytes_length, hflat]; omega)).1
  have hall : (writeFrame (Ethernet.allocatePacket packetSizeIpv4 p) frame).Composed 0
      (p.bytes 0 14 ++ frameBytes frame) := hwritten
  exact Ethernet.framed_of_composed hall (Packet.bytes_length _ _ _)
    (by rw [frameBytes_length]; decide)

theorem readMac_eq (p : Packet) : readMac p = (p.macAt 0, p.readSkipBytes 6#16) := by
  simp only [readMac, Packet.macAt, Nat.zero_add]

theorem decode_eq (p : Packet) :
    decode p = ⟨p.wordAt 0, p.wordAt 2, p.byteAt 4, p.byteAt 5, p.wordAt 6, p.macAt 8,
    p.longAt 14, p.macAt 18, p.longAt 24⟩ := by
  unfold decode
  simp only [readMac_eq, Packet.read8bits, Packet.read16bits, Packet.read32bits]
  simp (disch := decide) only [Packet.readSkipBytes_add, Packet.readSkipBytes_macAt,
    Packet.readSkipBytes_wordAt,
    Packet.readSkipBytes_longAt, Packet.readSkipBytes_byteAt, BitVec.reduceAdd, BitVec.reduceToNat,
      Nat.reduceAdd]

theorem decode_holds {q : Packet} {frame : Frame} (h : q.Holds 0 (frameBytes frame)) :
    decode q = frame := by
  simp only [frameBytes, frameWrites, List.flatten_cons, List.flatten_nil, List.append_nil,
    Packet.holds_append,
    Vector.length_toList] at h
  obtain ⟨hhardware, hprotocol, hhw, hproto, hoperation, hsenderHw, hsender, htargetHw, htarget⟩ :=
    h
  rw [decode_eq]
  cases frame
  simp only [Frame.mk.injEq]
  exact ⟨hhardware.wordAt, hprotocol.wordAt, hhw.byteAt, hproto.byteAt, hoperation.wordAt,
    hsenderHw.macAt,
    hsender.longAt, htargetHw.macAt, htarget.longAt⟩

/-- The driver pads every frame of this length, behind the check sequence of the code, and
the receiver's driver leaves the check to the code. -/
def Misplaced (sender receiver : NetIf) : Prop :=
  sender.has netdrvCapEthFramePadding = true ∧ sender.has netdrvCapEthCsComputation = false ∧
    receiver.has netdrvCapEthCsCheck = false

instance (sender receiver : NetIf) : Decidable (Misplaced sender receiver) :=
  inferInstanceAs (Decidable (_ ∧ _ ∧ _))

section Receive

variable {c n : Nat} {sender : NetIf} {header : Ethernet.Header} {frame : Frame} {p q : Packet}

/-- A driver has filled the packet object with the frame that was sent. -/
def Came (sender : NetIf) (header : Ethernet.Header) (frame : Frame) (p q : Packet) : Prop :=
  Ethernet.Received (Ethernet.transmit sender (sentPacket sender header frame p).frame) q

theorem Came.behind (h : Came sender header frame p q) :
    decode (Ethernet.behindHeader q) = frame ∧ ¬ (Ethernet.behindHeader q).count <
      packetSizeIpv4 := by
  obtain ⟨hbytes, -, hcount⟩ := Arrived.behind h (writeFrame_framed p frame)
  refine ⟨decode_holds hbytes, ?_⟩
  rw [BitVec.lt_def, hcount, frameBytes_length]
  decide

/-- `arp_module.arp_protocol`, registered with `NANO_IP_ETHERNET_AddProtocol`. -/
def ethernetProtocol (m : Module c n) (link : Link) (now : BitVec 32) :
    Ethernet.Protocol (Received c n) :=
  ⟨arpProtocol, fun netIf _ p => rxFrame m netIf p link now⟩

/-- A node at the reception of a frame: its interface and registered protocols, ARP's
among them, and what its module finds when it answers. -/
structure Receiver (c n : Nat) where
  module : Module c n
  netIf : NetIf
  link : Link
  now : BitVec 32
  protocols : List (Ethernet.Protocol (Received c n))
  registered : protocols.find? (fun protocol => protocol.etherType = arpProtocol) =
    some (ethernetProtocol module link now)

/-- `NANO_IP_ETHERNET_RxFrame` of the node. -/
def Receiver.rxFrame (r : Receiver c n) (q : Packet) : Except Err (Received c n) :=
  Ethernet.rxFrame r.protocols r.netIf q

theorem Receiver.rxFrame_came (r : Receiver c n) (h : Came sender header frame p q)
    (hours : Ethernet.isForUs r.netIf header.destAddress = true)
    (htype : header.etherType = arpProtocol) :
    r.rxFrame q = if Misplaced sender r.netIf then .error .invalidCrc
      else .ok (Arp.rxFrame r.module r.netIf (Ethernet.behindHeader q) r.link r.now) := by
  have hframe := Ethernet.rxFrame_arrived h (writeFrame_framed p frame) r.protocols r.netIf
  have hfound := r.registered
  rw [← htype] at hfound
  have hspoils : Spoils sender (frameBytes frame) ∧ r.netIf.has netdrvCapEthCsCheck = false ↔
      Misplaced sender r.netIf := by
    rw [Spoils, Misplaced, frameBytes_length, Ethernet.headerSize, and_assoc, and_assoc]
    refine and_congr_right fun _ => and_congr_right fun _ => and_iff_right ?_
    omega
  rw [if_pos hours, Ethernet.dispatch_found hfound] at hframe
  simp only [hspoils] at hframe
  exact hframe

end Receive

end NanoIp.Arp
