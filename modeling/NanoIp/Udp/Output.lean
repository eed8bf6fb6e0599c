import NanoIp.Udp.Input
import NanoIp.Core.Written

/-!
# UDP transmission

The header is written in front of the payload, the checksum is computed over both and
over the addresses the IPv4 header will have, and the packet is given to IPv4.
-/
namespace NanoIp.Udp

open Packet (be16 be32)

variable {n : Nat}

/-- The IPv4 header of a handle's datagrams: the address it is bound to, or that of the
interface the packet leaves by. -/
def outputHeader (k : Handle n) (lower : Lower) (ipv4Address : Ipv4Address) (p : Packet) :
    Ipv4Header where
  srcAddress :=
    if k.ipv4Address = 0#32 then
      match Ipv4.chooseRoute lower ipv4Address p with
      | .ok (_, netIf) => netIf.ipv4Address
      | .error _ => 0#32
    else k.ipv4Address
  destAddress := ipv4Address
  protocol := protocol

def headerBytes (srcPort destPort udpLength : BitVec 16) : List Byte :=
  be16 srcPort ++ be16 destPort ++ be16 udpLength

@[simp] theorem headerBytes_length (srcPort destPort udpLength : BitVec 16) :
    (headerBytes srcPort destPort udpLength).length = 6 := rfl

/-- The packet with its UDP header and checksum; `count` becomes the frame size. -/
def completePacket (k : Handle n) (port : BitVec 16) (header : Ipv4Header) (p : Packet) : Packet :=
  let udpLength := p.count + headerSize
  let start := p.current - udpLength.toNat
  let data := Packet.store p.data start (headerBytes k.port port udpLength ++ be16 0#16)
  let checksum := computeCS header ({ p with data := data }.bytes start udpLength.toNat) udpLength
  { p with
    data := Packet.store data (start + 6) (checksumBytes checksum)
    count := BitVec.ofNat 16 p.current }

/-- `NANO_IP_UDP_SendPacket`. -/
def sendPacket (lower : Lower) (k : Handle n) (ipv4Address : Ipv4Address) (port : BitVec 16)
    (pid : PacketId) (p : Packet) : Ipv4.Sent :=
  let header := outputHeader k lower ipv4Address p
  Ipv4.sendPacket lower k.ipv4Handle header pid (completePacket k port header p)

/-- A datagram as it is sent, with the checksum the sender computes. -/
def datagram (header : Ipv4Header) (srcPort destPort : BitVec 16) (payload : List Byte) :
    List Byte :=
  let udpLength := BitVec.ofNat 16 (payload.length + 8)
  let fields := headerBytes srcPort destPort udpLength
  fields ++ checksumBytes (computeCS header (fields ++ [0#8, 0#8] ++ payload) udpLength) ++ payload

@[simp] theorem datagram_length (header : Ipv4Header) (srcPort destPort : BitVec 16)
    (payload : List Byte) :
    (datagram header srcPort destPort payload).length = payload.length + 8 := by
  simp only [datagram, checksumBytes, List.length_append, headerBytes_length, List.length_cons,
    List.length_nil]
  omega

/-- The packet an application may have written to for a payload. -/
structure Sendable (p : Packet) (room : Nat) (payload : List Byte) : Prop
    extends p.Composed (room + 8) payload where
  fits : payload.length + 8 < 2 ^ 16

/-- `NANO_IP_UDP_AllocatePacket` leaves room for the headers, and no payload. -/
theorem allocatedPacket_composed (packetSize : BitVec 16) (p : Packet) :
    (allocatedPacket packetSize p).Composed 42 [] := ⟨rfl, rfl, rfl⟩

def composed (packetSize : BitVec 16) (p : Packet) (writes : List (List Byte)) : Packet :=
  writes.foldl Packet.writeBuffer (allocatedPacket packetSize p)

theorem composed_composed (packetSize : BitVec 16) (p : Packet) (writes : List (List Byte))
    (hfit : writes.flatten.length < 2 ^ 16) :
    (composed packetSize p writes).Composed 42 writes.flatten ∧
      (composed packetSize p writes).netIf = none := by
  have h := (allocatedPacket_composed packetSize p).writes writes
    (by rwa [List.length_nil, Nat.zero_add])
  rwa [List.nil_append] at h

section Complete

variable {p : Packet} {room : Nat} {payload : List Byte} (k : Handle n) (port : BitVec 16)
  (header : Ipv4Header)

theorem Sendable.udpLength (h : Sendable p room payload) :
    p.count + headerSize = BitVec.ofNat 16 (payload.length + 8) := by
  apply BitVec.eq_of_toNat_eq
  rw [headerSize, BitVec.toNat_add, h.count, BitVec.toNat_ofNat, BitVec.toNat_ofNat]

theorem completePacket_eq (h : Sendable p room payload) :
    (completePacket k port header p).data = (p.writeChecksummed room
      (pseudoHeader header (BitVec.ofNat 16 (payload.length + 8)))
      (headerBytes k.port port (BitVec.ofNat 16 (payload.length + 8))) []
        (payload.length + 8)).data := by
  have hlt := h.fits
  have hlen : (BitVec.ofNat 16 (payload.length + 8)).toNat = payload.length + 8 := by
    rw [BitVec.toNat_ofNat, Nat.mod_eq_of_lt hlt]
  have hstart : p.current - (payload.length + 8) = room := by
    rw [h.current]
    omega
  have hzero : be16 0#16 = [0#8, 0#8] := rfl
  unfold completePacket Packet.writeChecksummed
  dsimp only
  rw [h.udpLength, hlen, hstart, hzero, List.append_nil, headerBytes_length]
  rfl

theorem completePacket_bytes (h : Sendable p room payload) :
    (completePacket k port header p).bytes room (payload.length + 8) =
      datagram header k.port port payload := by
  have hwritten := p.writeChecksummed_bytes room
    (pseudoHeader header (BitVec.ofNat 16 (payload.length + 8)))
    (headerBytes k.port port (BitVec.ofNat 16 (payload.length + 8))) [] payload.length
  rw [headerBytes_length, List.length_nil, show 6 + 2 + 0 + payload.length =
    payload.length + 8 from by omega,
    show room + 6 + 2 + 0 = room + 8 from rfl, h.bytes, List.nil_append] at hwritten
  rw [datagram, computeCS, ← hwritten]
  exact Packet.bytes_data _ _ fun i _ => congrFun (completePacket_eq k port header h) _

theorem completePacket_outside (h : Sendable p room payload) {i : Nat}
    (hi : i < room ∨ room + 8 ≤ i) :
    (completePacket k port header p).data i = p.data i := by
  rw [completePacket_eq k port header h]
  refine p.writeChecksummed_outside room _ _ _ _ ?_
  rw [headerBytes_length, List.length_nil]
  omega

end Complete

end NanoIp.Udp
