import NanoIp.Core.Types
import Mathlib.Logic.Function.Basic

/-!
# Packet objects

`nano_ip_net_packet_t` with the buffer seen as memory from `data` on and
`current` as an offset into it. The three fields `current`, `count` and `size`
are rewritten by every layer with a meaning of its own, so nothing ties them
together here.
-/
namespace NanoIp

/-- The flags `NET_IF_PACKET_FLAG_RX`, `_TX`, `_KEEP_PACKET` and `_ERROR`. -/
def packetFlagRx : BitVec 32 := 1#32
def packetFlagTx : BitVec 32 := 2#32
def packetFlagKeepPacket : BitVec 32 := 4#32
def packetFlagError : BitVec 32 := 128#32

theorem packetFlagKeepPacket_set (flags : BitVec 32) :
    (flags ||| packetFlagKeepPacket) &&& packetFlagKeepPacket ≠ 0#32 := by
  intro hzero
  have hbit := congrArg (fun v : BitVec 32 => v.getLsbD 2) hzero
  simp [packetFlagKeepPacket] at hbit

/-- A packet object; `netIf` is the interface that received it. -/
structure Packet where
  data : Nat → Byte
  current : Nat
  size : BitVec 16
  count : BitVec 16
  flags : BitVec 32
  netIf : Option NetIf

namespace Packet

/-- Store consecutive bytes from an offset on. -/
def store (mem : Nat → Byte) : Nat → List Byte → Nat → Byte
  | _, [] => mem
  | at_, b :: bs => store (Function.update mem at_ b) (at_ + 1) bs

theorem store_outside (mem : Nat → Byte) (bs : List Byte) :
    ∀ (at_ i : Nat), i < at_ ∨ at_ + bs.length ≤ i → store mem at_ bs i = mem i := by
  induction bs generalizing mem with
  | nil => intro at_ i _; rfl
  | cons b bs ih =>
    intro at_ i h
    rw [List.length_cons] at h
    rw [store, ih _ _ _ (by omega)]
    exact Function.update_of_ne (by omega) _ _

theorem store_inside (mem : Nat → Byte) (bs : List Byte) :
    ∀ (at_ i : Nat) (h : i < bs.length), store mem at_ bs (at_ + i) = bs[i] := by
  induction bs generalizing mem with
  | nil => intro at_ i h; simp at h
  | cons b bs ih =>
    intro at_ i h
    cases i with
    | zero =>
      rw [store, Nat.add_zero, store_outside _ _ _ _ (by omega)]
      exact Function.update_self _ _ _
    | succ i =>
      have hi : i < bs.length := by simpa using h
      have hs := ih (Function.update mem at_ b) (at_ + 1) i hi
      rw [show at_ + 1 + i = at_ + (i + 1) from by omega] at hs
      rw [store, hs, List.getElem_cons_succ]

/-- Big-endian bytes of a 16-bit and of a 32-bit value, as the writers split them. -/
def be16 (v : BitVec 16) : List Byte := [(v >>> 8).truncate 8, v.truncate 8]
def be32 (v : BitVec 32) : List Byte :=
  [(v >>> 24).truncate 8, (v >>> 16).truncate 8, (v >>> 8).truncate 8, v.truncate 8]

/-- `NANO_IP_PACKET_WriteBufferNoCount`; the fixed-width writers are instances of it. -/
def writeBufferNoCount (p : Packet) (bs : List Byte) : Packet :=
  { p with data := store p.data p.current bs, current := p.current + bs.length }

/-- `NANO_IP_PACKET_WriteBuffer`. -/
def writeBuffer (p : Packet) (bs : List Byte) : Packet :=
  let p := p.writeBufferNoCount bs
  { p with count := p.count + BitVec.ofNat 16 bs.length }

def write8bitsNoCount (p : Packet) (v : Byte) : Packet := p.writeBufferNoCount [v]
def write16bitsNoCount (p : Packet) (v : BitVec 16) : Packet := p.writeBufferNoCount (be16 v)
def write32bitsNoCount (p : Packet) (v : BitVec 32) : Packet := p.writeBufferNoCount (be32 v)
def write8bits (p : Packet) (v : Byte) : Packet := p.writeBuffer [v]
def write16bits (p : Packet) (v : BitVec 16) : Packet := p.writeBuffer (be16 v)
def write32bits (p : Packet) (v : BitVec 32) : Packet := p.writeBuffer (be32 v)

/-- `NANO_IP_PACKET_WriteSkipBytes`. -/
def writeSkipBytes (p : Packet) (size : BitVec 16) : Packet :=
  { p with current := p.current + size.toNat, count := p.count + size }

/-- The bytes at a distance from `current`: one byte, and two or four in network order. -/
def byteAt (p : Packet) (i : Nat) : Byte := p.data (p.current + i)
/-- `NET_READ_16`. -/
def wordAt (p : Packet) (i : Nat) : BitVec 16 :=
  ((p.byteAt i).zeroExtend 16 <<< 8) + (p.byteAt (i + 1)).zeroExtend 16
/-- `NET_READ_32`. -/
def longAt (p : Packet) (i : Nat) : BitVec 32 :=
  ((p.byteAt i).zeroExtend 32 <<< 24) + ((p.byteAt (i + 1)).zeroExtend 32 <<< 16) +
    ((p.byteAt (i + 2)).zeroExtend 32 <<< 8) + (p.byteAt (i + 3)).zeroExtend 32

/-- `NANO_IP_PACKET_ReadSkipBytes`. -/
def readSkipBytes (p : Packet) (size : BitVec 16) : Packet :=
  { p with current := p.current + size.toNat, count := p.count - size }

def read8bits (p : Packet) : Byte × Packet := (p.byteAt 0, p.readSkipBytes 1#16)
def read16bits (p : Packet) : BitVec 16 × Packet := (p.wordAt 0, p.readSkipBytes 2#16)
def read32bits (p : Packet) : BitVec 32 × Packet := (p.longAt 0, p.readSkipBytes 4#16)

@[simp] theorem readSkipBytes_byteAt (p : Packet) (size : BitVec 16) (i : Nat) :
    (p.readSkipBytes size).byteAt i = p.byteAt (size.toNat + i) := by
  simp only [byteAt, readSkipBytes, Nat.add_assoc]

@[simp] theorem readSkipBytes_wordAt (p : Packet) (size : BitVec 16) (i : Nat) :
    (p.readSkipBytes size).wordAt i = p.wordAt (size.toNat + i) := by
  simp only [wordAt, readSkipBytes_byteAt, Nat.add_assoc]

@[simp] theorem readSkipBytes_longAt (p : Packet) (size : BitVec 16) (i : Nat) :
    (p.readSkipBytes size).longAt i = p.longAt (size.toNat + i) := by
  simp only [longAt, readSkipBytes_byteAt, Nat.add_assoc]

theorem readSkipBytes_add (p : Packet) {a b : BitVec 16} (h : a.toNat + b.toNat < 2 ^ 16) :
    (p.readSkipBytes a).readSkipBytes b = p.readSkipBytes (a + b) := by
  have hc : p.current + a.toNat + b.toNat = p.current + (a + b).toNat := by
    rw [BitVec.toNat_add_of_lt h, Nat.add_assoc]
  have hn : p.count - a - b = p.count - (a + b) := by bv_omega
  simp only [readSkipBytes, hc, hn]

@[simp] theorem readSkipBytes_data (p : Packet) (size : BitVec 16) :
    (p.readSkipBytes size).data = p.data := rfl
@[simp] theorem readSkipBytes_flags (p : Packet) (size : BitVec 16) :
    (p.readSkipBytes size).flags = p.flags := rfl

/-- The bytes `[offset, offset + len)` of the buffer. -/
def bytes (p : Packet) (offset len : Nat) : List Byte :=
  (List.range len).map fun i => p.data (offset + i)

@[simp] theorem bytes_length (p : Packet) (offset len : Nat) :
    (p.bytes offset len).length = len := by
  simp [bytes]

theorem bytes_getElem (p : Packet) (offset len i : Nat) (h : i < (p.bytes offset len).length) :
    (p.bytes offset len)[i] = p.data (offset + i) := by
  simp [bytes]

theorem bytes_append (p : Packet) (offset len len' : Nat) :
    p.bytes offset (len + len') = p.bytes offset len ++ p.bytes (offset + len) len' := by
  simp [bytes, List.range_add, Nat.add_assoc]

/-- `NANO_IP_PACKET_ReadBuffer`. -/
def readBuffer (p : Packet) (size : BitVec 16) : List Byte × Packet :=
  (p.bytes p.current size.toNat, p.readSkipBytes size)

/-- What a driver that is handed the packet transmits: `count` bytes from `data` on. -/
def frame (p : Packet) : List Byte := p.bytes 0 p.count.toNat

end Packet

end NanoIp
