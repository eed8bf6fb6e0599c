import NanoIp.Sockets.Types
import NanoIp.Udp.Input
import Mathlib.Tactic.SplitIfs

/-!
# Reception on a socket

`NANO_IP_SOCKET_ReceiveFrom`, one section under the stack mutex at a time. The copy
loop of TCP turns once for each packet it reads from; `fuel` bounds its turns.
-/
namespace NanoIp.Sockets

variable {n k : Nat}

def contents (q : List RxPacket) : List Byte := q.flatMap RxPacket.content

/-- What the copy loop has done so far: `*received`, the bytes it wrote from `data`
on, the queue it leaves and the packets it released. -/
structure Copied where
  received : Nat
  bytes : List Byte
  queue : List RxPacket
  released : List PacketId

/-- One turn of the copy loop, on the packet at the head of the queue. -/
def copyPacket (size : Nat) (c : Copied) (p : RxPacket) (q : List RxPacket) : Copied :=
  let readSize := if size ≤ p.packet.count.toNat then size else p.packet.count.toNat
  let (bs, packet) := p.packet.readBuffer (BitVec.ofNat 16 readSize)
  let c := { c with received := c.received + readSize, bytes := c.bytes ++ bs }
  if packet.count = 0#16 then { c with queue := q, released := c.released ++ [p.id] }
  else { c with queue := ⟨p.id, packet⟩ :: q }

/-- The copy loop of TCP. -/
def copyLoop (size : Nat) : Nat → Copied → Option Copied
  | 0, _ => none
  | fuel + 1, c =>
    match c.queue with
    | [] => some c
    | p :: q =>
      let c := copyPacket size c p q
      if c.received ≠ size ∧ c.queue ≠ [] then copyLoop size fuel c else some c

def copyFuel (q : List RxPacket) : Nat := (contents q).length + q.length + 1

def copyAll (size : Nat) (q : List RxPacket) : Option Copied :=
  copyLoop size (copyFuel q) ⟨0, [], q, []⟩

/-- What a call returns: its result, `*received`, the bytes it wrote from `data` on
and the endpoint. -/
structure RxResult where
  ret : Err
  received : Nat
  bytes : List Byte
  endPoint : Option Endpoint

def RxResult.empty (ret : Err) : RxResult := ⟨ret, 0, [], none⟩

/-- The test of `NANO_IP_SOCKET_ReceiveFrom` on the socket's connection. -/
def receiveReady (s : Socket n k) : Err :=
  match s.type with
  | .udp => if s.udpBound then .success else .invalidArg
  | .tcp => if s.tcp.state = .established then .success else .invalidTcpState

/-- The packets of a socket become `q`, and `ids` are given back. -/
def Module.takePackets (m : Module n k) (i : Fin n) (q : List RxPacket) (ids : List PacketId) :
    Module n k :=
  { m.modify i fun s => { s with rxPackets := q } with released := m.released ++ ids }

/-- One turn of the waiting loop of `NANO_IP_SOCKET_ReceiveFrom`. -/
def receivePass (m : Module n k) (i : Fin n) (size : Nat) : Module n k × Pass RxResult :=
  match (m.sockets i).rxPackets with
  | [] => (m, if (m.sockets i).nonBlocking then .returns (.empty .inProgress) else .waits)
  | p :: q =>
    match (m.sockets i).type with
    | .udp =>
      if p.packet.count.toNat ≤ size then
        let (address, port) := Udp.readHeader p.packet
        let (bs, _) := p.packet.readBuffer p.packet.count
        (m.takePackets i q [p.id],
          .returns ⟨.success, p.packet.count.toNat, bs, some ⟨address, port⟩⟩)
      else (m, .returns (.empty .bufferTooSmall))
    | .tcp =>
      match copyAll size (p :: q) with
      | some c => (m.takePackets i c.queue c.released,
          .returns ⟨.success, c.received, c.bytes, some (m.sockets i).tcp.dest⟩)
      -- the fuel suffices
      | none => (m, .waits)

/-- `NANO_IP_SOCKET_ReceiveFrom` up to its first wait. -/
def receiveFrom (m : Module n k) (socketId : BitVec 32) (size : Nat) : Module n k × Pass RxResult :=
  match m.get socketId with
  | none => (m, .returns (.empty .invalidArg))
  | some i =>
    match receiveReady (m.sockets i) with
    | .success => receivePass m i size
    | ret => (m, .returns (.empty ret))

/-- `NANO_IP_SOCKET_ReceiveFrom` behind a wait that returned `ret` and the flags `active`. -/
def receiveWake (m : Module n k) (i : Fin n) (size : Nat) (ret : Err) (active : BitVec 32) :
    Module n k × Pass RxResult :=
  if (m.sockets i).isFree then (m, .returns (.empty .failure))
  else if ret ≠ .success then (m, .returns (.empty ret))
  else if active &&& eventError ≠ 0#32 then (m, .returns (.empty .failure))
  else receivePass m i size

@[simp] theorem content_length (p : RxPacket) : p.content.length = p.packet.count.toNat :=
  p.packet.bytes_length _ _

/-- Reading splits the content of a packet. -/
theorem readBuffer_content (p : RxPacket) {size : Nat} (h : size ≤ p.packet.count.toNat) :
    (p.packet.readBuffer (BitVec.ofNat 16 size)).1 = p.content.take size ∧
    (⟨p.id, (p.packet.readBuffer (BitVec.ofNat 16 size)).2⟩ : RxPacket).content =
      p.content.drop size ∧
    (p.packet.readBuffer (BitVec.ofNat 16 size)).2.count.toNat = p.packet.count.toNat - size := by
  have hlt := p.packet.count.isLt
  have hsize : (BitVec.ofNat 16 size).toNat = size := Nat.mod_eq_of_lt (by omega)
  have hcount : (p.packet.count - BitVec.ofNat 16 size).toNat = p.packet.count.toNat - size := by
    rw [BitVec.toNat_sub_of_le, hsize]
    rw [BitVec.le_def, hsize]
    exact h
  have hsplit : p.content = p.packet.bytes p.packet.current size ++
      p.packet.bytes (p.packet.current + size) (p.packet.count.toNat - size) := by
    rw [RxPacket.content, ← Packet.bytes_append, Nat.add_sub_cancel' h]
  have hlen : (p.packet.bytes p.packet.current size).length = size := Packet.bytes_length _ _ _
  refine ⟨?_, ?_, hcount⟩
  · rw [hsplit, List.take_left' hlen]
    show p.packet.bytes p.packet.current (BitVec.ofNat 16 size).toNat = _
    rw [hsize]
  · rw [hsplit, List.drop_left' hlen]
    show p.packet.bytes (p.packet.current + (BitVec.ofNat 16 size).toNat)
      (p.packet.count - BitVec.ofNat 16 size).toNat = _
    rw [hsize, hcount]

theorem copyPacket_whole {size : Nat} (c : Copied) {p : RxPacket} (q : List RxPacket)
    (h : p.packet.count.toNat ≤ size) : copyPacket size c p q =
      ⟨c.received + p.content.length, c.bytes ++ p.content, q, c.released ++ [p.id]⟩ := by
  have hread : (if size ≤ p.packet.count.toNat then size else p.packet.count.toNat) =
      p.content.length := by
    rw [content_length]
    split <;> omega
  have hb := readBuffer_content p (Nat.le_of_eq (content_length p))
  have hzero : (p.packet.readBuffer (BitVec.ofNat 16 p.content.length)).2.count = 0#16 := by
    apply BitVec.eq_of_toNat_eq
    rw [hb.2.2, content_length, Nat.sub_self]
    rfl
  rw [copyPacket, hread]
  simp only [hzero, ↓reduceIte, hb.1, List.take_length]

theorem copyPacket_part {size : Nat} (c : Copied) {p : RxPacket} (q : List RxPacket)
    (h : size < p.packet.count.toNat) : ∃ rest : RxPacket, rest.id = p.id ∧
      rest.content = p.content.drop size ∧ rest.packet.count ≠ 0#16 ∧ copyPacket size c p q =
        ⟨c.received + size, c.bytes ++ p.content.take size, rest :: q, c.released⟩ := by
  obtain ⟨hbytes, hrest, hcount⟩ := readBuffer_content p (Nat.le_of_lt h)
  have hne : (p.packet.readBuffer (BitVec.ofNat 16 size)).2.count ≠ 0#16 := by
    intro hz
    rw [hz] at hcount
    have : (0#16).toNat = 0 := rfl
    omega
  refine ⟨⟨p.id, (p.packet.readBuffer (BitVec.ofNat 16 size)).2⟩, rfl, hrest, hne, ?_⟩
  rw [copyPacket, if_pos (Nat.le_of_lt h)]
  simp only [if_neg hne, hbytes]

end NanoIp.Sockets
