import NanoIp.Udp.Types
import NanoIp.Tcp.Types

/-!
# The socket module's data

The sockets are the array `socket_module.sockets` and the poll objects the array
`socket_module.polls`; a socket pointer is an index. Of the connection handle of a
socket the fields are kept that the socket module reads.
-/
namespace NanoIp.Sockets

/-- `nano_ip_socket_type_t`. -/
inductive SocketType where
  | udp | tcp
  deriving DecidableEq, Repr

/-- `nano_ip_socket_event_flags_t`. -/
def eventRx : BitVec 32 := 1#32
def eventTx : BitVec 32 := 2#32
def eventError : BitVec 32 := 4#32
def eventAll : BitVec 32 := eventRx ||| eventTx ||| eventError
/-- `NANO_IP_OAL_FLAGS_ALL`. -/
def flagsAll : BitVec 32 := 0xFFFFFFFF#32

/-- `NIPSOCK_OPT_NON_BLOCK`. -/
def optNonBlock : BitVec 32 := 1#32

/-- A received packet: the object and what it holds. -/
structure RxPacket where
  id : PacketId
  packet : Packet

def RxPacket.content (p : RxPacket) : List Byte :=
  p.packet.bytes p.packet.current p.packet.count.toNat

/-- `nano_ip_socket_endpoint_t`. -/
structure Endpoint where
  address : Ipv4Address
  port : BitVec 16
  deriving DecidableEq

/-- The TCP handle of a socket, as the socket module reads it. -/
structure Connection where
  state : Tcp.State
  dest : Endpoint
  deriving DecidableEq

/-- `nano_ip_socket_t`; `udpBound` is the field `is_bound` of the UDP handle. -/
structure Socket (n k : Nat) where
  isFree : Bool
  type : SocketType
  options : BitVec 32
  rxPackets : List RxPacket
  syncFlags : BitVec 32
  udpBound : Bool
  tcp : Connection
  poll : Option (Fin k)
  parent : Option (Fin n)
  childCount : BitVec 32
  maxChildCount : BitVec 32
  acceptPending : Option (Fin n)
  accepted : Option (Fin n)
  next : Option (Fin n)

/-- `nano_ip_socket_poll_t`. -/
structure Poll where
  isFree : Bool
  syncFlags : BitVec 32
  deriving DecidableEq

/-- `nano_ip_socket_module_data_t`, and the packets given back so far. -/
structure Module (n k : Nat) where
  sockets : Fin n → Socket n k
  polls : Fin k → Poll
  released : List PacketId

variable {n k : Nat}

/-- A slot as `NANO_IP_SOCKET_Init` leaves it, in zeroed memory. -/
def Socket.init : Socket n k where
  isFree := true
  type := .udp
  options := 0#32
  rxPackets := []
  syncFlags := 0#32
  udpBound := false
  tcp := ⟨.closed, ⟨0#32, 0#16⟩⟩
  poll := none
  parent := none
  childCount := 0#32
  maxChildCount := 0#32
  acceptPending := none
  accepted := none
  next := none

/-- `NANO_IP_SOCKET_Init`. -/
def Module.init : Module n k := ⟨fun _ => .init, fun _ => ⟨true, 0#32⟩, []⟩

def Socket.nonBlocking (s : Socket n k) : Bool := s.options &&& optNonBlock ≠ 0#32

namespace Module

def modify (m : Module n k) (i : Fin n) (f : Socket n k → Socket n k) : Module n k :=
  { m with sockets := Function.update m.sockets i (f (m.sockets i)) }

/-- `NANO_IP_OAL_FLAGS_Set` and `NANO_IP_OAL_FLAGS_Reset` on the flags of a socket. -/
def setFlags (m : Module n k) (i : Fin n) (mask : BitVec 32) : Module n k :=
  m.modify i fun s => { s with syncFlags := s.syncFlags ||| mask }
def resetFlags (m : Module n k) (i : Fin n) (mask : BitVec 32) : Module n k :=
  m.modify i fun s => { s with syncFlags := s.syncFlags &&& ~~~ mask }

/-- `NANO_IP_SOCKET_Get`. -/
def get (m : Module n k) (socketId : BitVec 32) : Option (Fin n) :=
  if h : socketId.toNat < n then
    if (m.sockets ⟨socketId.toNat, h⟩).isFree then none else some ⟨socketId.toNat, h⟩
  else none

@[simp] theorem modify_self (m : Module n k) (i : Fin n) (f : Socket n k → Socket n k) :
    (m.modify i f).sockets i = f (m.sockets i) := Function.update_self _ _ _

theorem modify_of_ne (m : Module n k) {i j : Fin n} (f : Socket n k → Socket n k) (h : j ≠ i) :
    (m.modify i f).sockets j = m.sockets j := Function.update_of_ne h _ _

theorem modify_sockets (m : Module n k) (i j : Fin n) (f : Socket n k → Socket n k) :
    (m.modify i f).sockets j = if j = i then f (m.sockets i) else m.sockets j :=
  Function.update_apply _ _ _ _

@[simp] theorem modify_polls (m : Module n k) (i : Fin n) (f : Socket n k → Socket n k) :
    (m.modify i f).polls = m.polls := rfl
@[simp] theorem modify_released (m : Module n k) (i : Fin n) (f : Socket n k → Socket n k) :
    (m.modify i f).released = m.released := rfl

theorem get_some {m : Module n k} {socketId : BitVec 32} {i : Fin n} (h : m.get socketId = some i) :
    i.val = socketId.toNat ∧ (m.sockets i).isFree = false := by
  unfold get at h
  split_ifs at h with hn hf
  obtain rfl := Option.some.inj h
  exact ⟨rfl, by simpa using hf⟩

theorem get_congr {m m' : Module n k} {socketId : BitVec 32} {i : Fin n}
    (h : m.get socketId = some i) (hfree : (m'.sockets i).isFree = (m.sockets i).isFree) :
    m'.get socketId = some i := by
  obtain ⟨hi, hf⟩ := get_some h
  have hlt : socketId.toNat < n := hi ▸ i.isLt
  have hidx : (⟨socketId.toNat, hlt⟩ : Fin n) = i := Fin.ext hi.symm
  rw [get, dif_pos hlt, hidx, hfree, hf]
  rfl

end Module

/-- One section of a blocking call under the stack mutex: it returns, or waits. -/
inductive Pass (α : Type) where
  | returns (a : α)
  | waits

end NanoIp.Sockets
