import NanoIp.Core.Ipv4
import NanoIp.Lib.Chain

/-!
# The TCP module's data

Handles are the objects `Fin n` of a program with `n` of them, so that a handle
pointer always designates one; the registered handles are the intrusive list
`tcp_module.handles`. The log is the observation of a run: what was raised on the
application, given to the IPv4 layer, handed to the driver or released.
-/
namespace NanoIp.Tcp

open NanoIp

/-- `nano_ip_tcp_handle_state_t`. -/
inductive State where
  | closed | listen | synSent | synReceived | established | finWait1 | finWait2
  | closeWait | closing | lastAck | timeWait | idle
  deriving DecidableEq, Repr

/-- `nano_ip_tcp_event_t`. -/
inductive Event where
  | rx | tx | txFailed | connected | connectTimeout | closed | accepting | accepted
  | acceptFailed | error
  deriving DecidableEq, Repr

def protocol : Byte := 6#8
def flagAck : Byte := 16#8
def flagPsh : Byte := 8#8
def flagRst : Byte := 4#8
def flagSyn : Byte := 2#8
def flagFin : Byte := 1#8

def headerSize : BitVec 16 := 20#16
def headerDataOffset : Byte := 0x50#8
def windowSize : BitVec 16 := 1024#16
def maxRetryCount : BitVec 8 := 5#8
/-- `TCP_STATE_TIMEOUT`, in milliseconds. -/
def stateTimeoutMs : BitVec 32 := 500#32
def portPoolStart : BitVec 16 := 10000#16

/-- A segment with the addresses of the IPv4 header that carries it. -/
structure Segment where
  srcAddress : Ipv4Address
  destAddress : Ipv4Address
  srcPort : BitVec 16
  destPort : BitVec 16
  seqNumber : BitVec 32
  ackNumber : BitVec 32
  flags : Byte
  payload : List Byte
  payload_lt : payload.length < 2 ^ 16
  deriving DecidableEq

def Segment.hasFlag (seg : Segment) (flag : Byte) : Bool := seg.flags &&& flag ≠ 0#8

/-- The sequence number behind the payload: `tcp_header.seq_number + packet->count`. -/
def Segment.nextSeq (seg : Segment) : BitVec 32 :=
  seg.seqNumber + BitVec.ofNat 32 seg.payload.length

/-- `nano_ip_tcp_handle_t`; callback and user data are the identity of the handle. -/
structure Handle (n : Nat) where
  ipv4Address : Ipv4Address
  destIpv4Address : Ipv4Address
  port : BitVec 16
  destPort : BitVec 16
  ipv4Handle : Ipv4.Handle
  state : State
  seqNumber : BitVec 32
  ackNumber : BitVec 32
  lastTxPacket : Option PacketId
  lastTxPacketPos : Nat
  lastTxPacketCount : BitVec 16
  lastTxPacketIpv4Header : Ipv4Header
  txRetryCount : BitVec 8
  stateTimeout : BitVec 32
  next : Option (Fin n)

/-- `NANO_IP_TCP_InitializeHandle`. -/
def Handle.init (n : Nat) : Handle n where
  ipv4Address := 0#32
  destIpv4Address := 0#32
  port := 0#16
  destPort := 0#16
  ipv4Handle := Ipv4.Handle.init
  state := .closed
  seqNumber := 0#32
  ackNumber := 0#32
  lastTxPacket := none
  lastTxPacketPos := 0
  lastTxPacketCount := 0#16
  lastTxPacketIpv4Header := Ipv4Header.zero
  txRetryCount := 0#8
  stateTimeout := 0#32
  next := none

/-- The handle without what transmission uses: the IPv4 handle, the saved IPv4
header and the list pointer. -/
def Handle.conn {n : Nat} (k : Handle n) : Handle n :=
  { k with ipv4Handle := Ipv4.Handle.init, lastTxPacketIpv4Header := Ipv4Header.zero, next := none }

def Handle.unlinked {n : Nat} (k : Handle n) : Handle n := { k with next := none }

namespace Handle

variable {n : Nat} (k : Handle n)

@[simp] theorem conn_unlinked : k.unlinked.conn = k.conn := rfl

@[simp] theorem conn_state : k.conn.state = k.state := rfl
@[simp] theorem conn_ipv4Address : k.conn.ipv4Address = k.ipv4Address := rfl
@[simp] theorem conn_destIpv4Address : k.conn.destIpv4Address = k.destIpv4Address := rfl
@[simp] theorem conn_port : k.conn.port = k.port := rfl
@[simp] theorem conn_destPort : k.conn.destPort = k.destPort := rfl
@[simp] theorem conn_seqNumber : k.conn.seqNumber = k.seqNumber := rfl
@[simp] theorem conn_ackNumber : k.conn.ackNumber = k.ackNumber := rfl
@[simp] theorem conn_lastTxPacket : k.conn.lastTxPacket = k.lastTxPacket := rfl
@[simp] theorem conn_lastTxPacketPos : k.conn.lastTxPacketPos = k.lastTxPacketPos := rfl
@[simp] theorem conn_lastTxPacketCount : k.conn.lastTxPacketCount = k.lastTxPacketCount := rfl
@[simp] theorem conn_txRetryCount : k.conn.txRetryCount = k.txRetryCount := rfl
@[simp] theorem conn_stateTimeout : k.conn.stateTimeout = k.stateTimeout := rfl

end Handle

/-- What a run shows outside the module. -/
inductive Obs (n : Nat) where
  /-- a callback of handle `h`, with the error and packet of its event data -/
  | raised (h : Fin n) (event : Event) (error : Err) (packet : Option Segment)
  /-- a segment given to the IPv4 layer, and its answer -/
  | output (h : Fin n) (seg : Segment) (ret : Err)
  /-- a packet of handle `h` given to the driver, and its answer -/
  | handed (h : Fin n) (pid : PacketId) (ret : Err)
  /-- a retransmission, and the answer of the IPv4 layer -/
  | resent (h : Fin n) (pid : PacketId) (ret : Err)
  /-- a packet given back to the allocator -/
  | released (pid : PacketId)
  /-- a received packet that the application keeps -/
  | kept (seg : Segment)
  deriving DecidableEq

/-- The module data, the handle and packet objects, the allocator's used packets,
the milliseconds since start and the log. -/
structure Stack (n : Nat) where
  handles : Option (Fin n)
  mem : Fin n → Handle n
  nextFreeLocalPort : BitVec 16
  packets : PacketId → Packet
  allocated : List PacketId
  time : Nat
  log : List (Obs n)

namespace Stack

variable {n : Nat}

/-- `NANO_IP_OAL_TIME_GetMsCounter`. -/
def msCounter (m : Stack n) : BitVec 32 := BitVec.ofNat 32 m.time

/-- The handles of `tcp_module.handles`, in list order. -/
def registered (m : Stack n) : List (Fin n) := Lib.chain (fun h => (m.mem h).next) n m.handles

def modify (m : Stack n) (h : Fin n) (f : Handle n → Handle n) : Stack n :=
  { m with mem := Function.update m.mem h (f (m.mem h)) }

def record (m : Stack n) (o : Obs n) : Stack n := { m with log := m.log ++ [o] }

/-- Call the callback of a handle; what the application does in it comes later. -/
def raise (m : Stack n) (h : Fin n) (event : Event) (error : Err) (packet : Option Segment) :
    Stack n :=
  m.record (.raised h event error packet)

def setState (m : Stack n) (h : Fin n) (s : State) : Stack n :=
  m.modify h fun k => { k with state := s }

def wait (m : Stack n) (ms : Nat) : Stack n := { m with time := m.time + ms }

/-- `handle->state_timeout = NANO_IP_OAL_TIME_GetMsCounter() + TCP_STATE_TIMEOUT`. -/
def startTimeout (m : Stack n) (h : Fin n) : Stack n :=
  m.modify h fun k => { k with stateTimeout := m.msCounter + stateTimeoutMs }

/-- `NANO_IP_TCP_RemoveHandle`. -/
def removeHandle (m : Stack n) (h : Fin n) : Stack n :=
  let unlinked := Lib.unlink (fun k => (m.mem k).next) m.handles h m.registered
  { m with
    handles := unlinked.1
    mem := fun k => { m.mem k with next := unlinked.2 k } }

/-- `NANO_IP_TCP_ReleasePacket`: every packet object here is a transmit packet of
the allocator. -/
def releasePacket (m : Stack n) (pid : PacketId) : Stack n :=
  { m with allocated := m.allocated.erase pid, log := m.log ++ [.released pid] }

/-- The events raised on a handle, in order. -/
def eventsOf (m : Stack n) (h : Fin n) : List (Event × Err × Option Segment) :=
  m.log.filterMap fun
    | .raised k event error packet => if k = h then some (event, error, packet) else none
    | _ => none

theorem modify_mem (m : Stack n) (h k : Fin n) (f : Handle n → Handle n) :
    (m.modify h f).mem k = if k = h then f (m.mem h) else m.mem k := Function.update_apply _ _ _ _

@[simp] theorem modify_self (m : Stack n) (h : Fin n) (f : Handle n → Handle n) :
    (m.modify h f).mem h = f (m.mem h) := Function.update_self _ _ _

theorem modify_of_ne (m : Stack n) {h k : Fin n} (f : Handle n → Handle n) (hk : k ≠ h) :
    (m.modify h f).mem k = m.mem k := Function.update_of_ne hk _ _

@[simp] theorem setState_self (m : Stack n) (h : Fin n) (s : State) :
    (m.setState h s).mem h = { m.mem h with state := s } := modify_self m h _

@[simp] theorem modify_handles (m : Stack n) (h : Fin n) (f : Handle n → Handle n) :
    (m.modify h f).handles = m.handles := rfl
@[simp] theorem modify_log (m : Stack n) (h : Fin n) (f : Handle n → Handle n) :
    (m.modify h f).log = m.log := rfl
@[simp] theorem modify_packets (m : Stack n) (h : Fin n) (f : Handle n → Handle n) :
    (m.modify h f).packets = m.packets := rfl
@[simp] theorem modify_allocated (m : Stack n) (h : Fin n) (f : Handle n → Handle n) :
    (m.modify h f).allocated = m.allocated := rfl
@[simp] theorem modify_time (m : Stack n) (h : Fin n) (f : Handle n → Handle n) :
    (m.modify h f).time = m.time := rfl

@[simp] theorem record_mem (m : Stack n) (o : Obs n) : (m.record o).mem = m.mem := rfl
@[simp] theorem record_handles (m : Stack n) (o : Obs n) : (m.record o).handles = m.handles := rfl
@[simp] theorem record_log (m : Stack n) (o : Obs n) : (m.record o).log = m.log ++ [o] := rfl
@[simp] theorem record_packets (m : Stack n) (o : Obs n) : (m.record o).packets = m.packets := rfl
@[simp] theorem record_allocated (m : Stack n) (o : Obs n) : (m.record o).allocated = m.allocated :=
  rfl
@[simp] theorem record_time (m : Stack n) (o : Obs n) : (m.record o).time = m.time := rfl

@[simp] theorem removeHandle_conn (m : Stack n) (h k : Fin n) :
    ((m.removeHandle h).mem k).conn = (m.mem k).conn := rfl
@[simp] theorem removeHandle_log (m : Stack n) (h : Fin n) : (m.removeHandle h).log = m.log := rfl
@[simp] theorem releasePacket_mem (m : Stack n) (pid : PacketId) :
    (m.releasePacket pid).mem = m.mem := rfl
@[simp] theorem wait_mem (m : Stack n) (ms : Nat) : (m.wait ms).mem = m.mem := rfl
@[simp] theorem wait_log (m : Stack n) (ms : Nat) : (m.wait ms).log = m.log := rfl

@[simp] theorem eventsOf_raise (m : Stack n) (h k : Fin n) (event : Event) (error : Err)
    (packet : Option Segment) : (m.raise h event error packet).eventsOf k =
      m.eventsOf k ++ if h = k then [(event, error, packet)] else [] := by
  by_cases hk : h = k <;> simp [eventsOf, raise, hk]

theorem eventsOf_congr {m m' : Stack n} (h : m'.log = m.log) (k : Fin n) :
    m'.eventsOf k = m.eventsOf k := by rw [eventsOf, eventsOf, h]

end Stack

end NanoIp.Tcp
