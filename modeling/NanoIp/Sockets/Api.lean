import NanoIp.Sockets.Types
import Mathlib.Tactic.SplitIfs

/-!
# The calls of the socket interface

Every section of a call runs under the stack mutex. What the UDP and TCP modules
answer is an argument where it does not follow from the state of the handle.
-/
namespace NanoIp.Sockets

variable {n k : Nat}

/-- `NANO_IP_TCP_Close` and `NANO_IP_TCP_Listen`: the state they leave and their result. -/
def tcpClose (state : Tcp.State) : Tcp.State × Err :=
  if state ≠ .idle then (.closed, .success) else (state, .invalidTcpState)
def tcpListen (state : Tcp.State) : Tcp.State × Err :=
  if state = .idle then (.listen, .success) else (state, .invalidTcpState)

def Module.setState (m : Module n k) (i : Fin n) (state : Tcp.State) : Module n k :=
  m.modify i fun s => { s with tcp := { s.tcp with state := state } }

def Module.firstFree (m : Module n k) : Option (Fin n) :=
  (List.finRange n).find? fun i => (m.sockets i).isFree

/-- The fields of a slot that are initialised for every type. -/
def Module.reset (m : Module n k) (i : Fin n) (type : SocketType) : Module n k :=
  (m.modify i fun s =>
    { s with type := type, options := 0#32, rxPackets := [], poll := none }).resetFlags i flagsAll

/-- The UDP handle of a slot is initialised, with result `ret`. -/
def Module.initUdp (m : Module n k) (i : Fin n) (ret : Err) : Module n k :=
  let m := m.modify i fun s => { s with udpBound := false }
  if ret = .success then m.setFlags i eventTx else m

/-- The TCP handle of a slot is initialised and opened, with result `ret`. -/
def Module.initTcp (m : Module n k) (i : Fin n) (ret : Err) : Module n k :=
  m.modify i fun s => { s with
    parent := none
    childCount := 0#32
    maxChildCount := 0#32
    acceptPending := none
    accepted := none
    next := none
    tcp := ⟨if ret = .success then .idle else .closed, ⟨0#32, 0#16⟩⟩ }

/-- `NANO_IP_SOCKET_Allocate`; `ret` is the answer of `NANO_IP_UDP_InitializeHandle` or
of `NANO_IP_TCP_Open`. -/
def allocate (m : Module n k) (type : SocketType) (ret : Err) : Module n k × Except Err (Fin n) :=
  match m.firstFree with
  | none => (m, .error .resource)
  | some i =>
    let m := m.reset i type
    let m := match type with
      | .udp => m.initUdp i ret
      | .tcp => m.initTcp i ret
    if ret = .success then (m.modify i fun s => { s with isFree := false }, .ok i)
    else (m, .error ret)

/-- The release of the connection handle: the module it leaves and its result. -/
def releaseConnection (m : Module n k) (i : Fin n) : Module n k × Err :=
  match (m.sockets i).type with
  | .udp => (m, .success)
  | .tcp =>
    let (state, ret) := tcpClose (m.sockets i).tcp.state
    (m.setState i state, ret)

/-- `NANO_IP_SOCKET_Release` on an allocated socket. -/
def releaseSocket (m : Module n k) (i : Fin n) : Module n k × Err :=
  match releaseConnection m i with
  | (m, ret) =>
    if ret = .success then ((m.setFlags i flagsAll).modify i fun s =>
      { s with isFree := true }, ret)
    else (m, ret)

/-- `NANO_IP_SOCKET_Release`. -/
def release (m : Module n k) (socketId : BitVec 32) : Module n k × Err :=
  match m.get socketId with
  | none => (m, .invalidArg)
  | some i => releaseSocket m i

/-- `NANO_IP_SOCKET_Listen`; at most `NANO_IP_SOMAXCONN` connections. -/
def listen (m : Module n k) (socketId maxIncomingConnections : BitVec 32) : Module n k × Err :=
  match m.get socketId with
  | none => (m, .invalidArg)
  | some i =>
    if (m.sockets i).type = .tcp ∧ maxIncomingConnections > 0#32 ∧
        maxIncomingConnections.toNat ≤ n - 1 then
      let m := m.modify i fun s => { s with maxChildCount := maxIncomingConnections }
      let (state, ret) := tcpListen (m.sockets i).tcp.state
      (m.setState i state, ret)
    else (m, .invalidArg)

/-- What `NANO_IP_SOCKET_Accept` returns: its result, and the client and its peer. -/
structure Accepted (n : Nat) where
  ret : Err
  client : Option (Fin n × Endpoint)

/-- One turn of the loop of `NANO_IP_SOCKET_Accept`. -/
def acceptTurn (m : Module n k) (i : Fin n) : Module n k × Pass (Accepted n) :=
  match (m.sockets i).accepted with
  | some client =>
    let m := m.modify i fun s => { s with accepted := (m.sockets client).next }
    let m := m.modify client fun s => { s with next := none }
    (m, .returns ⟨.success, some (client, (m.sockets client).tcp.dest)⟩)
  | none =>
    if (m.sockets i).nonBlocking then (m, .returns ⟨.inProgress, none⟩)
    else (m.resetFlags i flagsAll, .waits)

/-- `NANO_IP_SOCKET_Accept` up to its first wait. Behind a wait, whatever it returned,
the loop turns again. -/
def accept (m : Module n k) (socketId : BitVec 32) : Module n k × Pass (Accepted n) :=
  match m.get socketId with
  | none => (m, .returns ⟨.invalidArg, none⟩)
  | some i =>
    if (m.sockets i).type = .tcp ∧ (m.sockets i).tcp.state = .listen then acceptTurn m i
    else (m, .returns ⟨.invalidArg, none⟩)

/-- `NANO_IP_SOCKET_Bind` on a UDP socket; `ret` is the answer of `NANO_IP_UDP_Bind`. -/
def bindUdp (m : Module n k) (socketId : BitVec 32) (ret : Err) : Module n k × Err :=
  match m.get socketId with
  | none => (m, .invalidArg)
  | some i =>
    if ret = .success then (m.modify i fun s => { s with udpBound := true }, ret) else (m, ret)

end NanoIp.Sockets
