import NanoIp.Sockets.Types
import NanoIp.Tcp.Output
import Mathlib.Tactic.SplitIfs
import Mathlib.Data.List.Perm.Basic

/-!
# Transmission on a socket

The loops of `NANO_IP_SOCKET_SendTo` run on a list of turns; a turn holds what the
layers below and the wait of the turn answer, and a list that ends before the loop
returns leaves the call in progress.
-/
namespace NanoIp.Sockets

variable {n k : Nat}

/-- How a wait ends: its result, the flags it returns, and whether the socket was
released meanwhile. -/
structure Wait where
  ret : Err
  active : BitVec 32
  freed : Bool
  deriving DecidableEq

/-- The result of a wait once its events are checked. -/
def Wait.result (w : Wait) : Err :=
  if w.freed then .failure
  else if w.ret = .success ∧ w.active &&& eventError ≠ 0#32 then .failure
  else w.ret

def Wait.ready (w : Wait) : Bool :=
  !w.freed && w.ret = .success && w.active &&& eventTx ≠ 0#32

/-- A packet object the call owns, filled to be sent; a datagram has a destination. -/
structure TxPacket where
  id : PacketId
  packet : Packet
  endPoint : Option Endpoint

/-- What a call has done so far: `*sent`, the packets it was given by the allocator,
those it released and those that the layer below took. -/
structure Sending where
  sent : Nat
  allocated : List PacketId
  released : List PacketId
  accepted : List TxPacket

/-- `*sent` is zero at the start of the loops. -/
def Sending.start : Sending := ⟨0, [], [], []⟩

/-- A packet is sent: what is taken below is no longer the call's. -/
def Sending.take (s : Sending) (p : TxPacket) : Sending := { s with accepted := s.accepted ++ [p] }
def Sending.release (s : Sending) (id : PacketId) : Sending :=
  { s with released := s.released ++ [id] }
def Sending.allocate (s : Sending) (id : PacketId) : Sending :=
  { s with allocated := s.allocated ++ [id] }

/-- The answers to one turn of the loop of UDP: `NANO_IP_UDP_HandleIsReady`,
`NANO_IP_UDP_AllocatePacket`, `NANO_IP_UDP_SendPacket` and the wait. -/
structure UdpTurn where
  ready : Err
  alloc : Except Failure (PacketId × Packet)
  send : Err
  wait : Wait

/-- The answers to one turn of the loop of TCP. -/
structure TcpTurn where
  alloc : Except Failure (PacketId × Packet)
  send : Err
  wait : Wait

/-- `packet_size`, and the packet with the data. -/
def packetSize (data : List Byte) : BitVec 16 := BitVec.ofNat 16 data.length
def fill (data : List Byte) (p : Packet) : Packet :=
  p.writeBuffer (data.take (packetSize data).toNat)

/-- The part of a turn of UDP before its wait: its result, what is done and `retry`. -/
def udpAttempt (endPoint : Endpoint) (data : List Byte) (t : UdpTurn) (s : Sending) :
    Err × Sending × Bool :=
  if t.ready = .success then
    match t.alloc with
    | .error e => (e, s, false)
    | .ok (id, p) =>
      let packet := fill data (Udp.allocatedPacket (packetSize data) p)
      let s := s.allocate id
      if t.send.accepted then
        (t.send, { s.take ⟨id, packet, some endPoint⟩ with sent := (packetSize data).toNat }, false)
      else (t.send, s.release id, false)
  else (t.ready, s, true)

/-- A turn of the loop of UDP. -/
def udpTurn (nonBlocking : Bool) (endPoint : Endpoint) (data : List Byte) (t : UdpTurn)
    (s : Sending) :
    Err × Sending × Bool :=
  match udpAttempt endPoint data t s with
  | (ret, s, retry) =>
    if (retry ∨ ret = .inProgress) ∧ ¬ nonBlocking then
      let ret := t.wait.result
      (ret, if ret = .failure then { s with sent := 0 } else s, retry && !t.wait.ready)
    else (ret, s, retry)

/-- The loop of UDP. -/
def udpSend (nonBlocking : Bool) (endPoint : Endpoint) (data : List Byte) :
    List UdpTurn → Sending → Option (Err × Sending)
  | [], _ => none
  | t :: ts, s =>
    match udpTurn nonBlocking endPoint data t s with
    | (ret, s, retry) =>
      if retry ∧ ret = .success then udpSend nonBlocking endPoint data ts s else some (ret, s)

/-- A turn of the loop of TCP: its result, what is done and `resend`. A busy handle
leaves the packet to the call. -/
def tcpTurn (nonBlocking : Bool) (data : List Byte) (t : TcpTurn) (resend : Bool) (s : Sending) :
    Err × Sending × Bool :=
  match t.alloc with
  | .error e => (e, s, resend)
  | .ok (id, p) =>
    let packet := fill data (Tcp.allocatedPacket (packetSize data) p)
    let s := s.allocate id
    match t.send with
    | .success =>
      (.success, { s.take ⟨id, packet, none⟩ with sent := (packetSize data).toNat }, resend)
    | .inProgress =>
      (if nonBlocking then .inProgress else t.wait.result, s.take ⟨id, packet, none⟩, resend)
    | .busy => (if nonBlocking then .busy else t.wait.result, s.release id, true)
    | ret => (ret, s.release id, resend)

/-- The loop of TCP. -/
def tcpSend (nonBlocking : Bool) (data : List Byte) :
    List TcpTurn → Bool → Sending → Option (Err × Sending)
  | [], _, _ => none
  | t :: ts, resend, s =>
    match tcpTurn nonBlocking data t resend s with
    | (ret, s, resend) =>
      if ret = .success ∧ resend then tcpSend nonBlocking data ts resend s else some (ret, s)

/-- `NANO_IP_SOCKET_SendTo`: its result and what it did, once it returns. The turns of
the socket's type are used. -/
def sendTo (m : Module n k) (socketId : BitVec 32) (data : List Byte) (endPoint : Option Endpoint)
    (udp : List UdpTurn) (tcp : List TcpTurn) : Option (Err × Sending) :=
  match m.get socketId with
  | none => some (.invalidArg, .start)
  | some i =>
    match (m.sockets i).type, endPoint with
    | .udp, none => some (.invalidArg, .start)
    | .udp, some endPoint => udpSend (m.sockets i).nonBlocking endPoint data udp .start
    | .tcp, _ => tcpSend (m.sockets i).nonBlocking data tcp false .start

end NanoIp.Sockets
