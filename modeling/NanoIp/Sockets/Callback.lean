import NanoIp.Sockets.Api

/-!
# The callbacks of the socket module

`NANO_IP_SOCKET_UdpCallback` and `NANO_IP_SOCKET_TcpCallback`, called under the stack
mutex with the socket of the handle. Neither asks for the release of a packet.
-/
namespace NanoIp.Sockets

variable {n k : Nat}

/-- `nano_ip_udp_event_t`. -/
inductive UdpEvent where
  | rx | tx | txFailed | error
  deriving DecidableEq, Repr

/-- `Notify poll function`. -/
def notifyPoll (m : Module n k) (i : Fin n) : Module n k :=
  match (m.sockets i).poll with
  | some q => { m with polls := Function.update m.polls q { m.polls q with
      syncFlags := (m.polls q).syncFlags ||| eventAll } }
  | none => m

@[simp] theorem notifyPoll_sockets (m : Module n k) (i : Fin n) :
    (notifyPoll m i).sockets = m.sockets := by
  unfold notifyPoll
  split <;> rfl

def queuePacket (m : Module n k) (i : Fin n) (p : RxPacket) : Module n k :=
  (m.modify i fun s => { s with rxPackets := s.rxPackets ++ [p] }).setFlags i eventRx

/-- `NANO_IP_SOCKET_UdpCallback`; only `UDP_EVENT_RX` has a packet. -/
def udpCallback (m : Module n k) (i : Fin n) (event : UdpEvent) (packet : Option RxPacket) :
    Module n k :=
  if (m.sockets i).isFree then m
  else
    let m := match event, packet with
      | .rx, some p => queuePacket m i p
      | .rx, none => m
      | .tx, _ =>
        if (m.sockets i).type = .udp ∨
            (m.sockets i).type = .tcp ∧ (m.sockets i).tcp.state =
              .established then m.setFlags i eventTx
        else m
      | .txFailed, _ | .error, _ => m.setFlags i eventError
    notifyPoll m i

/-- The sockets of `accept_pending_sockets` and of `accepted_sockets`, in list order. -/
def Module.pending (m : Module n k) (i : Fin n) : List (Fin n) :=
  Lib.chain (fun j => (m.sockets j).next) n (m.sockets i).acceptPending
def Module.accepts (m : Module n k) (i : Fin n) : List (Fin n) :=
  Lib.chain (fun j => (m.sockets j).next) n (m.sockets i).accepted

def Module.setNext (m : Module n k) (next : Fin n → Option (Fin n)) : Module n k :=
  { m with sockets := fun j => { m.sockets j with next := next j } }

/-- `TCP_EVENT_ACCEPTING`: a socket for the new client; `ret` is the answer of
`NANO_IP_TCP_Open` in `NANO_IP_SOCKET_Allocate`. -/
def onAccepting (m : Module n k) (i : Fin n) (ret : Err) : Module n k × Option (Fin n) :=
  if (m.sockets i).childCount < (m.sockets i).maxChildCount then
    match allocate m .tcp ret with
    | (m, .ok client) =>
      let m := m.modify client fun s => { s with next := (m.sockets i).acceptPending }
      let m := m.modify i fun s => { s with acceptPending := some client }
      let m := m.modify client fun s => { s with parent := some i }
      (m.modify i fun s => { s with childCount := s.childCount + 1#32 }, some client)
    | (m, .error _) => (m, none)
  else (m, none)

/-- Take a socket out of the pending list of its parent. -/
def unlinkPending (m : Module n k) (parent i : Fin n) : Module n k :=
  let unlinked := Lib.unlink (fun j => (m.sockets j).next) (m.sockets parent).acceptPending i
    (m.pending parent)
  (m.setNext unlinked.2).modify parent fun s => { s with acceptPending := unlinked.1 }

/-- Put a socket at the end of the accepted list of its parent. -/
def appendAccepted (m : Module n k) (parent i : Fin n) : Module n k :=
  let appended := Lib.append (fun j => (m.sockets j).next) (m.sockets parent).accepted i
    (m.accepts parent)
  (m.setNext appended.2).modify parent fun s => { s with accepted := appended.1 }

/-- `TCP_EVENT_ACCEPTED`: the flag is set on the socket of the client. -/
def onAccepted (m : Module n k) (i : Fin n) : Module n k :=
  match (m.sockets i).parent with
  | some parent => (appendAccepted (unlinkPending m parent i) parent i).setFlags i eventRx
  -- a socket without a parent has no connection to accept
  | none => m

/-- `TCP_EVENT_ACCEPT_FAILED`: the count that is stepped is the socket's own. -/
def onAcceptFailed (m : Module n k) (i : Fin n) : Module n k :=
  match (m.sockets i).parent with
  | some parent =>
    let m := (releaseSocket (unlinkPending m parent i) i).1
    m.modify i fun s => { s with childCount := s.childCount - 1#32 }
  -- as above
  | none => m

/-- `TCP_EVENT_CLOSED`. -/
def onClosed (m : Module n k) (i : Fin n) : Module n k :=
  let m := match (m.sockets i).parent with
    | some parent => m.modify parent fun s => { s with childCount := s.childCount - 1#32 }
    | none => m
  m.setFlags i eventError

/-- `NANO_IP_SOCKET_TcpCallback`: the module, and the accept handle it provides. -/
def tcpCallback (m : Module n k) (i : Fin n) (event : Tcp.Event) (packet : Option RxPacket)
    (ret : Err) :
    Module n k × Option (Fin n) :=
  if (m.sockets i).isFree then (m, none)
  else
    let (m, acceptHandle) := match event, packet with
      | .rx, some p => (queuePacket m i p, none)
      | .rx, none => (m, none)
      | .tx, _ | .connected, _ => (m.setFlags i eventTx, none)
      | .accepting, _ => onAccepting m i ret
      | .accepted, _ => (onAccepted m i, none)
      | .acceptFailed, _ => (onAcceptFailed m i, none)
      | .closed, _ => (onClosed m i, none)
      | .txFailed, _ | .connectTimeout, _ | .error, _ => (m.setFlags i eventError, none)
    (if (m.sockets i).isFree then m else notifyPoll m i, acceptHandle)

end NanoIp.Sockets
