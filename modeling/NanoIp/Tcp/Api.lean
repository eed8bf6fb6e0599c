import NanoIp.Tcp.Output

/-!
# The calls of the TCP interface

Every call runs under the stack mutex. `open_` with local port 0 reads the
millisecond counter once for each port it tries; running out of readings means
that the loop is still turning.
-/
namespace NanoIp.Tcp

variable {n : Nat}

/-- The search of `NANO_IP_TCP_Bind` for the pair (address, port) in the list. -/
def addressInUse (m : Stack n) (address : Ipv4Address) (port : BitVec 16) : Bool :=
  m.registered.any fun h => (m.mem h).port = port ∧ (m.mem h).ipv4Address = address

/-- `NANO_IP_TCP_Bind`. -/
def bind (m : Stack n) (h : Fin n) (address : Ipv4Address) (port : BitVec 16) : Stack n × Err :=
  if port = 0#16 then (m, .invalidArg)
  else if (m.mem h).state = .idle then
    if addressInUse m address port then (m, .addressInUse)
    else (m.modify h fun k => { k with ipv4Address := address, port := port }, .success)
  else (m, .invalidTcpState)

/-- Step `next_free_local_port` by the low half of the counter. -/
def nextPort (m : Stack n) : Stack n :=
  let port := m.nextFreeLocalPort + m.msCounter.truncate 16
  { m with nextFreeLocalPort := if port = 0#16 then portPoolStart else port }

/-- The port loop of `NANO_IP_TCP_Open` for an automatic port; each element of the
list is the time that passes before one reading of the counter. -/
def openLoop (m : Stack n) (h : Fin n) : List Nat → Option (Stack n × Err)
  | [] => none
  | ms :: readings =>
    match bind m h 0#32 m.nextFreeLocalPort with
    | (m, ret) =>
      let m := nextPort (m.wait ms)
      if (m.mem h).port = 0#16 then openLoop m h readings else some (m, ret)

/-- The end of `NANO_IP_TCP_Open`: register a bound handle, or close it again. -/
def finishOpen (m : Stack n) (h : Fin n) (ret : Err) : Stack n × Err :=
  if ret = .success then
    let m := m.modify h fun k => { k with state := .idle, next := m.handles }
    ({ m with handles := some h }, ret)
  else (m.setState h .closed, ret)

/-- `NANO_IP_TCP_Open`. -/
def open_ (m : Stack n) (h : Fin n) (localPort : BitVec 16) (readings : List Nat) :
    Option (Stack n × Err) :=
  if (m.mem h).state = .closed then
    let m := m.modify h fun k => { k with state := .idle, port := 0#16 }
    let bound := if localPort = 0#16 then openLoop m h readings else some (bind m h 0#32 localPort)
    bound.map fun r => finishOpen r.1 h r.2
  else some (m, .invalidTcpState)

/-- `NANO_IP_TCP_Connect`. -/
def connect (m : Stack n) (h : Fin n) (address : Ipv4Address) (port : BitVec 16) (lower : Lower) :
    Stack n × Err :=
  if (m.mem h).state = .idle then
    let m := m.modify h fun k => { k with
      destIpv4Address := address, destPort := port, seqNumber := m.msCounter }
    match sendControlFrame m h flagSyn lower with
    | (m, ret) =>
      if ret.accepted then
        let m := m.modify h fun k => { k with state := .synSent, seqNumber := k.seqNumber + 1#32 }
        (m.startTimeout h, ret)
      else (m, ret)
  else (m, .invalidTcpState)

/-- `NANO_IP_TCP_Listen`. -/
def listen (m : Stack n) (h : Fin n) : Stack n × Err :=
  if (m.mem h).state = .idle then (m.setState h .listen, .success) else (m, .invalidTcpState)

/-- The FIN of `NANO_IP_TCP_Close` on an established connection. -/
def sendFin (m : Stack n) (h : Fin n) (lower : Lower) : Stack n :=
  if (m.mem h).state = .established then
    match sendControlFrame m h (flagFin ||| flagAck) lower with
    | (m, ret) =>
      if ret.accepted then
        let m := m.modify h fun k => { k with state := .finWait1, seqNumber := k.seqNumber + 1#32 }
        m.startTimeout h
      else m
  else m

/-- `NANO_IP_TCP_Close`: the second test reads the state the first one left. -/
def close (m : Stack n) (h : Fin n) (lower : Lower) : Stack n × Err :=
  let m := sendFin m h lower
  if (m.mem h).state ≠ .idle then ((m.setState h .closed).removeHandle h, .success)
  else (m, .invalidTcpState)

/-- The packet and handle as `NANO_IP_TCP_SendPacket` saves them before sending. -/
def keepPacket (m : Stack n) (h : Fin n) (pid : PacketId) : Stack n :=
  let p := m.packets pid
  let m := m.modify h fun k => { k with
    lastTxPacket := some pid
    lastTxPacketPos := p.current
    lastTxPacketCount := p.count
    txRetryCount := 0#8 }
  { m with
    packets := Function.update m.packets pid
      { p with flags := p.flags ||| packetFlagKeepPacket } }

/-- `NANO_IP_TCP_SendPacket`. -/
def sendPacket (m : Stack n) (h : Fin n) (pid : PacketId) (lower : Lower) : Stack n × Err :=
  if (m.mem h).lastTxPacket.isSome then (m, .busy)
  else if (m.mem h).state = .established then
    match finalizeAndSendPacket (keepPacket m h pid) h (flagPsh ||| flagAck) pid lower with
    | (m, ret) =>
      if ret.accepted then
        (m.modify h fun k => { k with
          seqNumber := k.seqNumber + k.lastTxPacketCount.zeroExtend 32 }, ret)
      else (m, ret)
  else (m, .invalidTcpState)

/-- `NANO_IP_TCP_HandleIsReady`. -/
def handleIsReady (m : Stack n) (h : Fin n) : Err :=
  if (m.mem h).lastTxPacket.isSome || (m.mem h).ipv4Handle.busy then .busy else .success

/-- The application fills a packet: `NANO_IP_PACKET_WriteBuffer`. -/
def writePacket (m : Stack n) (pid : PacketId) (bs : List Byte) : Stack n :=
  { m with packets := Function.update m.packets pid ((m.packets pid).writeBuffer bs) }

end NanoIp.Tcp
