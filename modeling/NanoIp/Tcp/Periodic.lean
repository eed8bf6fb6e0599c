import NanoIp.Tcp.Input

/-!
# The TCP periodic task

One iteration of the loop of `NANO_IP_TCP_PeriodicTask`. The handle it looks at
may have left the list since the loop began; the loop goes on through `next`.
-/
namespace NanoIp.Tcp

variable {n : Nat}

/-- Close a handle whose state timed out and report it. -/
def abortConnection (m : Stack n) (h : Fin n) (event : Event) (error : Stack n → Err) : Stack n :=
  let m := (m.setState h .closed).removeHandle h
  m.raise h event (error m) none

/-- The last retry of a pending packet: release it and close the connection. -/
def abortTransmission (m : Stack n) (h : Fin n) : Stack n :=
  (((releaseLastTx m h).setState h .closed).removeHandle h).raise h .txFailed .timeout none

/-- Resend the pending packet from the position and count saved when it was sent. -/
def resendPacket (m : Stack n) (h : Fin n) (pid : PacketId) (lower : Lower) : Stack n :=
  let k := m.mem h
  let p := { m.packets pid with current := k.lastTxPacketPos, count := k.lastTxPacketCount }
  let sent := Ipv4.sendPacket lower k.ipv4Handle k.lastTxPacketIpv4Header pid p
  let m := m.modify h fun k => { k with
    ipv4Handle := sent.handle, stateTimeout := k.stateTimeout + stateTimeoutMs }
  let m := { m with packets := Function.update m.packets pid sent.packet }
  recordHanded ((m.wait lower.elapsed).record (.resent h pid sent.ret)) h pid sent

/-- The established case of the loop, with a pending packet and an expired timer. -/
def retryPacket (m : Stack n) (h : Fin n) (pid : PacketId) (timestamp : BitVec 32) (lower : Lower) :
    Stack n × Pc n :=
  let m := m.modify h fun k => { k with txRetryCount := k.txRetryCount + 1#8 }
  if (m.mem h).txRetryCount = maxRetryCount then (abortTransmission m h, .inTxFailed h timestamp)
  else
    let m := resendPacket m h pid lower
    (m, .tick (m.mem h).next timestamp)

/-- The closing states of the loop. The error is chosen by the state after it was
set to closed, as in the source. -/
def closingError (h : Fin n) (m : Stack n) : Err :=
  if (m.mem h).state = .closeWait then .success else .timeout

/-- One iteration of the loop of `NANO_IP_TCP_PeriodicTask`. -/
def visit (m : Stack n) (h : Fin n) (timestamp : BitVec 32) (lower : Lower) : Stack n × Pc n :=
  let next := (m, Pc.tick (m.mem h).next timestamp)
  let expired := (m.mem h).stateTimeout ≤ timestamp
  match (m.mem h).state with
  | .synSent =>
    if expired then (abortConnection m h .connectTimeout fun _ => .timeout, .inTick h timestamp)
    else next
  | .synReceived =>
    if expired then (abortConnection m h .acceptFailed fun _ => .timeout, .inTick h timestamp)
    else next
  | .established =>
    match (m.mem h).lastTxPacket with
    | some pid => if expired then retryPacket m h pid timestamp lower else next
    | none => next
  | .closeWait | .finWait1 | .finWait2 | .timeWait =>
    if expired then (abortConnection m h .closed (closingError h), .inTick h timestamp)
    else next
  | .closed | .listen | .closing | .lastAck | .idle => next

end NanoIp.Tcp
