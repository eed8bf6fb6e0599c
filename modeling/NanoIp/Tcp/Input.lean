import NanoIp.Tcp.Api

/-!
# TCP input

`NANO_IP_TCP_RxFrame` from the handle lookup on, and the callbacks of the IPv4
handle and of the periodic task. A callback of the application may call the
interface again, so each function stops where it calls one; `Pc` says where the
code goes on when the callback returns.
-/
namespace NanoIp.Tcp

variable {n : Nat}

/-- A segment that carries RST. -/
abbrev ResetSegment := { seg : Segment // seg.hasFlag flagRst = true }

/-- Where the stack stands: outside, or inside a callback and what follows it. -/
inductive Pc (n : Nat) where
  | ready
  /-- in the callback of a reset; the acknowledgement test follows -/
  | inReset (h : Fin n) (seg : ResetSegment)
  /-- in `TCP_EVENT_ACCEPTING`; the accept handle is used next -/
  | inAccepting (h : Fin n) (seg : Segment)
  /-- in `TCP_EVENT_RX`; the release decision is used next -/
  | inRx (seg : Segment)
  /-- in a callback after which nothing is left to do -/
  | inCallback
  /-- in the loop of the periodic task, about to look at a handle -/
  | tick (current : Option (Fin n)) (timestamp : BitVec 32)
  /-- in a callback of the periodic task -/
  | inTick (h : Fin n) (timestamp : BitVec 32)
  /-- in `TCP_EVENT_TX_FAILED` of the periodic task; the closed event follows -/
  | inTxFailed (h : Fin n) (timestamp : BitVec 32)
  deriving DecidableEq

/-- The handle lookup of `NANO_IP_TCP_RxFrame`: the first handle of the destination
port with the source port as peer port, else the last one of the destination port. -/
def lookupIn (m : Stack n) (seg : Segment) : Option (Fin n) → List (Fin n) → Option (Fin n)
  | couldMatch, [] => couldMatch
  | couldMatch, h :: hs =>
    if (m.mem h).port = seg.destPort then
      if (m.mem h).destPort = seg.srcPort then some h else lookupIn m seg (some h) hs
    else lookupIn m seg couldMatch hs

def lookup (m : Stack n) (seg : Segment) : Option (Fin n) := lookupIn m seg none m.registered

/-- Close a handle with an RST and report a failure. -/
def resetConnection (m : Stack n) (h : Fin n) (lower : Lower) : Stack n × Pc n :=
  let m := (sendControlFrame (m.setState h .closed) h flagRst lower).1
  ((m.removeHandle h).raise h .closed .failure none, .inCallback)

/-- Acknowledge a FIN of the closing states: `TCP_STATE_TIME_WAIT` once it is sent. -/
def finWaitFin (m : Stack n) (h : Fin n) (seg : Segment) (lower : Lower) : Stack n × Pc n :=
  let m := m.modify h fun k => { k with ackNumber := seg.seqNumber + 1#32 }
  match sendControlFrame m h flagAck lower with
  | (m, ret) => (if ret = .success then (m.setState h .timeWait).startTimeout h else m, .ready)

/-- `TCP_STATE_SYN_SENT` of the state machine. -/
def rxSynSent (m : Stack n) (h : Fin n) (seg : Segment) (lower : Lower) : Stack n × Pc n :=
  if seg.flags = flagSyn ||| flagAck then
    let m := m.modify h fun k => { k with ackNumber := seg.seqNumber + 1#32 }
    match sendControlFrame m h flagAck lower with
    | (m, ret) =>
      if ret = .success then
        ((m.setState h .established).raise h .connected .success none, .inCallback)
      else (m, .ready)
  else (m, .ready)

/-- A PSH|ACK segment with data on an established connection. -/
def rxData (m : Stack n) (h : Fin n) (seg : Segment) (lower : Lower) : Stack n × Pc n :=
  if seg.seqNumber = (m.mem h).ackNumber then
    let m := m.modify h fun k => { k with ackNumber := seg.nextSeq }
    match sendControlFrame m h flagAck lower with
    | (m, ret) =>
      if ret = .success then (m.raise h .rx .success (some seg), .inRx seg) else (m, .ready)
  else (m, .ready)

/-- A FIN|ACK segment on an established connection. -/
def rxFin (m : Stack n) (h : Fin n) (seg : Segment) (lower : Lower) : Stack n × Pc n :=
  let m := m.modify h fun k => { k with ackNumber := seg.seqNumber + 1#32 }
  match sendControlFrame m h (flagFin ||| flagAck) lower with
  | (m, ret) =>
    if ret = .success then
      let m := m.modify h fun k => { k with state := .closeWait, seqNumber := k.seqNumber + 1#32 }
      (m.startTimeout h, .ready)
    else (m, .ready)

/-- `NANO_IP_TCP_ReleasePacket(handle->last_tx_packet)` and its reset to `NULL`. -/
def releaseLastTx (m : Stack n) (h : Fin n) : Stack n :=
  let released := match (m.mem h).lastTxPacket with
    | some pid => m.releasePacket pid
    | none => m
  released.modify h fun k => { k with lastTxPacket := none }

/-- `TCP_STATE_ESTABLISHED` of the state machine; only a pure ACK releases the
pending packet. -/
def rxEstablished (m : Stack n) (h : Fin n) (seg : Segment) (lower : Lower) : Stack n × Pc n :=
  if seg.payload.length ≠ 0 ∧ seg.flags = flagPsh ||| flagAck then rxData m h seg lower
  else if (m.mem h).lastTxPacket.isSome ∧ seg.flags = flagAck then
    ((releaseLastTx m h).raise h .tx .success none, .inCallback)
  else if seg.flags = flagFin ||| flagAck then rxFin m h seg lower
  else (m, .ready)

/-- The state machine of `NANO_IP_TCP_RxFrame`. -/
def rxStateMachine (m : Stack n) (h : Fin n) (seg : Segment) (lower : Lower) : Stack n × Pc n :=
  match (m.mem h).state with
  | .listen =>
    if seg.flags = flagSyn then (m.raise h .accepting .success none, .inAccepting h seg)
    else (m, .ready)
  | .synReceived =>
    if seg.flags = flagAck then
      ((m.setState h .established).raise h .accepted .success none, .inCallback)
    else (m, .ready)
  | .synSent => rxSynSent m h seg lower
  | .established => rxEstablished m h seg lower
  | .closeWait =>
    if seg.flags = flagAck then
      (((m.setState h .closed).removeHandle h).raise h .closed .success none, .inCallback)
    else (m, .ready)
  | .finWait1 =>
    if seg.flags = flagAck then ((m.setState h .finWait2).startTimeout h, .ready)
    else if seg.flags = flagFin ||| flagAck then finWaitFin m h seg lower
    else (m, .ready)
  | .finWait2 => if seg.flags = flagFin ||| flagAck then finWaitFin m h seg lower else (m, .ready)
  | .idle | .closed => (m, .ready)
  | .closing | .lastAck | .timeWait => resetConnection m h lower

/-- The acknowledgement test of `NANO_IP_TCP_RxFrame` and what it leads to. -/
def rxAcknowledge (m : Stack n) (h : Fin n) (seg : Segment) (lower : Lower) : Stack n × Pc n :=
  if (m.mem h).state = .listen ∨ seg.ackNumber = (m.mem h).seqNumber then
    rxStateMachine m h seg lower
  else if seg.ackNumber > (m.mem h).seqNumber then resetConnection m h lower
  else (m, .ready)

section Settles

variable (m : Stack n) (h : Fin n) (seg : Segment) (lower : Lower)

/-- Where the code stands behind the acknowledgement test. -/
def Settled (m : Stack n) (h : Fin n) (seg : Segment) (pc : Pc n) : Prop :=
  pc = .ready ∨ pc = .inCallback ∨
    (pc = .inAccepting h seg ∧ (m.mem h).state = .listen ∧ seg.flags = flagSyn) ∨ pc = .inRx seg

theorem rxSynSent_settled : Settled m h seg (rxSynSent m h seg lower).2 := by
  unfold rxSynSent
  dsimp only
  split_ifs <;> simp [Settled]

theorem rxEstablished_settled : Settled m h seg (rxEstablished m h seg lower).2 := by
  unfold rxEstablished rxData rxFin
  dsimp only
  split_ifs <;> simp [Settled]

theorem rxStateMachine_settled : Settled m h seg (rxStateMachine m h seg lower).2 := by
  have h0 : Settled m h seg .ready := .inl rfl
  have h1 : Settled m h seg .inCallback := .inr (.inl rfl)
  unfold rxStateMachine
  cases hs : (m.mem h).state with
  | listen =>
    dsimp only
    split_ifs with hf
    · exact .inr (.inr (.inl ⟨rfl, hs, hf⟩))
    · exact h0
  | synSent => exact rxSynSent_settled m h seg lower
  | established => exact rxEstablished_settled m h seg lower
  | synReceived | closeWait =>
    dsimp only
    split_ifs
    · exact h1
    · exact h0
  | finWait1 | finWait2 =>
    dsimp only
    split_ifs <;> exact h0
  | idle | closed => exact h0
  | closing | lastAck | timeWait => exact h1

theorem rxAcknowledge_settled : Settled m h seg (rxAcknowledge m h seg lower).2 := by
  unfold rxAcknowledge
  split_ifs
  · exact rxStateMachine_settled m h seg lower
  · exact .inr (.inl rfl)
  · exact .inl rfl

end Settles

/-- The reset test of `NANO_IP_TCP_RxFrame`. -/
def resets (m : Stack n) (h : Fin n) (seg : Segment) : Prop :=
  seg.hasFlag flagRst = true ∧ (m.mem h).state ≠ .listen ∧ (m.mem h).state ≠ .idle

instance (m : Stack n) (h : Fin n) (seg : Segment) : Decidable (resets m h seg) :=
  inferInstanceAs (Decidable (_ ∧ _ ∧ _))

/-- `NANO_IP_TCP_RxFrame` on a segment whose lookup gave handle `h`. -/
def rxHandle (m : Stack n) (h : Fin n) (seg : Segment) (lower : Lower) : Stack n × Pc n :=
  if hr : resets m h seg then
    (((m.setState h .closed).removeHandle h).raise h .closed .connReset none,
      .inReset h ⟨seg, hr.1⟩)
  else rxAcknowledge m h seg lower

/-- `NANO_IP_TCP_RxFrame` on a decoded segment; one no handle wants is ignored. -/
def rxFrame (m : Stack n) (seg : Segment) (lower : Lower) : Stack n × Pc n :=
  match lookup m seg with
  | some h => rxHandle m h seg lower
  | none => (m, .ready)

/-- The end of `TCP_EVENT_ACCEPTING`. The sequence number is taken for the listening
handle, as in the source. -/
def rxAccept (m : Stack n) (h : Fin n) (seg : Segment) (acceptHandle : Option (Fin n))
    (lower : Lower) :
    Stack n × Pc n :=
  match acceptHandle with
  | none => (m, .ready)
  | some a =>
    if (m.mem a).state = .idle then
      let m := m.modify a fun k => { k with
        ipv4Address := seg.destAddress, port := seg.destPort
        destIpv4Address := seg.srcAddress, destPort := seg.srcPort }
      let m := m.modify h fun k => { k with seqNumber := m.msCounter }
      let m := m.modify a fun k => { k with ackNumber := seg.seqNumber + 1#32 }
      match sendControlFrame m a (flagSyn ||| flagAck) lower with
      | (m, ret) =>
        if ret = .success then
          let m := m.modify a fun k =>
            { k with state := .synReceived, seqNumber := k.seqNumber + 1#32 }
          (m.startTimeout a, .ready)
        else (m, .ready)
    else (m.raise a .acceptFailed .invalidTcpState none, .inCallback)

/-- `NANO_IP_TCP_Ipv4ErrorCallback`. -/
def ipv4ErrorCallback (m : Stack n) (h : Fin n) (error : Err) : Stack n × Pc n :=
  if error = .success then
    if (m.mem h).state = .established then (m.raise h .tx .success none, .inCallback)
    else (m, .ready)
  else (m.raise h .txFailed error none, .inCallback)

/-- `NANO_IP_IPV4_ARPResponseCallback` of a handle's pending request: with the MAC
address it resolved to, or without one when it failed or was cancelled. -/
def arpResponse (m : Stack n) (h : Fin n) (mac : Option MacAddress) (driver : Err) :
    Stack n × Pc n :=
  match (m.mem h).ipv4Handle.packet, mac with
  | some pid, some mac =>
    let sent := Ipv4.finalizeSendPacket { (m.mem h).ipv4Handle with arpMac := mac } driver
      (m.packets pid)
    let m := m.modify h fun k => { k with ipv4Handle := { sent.handle with busy := false } }
    let m := { m with packets := Function.update m.packets pid sent.packet }
    ipv4ErrorCallback (recordHanded m h pid sent) h sent.ret
  | some pid, none =>
    let m := (m.releasePacket pid).modify h fun k => { k with
      ipv4Handle := { k.ipv4Handle with busy := false } }
    ipv4ErrorCallback m h .arpFailure
  -- a busy handle always has its packet
  | none, _ => (m, .ready)

end NanoIp.Tcp
