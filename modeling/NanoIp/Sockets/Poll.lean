import NanoIp.Sockets.Api

/-!
# Polling sockets

`NANO_IP_SOCKET_Poll`, one section under the stack mutex at a time. What
`NANO_IP_UDP_HandleIsReady` answers for the sockets is an argument.
-/
namespace NanoIp.Sockets

variable {n k : Nat}

/-- `nano_ip_socket_poll_event_t`. -/
def pollIn : BitVec 16 := 1#16
def pollOut : BitVec 16 := 2#16
def pollErr : BitVec 16 := 4#16

/-- `nano_ip_socket_poll_data_t`. -/
structure PollData where
  socketId : BitVec 32
  reqEvents : BitVec 16
  retEvents : BitVec 16
  deriving DecidableEq

def Module.freePoll (m : Module n k) : Option (Fin k) :=
  (List.finRange k).find? fun q => (m.polls q).isFree

def Module.resetPoll (m : Module n k) (q : Fin k) : Module n k :=
  { m with polls := Function.update m.polls q { m.polls q with syncFlags := 0#32 } }

/-- The returned events of a socket with the flags read from it. The error code of
`NANO_IP_UDP_HandleIsReady` is tested as it is, so that a busy handle counts as ready. -/
def pollEvents (s : Socket n k) (handleIsReady : Err) (flags : BitVec 32) (req : BitVec 16) :
    BitVec 16 :=
  let in_ := if req &&& pollIn ≠ 0#16 ∧
    (flags &&& eventRx ≠ 0#32 ∨ s.rxPackets.isEmpty = false) then pollIn
    else 0#16
  let out := if req &&& pollOut ≠ 0#16 ∧
      (flags &&& eventTx ≠ 0#32 ∨ s.type = .udp ∧ handleIsReady ≠ .success) then pollOut
    else 0#16
  let err := if req &&& pollErr ≠ 0#16 ∧ flags &&& eventError ≠ 0#32 then pollErr else 0#16
  in_ ||| out ||| err

/-- The check of one socket: its flags are taken, and it is told of the poll object. -/
def pollSocket (m : Module n k) (q : Fin k) (i : Fin n) (handleIsReady : Err) (d : PollData) :
    Module n k × PollData :=
  let flags := (m.sockets i).syncFlags &&& eventAll
  ((m.resetFlags i flags).modify i fun s => { s with poll := some q },
    { d with retEvents := pollEvents (m.sockets i) handleIsReady flags d.reqEvents })

/-- The loop over the sockets of a call: the entries, their number with events, and
the result; an id that is not allocated ends it. -/
def pollSockets (m : Module n k) (q : Fin k) (handleIsReady : Fin n → Err) :
    List PollData → Module n k × List PollData × Nat × Err
  | [] => (m, [], 0, .success)
  | d :: ds =>
    match m.get d.socketId with
    | none => (m, d :: ds, 0, .invalidArg)
    | some i =>
      let (m, d) := pollSocket m q i (handleIsReady i) d
      let (m, ds, count, ret) := pollSockets m q handleIsReady ds
      (m, d :: ds, (if d.retEvents ≠ 0#16 then 1 else 0) + count, ret)

/-- The sockets of a call are told that it ended. -/
def forgetPoll (m : Module n k) : List PollData → Module n k
  | [] => m
  | d :: ds =>
    match m.get d.socketId with
    | none => forgetPoll m ds
    | some i => forgetPoll (m.modify i fun s => { s with poll := none }) ds

def endPoll (m : Module n k) (q : Fin k) (ds : List PollData) : Module n k :=
  forgetPoll { m with polls := Function.update m.polls q { m.polls q with isFree := true } } ds

/-- What a section of `NANO_IP_SOCKET_Poll` ends with: the result, the entries and
`*poll_count`, or a wait on a poll object. -/
inductive Polled (k : Nat) where
  | returns (ret : Err) (ds : List PollData) (pollCount : Nat)
  | waits (q : Fin k) (ds : List PollData)

/-- One turn of the loop of `NANO_IP_SOCKET_Poll`. -/
def pollTurn (m : Module n k) (q : Fin k) (handleIsReady : Fin n → Err) (ds : List PollData) :
    Module n k × Polled k :=
  let (m, ds, count, ret) := pollSockets m q handleIsReady ds
  if ret = .success ∧ count = 0 then (m.resetPoll q, .waits q ds)
  else (endPoll m q ds, .returns ret ds count)

/-- `NANO_IP_SOCKET_Poll` up to its first wait. -/
def poll (m : Module n k) (handleIsReady : Fin n → Err) (ds : List PollData) :
    Module n k × Polled k :=
  if ds = [] then (m, .returns .invalidArg ds 0)
  else
    match m.freePoll with
    | none => (m, .returns .resource ds 0)
    | some q => pollTurn m q handleIsReady ds

/-- `NANO_IP_SOCKET_Poll` behind a wait that returned `ret`. -/
def pollWake (m : Module n k) (q : Fin k) (handleIsReady : Fin n → Err) (ds : List PollData)
    (ret : Err) :
    Module n k × Polled k :=
  if ret = .success then pollTurn m q handleIsReady ds else (endPoll m q ds, .returns ret ds 0)

end NanoIp.Sockets
