import NanoIp.Sockets.Callback
import NanoIp.Sockets.Poll
import NanoIp.Sockets.Receive
import NanoIp.Lib.Run

/-!
# The socket module as a transition system

Tasks call the interface and block in `NANO_IP_SOCKET_Accept` and
`NANO_IP_SOCKET_Poll`; every section under the stack mutex is one step, and between
two sections of a call anything else may happen. The TCP and UDP modules are the
environment: they change the connection of a socket along the states of TCP and
call back, for a handle that is registered or has an ARP request pending.
-/
namespace NanoIp.Sockets

variable {n k : Nat} {T : Type}

/-- What TCP does to a connection on its own. -/
inductive Change where
  /-- data arrives in the packet -/
  | data (p : RxPacket)
  | acked | connected | accepted | acceptFailed | connectTimeout | fin | finAcknowledged | finWait
  /-- a reset, a refused segment or a timeout; a reset can be refused as well -/
  | closed (again : Bool)
  /-- the last retransmission -/
  | exhausted

namespace Change

/-- The states in which it happens. -/
def applies : Change → Tcp.State → Bool
  | .data _, s | .acked, s | .fin, s | .exhausted, s => s = .established
  | .connected, s | .connectTimeout, s => s = .synSent
  | .accepted, s | .acceptFailed, s => s = .synReceived
  | .finAcknowledged, s => s = .finWait1
  | .finWait, s => s = .finWait1 || s = .finWait2
  | .closed _, s => s ≠ .closed

/-- The state it leads to. -/
def state : Change → Tcp.State
  | .data _ | .acked | .connected | .accepted => .established
  | .acceptFailed | .connectTimeout | .closed _ | .exhausted => .closed
  | .fin => .closeWait
  | .finAcknowledged => .finWait2
  | .finWait => .timeWait

/-- The events raised in it, with their packet. -/
def events : Change → List (Tcp.Event × Option RxPacket)
  | .data p => [(.rx, some p)]
  | .acked => [(.tx, none)]
  | .connected => [(.connected, none)]
  | .accepted => [(.accepted, none)]
  | .acceptFailed => [(.acceptFailed, none)]
  | .connectTimeout => [(.connectTimeout, none)]
  | .fin | .finAcknowledged | .finWait => []
  | .closed again => if again then [(.closed, none), (.closed, none)] else [(.closed, none)]
  | .exhausted => [(.txFailed, none), (.closed, none)]

end Change

/-- Where a task stands: outside the blocking calls, or in the wait of one. -/
inductive Activity (n k : Nat) where
  | idle
  | accepting (i : Fin n)
  | polling (q : Fin k) (ds : List PollData)
  deriving DecidableEq

/-- The socket module with its surroundings: the sockets whose UDP handle is in
`udp_module.handles`, those whose connection has a request pending at ARP, the
packets that wait at the drivers for reception, and the tasks. -/
structure System (n k : Nat) (T : Type) where
  module : Module n k
  listed : Fin n → Bool
  requests : Fin n → Bool
  pool : List PacketId
  tasks : T → Activity n k

/-- The module as a section left it; what it gave back waits for reception again. -/
def System.put (x : System n k T) (m : Module n k) : System n k T :=
  { x with module := { m with released := [] }, pool := x.pool ++ m.released }

/-- What can happen next. -/
inductive Input (n : Nat) (T : Type) where
  | allocate (type : SocketType) (ret : Err)
  | bindUdp (socketId : BitVec 32) (ret : Err)
  | setNonBlocking (socketId : BitVec 32) (nonBlocking : Bool)
  /-- `fin` says that the FIN of the connection waits for ARP -/
  | release (socketId : BitVec 32) (fin : Bool)
  | listen (socketId maxIncomingConnections : BitVec 32)
  | connect (socketId : BitVec 32) (endPoint : Endpoint) (ret : Err)
  | receiveFrom (socketId : BitVec 32) (size : Nat)
  | receiveWake (i : Fin n) (size : Nat) (ret : Err) (active : BitVec 32)
  /-- another call resets flags of a socket, or its wait takes them -/
  | takeFlags (i : Fin n) (mask : BitVec 32)
  | accept (t : T) (socketId : BitVec 32)
  | acceptWake (t : T) (ret : Err)
  | poll (t : T) (handleIsReady : Fin n → Err) (ds : List PollData)
  | pollWake (t : T) (handleIsReady : Fin n → Err) (ret : Err)
  /-- a frame of the connection has to wait for ARP -/
  | request (i : Fin n)
  /-- the request completes, and the frame was sent or not -/
  | arpResponse (i : Fin n) (sent : Bool)
  | datagram (i : Fin n) (p : RxPacket)
  /-- a SYN for a listening connection; `answered` says that its answer is sent -/
  | accepting (i : Fin n) (peer : Endpoint) (ret : Err) (answered : Bool)
  | change (i : Fin n) (c : Change)

/-- `NANO_IP_SOCKET_SetNonBlocking`. -/
def setNonBlocking (m : Module n k) (socketId : BitVec 32) (nonBlocking : Bool) : Module n k :=
  match m.get socketId with
  | none => m
  | some i => m.modify i fun s => { s with
      options := if nonBlocking then s.options ||| optNonBlock else s.options &&& ~~~ optNonBlock }

/-- `NANO_IP_SOCKET_Connect` up to its wait; `ret` is the answer to the SYN. -/
def connect (m : Module n k) (socketId : BitVec 32) (endPoint : Endpoint) (ret : Err) :
    Module n k :=
  match m.get socketId with
  | none => m
  | some i =>
    if (m.sockets i).type = .tcp ∧ (m.sockets i).tcp.state = .idle then
      let state := if ret.accepted then Tcp.State.synSent else .idle
      let m := m.modify i fun s => { s with tcp := ⟨state, endPoint⟩ }
      if ret.accepted ∧ (m.sockets i).nonBlocking = false then m.resetFlags i flagsAll else m
    else m

/-- The events of a connection, one callback after the other. -/
def callbacks (i : Fin n) : List (Tcp.Event × Option RxPacket) → Module n k → Module n k
  | [], m => m
  | (event, packet) :: es, m => callbacks i es (tcpCallback m i event packet .success).1

def changeConnection (m : Module n k) (i : Fin n) (c : Change) : Module n k :=
  callbacks i c.events (m.setState i c.state)

/-- A SYN for a listening connection. The accept handle is in state idle. -/
def acceptConnection (m : Module n k) (i : Fin n) (peer : Endpoint) (ret : Err) (answered : Bool) :
    Module n k :=
  match tcpCallback m i .accepting none ret with
  | (m, none) => m
  | (m, some client) => m.modify client fun s => { s with
      tcp := ⟨if answered then .synReceived else s.tcp.state, peer⟩ }

/-- The completion of an ARP request, as the handle of a socket reports it. -/
def requestCallback (m : Module n k) (i : Fin n) (sent : Bool) : Module n k :=
  match (m.sockets i).type with
  | .udp => udpCallback m i (if sent then .tx else .txFailed) none
  | .tcp =>
    if sent then
      if (m.sockets i).tcp.state = .established then (tcpCallback m i .tx none .success).1 else m
    else (tcpCallback m i .txFailed none .success).1

/-- The release of a UDP handle cancels its request through the callback. -/
def cancelRequest (m : Module n k) (requests : Fin n → Bool) (i : Fin n) : Module n k :=
  if (m.sockets i).type = .udp ∧ requests i = true then requestCallback m i false else m

def System.takePacket (x : System n k T) (p : RxPacket) : Option (System n k T) :=
  if p.id ∈ x.pool then some { x with pool := x.pool.erase p.id } else none

/-- `NANO_IP_SOCKET_Release` on an allocated socket, with the surroundings. -/
def System.release (x : System n k T) (i : Fin n) (fin : Bool) : System n k T :=
  match releaseSocket (cancelRequest x.module x.requests i) i with
  | (m, ret) =>
    let y := x.put m
    if ret = .success then
      match (x.module.sockets i).type with
      | .udp => { y with
          listed := Function.update x.listed i (x.listed i && !(x.module.sockets i).udpBound)
          requests := Function.update x.requests i false }
      | .tcp => { y with requests := Function.update x.requests i (x.requests i || fin) }
    else y

variable [DecidableEq T]

/-- Task `t` goes on as a section of `NANO_IP_SOCKET_Accept` says. -/
def System.setAccept (x : System n k T) (t : T) (i : Fin n) :
    Module n k × Pass (Accepted n) → System n k T
  | (m, .returns _) => { x.put m with tasks := Function.update x.tasks t .idle }
  | (m, .waits) => { x.put m with tasks := Function.update x.tasks t (.accepting i) }

/-- Task `t` goes on as a section of `NANO_IP_SOCKET_Poll` says. -/
def System.setPoll (x : System n k T) (t : T) : Module n k × Polled k → System n k T
  | (m, .returns _ _ _) => { x.put m with tasks := Function.update x.tasks t .idle }
  | (m, .waits q ds) => { x.put m with tasks := Function.update x.tasks t (.polling q ds) }

/-- The flags a task in `NANO_IP_SOCKET_Accept` waits for. -/
def acceptMask : BitVec 32 := eventRx ||| eventError

/-- A wait on the flags of a socket ends: with the flags it waits for, which it
resets, or without any. -/
def wakeOn (m : Module n k) (i : Fin n) (mask : BitVec 32) (ret : Err) : Option (Module n k) :=
  if ret = .success then
    if (m.sockets i).syncFlags &&& mask ≠ 0#32 then
      some (m.resetFlags i ((m.sockets i).syncFlags &&& mask))
    else none
  else some m

def wakePoll (m : Module n k) (q : Fin k) (ret : Err) : Option (Module n k) :=
  if ret = .success then if (m.polls q).syncFlags ≠ 0#32 then some (m.resetPoll q) else none
  else some m

/-- A call of the interface that does not wait. -/
def call (x : System n k T) : Input n T → Option (System n k T)
  | .allocate type ret => some (x.put (allocate x.module type ret).1)
  | .bindUdp socketId ret =>
    (x.module.get socketId).bind fun i =>
      if (x.module.sockets i).type = .udp then
        some { x.put (bindUdp x.module socketId ret).1 with
          listed := Function.update x.listed i (x.listed i || ret = .success) }
      else none
  | .setNonBlocking socketId nonBlocking =>
      some (x.put (setNonBlocking x.module socketId nonBlocking))
  | .release socketId fin => (x.module.get socketId).map fun i => x.release i fin
  | .listen socketId max => some (x.put (listen x.module socketId max).1)
  | .connect socketId endPoint ret => some (x.put (connect x.module socketId endPoint ret))
  | .receiveFrom socketId size => some (x.put (receiveFrom x.module socketId size).1)
  | .receiveWake i size ret active => some (x.put (receiveWake x.module i size ret active).1)
  | .takeFlags i mask => some (x.put (x.module.resetFlags i mask))
  | _ => none

/-- A section of a call that can wait, by task `t`. -/
def taskStep (x : System n k T) : Input n T → Option (System n k T)
  | .accept t socketId =>
    match x.tasks t, x.module.get socketId with
    | .idle, some i => some (x.setAccept t i (accept x.module socketId))
    | _, _ => none
  | .acceptWake t ret =>
    match x.tasks t with
    | .accepting i => (wakeOn x.module i acceptMask ret).map fun m =>
        x.setAccept t i (acceptTurn m i)
    | _ => none
  | .poll t handleIsReady ds =>
    match x.tasks t with
    | .idle => some (x.setPoll t (poll x.module handleIsReady ds))
    | _ => none
  | .pollWake t handleIsReady ret =>
    match x.tasks t with
    | .polling q ds =>
      (wakePoll x.module q ret).map fun m => x.setPoll t (pollWake m q handleIsReady ds ret)
    | _ => none
  | _ => none

/-- What the stack does with the connection of a socket. -/
def stackStep (x : System n k T) : Input n T → Option (System n k T)
  | .request i =>
    if (x.module.sockets i).isFree = false then
      some { x with requests := Function.update x.requests i true }
    else none
  | .arpResponse i sent =>
    if x.requests i = true then
      some { x.put (requestCallback x.module i sent) with requests := Function.update x.requests i false }
    else none
  | .datagram i p =>
    if x.listed i = true then (x.takePacket p).map fun y =>
      y.put (udpCallback x.module i .rx (some p))
    else none
  | .accepting i peer ret answered =>
    if (x.module.sockets i).type = .tcp ∧ (x.module.sockets i).tcp.state = .listen then
      some (x.put (acceptConnection x.module i peer ret answered))
    else none
  | .change i c =>
    if (x.module.sockets i).type = .tcp ∧ c.applies (x.module.sockets i).tcp.state = true then
      match c with
      | .data p => (x.takePacket p).map fun y => y.put (changeConnection x.module i c)
      | _ => some (x.put (changeConnection x.module i c))
    else none
  | _ => none

/-- One step. -/
def step (x : System n k T) (input : Input n T) : Option (System n k T) :=
  match input with
  | .accept _ _ | .acceptWake _ _ | .poll _ _ _ | .pollWake _ _ _ => taskStep x input
  | .request _ | .arpResponse _ _ | .datagram _ _ | .accepting _ _ _ _ | .change _ _ =>
      stackStep x input
  | _ => call x input

/-- The ways a step can be taken. -/
inductive Move (x : System n k T) : Input n T → System n k T → Prop
  | allocate (type : SocketType) (ret : Err) :
      Move x (.allocate type ret) (x.put (allocate x.module type ret).1)
  | bindUdp (socketId : BitVec 32) (ret : Err) (i : Fin n) (hi : x.module.get socketId = some i)
      (ht : (x.module.sockets i).type = .udp) :
      Move x (.bindUdp socketId ret) { x.put (bindUdp x.module socketId ret).1 with
        listed := Function.update x.listed i (x.listed i || ret = .success) }
  | setNonBlocking (socketId : BitVec 32) (nonBlocking : Bool) :
      Move x (.setNonBlocking socketId nonBlocking)
        (x.put (setNonBlocking x.module socketId nonBlocking))
  | release (socketId : BitVec 32) (fin : Bool) (i : Fin n) (hi : x.module.get socketId = some i) :
      Move x (.release socketId fin) (x.release i fin)
  | listen (socketId max : BitVec 32) :
      Move x (.listen socketId max) (x.put (listen x.module socketId max).1)
  | connect (socketId : BitVec 32) (endPoint : Endpoint) (ret : Err) :
      Move x (.connect socketId endPoint ret) (x.put (connect x.module socketId endPoint ret))
  | receiveFrom (socketId : BitVec 32) (size : Nat) :
      Move x (.receiveFrom socketId size) (x.put (receiveFrom x.module socketId size).1)
  | receiveWake (i : Fin n) (size : Nat) (ret : Err) (active : BitVec 32) :
      Move x (.receiveWake i size ret active) (x.put (receiveWake x.module i size ret active).1)
  | takeFlags (i : Fin n) (mask : BitVec 32) :
      Move x (.takeFlags i mask) (x.put (x.module.resetFlags i mask))
  | accept (t : T) (socketId : BitVec 32) (i : Fin n) (ht : x.tasks t = .idle)
      (hi : x.module.get socketId = some i) :
      Move x (.accept t socketId) (x.setAccept t i (accept x.module socketId))
  | acceptWake (t : T) (ret : Err) (i : Fin n) (m : Module n k) (ht : x.tasks t = .accepting i)
      (hm : wakeOn x.module i acceptMask ret = some m) :
      Move x (.acceptWake t ret) (x.setAccept t i (acceptTurn m i))
  | poll (t : T) (handleIsReady : Fin n → Err) (ds : List PollData) (ht : x.tasks t = .idle) :
      Move x (.poll t handleIsReady ds) (x.setPoll t (poll x.module handleIsReady ds))
  | pollWake (t : T) (handleIsReady : Fin n → Err) (ret : Err) (q : Fin k) (ds : List PollData)
      (m : Module n k) (ht : x.tasks t = .polling q ds) (hm : wakePoll x.module q ret = some m) :
      Move x (.pollWake t handleIsReady ret) (x.setPoll t (pollWake m q handleIsReady ds ret))
  | request (i : Fin n) (hi : (x.module.sockets i).isFree = false) :
      Move x (.request i) { x with requests := Function.update x.requests i true }
  | arpResponse (i : Fin n) (sent : Bool) (hr : x.requests i = true) :
      Move x (.arpResponse i sent) { x.put (requestCallback x.module i sent) with
        requests := Function.update x.requests i false }
  | datagram (i : Fin n) (p : RxPacket) (y : System n k T) (hl : x.listed i = true)
      (hy : x.takePacket p = some y) :
      Move x (.datagram i p) (y.put (udpCallback x.module i .rx (some p)))
  | accepting (i : Fin n) (peer : Endpoint) (ret : Err) (answered : Bool)
      (ht : (x.module.sockets i).type = .tcp) (hs : (x.module.sockets i).tcp.state = .listen) :
      Move x (.accepting i peer ret answered)
        (x.put (acceptConnection x.module i peer ret answered))
  | data (i : Fin n) (p : RxPacket) (y : System n k T) (ht : (x.module.sockets i).type = .tcp)
      (hs : (x.module.sockets i).tcp.state = .established) (hy : x.takePacket p = some y) :
      Move x (.change i (.data p)) (y.put (changeConnection x.module i (.data p)))
  | change (i : Fin n) (c : Change) (ht : (x.module.sockets i).type = .tcp)
      (hc : c.applies (x.module.sockets i).tcp.state = true) (hd : ∀ p, c ≠ .data p) :
      Move x (.change i c) (x.put (changeConnection x.module i c))

theorem step_move {x y : System n k T} {input : Input n T} (hs : step x input = some y) : Move x input y := by
  cases input with
  | allocate type ret => obtain rfl := Option.some.inj hs; exact .allocate type ret
  | bindUdp socketId ret =>
    obtain ⟨i, hi, hy⟩ := Option.bind_eq_some_iff.mp hs
    split_ifs at hy with ht
    obtain rfl := Option.some.inj hy
    exact .bindUdp socketId ret i hi ht
  | setNonBlocking socketId nonBlocking =>
    obtain rfl := Option.some.inj hs; exact .setNonBlocking socketId nonBlocking
  | release socketId fin =>
    obtain ⟨i, hi, rfl⟩ := Option.map_eq_some_iff.mp hs
    exact .release socketId fin i hi
  | listen socketId max => obtain rfl := Option.some.inj hs; exact .listen socketId max
  | connect socketId endPoint ret => obtain rfl := Option.some.inj hs; exact .connect socketId endPoint ret
  | receiveFrom socketId size => obtain rfl := Option.some.inj hs; exact .receiveFrom socketId size
  | receiveWake i size ret active =>
      obtain rfl := Option.some.inj hs; exact .receiveWake i size ret active
  | takeFlags i mask => obtain rfl := Option.some.inj hs; exact .takeFlags i mask
  | accept t socketId =>
    cases ht : x.tasks t <;> cases hi : x.module.get socketId <;>
      simp only [step, taskStep, ht, hi, reduceCtorEq, Option.some.injEq] at hs
    subst hs
    exact .accept t socketId _ ht hi
  | acceptWake t ret =>
    cases ht : x.tasks t <;>
      simp only [step, taskStep, ht, reduceCtorEq, Option.map_eq_some_iff] at hs
    obtain ⟨m, hm, rfl⟩ := hs
    exact .acceptWake t ret _ m ht hm
  | poll t handleIsReady ds =>
    cases ht : x.tasks t <;> simp only [step, taskStep, ht, reduceCtorEq, Option.some.injEq] at hs
    subst hs
    exact .poll t handleIsReady ds ht
  | pollWake t handleIsReady ret =>
    cases ht : x.tasks t <;> simp only
      [step, taskStep, ht, reduceCtorEq, Option.map_eq_some_iff] at hs
    obtain ⟨m, hm, rfl⟩ := hs
    exact .pollWake t handleIsReady ret _ _ m ht hm
  | request i =>
    simp only [step, stackStep] at hs
    split_ifs at hs with hi
    obtain rfl := Option.some.inj hs
    exact .request i hi
  | arpResponse i sent =>
    simp only [step, stackStep] at hs
    split_ifs at hs with hr
    obtain rfl := Option.some.inj hs
    exact .arpResponse i sent hr
  | datagram i p =>
    simp only [step, stackStep] at hs
    split_ifs at hs with hl
    obtain ⟨y, hy, rfl⟩ := Option.map_eq_some_iff.mp hs
    exact .datagram i p y hl hy
  | accepting i peer ret answered =>
    simp only [step, stackStep] at hs
    split_ifs at hs with hc
    obtain rfl := Option.some.inj hs
    exact .accepting i peer ret answered hc.1 hc.2
  | change i c =>
    simp only [step, stackStep] at hs
    split_ifs at hs with hc
    cases c with
    | data p =>
      obtain ⟨y, hy, rfl⟩ := Option.map_eq_some_iff.mp hs
      exact .data i p y hc.1 (by simpa [Change.applies] using hc.2) hy
    | _ =>
      obtain rfl := Option.some.inj hs
      exact .change i _ hc.1 hc.2 nofun

/-- After `NANO_IP_SOCKET_Init`, with the drivers' packets, and no task in a call. -/
def System.initial (n k : Nat) (T : Type) (pool : List PacketId) : System n k T where
  module := Module.init
  listed _ := false
  requests _ := false
  pool := pool
  tasks _ := .idle

/-- The socket whose callback an input calls. -/
def System.calls (x : System n k T) : Input n T → Option (Fin n)
  | .datagram i _ | .accepting i _ _ _ => some i
  | .arpResponse i sent =>
    if (x.module.sockets i).type = .tcp ∧ sent = true ∧
        (x.module.sockets i).tcp.state ≠ .established then none
    else some i
  | .change i c => if c.events.isEmpty then none else some i
  | _ => none

def listening : List (Input 2 Unit) :=
  [.allocate .tcp .success, .listen 0#32 1#32, .accepting ⟨0, Nat.two_pos⟩ ⟨0x0A000002#32, 80#16⟩
    .success true]

end NanoIp.Sockets
