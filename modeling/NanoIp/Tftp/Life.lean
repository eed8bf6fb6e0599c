import NanoIp.Lib.Total
import NanoIp.Tftp.Machine

/-!
# The life of a TFTP client or server

A client or a server is given datagrams by the network task, in part through a list that a
task of its own empties, expiries of its timer and, if it is a client, requests of its user.
All come in any order. What its user sees of it and what it sends is recorded.
-/
namespace NanoIp.Tftp.Life

variable {υ : Type}

inductive Role where
  | client | server
  deriving DecidableEq

/-- Where a datagram comes from. -/
structure Peer where
  address : Ipv4Address
  port : BitVec 16
  deriving DecidableEq

/-- What the user of a module sees: the answers to its requests, and the callbacks with what
it answered them. -/
inductive Call where
  | requested (opcode : ReqType) (answer : Err)
  | reqReceived (opcode : ReqType) (filename : List Byte) (answer : TftpErr)
  | dataReceived (data : List Byte) (answer : TftpErr)
  | dataToSend (data : List Byte) (answer : TftpErr)
  | errorReceived (errorCode : BitVec 16) (errorString : List Byte)
  /-- with the state of the module at the call -/
  | endOfTransfert (tftpStatus : TftpErr) (reqType : ReqType) (timerRuns : Bool)
  deriving DecidableEq

/-- The callbacks, each recorded. -/
def recorded (callbacks : Callbacks υ) : Callbacks (υ × List Call) where
  reqReceived u opcode filename :=
    let (answer, user) := callbacks.reqReceived u.1 opcode filename
    (answer, user, u.2 ++ [.reqReceived opcode filename answer])
  dataReceived u data :=
    let (answer, user) := callbacks.dataReceived u.1 data
    (answer, user, u.2 ++ [.dataReceived data answer])
  dataToSend u :=
    let (answer, data, user) := callbacks.dataToSend u.1
    (answer, data, user, u.2 ++ [.dataToSend data answer])
  errorReceived u errorCode errorString :=
    (callbacks.errorReceived u.1 errorCode errorString,
      u.2 ++ [.errorReceived errorCode errorString])

section Recorded

variable (callbacks : Callbacks υ) (u : υ × List Call)

@[simp] theorem recorded_reqReceived (opcode : ReqType) (filename : List Byte) :
    (recorded callbacks).reqReceived u opcode filename =
      ((callbacks.reqReceived u.1 opcode filename).1, (callbacks.reqReceived u.1 opcode filename).2,
        u.2 ++ [.reqReceived opcode filename (callbacks.reqReceived u.1 opcode filename).1]) := rfl

@[simp] theorem recorded_dataReceived (data : List Byte) :
    (recorded callbacks).dataReceived u data =
    ((callbacks.dataReceived u.1 data).1, (callbacks.dataReceived u.1 data).2,
      u.2 ++ [.dataReceived data (callbacks.dataReceived u.1 data).1]) := rfl

@[simp] theorem recorded_dataToSend : (recorded callbacks).dataToSend u =
    ((callbacks.dataToSend u.1).1, (callbacks.dataToSend u.1).2.1, (callbacks.dataToSend u.1).2.2,
      u.2 ++ [.dataToSend (callbacks.dataToSend u.1).2.1 (callbacks.dataToSend u.1).1]) := rfl

@[simp] theorem recorded_errorReceived (errorCode : BitVec 16) (errorString : List Byte) :
    (recorded callbacks).errorReceived u errorCode errorString =
      (callbacks.errorReceived u.1 errorCode errorString,
        u.2 ++ [.errorReceived errorCode errorString]) := rfl

end Recorded

/-- A received packet, and where it came from. -/
structure Received where
  src : Peer
  packet : Packet

/-- A datagram that was sent, and the sender of the packet it answers. -/
structure Sent where
  answers : Option Peer
  datagram : Datagram
  deriving DecidableEq

/-- `nano_ip_tftp_client_t` or `nano_ip_tftp_server_t` with its user, the calls, and the
datagrams sent. -/
structure State (υ : Type) where
  tftp : Instance
  user : υ
  rxPackets : List Received
  calls : List Call
  sent : List Sent

/-- The calls of `end_of_transfert` in an operation; each is the last thing it does. -/
def endings (x : Instance) (out : Instance) : List Call :=
  (out.ended.drop x.ended.length).map fun status => .endOfTransfert status out.reqType out.timerRuns

/-- After an operation. -/
def State.did (s : State υ) (answers : Option Peer) (out : Outcome (υ × List Call)) : State υ :=
  { s with
    tftp := out.tftp
    user := out.user.1
    calls := out.user.2 ++ endings s.tftp out.tftp
    sent := s.sent ++ out.sent.map fun d => ⟨answers, d⟩ }

/-- `NANO_IP_TFTP_CLIENT_ProcessPacket` or `NANO_IP_TFTP_SERVER_ProcessPacket`. -/
def processPacket :
    Role → Callbacks υ → Instance → υ → Packet → Layers → Layers → BitVec 32 → Outcome υ
  | .client => clientProcessPacket
  | .server => serverProcessPacket

/-- What the layers below answer while a packet is processed, and the counter. -/
structure Turn where
  layers : Layers
  errorLayers : Layers
  now : BitVec 32

def State.process (role : Role) (callbacks : Callbacks υ) (s : State υ) (r : Received) (t : Turn) :
    State υ :=
  s.did (some r.src)
    (processPacket role (recorded callbacks) s.tftp (s.user, s.calls) r.packet t.layers
      t.errorLayers t.now)

/-- What `NANO_IP_TFTP_CLIENT_Read` and `NANO_IP_TFTP_CLIENT_Write` have in common. -/
def clientRequest (opcode : ReqType) (x : Instance) (user : υ) (serverAddress : Ipv4Address)
    (serverPort : BitVec 16) (filename : List Byte) (layers : Layers) (now : BitVec 32) :
    Outcome υ × Err :=
  if x.reqType = .idle then sendReadWriteRequest x user serverAddress serverPort filename
    opcode layers now
  else (⟨x, user, []⟩, .invalidArg)

/-- `NANO_IP_TFTP_CLIENT_Read` and `NANO_IP_TFTP_CLIENT_Write`. -/
def clientRead (x : Instance) (user : υ) := clientRequest .read x user
def clientWrite (x : Instance) (user : υ) := clientRequest .write x user

/-- The answer to a request is recorded after what the request did. -/
def State.asked (s : State υ) (opcode : ReqType) (result : Outcome (υ × List Call) × Err) :
    State υ :=
  let s := s.did none result.1
  { s with calls := s.calls ++ [.requested opcode result.2] }

/-- What a module is given. -/
inductive Input where
  | read (serverAddress : Ipv4Address) (serverPort : BitVec 16) (filename : List Byte)
      (layers : Layers)
      (now : BitVec 32)
  | write (serverAddress : Ipv4Address) (serverPort : BitVec 16) (filename : List Byte)
      (layers : Layers)
      (now : BitVec 32)
  /-- `UDP_EVENT_RX`; without a task of its own the module processes the packet at once -/
  | udpEvent (r : Received) (t : Turn)
  /-- the task takes the next packet of its list, if there is one -/
  | task (t : Turn)
  | timerCallback (timestamp : BitVec 32)

/-- What an input does to a module; `task` says whether it was built with a task of its own.
A server is asked for nothing by its user. -/
def step (role : Role) (task : Bool) (callbacks : Callbacks υ) (s : State υ) : Input → State υ
  | .read serverAddress serverPort filename layers now =>
    match role with
    | .client => s.asked .read (clientRead s.tftp (s.user, s.calls) serverAddress serverPort
        filename layers now)
    | .server => s
  | .write serverAddress serverPort filename layers now =>
    match role with
    | .client => s.asked .write (clientWrite s.tftp (s.user, s.calls) serverAddress serverPort
        filename layers now)
    | .server => s
  | .udpEvent r t =>
    let s := { s with tftp := s.tftp.answering r.src.address r.src.port }
    if task then { s with rxPackets := s.rxPackets ++ [r] } else s.process role callbacks r t
  | .task t =>
    match s.rxPackets with
    | [] => s
    | r :: rest => State.process role callbacks { s with rxPackets := rest } r t
  | .timerCallback timestamp =>
    s.did none ⟨{ s.tftp with toModule := Tftp.timerCallback s.tftp.toModule timestamp },
      (s.user, s.calls), []⟩

/-- The packet that an input has processed, and the module that the processing finds. -/
def processing (task : Bool) (s : State υ) : Input → Option (State υ × Received × Turn)
  | .udpEvent r t =>
    if task then none else some ({ s with tftp := s.tftp.answering r.src.address r.src.port }, r, t)
  | .task t =>
    match s.rxPackets with
    | [] => none
    | r :: rest => some ({ s with rxPackets := rest }, r, t)
  | .read .. | .write .. | .timerCallback .. => none

variable {role : Role} {task : Bool} {callbacks : Callbacks υ} {s s' : State υ} {i : Input}
  {r : Received} {t : Turn}

theorem step_processing (h : processing task s i = some (s', r, t)) :
    step role task callbacks s i = s'.process role callbacks r t := by
  cases i with
  | udpEvent r₀ t₀ =>
    cases task with
    | true => cases h
    | false =>
      obtain ⟨rfl, rfl, rfl⟩ := Prod.mk.inj (Option.some.inj h) |>.imp_right Prod.mk.inj
      rfl
  | task t₀ =>
    rw [processing] at h
    rw [step]
    cases hq : s.rxPackets with
    | nil =>
      rw [hq] at h
      cases h
    | cons r₀ rest =>
      rw [hq] at h
      obtain ⟨rfl, rfl, rfl⟩ := Prod.mk.inj (Option.some.inj h) |>.imp_right Prod.mk.inj
      rfl
  | read | write | timerCallback => cases h

/-- Processing finds the calls, the user and the transfer as they were. -/
theorem processing_same (h : processing task s i = some (s', r, t)) :
    s'.user = s.user ∧ s'.calls = s.calls ∧ s'.sent = s.sent ∧ s'.tftp.toModule = s.tftp.toModule ∧
      s'.tftp.currentBlock = s.tftp.currentBlock := by
  cases i with
  | udpEvent r₀ t₀ =>
    cases task with
    | true => cases h
    | false =>
      obtain rfl := congrArg Prod.fst (Option.some.inj h)
      exact ⟨rfl, rfl, rfl, rfl, rfl⟩
  | task t₀ =>
    rw [processing] at h
    cases hq : s.rxPackets with
    | nil =>
      rw [hq] at h
      cases h
    | cons r₀ rest =>
      rw [hq] at h
      obtain rfl := congrArg Prod.fst (Option.some.inj h)
      exact ⟨rfl, rfl, rfl, rfl, rfl⟩
  | read | write | timerCallback => cases h

end NanoIp.Tftp.Life
