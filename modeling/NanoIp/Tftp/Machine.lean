import NanoIp.Core.Ipv4
import NanoIp.Tftp.Messages

/-!
# The TFTP module

The functions of `nano_ip_tftp.c` that the client and the server share, with the user's
callbacks as functions on a state of the user. Each operation leaves the module and the
user, and the datagrams it has handed to UDP.
-/
namespace NanoIp.Tftp

variable {υ : Type}

/-- `nano_ip_tftp_t`, the fields of a transfer beside those of the timer. -/
structure Instance extends Module where
  currentBlock : BitVec 16
  destAddress : Ipv4Address
  destPort : BitVec 16
  deriving DecidableEq

/-- `nano_ip_tftp_callbacks_t`; `end_of_transfert` is kept in the module. -/
structure Callbacks (υ : Type) where
  reqReceived : υ → ReqType → List Byte → TftpErr × υ
  dataReceived : υ → List Byte → TftpErr × υ
  dataToSend : υ → TftpErr × List Byte × υ
  errorReceived : υ → BitVec 16 → List Byte → υ

/-- What UDP answers to an allocation and to a send. -/
structure Layers where
  alloc : Except Failure Unit
  send : Err

/-- A datagram handed to UDP. -/
structure Datagram where
  destAddress : Ipv4Address
  destPort : BitVec 16
  payload : List Byte
  deriving DecidableEq

/-- What an operation leaves. -/
structure Outcome (υ : Type) where
  tftp : Instance
  user : υ
  sent : List Datagram

/-- Hand a message to UDP, if it can be allocated: whether it was accepted, and the
datagram. -/
def Layers.sends (layers : Layers) (destAddress : Ipv4Address) (destPort : BitVec 16)
    (message : Message) :
    Bool × List Datagram :=
  match layers.alloc with
  | .ok () => if layers.send.accepted then (true, [⟨destAddress, destPort, message.payload⟩])
      else (false, [])
  | .error _ => (false, [])

/-- `NANO_IP_TFTP_SendAcknowledge`; no caller looks at its answer. -/
def sendAcknowledge (x : Instance) (layers : Layers) : List Datagram :=
  (layers.sends x.destAddress x.destPort (ackMessage x.currentBlock)).2

/-- `NANO_IP_TFTP_SendError`; no caller looks at its answer. -/
def sendError (x : Instance) (error : TftpErr) (layers : Layers) : Instance × List Datagram :=
  ({ x with lastError := error }, (layers.sends x.destAddress x.destPort (errorMessage error)).2)

/-- What `NANO_IP_TFTP_SendData` answers, with the data size. -/
structure SentData (υ : Type) where
  ret : Bool
  dataSize : BitVec 16
  user : υ
  sent : List Datagram

/-- `NANO_IP_TFTP_SendData`. -/
def sendData (callbacks : Callbacks υ) (x : Instance) (user : υ) (layers : Layers) : SentData υ :=
  match layers.alloc with
  | .error _ => ⟨false, 0#16, user, []⟩
  | .ok () =>
    let (err, data, user) := callbacks.dataToSend user
    let dataSize := BitVec.ofNat 16 data.length
    if err = .success then
      let (ret, sent) := layers.sends x.destAddress x.destPort (dataMessage x.currentBlock data)
      ⟨ret, dataSize, user, sent⟩
    else ⟨false, dataSize, user, []⟩

/-- `NANO_IP_TFTP_EndOfTransfer` on the module with its transfer. -/
def Instance.ends (x : Instance) : Instance := { x with toModule := endOfTransfer x.toModule }

/-- `Send an error packet`, and the end of the transfer. -/
def failTransfer (x : Instance) (user : υ) (error : TftpErr) (layers : Layers) : Outcome υ :=
  let (x, sent) := sendError x error layers
  ⟨x.ends, user, sent⟩

/-- `NANO_IP_TFTP_SendReadWriteRequest`. -/
def sendReadWriteRequest (x : Instance) (user : υ) (serverAddress : Ipv4Address)
    (serverPort : BitVec 16) (filename : List Byte) (opcode : ReqType) (layers : Layers)
    (now : BitVec 32) : Outcome υ × Err :=
  match layers.alloc with
  | .error e => (⟨x, user, []⟩, e)
  | .ok () =>
    let x := { x with currentBlock := 0#16, lastRxPacketTimestamp := now }
    let (ret, sent) := layers.sends serverAddress serverPort (requestMessage filename opcode)
    if ret then (⟨{ x with reqType := opcode, timerRuns := true }, user, sent⟩, .success)
    else (⟨x, user, []⟩, layers.send)

/-- The loop behind `Look for the mode` and `Extract mode`. -/
def skipString : Nat → Packet → Packet
  | 0, p => p
  | fuel + 1, p => if p.byteAt 0 ≠ 0#8 ∧
      p.count ≠ 0#16 then skipString fuel (p.readSkipBytes 1#16) else p

/-- `STRNCMP` of a C string with the memory at `current` finds them equal. -/
def strncmpEqual : List Byte → Packet → Nat → Bool
  | _, _, 0 => true
  | [], _, _ => true
  | c :: s, p, n + 1 => p.byteAt 0 = c && (c = 0#8 || strncmpEqual s (p.readSkipBytes 1#16) n)

/-- How far a request can be read. -/
inductive Request where
  | incomplete
  | illegalMode
  | complete (filename : List Byte)

/-- The part of `NANO_IP_TFTP_ProcessReadWriteRequest` that reads the request. -/
def readRequest (p : Packet) : Request :=
  let filename := (p.bytes p.current p.count.toNat).takeWhile fun c => c ≠ 0#8
  let p := skipString p.count.toNat p
  if p.count ≠ 0#16 then
    let mode := p.readSkipBytes 1#16
    let p := skipString mode.count.toNat mode
    if p.count ≠ 0#16 then
      if strncmpEqual (transferMode ++ [0#8]) mode p.count.toNat then .complete filename
      else .illegalMode
    else .incomplete
  else .incomplete

/-- `NANO_IP_TFTP_ProcessReadWriteRequest`; UDP is asked for a message, and for that of an
error. -/
def processReadWriteRequest (callbacks : Callbacks υ) (x : Instance) (user : υ) (p : Packet)
    (opcode : ReqType) (layers errorLayers : Layers) (now : BitVec 32) : Outcome υ :=
  if x.reqType = .idle then
    let x := { x with lastRxPacketTimestamp := now }
    match readRequest p with
    | .incomplete => ⟨x, user, []⟩
    | .illegalMode => failTransfer x user .illegalOperation errorLayers
    | .complete filename =>
      let x := { x with timerRuns := true }
      let (err, user) := callbacks.reqReceived user opcode filename
      if err = .success then
        let x := { x with reqType := opcode, currentBlock := 0#16, lastError := .success }
        if opcode = .write then ⟨x, user, sendAcknowledge x layers⟩
        else
          let data := sendData callbacks x user layers
          if data.ret then
            ⟨if data.dataSize < dataPacketPayloadSize then x.ends else x, data.user, data.sent⟩
          else failTransfer x data.user .undefined errorLayers
      else failTransfer x user err errorLayers
  else ⟨x, user, []⟩

/-- `NANO_IP_TFTP_ProcessDataPacket`. -/
def processDataPacket (callbacks : Callbacks υ) (x : Instance) (user : υ) (p : Packet)
    (reqType : ReqType) (layers errorLayers : Layers) (now : BitVec 32) : Outcome υ :=
  if x.reqType = reqType then
    let (blockNumber, p) := p.read16bits
    let x := { x with currentBlock := x.currentBlock + 1#16, lastRxPacketTimestamp := now }
    if blockNumber = x.currentBlock then
      let (err, user) := callbacks.dataReceived user (p.bytes p.current p.count.toNat)
      if err = .success then
        let sent := sendAcknowledge x layers
        if p.count < dataPacketPayloadSize then
          ⟨Instance.ends { x with lastError := .success }, user, sent⟩
        else ⟨x, user, sent⟩
      else failTransfer x user err errorLayers
    else failTransfer x user .unknownTransferId errorLayers
  else ⟨x, user, []⟩

/-- `NANO_IP_TFTP_ProcessAckPacket`. -/
def processAckPacket (callbacks : Callbacks υ) (x : Instance) (user : υ) (p : Packet)
    (reqType : ReqType) (layers errorLayers : Layers) (now : BitVec 32) : Outcome υ :=
  if x.reqType = reqType then
    let (blockNumber, _) := p.read16bits
    let x := { x with lastRxPacketTimestamp := now }
    if blockNumber = x.currentBlock then
      let x := { x with currentBlock := x.currentBlock + 1#16 }
      let data := sendData callbacks x user layers
      if data.ret then
        if data.dataSize < dataPacketPayloadSize then
          ⟨Instance.ends { x with lastError := .success }, data.user, data.sent⟩
        else ⟨x, data.user, data.sent⟩
      else failTransfer x data.user .undefined errorLayers
    else failTransfer x user .unknownTransferId errorLayers
  else ⟨x, user, []⟩

/-- `NANO_IP_TFTP_ProcessErrorPacket`. -/
def processErrorPacket (callbacks : Callbacks υ) (x : Instance) (user : υ) (p : Packet) :
    Outcome υ :=
  if x.reqType ≠ .idle then
    let (errorNumber, p) := p.read16bits
    let user := callbacks.errorReceived user errorNumber (p.bytes p.current p.count.toNat)
    ⟨Instance.ends { x with lastError := .ofCode errorNumber }, user, []⟩
  else ⟨x, user, []⟩

/-- `NANO_IP_TFTP_CLIENT_ProcessPacket`. -/
def clientProcessPacket (callbacks : Callbacks υ) (x : Instance) (user : υ) (p : Packet)
    (layers errorLayers : Layers) (now : BitVec 32) : Outcome υ :=
  if dataPacketHeaderSize ≤ p.count then
    let (opcode, p) := p.read16bits
    match ReqType.ofCode opcode with
    | some .data => processDataPacket callbacks x user p .read layers errorLayers now
    | some .ack => processAckPacket callbacks x user p .write layers errorLayers now
    | some .error => processErrorPacket callbacks x user p
    | _ => ⟨x, user, []⟩
  else ⟨x, user, []⟩

/-- `NANO_IP_TFTP_SERVER_ProcessPacket`. -/
def serverProcessPacket (callbacks : Callbacks υ) (x : Instance) (user : υ) (p : Packet)
    (layers errorLayers : Layers) (now : BitVec 32) : Outcome υ :=
  if dataPacketHeaderSize ≤ p.count then
    let (opcode, p) := p.read16bits
    match ReqType.ofCode opcode with
    | some .read => processReadWriteRequest callbacks x user p .read layers errorLayers now
    | some .write => processReadWriteRequest callbacks x user p .write layers errorLayers now
    | some .data => processDataPacket callbacks x user p .write layers errorLayers now
    | some .ack => processAckPacket callbacks x user p .read layers errorLayers now
    | some .error => processErrorPacket callbacks x user p
    | _ => ⟨x, user, []⟩
  else ⟨x, user, []⟩

/-- `UDP_EVENT_RX` of both: answers go where the datagram came from. -/
def Instance.answering (x : Instance) (srcAddress : Ipv4Address) (srcPort : BitVec 16) : Instance :=
  { x with destAddress := srcAddress, destPort := srcPort }

end NanoIp.Tftp
