import NanoIp.Lib.Run
import NanoIp.Tftp.Effect

/-!
# Transfers between the module's client and its server

Two modules exchange datagrams over a channel that loses and reorders nothing, with
layers below that work and users that accept everything: one gives its file in pieces of
512 bytes and a shorter last one, the other keeps what it is given. No timeout is over
before the next message comes.
-/
namespace NanoIp.Tftp

open Packet (be16)

/-- What is left of the file to send, and the blocks received. -/
structure User where
  toSend : List Byte
  received : List (List Byte)
  deriving DecidableEq

def userCallbacks : Callbacks User where
  reqReceived user _ _ := (.success, user)
  dataReceived user data := (.success, { user with received := user.received ++ [data] })
  dataToSend user := (.success, user.toSend.take 512, { user with toSend := user.toSend.drop 512 })
  errorReceived user _ _ := user

/-- The characters of a C string. -/
abbrev CString := { s : List Byte // ∀ c ∈ s, c ≠ 0#8 }

/-- The addresses and ports of the two. -/
structure Ends where
  clientAddress : Ipv4Address
  clientPort : BitVec 16
  serverAddress : Ipv4Address
  serverPort : BitVec 16

/-- A module and its user. -/
structure Node where
  tftp : Instance
  user : User
  deriving DecidableEq

/-- The two nodes, and the datagrams that are under way, oldest first. -/
structure Pair where
  client : Node
  server : Node
  toServer : List Datagram
  toClient : List Datagram

/-- No message is in flight. -/
def Pair.Quiet (z : Pair) : Prop := z.toServer = [] ∧ z.toClient = []

def addressed (address : Ipv4Address) (port : BitVec 16) (sent : List Datagram) : List Datagram :=
  sent.filter fun d => d.destAddress = address && d.destPort = port

/-- The client and the server after an operation of theirs. -/
def Pair.clientDid (z : Pair) (e : Ends) (out : Outcome User) : Pair :=
  { z with
    client := ⟨out.tftp, out.user⟩,
      toServer := z.toServer ++ addressed e.serverAddress e.serverPort out.sent }
def Pair.serverDid (z : Pair) (e : Ends) (out : Outcome User) : Pair :=
  { z with
    server := ⟨out.tftp, out.user⟩,
      toClient := z.toClient ++ addressed e.clientAddress e.clientPort out.sent }

/-- The oldest datagram in a direction arrives in a packet object. -/
inductive Input where
  | toServer (q : Packet) (layers errorLayers : Layers) (now : BitVec 32)
  | toClient (q : Packet) (layers errorLayers : Layers) (now : BitVec 32)

def step (e : Ends) (z : Pair) : Input → Option Pair
  | .toServer q layers errorLayers now =>
    match z.toServer with
    | [] => none
    | _ :: rest =>
      some (Pair.serverDid { z with toServer := rest } e (serverProcessPacket userCallbacks
        (z.server.tftp.answering e.clientAddress e.clientPort) z.server.user q layers
          errorLayers now))
  | .toClient q layers errorLayers now =>
    match z.toClient with
    | [] => none
    | _ :: rest =>
      some (Pair.clientDid { z with toClient := rest } e (clientProcessPacket userCallbacks
        (z.client.tftp.answering e.serverAddress e.serverPort) z.client.user q layers
          errorLayers now))

/-- The packet object carries the oldest datagram, and the layers work. -/
def Arrives (d : Option Datagram) (q : Packet) (layers errorLayers : Layers) : Prop :=
  layers.Works ∧ errorLayers.Works ∧ Carries q ((d.map Datagram.payload).getD [])

def Lossless (z : Pair) : Input → Prop
  | .toServer q layers errorLayers _ => Arrives z.toServer.head? q layers errorLayers
  | .toClient q layers errorLayers _ => Arrives z.toClient.head? q layers errorLayers

instance (layers : Layers) : Decidable layers.Works := inferInstanceAs (Decidable (_ ∧ _))

instance (q : Packet) (payload : List Byte) : Decidable (Carries q payload) :=
  decidable_of_iff (q.bytes (q.current + 0) payload.length = payload ∧
    q.count.toNat = payload.length)
    ⟨fun h => ⟨h.1, h.2⟩, fun h => ⟨h.bytes, h.count⟩⟩

instance (z : Pair) : ∀ i, Decidable (Lossless z i)
  | .toServer .. => inferInstanceAs (Decidable (_ ∧ _ ∧ _))
  | .toClient .. => inferInstanceAs (Decidable (_ ∧ _ ∧ _))

/-- A module before its first transfer. -/
structure Instance.Fresh (x : Instance) : Prop where
  idle : x.reqType = .idle
  ended : x.ended = []

/-- The client asks for a transfer, of a file that one of the two has. -/
def start (e : Ends) (client server : Instance) (filename : CString) (opcode : ReqType)
    (clientFile serverFile : List Byte)
    (layers : Layers) (now : BitVec 32) : Pair :=
  Pair.clientDid ⟨⟨client, ⟨clientFile, []⟩⟩, ⟨server, ⟨serverFile, []⟩⟩, [], []⟩ e
    (sendReadWriteRequest client ⟨clientFile, []⟩ e.serverAddress e.serverPort filename.1 opcode
      layers now).1

theorem sendReadWriteRequest_works {layers : Layers} (h : layers.Works) (client : Instance)
    (user : User) (address : Ipv4Address) (port : BitVec 16) (name : List Byte) (opcode : ReqType)
    (now : BitVec 32) :
    (sendReadWriteRequest client user address port name opcode layers now).1 =
      { tftp := { client with
          currentBlock := 0#16, lastRxPacketTimestamp := now, reqType := opcode, timerRuns := true }
        user := user, sent := [⟨address, port, (requestMessage name opcode).payload⟩] } := by
  rw [sendReadWriteRequest, h.1]
  simp only [h.sends, if_true]

theorem requestMessage_payload (name : List Byte) (opcode : ReqType) :
    (requestMessage name opcode).payload =
    be16 opcode.code ++ (name.take (strnlen name maxFilenameSize) ++ 0#8 ::
      (transferMode ++ [0#8])) := by
  simp [Message.payload, requestMessage]

@[simp] theorem addressed_self (address : Ipv4Address) (port : BitVec 16) (payload : List Byte) :
    addressed address port [⟨address, port, payload⟩] = [⟨address, port, payload⟩] := by
  simp [addressed]

theorem ofNat_succ (k : Nat) : BitVec.ofNat 16 k + 1#16 = BitVec.ofNat 16 (k + 1) :=
  (BitVec.ofNat_add k 1).symm

section Dispatch

variable {υ : Type} {callbacks : Callbacks υ} {x : Instance} {user : υ} {q : Packet}
  {type : ReqType} {rest : List Byte}
  {layers errorLayers : Layers} {now : BitVec 32}

theorem Carries.opcode (h : Carries q (be16 type.code ++ rest)) (hlen : 2 ≤ rest.length) :
    dataPacketHeaderSize ≤ q.count ∧ q.read16bits.1 = type.code ∧ Carries q.read16bits.2 rest := by
  obtain ⟨hread, hrest⟩ := h.read16bits
  refine ⟨?_, hread, hrest⟩
  have hcount := h.count
  rw [List.length_append] at hcount
  have htwo : (be16 type.code).length = 2 := rfl
  rw [BitVec.le_def, hcount, htwo]
  change 4 ≤ _
  omega

theorem serverProcessPacket_type (h : Carries q (be16 type.code ++ rest)) (hlen : 2 ≤ rest.length)
    (ht : type ≠ .idle) : serverProcessPacket callbacks x user q layers errorLayers now =
      match type with
      | .read => processReadWriteRequest callbacks x user q.read16bits.2 .read layers
          errorLayers now
      | .write => processReadWriteRequest callbacks x user q.read16bits.2 .write layers
          errorLayers now
      | .data => processDataPacket callbacks x user q.read16bits.2 .write layers errorLayers now
      | .ack => processAckPacket callbacks x user q.read16bits.2 .read layers errorLayers now
      | .error => processErrorPacket callbacks x user q.read16bits.2
      | .idle => ⟨x, user, []⟩ := by
  obtain ⟨hsize, hread, -⟩ := h.opcode hlen
  rw [serverProcessPacket, if_pos hsize]
  dsimp only
  rw [hread, ReqType.ofCode_code ht]
  cases type <;> rfl

theorem clientProcessPacket_type (h : Carries q (be16 type.code ++ rest)) (hlen : 2 ≤ rest.length)
    (ht : type ≠ .idle) : clientProcessPacket callbacks x user q layers errorLayers now =
      match type with
      | .data => processDataPacket callbacks x user q.read16bits.2 .read layers errorLayers now
      | .ack => processAckPacket callbacks x user q.read16bits.2 .write layers errorLayers now
      | .error => processErrorPacket callbacks x user q.read16bits.2
      | .read | .write | .idle => ⟨x, user, []⟩ := by
  obtain ⟨hsize, hread, -⟩ := h.opcode hlen
  rw [clientProcessPacket, if_pos hsize]
  dsimp only
  rw [hread, ReqType.ofCode_code ht]
  cases type <;> rfl

end Dispatch

section Write

/-- A node that sends is at block `k`, with what is left from there on. -/
structure Sends (x : Node) (type : ReqType) (k : Nat) (rest : List Byte) : Prop where
  reqType : x.tftp.reqType = type
  currentBlock : x.tftp.currentBlock = BitVec.ofNat 16 k
  toSend : x.user.toSend = rest
  ended : x.tftp.ended = []

/-- A node that receives has the first `k` blocks. -/
structure Receives (x : Node) (type : ReqType) (k : Nat) (file : List Byte) : Prop where
  reqType : x.tftp.reqType = type
  currentBlock : x.tftp.currentBlock = BitVec.ofNat 16 k
  received : x.user.received.flatten = file.take (512 * k)
  ended : x.tftp.ended = []

/-- A node whose only transfer has ended with a status. -/
structure Over (x : Node) (error : TftpErr) : Prop where
  reqType : x.tftp.reqType = .idle
  ended : x.tftp.ended = [error]

/-- The transfer has come to its end. -/
structure Written (file : List Byte) (z : Pair) : Prop where
  delivered : z.server.user.received.flatten = file
  client : Over z.client .success
  server : Over z.server .success

/-- Where a transfer to the server stands, and how many messages are still to arrive: the
block `k` is the one that is acknowledged, or that follows in the data under way. -/
inductive Writing (e : Ends) (name : CString) (file : List Byte) (z : Pair) : Nat → Prop
  | requested (hserver : z.toServer =
      [⟨e.serverAddress, e.serverPort, (requestMessage name.1 .write).payload⟩])
      (hclient : z.toClient = []) (hsends : Sends z.client .write 0 file)
      (hidle : z.server.tftp.Fresh) (hreceived : z.server.user.received = []) :
      Writing e name file z (2 * (file.length / 512) + 4)
  | acknowledged (k : Nat) (hk : 512 * k ≤ file.length) (hserver : z.toServer = [])
      (hclient : z.toClient = [⟨e.clientAddress, e.clientPort,
        (ackMessage (BitVec.ofNat 16 k)).payload⟩])
      (hsends : Sends z.client .write k (file.drop (512 * k)))
        (hreceives : Receives z.server .write k file) :
      Writing e name file z (2 * (file.length / 512 - k) + 3)
  | data (k : Nat) (hk : 512 * k ≤ file.length)
      (hserver : z.toServer = [⟨e.serverAddress, e.serverPort,
        (dataMessage (BitVec.ofNat 16 (k + 1)) ((file.drop (512 * k)).take 512)).payload⟩])
      (hclient : z.toClient = [])
      (hsends : if ((file.drop (512 * k)).take 512).length < 512 then Over z.client .success
        else Sends z.client .write (k + 1) (file.drop (512 * (k + 1))))
      (hreceives : Receives z.server .write k file) :
      Writing e name file z (2 * (file.length / 512 - k) + 2)
  | last (hserver : z.toServer = []) (hclient : ∃ d, z.toClient = [d] ∧ ∃ block, d.payload =
      (ackMessage block).payload)
      (hover : Written file z) : Writing e name file z 1
  | quiet (hserver : z.toServer = []) (hclient : z.toClient = []) (hover : Written file z) :
      Writing e name file z 0

variable {e : Ends} {name : CString} {file : List Byte} {z z' : Pair} {q : Packet}
  {layers errorLayers : Layers}
  {now : BitVec 32}

theorem step_toServer {d : Datagram} {rest : List Datagram} (hd : z.toServer = d :: rest) :
    step e z (.toServer q layers errorLayers now) =
      some (Pair.serverDid { z with toServer := rest } e (serverProcessPacket userCallbacks
        (z.server.tftp.answering e.clientAddress e.clientPort) z.server.user q layers
          errorLayers now)) := by
  simp only [step, hd]

theorem step_toClient {d : Datagram} {rest : List Datagram} (hd : z.toClient = d :: rest) :
    step e z (.toClient q layers errorLayers now) =
      some (Pair.clientDid { z with toClient := rest } e (clientProcessPacket userCallbacks
        (z.client.tftp.answering e.serverAddress e.serverPort) z.client.user q layers
          errorLayers now)) := by
  simp only [step, hd]

theorem request_read (type : ReqType) (hq : Carries q (requestMessage name.1 type).payload) :
    Carries q (be16 type.code ++
      (name.1.take (strnlen name.1 maxFilenameSize) ++ 0#8 :: (transferMode ++ [0#8]))) ∧
    2 ≤ (name.1.take (strnlen name.1 maxFilenameSize) ++ 0#8 :: (transferMode ++ [0#8])).length ∧
    readRequest q.read16bits.2 = .complete (name.1.take (strnlen name.1 maxFilenameSize)) := by
  rw [requestMessage_payload] at hq
  have hlen : 2 ≤ (name.1.take (strnlen name.1 maxFilenameSize) ++ 0#8 ::
      (transferMode ++ [0#8])).length := by
    rw [List.length_append, List.length_cons, List.length_append, transferMode]
    simp
  obtain ⟨-, -, hrest⟩ := hq.opcode hlen
  exact ⟨hq, hlen, readRequest_carries (fun c hc => name.2 c (List.mem_of_mem_take hc)) hrest⟩

/-- The server accepts the request and acknowledges it. -/
theorem requested_step
    (hserver : z.toServer = [⟨e.serverAddress, e.serverPort,
      (requestMessage name.1 .write).payload⟩]) (hclient : z.toClient = [])
    (hsends : Sends z.client .write 0 file) (hidle : z.server.tftp.Fresh)
    (hreceived : z.server.user.received = [])
    (hok : Lossless z (.toServer q layers errorLayers now))
    (hs : step e z (.toServer q layers errorLayers now) = some z') :
    Writing e name file z' (2 * (file.length / 512) + 3) := by
  obtain ⟨hworks, -, hq⟩ := hok
  rw [hserver] at hq
  obtain ⟨hq', hlen, hread⟩ := request_read .write hq
  rw [step_toServer hserver, serverProcessPacket_type hq' hlen (by decide)] at hs
  dsimp only at hs
  rw [processReadWriteRequest_write (x := z.server.tftp.answering e.clientAddress e.clientPort)
    hworks hidle.idle
      hread rfl] at hs
  obtain rfl := Option.some.inj hs
  refine .acknowledged 0 (Nat.zero_le _) rfl ?_ hsends ⟨rfl, rfl, ?_, hidle.ended⟩
  · simp [Pair.serverDid, hclient, Instance.answering]
  · simp [Pair.serverDid, hreceived]

/-- The client sends the next block, and ends its transfer with the last one. -/
theorem acknowledged_step {k : Nat} (hk : 512 * k ≤ file.length) (hserver : z.toServer = [])
    (hclient : z.toClient = [⟨e.clientAddress, e.clientPort, (ackMessage (BitVec.ofNat 16 k)).payload⟩])
    (hsends : Sends z.client .write k (file.drop (512 * k))) (hreceives : Receives z.server .write k file)
    (hok : Lossless z (.toClient q layers errorLayers now))
    (hs : step e z (.toClient q layers errorLayers now) = some z') :
    Writing e name file z' (2 * (file.length / 512 - k) + 2) := by
  obtain ⟨hworks, -, hq⟩ := hok
  rw [hclient] at hq
  have hq' : Carries q (be16 ReqType.ack.code ++ be16 (BitVec.ofNat 16 k)) := by
    rw [← ackMessage_payload]
    exact hq
  obtain ⟨-, -, hrest⟩ := hq'.opcode (by simp [be16])
  rw [← hsends.currentBlock] at hrest
  have hdata : userCallbacks.dataToSend z.client.user =
      (.success, (file.drop (512 * k)).take 512,
        { z.client.user with toSend := file.drop (512 * (k + 1)) }) := by
    rw [Nat.mul_succ, ← List.drop_drop, ← hsends.toSend]
    rfl
  rw [step_toClient hclient, clientProcessPacket_type hq' (by simp [be16]) (by decide)] at hs
  dsimp only at hs
  rw [processAckPacket_expected (x := z.client.tftp.answering e.serverAddress e.serverPort) hworks
    hsends.reqType hrest
      hdata (List.length_take_le _ _)] at hs
  obtain rfl := Option.some.inj hs
  refine .data k hk ?_ rfl ?_ hreceives
  · simp [Pair.clientDid, hserver, Instance.answering, hsends.currentBlock, ofNat_succ]
  · by_cases hlast : ((file.drop (512 * k)).take 512).length < 512
    · rw [if_pos hlast]
      dsimp only [Pair.clientDid]
      rw [if_pos hlast]
      exact ⟨rfl, by simp [Instance.ends, endOfTransfer, Instance.answering, hsends.ended]⟩
    · rw [if_neg hlast]
      dsimp only [Pair.clientDid]
      rw [if_neg hlast]
      refine ⟨hsends.reqType, ?_, rfl, hsends.ended⟩
      dsimp only [Instance.answering]
      rw [hsends.currentBlock, ofNat_succ]

/-- The server takes the block and acknowledges it, and ends its transfer with the last one. -/
theorem data_step {k : Nat} (hk : 512 * k ≤ file.length)
    (hserver : z.toServer = [⟨e.serverAddress, e.serverPort,
      (dataMessage (BitVec.ofNat 16 (k + 1)) ((file.drop (512 * k)).take 512)).payload⟩])
    (hclient : z.toClient = [])
    (hsends : if ((file.drop (512 * k)).take 512).length < 512 then Over z.client .success
      else Sends z.client .write (k + 1) (file.drop (512 * (k + 1))))
    (hreceives : Receives z.server .write k file)
    (hok : Lossless z (.toServer q layers errorLayers now))
    (hs : step e z (.toServer q layers errorLayers now) = some z') :
    ∃ r < 2 * (file.length / 512 - k) + 2, Writing e name file z' r := by
  obtain ⟨hworks, -, hq⟩ := hok
  rw [hserver] at hq
  have hq' : Carries q (be16 ReqType.data.code ++
      (be16 (BitVec.ofNat 16 (k + 1)) ++ (file.drop (512 * k)).take 512)) := by
    rw [← dataMessage_payload]
    exact hq
  have hlen : 2 ≤ (be16 (BitVec.ofNat 16 (k + 1)) ++ (file.drop (512 * k)).take 512).length := by
    rw [List.length_append]
    exact Nat.le_add_right 2 _
  obtain ⟨-, -, hrest⟩ := hq'.opcode hlen
  rw [← ofNat_succ, ← hreceives.currentBlock] at hrest
  have hflat : (z.server.user.received ++ [(file.drop (512 * k)).take 512]).flatten =
      file.take (512 * (k + 1)) := by
    rw [List.flatten_append, hreceives.received, List.flatten_singleton, Nat.mul_succ,
      List.take_add]
  rw [step_toServer hserver, serverProcessPacket_type hq' hlen (by decide)] at hs
  dsimp only at hs
  rw [processDataPacket_expected (x := z.server.tftp.answering e.clientAddress e.clientPort) hworks
    hreceives.reqType
      hrest rfl] at hs
  obtain rfl := Option.some.inj hs
  have hlength : ((file.drop (512 * k)).take 512).length = min 512 (file.length - 512 * k) := by
    rw [List.length_take, List.length_drop]
  by_cases hlast : ((file.drop (512 * k)).take 512).length < 512
  · rw [if_pos hlast] at hsends
    refine ⟨1, by omega, .last rfl
      ⟨⟨e.clientAddress, e.clientPort, (ackMessage (BitVec.ofNat 16 (k + 1))).payload⟩, ?_, _, rfl⟩
      ⟨?_, hsends, ?_⟩⟩
    · simp [Pair.serverDid, hclient, Instance.answering, hreceives.currentBlock, ofNat_succ]
    · dsimp only [Pair.serverDid]
      rw [hflat, List.take_of_length_le]
      omega
    · dsimp only [Pair.serverDid]
      rw [if_pos hlast]
      exact ⟨rfl, by simp [Instance.ends, endOfTransfer, Instance.answering, hreceives.ended]⟩
  · rw [if_neg hlast] at hsends
    have hfull : 512 * (k + 1) ≤ file.length := by omega
    have hdiv : k + 1 ≤ file.length / 512 := (Nat.le_div_iff_mul_le (by decide)).mpr (by omega)
    refine ⟨2 * (file.length / 512 - (k + 1)) + 3, by omega,
      .acknowledged (k + 1) hfull rfl ?_ hsends ⟨?_, ?_, hflat, ?_⟩⟩
    · simp [Pair.serverDid, hclient, Instance.answering, hreceives.currentBlock, ofNat_succ]
    · dsimp only [Pair.serverDid]
      rw [if_neg hlast]
      exact hreceives.reqType
    · dsimp only [Pair.serverDid]
      rw [if_neg hlast]
      dsimp only [Instance.answering]
      rw [hreceives.currentBlock, ofNat_succ]
    · dsimp only [Pair.serverDid]
      rw [if_neg hlast]
      exact hreceives.ended

theorem last_step (hserver : z.toServer = []) {d : Datagram} {block : BitVec 16}
    (hclient : z.toClient = [d]) (hd : d.payload = (ackMessage block).payload)
    (hover : Written file z) (hok : Lossless z (.toClient q layers errorLayers now))
    (hs : step e z (.toClient q layers errorLayers now) = some z') : Writing e name file z' 0 := by
  obtain ⟨-, -, hq⟩ := hok
  rw [hclient] at hq
  have hq' : Carries q (be16 ReqType.ack.code ++ be16 block) := by
    rw [← ackMessage_payload, ← hd]
    exact hq
  rw [step_toClient hclient, clientProcessPacket_type hq' (by simp [be16]) (by decide)] at hs
  dsimp only at hs
  rw [processAckPacket, if_neg
    (by dsimp only [Instance.answering]; rw [hover.client.reqType]; decide)] at hs
  obtain rfl := Option.some.inj hs
  refine .quiet ?_ rfl ⟨hover.delivered, ⟨hover.client.reqType, hover.client.ended⟩, hover.server⟩
  simp [Pair.clientDid, hserver, addressed]

/-- Every message that arrives brings the transfer nearer to its end. -/
theorem writing_step {r : Nat} (h : Writing e name file z r) {i : Input} (hok : Lossless z i)
    (hs : step e z i = some z') : ∃ r' < r, Writing e name file z' r' := by
  cases i with
  | toServer q layers errorLayers now =>
    cases h with
    | requested hserver hclient hsends hidle hreceived =>
      exact ⟨_, by omega, requested_step hserver hclient hsends hidle hreceived hok hs⟩
    | data k hk hserver hclient hsends hreceives =>
        exact data_step hk hserver hclient hsends hreceives hok hs
    | acknowledged k hk hserver | last hserver | quiet hserver =>
      simp only [step, hserver] at hs
      cases hs
  | toClient q layers errorLayers now =>
    cases h with
    | acknowledged k hk hserver hclient hsends hreceives =>
      exact ⟨_, Nat.lt_succ_self _, acknowledged_step hk hserver hclient hsends hreceives hok hs⟩
    | last hserver hclient hover =>
      obtain ⟨d, hclient, block, hd⟩ := hclient
      exact ⟨0, Nat.one_pos, last_step hserver hclient hd hover hok hs⟩
    | requested _ hclient | data _ _ _ hclient | quiet _ hclient =>
      simp only [step, hclient] at hs
      cases hs

def carrying (payload : List Byte) : Packet :=
  ⟨fun i => payload.getD i 0#8, 0, BitVec.ofNat 16 payload.length,
    BitVec.ofNat 16 payload.length, 0#32, none⟩

theorem carrying_carries {payload : List Byte} (h : payload.length < 2 ^ 16) :
    Carries (carrying payload) payload where
  bytes := by
    refine List.ext_getElem (by simp) fun i h₁ h₂ => ?_
    rw [Packet.bytes_getElem]
    change payload.getD (0 + 0 + i) 0#8 = _
    simp only [Nat.zero_add, List.getD_eq_getElem?_getD, List.getElem?_eq_getElem h₂,
      Option.getD_some]
  count := by
    change (BitVec.ofNat 16 payload.length).toNat = _
    rw [BitVec.toNat_ofNat, Nat.mod_eq_of_lt h]

def working : Layers := ⟨.ok (), .success⟩

theorem working_works : working.Works := ⟨rfl, rfl⟩

theorem exists_toServer {d : Datagram} {rest : List Datagram} (hd : z.toServer = d :: rest)
    (hlen : d.payload.length < 2 ^ 16) : ∃ i z', Lossless z i ∧ step e z i = some z' := by
  refine ⟨.toServer (carrying d.payload) working working 0#32, _,
    ⟨working_works, working_works, ?_⟩, step_toServer hd⟩
  rw [hd]
  exact carrying_carries hlen

theorem exists_toClient {d : Datagram} {rest : List Datagram} (hd : z.toClient = d :: rest)
    (hlen : d.payload.length < 2 ^ 16) : ∃ i z', Lossless z i ∧ step e z i = some z' := by
  refine ⟨.toClient (carrying d.payload) working working 0#32, _,
    ⟨working_works, working_works, ?_⟩, step_toClient hd⟩
  rw [hd]
  exact carrying_carries hlen

theorem ackMessage_length (block : BitVec 16) : (ackMessage block).payload.length < 2 ^ 16 := by
  rw [ackMessage_payload, List.length_append]
  change 2 + 2 < 2 ^ 16
  decide

theorem dataMessage_length (block : BitVec 16) (data : List Byte) :
    (dataMessage block (data.take 512)).payload.length < 2 ^ 16 := by
  rw [dataMessage_payload, List.length_append, List.length_append, List.length_take]
  have htwo : (be16 ReqType.data.code).length = 2 := rfl
  have htwo' : (be16 block).length = 2 := rfl
  omega

theorem writing_goes {r : Nat} (hr : 0 < r) (h : Writing e name file z r) :
    ∃ i z', Lossless z i ∧ step e z i = some z' := by
  cases h with
  | requested hserver =>
    exact exists_toServer hserver
      (Nat.lt_of_le_of_lt (requestMessage_length name.1 .write) (by decide))
  | acknowledged k _ _ hclient => exact exists_toClient hclient (ackMessage_length _)
  | data k _ hserver => exact exists_toServer hserver (dataMessage_length _ _)
  | last _ hclient =>
    obtain ⟨d, hclient, block, hd⟩ := hclient
    exact exists_toClient hclient (by rw [hd]; exact ackMessage_length block)
  | quiet => exact absurd hr (lt_irrefl 0)

theorem Writing.quiet_written {r : Nat} (h : Writing e name file z r) (hz : z.Quiet) :
    Written file z := by
  cases h with
  | requested hserver | data _ _ hserver =>
    rw [hz.1] at hserver
    cases hserver
  | acknowledged _ _ _ hclient =>
    rw [hz.2] at hclient
    cases hclient
  | last _ _ hover | quiet _ _ hover => exact hover

theorem start_writing {client server : Instance} (hc : client.Fresh) (hs : server.Fresh)
    (hworks : layers.Works) :
    Writing e name file (start e client server name .write file [] layers now)
      (2 * (file.length / 512) + 4) := by
  rw [start, sendReadWriteRequest_works hworks]
  exact .requested (by simp [Pair.clientDid]) rfl ⟨rfl, rfl, rfl, hc.ended⟩ hs rfl

/-- Every run from a state comes to an end, and then all is done. -/
def Completes (e : Ends) (z : Pair) (Done : Pair → Prop) : Prop :=
  (∀ z', Lib.Reach (step e) Lossless z z' → z'.Quiet → Done z') ∧
    ∃ z', Lib.Reach (step e) Lossless z z' ∧ z'.Quiet

/-- A file of any length is written to the server: no run takes more than two messages a
block, and when none is in flight any more the file has been delivered and both sides have
ended their transfer once and well. -/
theorem write_transfer (e : Ends) {client server : Instance} (hc : client.Fresh) (hs : server.Fresh)
    (name : CString) (file : List Byte) {layers : Layers} (hworks : layers.Works)
    (now : BitVec 32) :
    Completes e (start e client server name .write file [] layers now) (Written file) ∧
      ∀ is z', Lib.runInputs (step e) Lossless
        (start e client server name .write file [] layers now) is = some z' →
        is.length ≤ 2 * (file.length / 512) + 4 := by
  have hstart : Writing e name file (start e client server name .write file [] layers now)
    (2 * (file.length / 512) + 4) := start_writing hc hs hworks
  have hstep : ∀ s i s' r, Writing e name file s r → Lossless s i → step e s i = some s' →
      ∃ r' < r, Writing e name file s' r' := fun s i s' r h hok hs => writing_step h hok hs
  refine ⟨⟨fun z' hreach hz => ?_, ?_⟩, fun is z' hrun => ?_⟩
  · obtain ⟨r, hr⟩ := hreach.invariant (I := fun z => ∃ r, Writing e name file z r) ⟨_, hstart⟩
      fun s i s' ⟨r, h⟩ hok hs => (writing_step h hok hs).imp fun _ h => h.2
    exact hr.quiet_written hz
  · obtain ⟨z', hreach, hzero⟩ :=
      Lib.Reach.exists_zero hstep (fun s r hr h => writing_goes hr h) _ hstart
    cases hzero with
    | quiet hserver hclient => exact ⟨z', hreach, hserver, hclient⟩
  · obtain ⟨r, -, hle⟩ := Lib.runInputs_ranked hstep hstart hrun
    omega

/-- A client 192.168.1.1 and a server 192.168.1.2 that have done nothing yet. -/
def sampleEnds : Ends := ⟨0xC0A80101#32, 69#16, 0xC0A80102#32, 69#16⟩
def idleInstance : Instance := ⟨⟨.idle, 0#32, 1000#32, .undefined, false, []⟩, 0#16, 0#32, 0#16⟩
def sampleName : CString := ⟨[0x66#8], by decide⟩

theorem idleInstance_fresh : idleInstance.Fresh := ⟨rfl, rfl⟩

theorem write_transfer_sample : Completes sampleEnds
    (start sampleEnds idleInstance idleInstance sampleName .write [1#8, 2#8, 3#8] [] working 0#32)
    (Written [1#8, 2#8, 3#8]) :=
  (write_transfer sampleEnds idleInstance_fresh idleInstance_fresh sampleName _
    working_works 0#32).1

end Write

end NanoIp.Tftp
