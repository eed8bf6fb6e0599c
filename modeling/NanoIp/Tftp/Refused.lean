import NanoIp.Tftp.Transfer

/-!
# Reads between the module's client and its server

The server numbers its data from the block of its last acknowledgement, which for a read
has not been sent: its first data is block zero. The client counts a block before it
compares, and answers the first data with an error.
-/
namespace NanoIp.Tftp

open Packet (be16)

variable {e : Ends} {name : CString} {file : List Byte} {z z' : Pair} {q : Packet}
  {layers errorLayers : Layers}
  {now : BitVec 32}

/-- A file has come to the client. -/
structure Read (file : List Byte) (z : Pair) : Prop where
  delivered : z.client.user.received.flatten = file
  client : Over z.client .success
  server : Over z.server .success

/-- The client has given its transfer up with nothing received, and the server has ended its
own: with the error of the client, unless its first data was its last. -/
structure Refused (file : List Byte) (z : Pair) : Prop where
  received : z.client.user.received = []
  client : Over z.client .unknownTransferId
  server : Over z.server (if file.length < 512 then .success else .unknownTransferId)

/-- The server once it has sent its first data. -/
def Served (file : List Byte) (x : Node) : Prop :=
  if file.length < 512 then Over x .success else x.tftp.reqType = .read ∧ x.tftp.ended = []

/-- Where a transfer from the server stands, and how many messages are still to arrive. -/
inductive Reading (e : Ends) (name : CString) (file : List Byte) (z : Pair) : Nat → Prop
  | requested (hserver : z.toServer =
      [⟨e.serverAddress, e.serverPort, (requestMessage name.1 .read).payload⟩])
      (hclient : z.toClient = []) (hreceives : Receives z.client .read 0 file)
        (hreceived : z.client.user.received = [])
      (hidle : z.server.tftp.Fresh) (htoSend : z.server.user.toSend = file) :
        Reading e name file z 3
  | served (hserver : z.toServer = [])
      (hclient : z.toClient = [⟨e.clientAddress, e.clientPort,
        (dataMessage 0#16 (file.take 512)).payload⟩])
      (hreceives : Receives z.client .read 0 file) (hreceived : z.client.user.received = [])
      (hserved : Served file z.server) : Reading e name file z 2
  | refused (hserver : z.toServer =
      [⟨e.serverAddress, e.serverPort, (errorMessage .unknownTransferId).payload⟩])
      (hclient : z.toClient = []) (hreceived : z.client.user.received = [])
        (hover : Over z.client .unknownTransferId)
      (hserved : Served file z.server) : Reading e name file z 1
  | quiet (hserver : z.toServer = []) (hclient : z.toClient = []) (hover : Refused file z) :
      Reading e name file z 0

/-- The server accepts the request and answers with block zero. -/
theorem read_requested_step
    (hserver : z.toServer = [⟨e.serverAddress, e.serverPort,
      (requestMessage name.1 .read).payload⟩]) (hclient : z.toClient = [])
    (hreceives : Receives z.client .read 0 file) (hreceived : z.client.user.received = [])
    (hidle : z.server.tftp.Fresh) (htoSend : z.server.user.toSend = file)
    (hok : Lossless z (.toServer q layers errorLayers now))
    (hs : step e z (.toServer q layers errorLayers now) = some z') : Reading e name file z' 2 := by
  obtain ⟨hworks, -, hq⟩ := hok
  rw [hserver] at hq
  obtain ⟨hq', hlen, hread⟩ := request_read .read hq
  have hdata : userCallbacks.dataToSend z.server.user =
      (.success, file.take 512, { z.server.user with toSend := file.drop 512 }) := by
    rw [← htoSend]
    rfl
  rw [step_toServer hserver, serverProcessPacket_type hq' hlen (by decide)] at hs
  dsimp only at hs
  rw [processReadWriteRequest_read (x := z.server.tftp.answering e.clientAddress e.clientPort)
    hworks hidle.idle
      hread rfl hdata (List.length_take_le _ _)] at hs
  obtain rfl := Option.some.inj hs
  have hlast : (file.take 512).length < 512 ↔ file.length < 512 := by
    rw [List.length_take]
    omega
  refine .served rfl ?_ hreceives hreceived ?_
  · simp [Pair.serverDid, hclient, Instance.answering]
  · dsimp only [Served, Pair.serverDid]
    simp only [hlast]
    by_cases hshort : file.length < 512
    · rw [if_pos hshort, if_pos hshort]
      exact ⟨rfl, by simp [Instance.ends, endOfTransfer, Instance.answering, hidle.ended]⟩
    · rw [if_neg hshort, if_neg hshort]
      exact ⟨rfl, hidle.ended⟩

/-- The client waits for block one. -/
theorem served_step (hserver : z.toServer = [])
    (hclient : z.toClient = [⟨e.clientAddress, e.clientPort,
      (dataMessage 0#16 (file.take 512)).payload⟩]) (hreceives : Receives z.client .read 0 file)
    (hreceived : z.client.user.received = []) (hserved : Served file z.server)
    (hok : Lossless z (.toClient q layers errorLayers now))
    (hs : step e z (.toClient q layers errorLayers now) = some z') : Reading e name file z' 1 := by
  obtain ⟨-, hworks, hq⟩ := hok
  rw [hclient] at hq
  have hq' : Carries q (be16 ReqType.data.code ++ (be16 0#16 ++ file.take 512)) := by
    rw [← dataMessage_payload]
    exact hq
  have hlen : 2 ≤ (be16 0#16 ++ file.take 512).length := by
    rw [List.length_append]
    exact Nat.le_add_right 2 _
  obtain ⟨-, -, hrest⟩ := hq'.opcode hlen
  have hblock : 0#16 ≠ z.client.tftp.currentBlock + 1#16 := by
    rw [hreceives.currentBlock]
    decide
  rw [step_toClient hclient, clientProcessPacket_type hq' hlen (by decide)] at hs
  dsimp only at hs
  rw [processDataPacket_unexpected
    (x := z.client.tftp.answering e.serverAddress e.serverPort) hworks
      hreceives.reqType hrest hblock] at hs
  obtain rfl := Option.some.inj hs
  refine .refused ?_ rfl hreceived ⟨rfl, ?_⟩ hserved
  · simp [Pair.clientDid, hserver, Instance.answering]
  · simp [Pair.clientDid, Instance.ends, endOfTransfer, Instance.answering, hreceives.ended]

/-- The error ends the transfer of a server that has not ended it yet. -/
theorem refused_step
    (hserver : z.toServer = [⟨e.serverAddress, e.serverPort,
      (errorMessage .unknownTransferId).payload⟩]) (hclient : z.toClient = [])
    (hreceived : z.client.user.received = []) (hover : Over z.client .unknownTransferId)
    (hserved : Served file z.server) (hok : Lossless z (.toServer q layers errorLayers now))
    (hs : step e z (.toServer q layers errorLayers now) = some z') : Reading e name file z' 0 := by
  obtain ⟨-, -, hq⟩ := hok
  rw [hserver] at hq
  have hq' : Carries q (be16 ReqType.error.code ++
      (be16 TftpErr.unknownTransferId.code ++ [0#8])) := by
    rw [← errorMessage_payload]
    exact hq
  obtain ⟨-, -, hrest⟩ := hq'.opcode (by simp [be16])
  rw [step_toServer hserver, serverProcessPacket_type hq' (by simp [be16]) (by decide)] at hs
  dsimp only at hs
  by_cases hshort : file.length < 512
  · rw [Served, if_pos hshort] at hserved
    have hidle : (z.server.tftp.answering e.clientAddress e.clientPort).reqType = .idle :=
      hserved.reqType
    rw [processErrorPacket, if_neg (not_not_intro hidle)] at hs
    obtain rfl := Option.some.inj hs
    refine .quiet rfl ?_ ⟨hreceived, hover, ?_⟩
    · simp [Pair.serverDid, hclient, addressed]
    · rw [if_pos hshort]
      exact ⟨hserved.reqType, hserved.ended⟩
  · rw [Served, if_neg hshort] at hserved
    rw [processErrorPacket_error (x := z.server.tftp.answering e.clientAddress e.clientPort)
      (by dsimp only [Instance.answering]; rw [hserved.1]; decide) hrest] at hs
    obtain rfl := Option.some.inj hs
    refine .quiet rfl ?_ ⟨hreceived, hover, ?_⟩
    · simp [Pair.serverDid, hclient, addressed]
    · rw [if_neg hshort]
      exact ⟨rfl, by
        simp [Pair.serverDid, Instance.ends, endOfTransfer, Instance.answering, hserved.2,
        TftpErr.ofCode,
        TftpErr.code]⟩

/-- Every message that arrives brings the transfer nearer to its end. -/
theorem reading_step {r : Nat} (h : Reading e name file z r) {i : Input} (hok : Lossless z i)
    (hs : step e z i = some z') : ∃ r' < r, Reading e name file z' r' := by
  cases i with
  | toServer q layers errorLayers now =>
    cases h with
    | requested hserver hclient hreceives hreceived hidle htoSend =>
      exact ⟨2, by
        decide, read_requested_step hserver hclient hreceives hreceived hidle htoSend hok hs⟩
    | refused hserver hclient hreceived hover hserved =>
      exact ⟨0, by decide, refused_step hserver hclient hreceived hover hserved hok hs⟩
    | served hserver | quiet hserver =>
      simp only [step, hserver] at hs
      cases hs
  | toClient q layers errorLayers now =>
    cases h with
    | served hserver hclient hreceives hreceived hserved =>
      exact ⟨1, by decide, served_step hserver hclient hreceives hreceived hserved hok hs⟩
    | requested _ hclient | refused _ hclient | quiet _ hclient =>
      simp only [step, hclient] at hs
      cases hs

theorem errorMessage_length (error : TftpErr) : (errorMessage error).payload.length < 2 ^ 16 := by
  rw [errorMessage_payload, List.length_append, List.length_append]
  change 2 + (2 + 1) < 2 ^ 16
  decide

theorem reading_goes {r : Nat} (hr : 0 < r) (h : Reading e name file z r) :
    ∃ i z', Lossless z i ∧ step e z i = some z' := by
  cases h with
  | requested hserver =>
    exact exists_toServer hserver
      (Nat.lt_of_le_of_lt (requestMessage_length name.1 .read) (by decide))
  | served _ hclient => exact exists_toClient hclient (dataMessage_length _ _)
  | refused hserver => exact exists_toServer hserver (errorMessage_length _)
  | quiet => exact absurd hr (lt_irrefl 0)

theorem Reading.quiet_refused {r : Nat} (h : Reading e name file z r) (hz : z.Quiet) :
    Refused file z := by
  cases h with
  | requested hserver | refused hserver =>
    rw [hz.1] at hserver
    cases hserver
  | served _ hclient =>
    rw [hz.2] at hclient
    cases hclient
  | quiet _ _ hover => exact hover

theorem start_reading {client server : Instance} (name : CString) (hc : client.Fresh)
    (hs : server.Fresh) (hworks : layers.Works) :
    Reading e name file (start e client server name .read [] file layers now) 3 := by
  rw [start, sendReadWriteRequest_works hworks]
  exact .requested (by simp [Pair.clientDid]) rfl ⟨rfl, rfl, rfl, hc.ended⟩ rfl hs rfl

theorem reading_refused {r : Nat} (h : Reading e name file z r) : Completes e z (Refused file) := by
  constructor
  · intro z' hreach hz
    obtain ⟨r', hr'⟩ := hreach.invariant (I := fun z => ∃ r, Reading e name file z r) ⟨r, h⟩
      fun s i s' ⟨r, h⟩ hok hs => (reading_step h hok hs).imp fun _ h => h.2
    exact hr'.quiet_refused hz
  · obtain ⟨z', hreach, hzero⟩ := Lib.Reach.exists_zero
      (fun s i s' r h hok hs => reading_step h hok hs)
      (fun s r hr h => reading_goes hr h) r h
    cases hzero with
    | quiet hserver hclient => exact ⟨z', hreach, hserver, hclient⟩

theorem Refused.not_read (h : Refused file z) : ¬ Read file z := by
  intro hread
  have hended := h.client.ended.symm.trans hread.client.ended
  simp at hended

theorem not_completes (h : Completes e z (Refused file)) : ¬ Completes e z (Read file) := by
  intro hread
  obtain ⟨z', hreach, hz⟩ := h.2
  exact (h.1 z' hreach hz).not_read (hread.1 z' hreach hz)

/-- No file is ever read from the server: whatever the order of arrivals, the client refuses
the first data and both sides come to rest with nothing received. -/
theorem read_never (e : Ends) {client server : Instance} (hc : client.Fresh) (hs : server.Fresh)
    (name : CString) (file : List Byte) {layers : Layers} (hworks : layers.Works)
    (now : BitVec 32) :
    ¬ Completes e (start e client server name .read [] file layers now) (Read file) ∧
      Completes e (start e client server name .read [] file layers now) (Refused file) := by
  have hrefused : Completes e (start e client server name .read [] file layers now)
    (Refused file) :=
    reading_refused (start_reading name hc hs hworks)
  exact ⟨not_completes hrefused, hrefused⟩

theorem read_never_sample :
    ¬ Completes sampleEnds (start sampleEnds idleInstance idleInstance sampleName .read []
      [1#8, 2#8, 3#8] working 0#32)
      (Read [1#8, 2#8, 3#8]) :=
  (read_never sampleEnds idleInstance_fresh idleInstance_fresh sampleName _ working_works 0#32).1

/-- An empty file cannot be read either. -/
theorem empty_read_refused :
    ¬ Completes sampleEnds (start sampleEnds idleInstance idleInstance sampleName .read [] []
      working 0#32) (Read []) :=
  not_completes (reading_refused (start_reading sampleName idleInstance_fresh idleInstance_fresh
    working_works))

end NanoIp.Tftp
