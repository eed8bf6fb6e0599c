import NanoIp.Tftp.Machine

/-!
# What the TFTP operations do

Each operation on the message it expects, with layers below that work. A received packet
is known by its payload; what follows it in the buffer does not matter.
-/
namespace NanoIp.Tftp

open Packet (be16)

variable {υ : Type}

/-- Allocations and sends succeed. -/
def Layers.Works (layers : Layers) : Prop := layers.alloc = .ok () ∧ layers.send.accepted = true

/-- A packet object as UDP delivers a payload. -/
structure Carries (q : Packet) (payload : List Byte) : Prop where
  bytes : q.Holds 0 payload
  count : q.count.toNat = payload.length

theorem Layers.Works.sends {layers : Layers} (h : layers.Works) (destAddress : Ipv4Address)
    (destPort : BitVec 16) (message : Message) : layers.sends destAddress destPort message =
      (true, [⟨destAddress, destPort, message.payload⟩]) := by
  rw [Layers.sends, h.1]
  dsimp only
  rw [if_pos h.2]

section Carries

variable {q : Packet} {as bs : List Byte}

theorem Carries.skip (as : List Byte) (h : Carries q (as ++ bs)) {size : BitVec 16}
    (hsize : size.toNat = as.length) :
    Carries (q.readSkipBytes size) bs := by
  have hcount := h.count
  rw [List.length_append] at hcount
  refine ⟨?_, ?_⟩
  · rw [Packet.holds_readSkipBytes, hsize, Nat.add_zero, ← Nat.zero_add as.length]
    exact (Packet.holds_append.mp h.bytes).2
  · change (q.count - size).toNat = _
    rw [BitVec.toNat_sub_of_le (by rw [BitVec.le_def]; omega), hcount, hsize,
      Nat.add_sub_cancel_left]

theorem Carries.whole (h : Carries q bs) : q.bytes q.current q.count.toNat = bs := by
  rw [h.count]
  exact h.bytes

theorem Carries.read16bits {v : BitVec 16} (h : Carries q (be16 v ++ bs)) :
    q.read16bits.1 = v ∧ Carries q.read16bits.2 bs :=
  ⟨(Packet.holds_append.mp h.bytes).1.wordAt, h.skip _ rfl⟩

theorem Carries.cons {c : Byte} (h : Carries q (c :: bs)) :
    q.byteAt 0 = c ∧ q.count ≠ 0#16 ∧ Carries (q.readSkipBytes 1#16) bs := by
  refine ⟨Packet.Holds.byteAt h.bytes, fun hzero => ?_, Carries.skip [c] h rfl⟩
  have hlen := h.count
  rw [hzero] at hlen
  simp at hlen

/-- The loops stop at the end of a string. -/
theorem skipString_string (s : List Byte) (hs : ∀ c ∈ s, c ≠ 0#8) :
    ∀ {q : Packet} (rest : List Byte) {fuel : Nat},
    Carries q (s ++ 0#8 :: rest) → s.length ≤ fuel → Carries (skipString fuel q) (0#8 :: rest) := by
  induction s with
  | nil =>
    intro q rest fuel h _
    cases fuel with
    | zero => exact h
    | succ fuel =>
      rw [skipString, if_neg fun hc => hc.1 h.cons.1]
      exact h
  | cons c s ih =>
    intro q rest fuel h hf
    cases fuel with
    | zero => simp at hf
    | succ fuel =>
      obtain ⟨hc, hcount, hrest⟩ := h.cons
      have hne : q.byteAt 0 ≠ 0#8 := hc ▸ hs c List.mem_cons_self
      rw [skipString, if_pos ⟨hne, hcount⟩]
      exact ih (fun d hd => hs d (List.mem_cons_of_mem c hd)) rest hrest (by simpa using hf)

theorem strncmpEqual_prefix (s : List Byte) : ∀ {q : Packet} (rest : List Byte) {fuel : Nat},
    Carries q (s ++ rest) → strncmpEqual s q fuel = true := by
  induction s with
  | nil => intro q rest fuel _; cases fuel <;> rfl
  | cons c s ih =>
    intro q rest fuel h
    cases fuel with
    | zero => rfl
    | succ fuel =>
      obtain ⟨hc, -, hrest⟩ := h.cons
      rw [strncmpEqual, hc, ih rest hrest]
      simp

/-- A request is read as it was written. -/
theorem readRequest_carries {name : List Byte} (hname : ∀ c ∈ name, c ≠ 0#8)
    (h : Carries q (name ++ 0#8 :: (transferMode ++ [0#8]))) : readRequest q = .complete name := by
  have hlen := h.count
  rw [List.length_append] at hlen
  have hfirst : Carries (skipString q.count.toNat q) (0#8 :: (transferMode ++ [0#8])) :=
    skipString_string name hname _ h (by omega)
  have hmode : Carries ((skipString q.count.toNat q).readSkipBytes 1#16) (transferMode ++ [0#8]) :=
    Carries.skip [0#8] hfirst rfl
  have hlen' := hmode.count
  set q' := (skipString q.count.toNat q).readSkipBytes 1#16
  have hsecond : Carries (skipString q'.count.toNat q') [0#8] :=
    skipString_string transferMode (by decide) [] hmode (by rw [hlen', List.length_append]; omega)
  have hfilename : (q.bytes q.current q.count.toNat).takeWhile (fun c => c ≠ 0#8) = name := by
    rw [h.whole, List.takeWhile_append_of_pos (by simpa using hname)]
    simp
  unfold readRequest
  dsimp only
  rw [if_pos hfirst.cons.2.1, if_pos hsecond.cons.2.1, hfilename,
    strncmpEqual_prefix _ [] (by rwa [List.append_nil])]
  rfl

end Carries

section Operations

variable {callbacks : Callbacks υ} {x : Instance} {user : υ} {q : Packet} {type : ReqType}
  {layers errorLayers : Layers}
  {now : BitVec 32} {block : BitVec 16} {data : List Byte}

theorem sendData_works (hworks : layers.Works) {user' : υ}
    (hdata : callbacks.dataToSend user = (.success, data, user')) :
    sendData callbacks x user layers = ⟨true, BitVec.ofNat 16 data.length, user',
      [⟨x.destAddress, x.destPort, (dataMessage x.currentBlock data).payload⟩]⟩ := by
  rw [sendData, hworks.1]
  simp only [hdata, if_true, hworks.sends]

theorem dataSize_lt (h : data.length ≤ 512) :
    BitVec.ofNat 16 data.length < dataPacketPayloadSize ↔ data.length < 512 := by
  rw [BitVec.lt_def, BitVec.toNat_ofNat, Nat.mod_eq_of_lt (by omega)]
  exact Iff.rfl

theorem processAckPacket_expected (hworks : layers.Works) (htype : x.reqType = type)
    (hq : Carries q (be16 x.currentBlock)) {user' : υ}
    (hdata : callbacks.dataToSend user = (.success, data, user')) (hlen : data.length ≤ 512) :
    processAckPacket callbacks x user q type layers errorLayers now =
      let x' := { x with lastRxPacketTimestamp := now, currentBlock := x.currentBlock + 1#16 }
      ⟨if data.length < 512 then Instance.ends { x' with lastError := .success } else x', user',
        [⟨x.destAddress, x.destPort, (dataMessage (x.currentBlock + 1#16) data).payload⟩]⟩ := by
  have hblock : q.read16bits.1 = x.currentBlock := Packet.Holds.wordAt hq.bytes
  rw [processAckPacket, if_pos htype]
  dsimp only
  rw [if_pos hblock, sendData_works hworks hdata]
  dsimp only
  rw [if_pos rfl]
  by_cases hlast : data.length < 512
  · rw [if_pos ((dataSize_lt hlen).mpr hlast), if_pos hlast]
  · rw [if_neg fun h => hlast ((dataSize_lt hlen).mp h), if_neg hlast]

/-- The block that follows is given to the user and acknowledged. -/
theorem processDataPacket_expected (hworks : layers.Works) (htype : x.reqType = type)
    (hq : Carries q (be16 (x.currentBlock + 1#16) ++ data)) {user' : υ}
    (hdata : callbacks.dataReceived user data = (.success, user')) :
    processDataPacket callbacks x user q type layers errorLayers now =
      let x' := { x with lastRxPacketTimestamp := now, currentBlock := x.currentBlock + 1#16 }
      ⟨if data.length < 512 then Instance.ends { x' with lastError := .success } else x', user',
        [⟨x.destAddress, x.destPort, (ackMessage (x.currentBlock + 1#16)).payload⟩]⟩ := by
  obtain ⟨hblock, hrest⟩ := hq.read16bits
  rcases hread : q.read16bits with ⟨number, p⟩
  rw [hread] at hblock hrest
  dsimp only at hblock hrest
  have hlast : p.count < dataPacketPayloadSize ↔ data.length < 512 := by
    rw [BitVec.lt_def, hrest.count]
    exact Iff.rfl
  rw [processDataPacket, if_pos htype]
  simp only [hread, hblock, if_true, hrest.whole, hdata, sendAcknowledge, hworks.sends, hlast]
  by_cases hshort : data.length < 512
  · rw [if_pos hshort, if_pos hshort]
  · rw [if_neg hshort, if_neg hshort]

theorem processDataPacket_unexpected (hworks : errorLayers.Works) (htype : x.reqType = type)
    (hq : Carries q (be16 block ++ data)) (hblock : block ≠ x.currentBlock + 1#16) :
    processDataPacket callbacks x user q type layers errorLayers now =
      ⟨Instance.ends { x with
        lastRxPacketTimestamp := now, currentBlock := x.currentBlock + 1#16,
          lastError := .unknownTransferId },
        user, [⟨x.destAddress, x.destPort, (errorMessage .unknownTransferId).payload⟩]⟩ := by
  obtain ⟨hread, -⟩ := hq.read16bits
  rw [processDataPacket, if_pos htype]
  dsimp only
  rw [if_neg (by rw [hread]; exact hblock), failTransfer, sendError, hworks.sends]

theorem processReadWriteRequest_write (hworks : layers.Works) (hidle : x.reqType = .idle)
    {name : List Byte} (hread : readRequest q = .complete name) {user' : υ}
    (haccept : callbacks.reqReceived user .write name = (.success, user')) :
    processReadWriteRequest callbacks x user q .write layers errorLayers now =
      ⟨{ x with
        lastRxPacketTimestamp := now, timerRuns := true, reqType := .write, currentBlock := 0#16
        lastError := .success },
        user', [⟨x.destAddress, x.destPort, (ackMessage 0#16).payload⟩]⟩ := by
  rw [processReadWriteRequest, if_pos hidle]
  simp only [hread, haccept, if_true, sendAcknowledge, hworks.sends]

theorem processReadWriteRequest_read (hworks : layers.Works) (hidle : x.reqType = .idle)
    {name : List Byte} (hread : readRequest q = .complete name) {user' user'' : υ}
    (haccept : callbacks.reqReceived user .read name = (.success, user'))
    (hdata : callbacks.dataToSend user' = (.success, data, user'')) (hlen : data.length ≤ 512) :
    processReadWriteRequest callbacks x user q .read layers errorLayers now =
      let x' := { x with
        lastRxPacketTimestamp := now, timerRuns := true, reqType := .read,
          currentBlock := 0#16, lastError := .success }
      ⟨if data.length < 512 then x'.ends else x', user'',
        [⟨x.destAddress, x.destPort, (dataMessage 0#16 data).payload⟩]⟩ := by
  rw [processReadWriteRequest, if_pos hidle]
  simp only [hread, haccept, if_true, sendData_works hworks hdata]
  rw [if_neg (by decide)]
  by_cases hlast : data.length < 512
  · rw [if_pos ((dataSize_lt hlen).mpr hlast), if_pos hlast]
  · rw [if_neg fun h => hlast ((dataSize_lt hlen).mp h), if_neg hlast]

theorem processErrorPacket_error {user : υ} (htype : x.reqType ≠ .idle)
    (hq : Carries q (be16 block ++ data)) :
    processErrorPacket callbacks x user q = ⟨Instance.ends { x with lastError := .ofCode block },
      callbacks.errorReceived user block data, []⟩ := by
  obtain ⟨hread, hrest⟩ := hq.read16bits
  rcases hboth : q.read16bits with ⟨number, p⟩
  rw [hboth] at hread hrest
  rw [processErrorPacket, if_pos htype]
  simp only [hboth, hrest.whole]
  rw [show number = block from hread]

end Operations

end NanoIp.Tftp
