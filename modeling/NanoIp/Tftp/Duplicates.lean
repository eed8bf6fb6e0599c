import NanoIp.Tftp.Ends

/-!
# Packets of a transfer that come twice

A block that is repeated is no more expected than any other. The receiver of data counts it
before it looks at its number, and both sides answer a number that they do not expect with an
error and the end of the transfer; one that is expected again, because the numbers have come
round, is taken for a new block.
-/
namespace NanoIp.Tftp.Life

variable {υ : Type} {callbacks : Callbacks υ} {x : Instance} {user : υ} {calls : List Call}
  {q : Packet}
  {type : ReqType} {layers errorLayers : Layers} {now : BitVec 32}

/-- What an operation leaves when it has passed over a packet; an acknowledgement may have been
sent again. -/
structure PassesOver (x : Instance) (calls : List Call) (out : Outcome (υ × List Call)) : Prop where
  currentBlock : out.tftp.currentBlock = x.currentBlock
  reqType : out.tftp.reqType = x.reqType
  ended : out.tftp.ended = x.ended
  noData : ∀ data err, Call.dataReceived data err ∉ out.user.2.drop calls.length
  noError : ∀ d ∈ out.sent, ∀ error, d.payload ≠ (errorMessage error).payload

/-- The transfer is ended, and the peer is told that the block was not expected. -/
structure BrokenOff (x : Instance) (user : υ) (calls : List Call) (errorLayers : Layers)
    (out : Outcome (υ × List Call)) : Prop where
  reqType : out.tftp.reqType = .idle
  ended : out.tftp.ended = x.ended ++ [.unknownTransferId]
  user : out.user = (user, calls)
  sent : out.sent = (errorLayers.sends x.destAddress x.destPort (errorMessage .unknownTransferId)).2

theorem BrokenOff.disturbs {out : Outcome (υ × List Call)}
    (hr : BrokenOff x user calls errorLayers out) (hgoing : x.reqType ≠ .idle) :
    ¬ PassesOver x calls out := fun hu =>
  hgoing (hu.reqType.symm.trans hr.reqType)

theorem processDataPacket_counts (hgoing : x.reqType = type) :
    (processDataPacket callbacks x user q type layers errorLayers now).tftp.currentBlock =
      x.currentBlock + 1#16 := by
  rw [processDataPacket, if_pos hgoing]
  dsimp only
  split_ifs <;> rfl

theorem processDataPacket_refused (hgoing : x.reqType = type)
    (hblock : q.read16bits.1 ≠ x.currentBlock + 1#16) :
    BrokenOff x user calls errorLayers
      (processDataPacket (recorded callbacks) x (user, calls) q type layers errorLayers now) := by
  rw [processDataPacket, if_pos hgoing]
  dsimp only
  rw [if_neg hblock]
  exact ⟨rfl, rfl, rfl, rfl⟩

theorem processAckPacket_refused (hgoing : x.reqType = type)
    (hblock : q.read16bits.1 ≠ x.currentBlock) :
    BrokenOff x user calls errorLayers
      (processAckPacket (recorded callbacks) x (user, calls) q type layers errorLayers now) := by
  rw [processAckPacket, if_pos hgoing]
  dsimp only
  rw [if_neg hblock]
  exact ⟨rfl, rfl, rfl, rfl⟩

theorem processAckPacket_counts (hgoing : x.reqType = type)
    (hblock : q.read16bits.1 = x.currentBlock) :
    (processAckPacket callbacks x user q type layers errorLayers now).tftp.currentBlock =
      x.currentBlock + 1#16 := by
  rw [processAckPacket, if_pos hgoing]
  dsimp only
  rw [if_pos hblock]
  split_ifs <;> rfl

theorem counted_disturbs {out : Outcome (υ × List Call)}
    (h : out.tftp.currentBlock = x.currentBlock + 1#16) :
    ¬ PassesOver x calls out := by
  intro hu
  have hsame := hu.currentBlock.symm.trans h
  have hne : x.currentBlock ≠ x.currentBlock + 1#16 := by bv_omega
  exact hne hsame

/-- No packet of the peer, and so none that repeats a block, leaves a transfer as it is: one
whose number is not the next ends it with an error, and any other is counted as new. -/
theorem duplicate_disturbs (callbacks : Callbacks υ) (user : υ) (calls : List Call) (q : Packet)
    (layers errorLayers : Layers) (now : BitVec 32) (hgoing : x.reqType = type)
    (htype : type ≠ .idle) :
    (¬ PassesOver x calls
        (processDataPacket (recorded callbacks) x (user, calls) q type layers errorLayers now) ∧
      (q.read16bits.1 ≠ x.currentBlock + 1#16 → BrokenOff x user calls errorLayers
        (processDataPacket (recorded callbacks) x (user, calls) q type layers errorLayers now))) ∧
    ¬ PassesOver x calls
        (processAckPacket (recorded callbacks) x (user, calls) q type layers errorLayers now) ∧
      (q.read16bits.1 ≠ x.currentBlock → BrokenOff x user calls errorLayers
        (processAckPacket (recorded callbacks) x (user, calls) q type layers errorLayers now)) := by
  refine ⟨⟨counted_disturbs (processDataPacket_counts hgoing),
    processDataPacket_refused hgoing⟩, ?_,
    processAckPacket_refused hgoing⟩
  by_cases hblock : q.read16bits.1 = x.currentBlock
  · exact counted_disturbs (processAckPacket_counts hgoing hblock)
  · exact (processAckPacket_refused hgoing hblock).disturbs (hgoing ▸ htype)

/-- A client that reads, before the first block, and that block: 512 bytes behind its number. -/
def reading : Instance := ⟨⟨.read, 0#32, 1000#32, .success, true, []⟩, 0#16, 0xC0A80102#32, 69#16⟩
def firstBlock : Packet := ⟨fun i => if i = 1 then 1#8 else 0#8, 0, 514#16, 514#16, 0#32, none⟩

/-- A user that takes what it is given. -/
def indifferent : Callbacks Unit where
  reqReceived _ _ _ := (.success, ())
  dataReceived _ _ := (.success, ())
  dataToSend _ := (.success, [], ())
  errorReceived _ _ _ := ()

def readOnce : Outcome (Unit × List Call) :=
  processDataPacket (recorded indifferent) reading ((), []) firstBlock .read working working 1#32

theorem duplicate_disturbs_first : ¬ PassesOver readOnce.tftp readOnce.user.2
    (processDataPacket (recorded indifferent) readOnce.tftp readOnce.user firstBlock .read working
      working 2#32) :=
  (duplicate_disturbs indifferent () readOnce.user.2 firstBlock working working 2#32
    (x := readOnce.tftp) rfl
    (by decide)).1.1

/-- The same block once more, and the client has ended the transfer with an error. -/
theorem repeated_block_ends :
    (readOnce.tftp.reqType = .read ∧ readOnce.tftp.currentBlock = 1#16 ∧
      firstBlock.read16bits.1 = 1#16) ∧
    ¬ PassesOver readOnce.tftp readOnce.user.2
      (processDataPacket (recorded indifferent) readOnce.tftp readOnce.user firstBlock .read working
        working 2#32) ∧
    (processDataPacket (recorded indifferent) readOnce.tftp readOnce.user firstBlock .read
      working working
      2#32).tftp.ended = [.unknownTransferId] := by
  have hbroken : BrokenOff readOnce.tftp () readOnce.user.2 working
      (processDataPacket (recorded indifferent) readOnce.tftp readOnce.user firstBlock .read working
        working 2#32) :=
    processDataPacket_refused rfl (by decide)
  exact ⟨⟨rfl, rfl, by decide⟩, hbroken.disturbs (by decide), hbroken.ended⟩

end NanoIp.Tftp.Life
