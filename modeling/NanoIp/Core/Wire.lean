import NanoIp.Core.EthernetInput

/-!
# Frames on the wire

What `NANO_IP_ETHERNET_SendPacket` leaves undone its driver does: a driver that says so
pads the frame, and one that says so appends the check sequence. Only a frame that is
given its check sequence by the code and then padded by the driver goes out wrong.
-/
namespace NanoIp.Ethernet

variable {γ : Type}

/-- A frame as its sender puts it together: the header and what is behind it. -/
def content (header : Header) (body : List Byte) : List Byte :=
  header.destAddress.toList ++ header.srcAddress.toList ++ Packet.be16 header.etherType ++ body

@[simp] theorem content_length (header : Header) (body : List Byte) :
    (content header body).length = headerSize + body.length := by
  simp only [content, List.length_append, Vector.length_toList, headerSize]
  rfl

def padding (len : Nat) (bs : List Byte) : List Byte := List.replicate (len - bs.length) 0#8

/-- What a driver puts on the wire of the bytes it is given: it pads the frame and
appends the check sequence when its capabilities say so. The least length counts the
check sequence, whoever appends it. -/
def transmit (netIf : NetIf) (bs : List Byte) : List Byte :=
  let least := if netIf.has netdrvCapEthCsComputation then 60 else 64
  let padded := if netIf.has netdrvCapEthFramePadding then bs ++ padding least bs else bs
  if netIf.has netdrvCapEthCsComputation then padded ++ fcsBytes (crcOf padded) else padded

/-- A packet object that a driver has filled from the wire. -/
structure Received (bs : List Byte) (q : Packet) : Prop where
  current : q.current = 0
  bytes : q.Holds 0 bs
  count : q.count.toNat + csSize = bs.length

def filled (bs : List Byte) : Packet :=
  ⟨fun i => bs.getD i 0#8, 0, BitVec.ofNat 16 bs.length,
    BitVec.ofNat 16 (bs.length - csSize), 0#32, none⟩

theorem filled_received {bs : List Byte} (hmin : csSize ≤ bs.length) (hfits : bs.length < 2 ^ 16) :
    Received bs (filled bs) where
  current := rfl
  bytes := by
    refine List.ext_getElem (by simp) fun i h₁ h₂ => ?_
    rw [Packet.bytes_getElem]
    change bs.getD (0 + i) 0#8 = _
    rw [Nat.zero_add, List.getD_eq_getElem?_getD, List.getElem?_eq_getElem h₂, Option.getD_some]
  count := by
    change (BitVec.ofNat 16 (bs.length - csSize)).toNat + csSize = _
    rw [BitVec.toNat_ofNat, Nat.mod_eq_of_lt (by omega)]
    omega

/-- A packet ready for Ethernet: `current` stands behind its bytes, the header's room
among them. -/
structure Framed (p : Packet) (body : List Byte) : Prop where
  count : p.count.toNat = headerSize + body.length
  current : p.current = headerSize + body.length
  bytes : p.bytes headerSize body.length = body
  fits : headerSize + body.length + csSize < 2 ^ 16

theorem framed_of_composed {p : Packet} {front body : List Byte} (h : p.Composed 0 (front ++ body))
    (hfront : front.length = headerSize) (hfits : headerSize + body.length + csSize < 2 ^ 16) :
    Framed p body := by
  have hcount := h.count
  have hcurrent := h.current
  have hbytes := h.bytes
  rw [List.length_append, hfront] at hcount hcurrent hbytes
  rw [Packet.bytes_append] at hbytes
  refine ⟨hcount, hcurrent.trans (Nat.zero_add _), ?_, hfits⟩
  have hbody := (List.append_inj hbytes (by rw [Packet.bytes_length, hfront])).2
  rwa [Nat.zero_add] at hbody

/-- The driver pads a frame that the code has given its check sequence. -/
def Spoils (netIf : NetIf) (body : List Byte) : Prop :=
  netIf.has netdrvCapEthFramePadding = true ∧ netIf.has netdrvCapEthCsComputation = false ∧
    headerSize + body.length < 60

instance (netIf : NetIf) (body : List Byte) : Decidable (Spoils netIf body) :=
  inferInstanceAs (Decidable (_ ∧ _ ∧ _))

section Send

variable {p : Packet} {body : List Byte} (netIf : NetIf) (header : Header)

theorem minFrameSize_toNat : minFrameSize.toNat = 60 := rfl

def codePadding (netIf : NetIf) (body : List Byte) : List Byte :=
  if netIf.has netdrvCapEthFramePadding = false then
    List.replicate (60 - (headerSize + body.length)) 0#8 else []

theorem pad_framed (h : Framed p body) :
    (pad netIf p).count.toNat = headerSize + body.length + (codePadding netIf body).length ∧
      (pad netIf p).bytes headerSize (body.length + (codePadding netIf body).length) =
        body ++ codePadding netIf body := by
  have hlt : p.count < minFrameSize ↔ headerSize + body.length < 60 := by
    rw [BitVec.lt_def, h.count, minFrameSize_toNat]
  unfold pad codePadding
  by_cases hcap : netIf.has netdrvCapEthFramePadding = false
  · by_cases hshort : headerSize + body.length < 60
    · have hsub : (minFrameSize - p.count).toNat = 60 - (headerSize + body.length) := by
        rw [BitVec.toNat_sub, h.count, minFrameSize_toNat]
        omega
      rw [if_pos ⟨hlt.mpr hshort, hcap⟩, if_pos hcap, hsub, List.length_replicate]
      constructor
      · change minFrameSize.toNat = _
        rw [minFrameSize_toNat]
        omega
      · have hbehind := p.bytes_store_behind (List.replicate (60 - (headerSize + body.length)) 0#8)
          h.bytes
        rw [List.length_replicate, ← h.current] at hbehind
        rw [← h.current]
        exact hbehind
    · rw [if_neg fun hc => hshort (hlt.mp hc.1), if_pos hcap, Nat.sub_eq_zero_of_le (by omega),
        List.replicate_zero]
      simp [h.count, h.bytes]
  · rw [if_neg fun hc => hcap hc.2, if_neg hcap]
    simp [h.count, h.bytes]

theorem writeHeader_bytes {q : Packet} {bs : List Byte} (h : q.bytes headerSize bs.length = bs) :
    (writeHeader header q).bytes 0 (headerSize + bs.length) = content header bs := by
  have hdata : (writeHeader header q).data = Packet.store q.data 0
      (header.destAddress.toList ++ header.srcAddress.toList ++ Packet.be16 header.etherType) := by
    change Packet.store (Packet.store (Packet.store q.data 0 header.destAddress.toList)
      (0 + header.destAddress.toList.length) header.srcAddress.toList)
      (0 + header.destAddress.toList.length + header.srcAddress.toList.length)
        (Packet.be16 header.etherType) = _
    rw [Packet.store_append, Packet.store_append, List.append_assoc]
  have hlen : (header.destAddress.toList ++ header.srcAddress.toList ++
    Packet.be16 header.etherType).length =
      headerSize := by
    rw [List.length_append, List.length_append, Vector.length_toList, Vector.length_toList]
    rfl
  have hfront := q.bytes_store 0
    (header.destAddress.toList ++ header.srcAddress.toList ++ Packet.be16 header.etherType)
      bs.length
  rw [hlen, Nat.zero_add, h] at hfront
  rw [content, ← hfront]
  exact Packet.bytes_data _ _ fun i _ => congrFun hdata _

def codeFcs (netIf : NetIf) (bs : List Byte) : List Byte :=
  if netIf.has netdrvCapEthCsComputation = false then fcsBytes (crcOf bs) else []

theorem appendFcs_frame {q : Packet} (hfits : q.count.toNat + csSize < 2 ^ 16) :
    (appendFcs netIf q).frame = q.frame ++ codeFcs netIf q.frame := by
  unfold appendFcs codeFcs
  by_cases hcap : netIf.has netdrvCapEthCsComputation = false
  · rw [if_pos hcap, if_pos hcap]
    have hself : q.bytes 0 q.frame.length = q.frame := by rw [Packet.frame, Packet.bytes_length]
    have hbehind := q.bytes_store_behind (fcsBytes (crcOf q.frame)) hself
    rw [Packet.frame, Packet.bytes_length, Nat.zero_add] at hbehind
    have hcount : (q.count + 4#16).toNat = q.count.toNat + 4 := BitVec.toNat_add_of_lt hfits
    change (q.withData (Packet.store q.data q.count.toNat (fcsBytes (computeCrc q false)))).bytes 0
      (q.count + 4#16).toNat = _
    rw [hcount]
    exact hbehind
  · rw [if_neg hcap, if_neg hcap, List.append_nil]

theorem codePadding_length_le (body : List Byte) :
    headerSize + body.length + (codePadding netIf body).length ≤
      max 60 (headerSize + body.length) := by
  unfold codePadding
  split
  · rw [List.length_replicate]
    omega
  · exact Nat.le_max_right _ _

theorem sendPacket_frame (h : Framed p body) : (sendPacket netIf header p).frame =
    content header (body ++ codePadding netIf body) ++
      codeFcs netIf (content header (body ++ codePadding netIf body)) := by
  obtain ⟨hcount, hbytes⟩ := pad_framed netIf h
  have hle := codePadding_length_le netIf body
  have hfits := h.fits
  have hframe : (writeHeader header (pad netIf p)).frame =
      content header (body ++ codePadding netIf body) := by
    rw [Packet.frame, show (writeHeader header (pad netIf p)).count =
      (pad netIf p).count from rfl, hcount,
      Nat.add_assoc, ← List.length_append]
    exact writeHeader_bytes header (by rw [List.length_append]; exact hbytes)
  rw [sendPacket, appendFcs_frame, hframe]
  change (pad netIf p).count.toNat + csSize < 2 ^ 16
  rw [hcount, csSize] at *
  omega

/-- Behind the check sequence nothing is written. -/
theorem sendPacket_outside (h : Framed p body) {i : Nat}
    (hi : headerSize + body.length + (codePadding netIf body).length +
      (if netIf.has netdrvCapEthCsComputation then 0 else csSize) ≤ i) :
    (sendPacket netIf header p).data i = p.data i := by
  obtain ⟨hcount, -⟩ := pad_framed netIf h
  have hheader : headerSize ≤ i := by omega
  have hpad : (pad netIf p).data i = p.data i := by
    have hlt : p.count < minFrameSize ↔ headerSize + body.length < 60 := by
      rw [BitVec.lt_def, h.count, minFrameSize_toNat]
    unfold pad
    split
    · next hshort =>
      refine Packet.store_outside _ _ _ _ (.inr ?_)
      rw [h.current, List.length_replicate, BitVec.toNat_sub_of_le (BitVec.le_of_lt hshort.1),
        h.count,
        minFrameSize_toNat]
      rw [codePadding, if_pos hshort.2, List.length_replicate] at hi
      omega
    · rfl
  rw [sendPacket, ← hpad, ← writeHeader_data header (pad netIf p) hheader]
  unfold appendFcs
  split
  · next hcap =>
    refine Packet.store_outside _ _ _ _ (.inr ?_)
    change (pad netIf p).count.toNat + 4 ≤ i
    rw [hcap] at hi
    rw [hcount]
    exact hi
  · rfl

/-- A frame as it should stand on the wire: padded, and with the check sequence of what
is padded. -/
def wireFrame (bs : List Byte) : List Byte :=
  bs ++ padding 60 bs ++ fcsBytes (crcOf (bs ++ padding 60 bs))

theorem fcsBytes_length (crc : BitVec 32) : (fcsBytes crc).length = csSize := rfl

theorem transmit_sent (h : Framed p body) (hs : ¬ Spoils netIf body) :
    transmit netIf (sendPacket netIf header p).frame = wireFrame (content header body) := by
  rw [sendPacket_frame netIf header h, transmit, wireFrame]
  have happend (z : List Byte) : content header (body ++ z) = content header body ++ z :=
    (List.append_assoc _ _ _).symm
  have hpadding : padding 60 (content header body) =
      List.replicate (60 - (headerSize + body.length)) 0#8 := by
    rw [padding, content_length]
  unfold codePadding codeFcs
  by_cases hpad : netIf.has netdrvCapEthFramePadding = false <;>
    by_cases hcs : netIf.has netdrvCapEthCsComputation = false
  · simp [hpad, hcs, happend, hpadding]
  · simp [hpad, hcs, happend, hpadding]
  · have hlong : ¬ headerSize + body.length < 60 := fun hshort =>
      hs ⟨by simpa using hpad, hcs, hshort⟩
    have hnone : ∀ crc : BitVec 32, padding 64 (content header body ++ fcsBytes crc) = [] := by
      intro crc
      rw [padding, List.length_append, content_length, fcsBytes_length, csSize,
        Nat.sub_eq_zero_of_le (by omega), List.replicate_zero]
    have hnone' : padding 60 (content header body) = [] := by
      rw [hpadding, Nat.sub_eq_zero_of_le (by omega), List.replicate_zero]
    simp [hpad, hcs, hnone, hnone']
  · simp [hpad, hcs, hpadding]

theorem transmit_spoilt (h : Framed p body) (hs : Spoils netIf body) :
    transmit netIf (sendPacket netIf header p).frame =
      content header body ++ fcsBytes (crcOf (content header body)) ++
      List.replicate (60 - (headerSize + body.length)) 0#8 := by
  obtain ⟨hpad, hcs, hshort⟩ := hs
  have hpadding : ∀ crc : BitVec 32, padding 64 (content header body ++ fcsBytes crc) =
      List.replicate (60 - (headerSize + body.length)) 0#8 := by
    intro crc
    rw [padding, List.length_append, content_length, fcsBytes_length, csSize]
    congr 1
    omega
  rw [sendPacket_frame netIf header h, transmit, codePadding, codeFcs]
  simp [hpad, hcs, hpadding]

/-- On the wire a frame has at least sixty bytes and its check sequence, and begins with
what its sender has put together. -/
theorem transmit_shape (h : Framed p body) :
    ∃ rest, transmit netIf (sendPacket netIf header p).frame =
    content header body ++ rest ∧
      (content header body ++ rest).length = max 60 (headerSize + body.length) + csSize := by
  by_cases hs : Spoils netIf body
  · refine ⟨_, (transmit_spoilt netIf header h hs).trans (List.append_assoc _ _ _), ?_⟩
    have hshort := hs.2.2
    simp only [List.length_append, content_length, fcsBytes_length, List.length_replicate]
    omega
  · refine ⟨_, (transmit_sent netIf header h hs).trans (List.append_assoc _ _ _), ?_⟩
    simp only [padding, List.length_append, content_length, fcsBytes_length, List.length_replicate]
    omega

end Send

section Receive

variable {p q : Packet} {body : List Byte} {sender : NetIf} {header : Header}

/-- The packet a receiver gets of a frame that was sent. -/
def Arrived (sender : NetIf) (header : Header) (p q : Packet) : Prop :=
  Received (transmit sender (sendPacket sender header p).frame) q

theorem Arrived.count (ha : Arrived sender header p q) (h : Framed p body) :
    q.count.toNat = max 60 (headerSize + body.length) := by
  obtain ⟨rest, hwire, hlen⟩ := transmit_shape sender header h
  have hcount := Received.count ha
  rw [hwire, hlen] at hcount
  exact Nat.add_right_cancel hcount

theorem Arrived.content (ha : Arrived sender header p q) (h : Framed p body) :
    q.Holds 0 (content header body) := by
  obtain ⟨rest, hwire, -⟩ := transmit_shape sender header h
  have hbytes := Received.bytes ha
  rw [hwire] at hbytes
  exact (Packet.holds_append.mp hbytes).1

theorem Received.crc {bs : List Byte} (h : Received bs q) : computeCrc q true = crcOf bs := by
  have hbytes := h.bytes
  have hcount := h.count
  rw [Packet.Holds, h.current] at hbytes
  rw [csSize] at hcount
  change crcOf (q.bytes 0 (q.count.toNat + 4)) = _
  rw [hcount, hbytes]

theorem Arrived.crc_iff (ha : Arrived sender header p q) (h : Framed p body) :
    computeCrc q true = csResidue ↔ ¬ Spoils sender body := by
  rw [Received.crc ha]
  constructor
  · intro hcrc hs
    rw [transmit_spoilt sender header h hs] at hcrc
    have hshort := hs.2.2
    rw [headerSize] at hshort
    exact crcOf_fcs_padded _ (by rw [headerSize]; omega) (by rw [headerSize]; omega) hcrc
  · intro hs
    rw [transmit_sent sender header h hs]
    exact crcOf_fcs _

theorem Arrived.headerOf (ha : Arrived sender header p q) (h : Framed p body) :
    Ethernet.headerOf q = header := by
  have hcontent := ha.content h
  rw [Ethernet.content, List.append_assoc, List.append_assoc] at hcontent
  obtain ⟨hdest, hrest⟩ := Packet.holds_append.mp hcontent
  obtain ⟨hsrc, hrest⟩ := Packet.holds_append.mp hrest
  obtain ⟨htype, -⟩ := Packet.holds_append.mp hrest
  rw [Vector.length_toList] at hsrc htype
  rw [Vector.length_toList] at htype
  rw [Ethernet.headerOf, hdest.macAt, hsrc.macAt, htype.wordAt]

/-- Behind the header stands the body, with the padding counted. -/
theorem Arrived.behind (ha : Arrived sender header p q) (h : Framed p body) :
    (behindHeader q).Holds 0 body ∧ (behindHeader q).current = headerSize ∧
      (behindHeader q).count.toNat = max 46 body.length := by
  have hcount := ha.count h
  refine ⟨?_, ?_, ?_⟩
  · have hcontent := ha.content h
    rw [Ethernet.content] at hcontent
    have hbody := (Packet.holds_append.mp hcontent).2
    rw [List.length_append, List.length_append, Vector.length_toList, Vector.length_toList] at hbody
    rw [behindHeader, Packet.holds_readSkipBytes]
    exact hbody
  · rw [behindHeader, Packet.readSkipBytes, Received.current ha]
    rfl
  · change (q.count - 14#16).toNat = _
    rw [headerSize] at hcount
    rw [BitVec.toNat_sub, hcount]
    have hlt := q.count.isLt
    simp only [BitVec.toNat_ofNat]
    omega

/-- What becomes of a frame that was sent: it is given to the handler of its type if it is
for the receiver, unless its check sequence is wrong and the code looks at it. -/
theorem rxFrame_arrived (ha : Arrived sender header p q) (h : Framed p body)
    (protocols : List (Protocol γ)) (netIf : NetIf) : rxFrame protocols netIf q =
      if Spoils sender body ∧ netIf.has netdrvCapEthCsCheck = false then .error .invalidCrc
      else if isForUs netIf header.destAddress then dispatch protocols netIf header (behindHeader q)
      else .error .ignorePacket := by
  have hlong : isLongEnough netIf q = true := by
    rw [isLongEnough, Bool.or_eq_true, decide_eq_true_eq, BitVec.le_def, ha.count h,
      minFrameSize_toNat]
    exact .inr (Nat.le_max_left _ _)
  have hcrc : crcPasses netIf q = true ↔
      ¬ (Spoils sender body ∧ netIf.has netdrvCapEthCsCheck = false) := by
    rw [crcPasses, Bool.or_eq_true, decide_eq_true_eq, ha.crc_iff h]
    cases netIf.has netdrvCapEthCsCheck <;> simp
  rw [rxFrame_eq, if_pos hlong, ha.headerOf h]
  by_cases hs : Spoils sender body ∧ netIf.has netdrvCapEthCsCheck = false
  · rw [if_pos hs, if_neg fun hc => hcrc.mp hc hs]
  · rw [if_neg hs, if_pos (hcrc.mpr hs)]

end Receive

end NanoIp.Ethernet
