import NanoIp.Core.Ipv4Gate
import NanoIp.Tcp.Decode
import NanoIp.Tcp.Dispatch
import NanoIp.Tcp.Exchange
import NanoIp.Tcp.Terminal

/-!
# The bounds of a received segment

What `NANO_IP_TCP_RxFrame` and `NANO_IP_TCP_ComputeCS` read of a received frame, and where they
find the data. The lengths are those that the IPv4 and the TCP header announce, taken in 16
bits; the frame is what Ethernet hands over.
-/
namespace NanoIp.Tcp

variable {n : Nat}

/-- What IPv4 gives to the TCP module of a received packet, if it gives it anything. -/
def handedUp (netIf : NetIf) (ethHeader : Ethernet.Header) (p : Packet) :
    Except Err (Ipv4.RxHeader × Packet) :=
  Ipv4.rxFrame [⟨protocol, fun _ header q => (header, q)⟩] netIf ethHeader p

/-- The offsets that are read of a segment: the header up to the window, and the bytes of the
checksum unless the driver has checked it. -/
def readOffsets (netIf : NetIf) (header : Ipv4.RxHeader) (p : Packet) : List Nat :=
  if p.count < headerSize then []
  else (List.range 16).map (p.current + ·) ++
    if netIf.has netdrvCapTcpIpv4CsCheck then [] else (List.range header.dataLength.toNat).map
      (p.current + ·)

/-- `tcp_header.data_offset`, in words. -/
def dataOffsetOf (p : Packet) : Nat := (p.byteAt 12 >>> 4).toNat

section Reads

variable {netIf : NetIf} {header : Ipv4.RxHeader} {p p' : Packet}

/-- Where the decoder reads the same it decodes the same, but for the data that it only
designates. -/
theorem decode_congr (hcurrent : p'.current = p.current) (hcount : p'.count = p.count)
    (hread : ∀ i ∈ readOffsets netIf header p, p'.data i = p.data i) :
    (decode netIf header p').map (fun seg =>
      (seg.srcPort, seg.destPort, seg.seqNumber, seg.ackNumber, seg.flags,
      seg.payload.length)) = (decode netIf header p).map fun seg =>
        (seg.srcPort, seg.destPort, seg.seqNumber,
      seg.ackNumber, seg.flags, seg.payload.length) := by
  rw [decode_eq, decode_eq, hcount]
  by_cases hsize : p.count < headerSize
  · rw [if_pos hsize, if_pos hsize]
  rw [if_neg hsize, if_neg hsize]
  rw [readOffsets, if_neg hsize] at hread
  have hbyte {i : Nat} (hi : i < 16) : p'.byteAt i = p.byteAt i := by
    rw [Packet.byteAt, Packet.byteAt, hcurrent]
    exact hread _ (List.mem_append_left _ (List.mem_map.mpr ⟨i, List.mem_range.mpr hi, rfl⟩))
  have hword {i : Nat} (hi : i + 1 < 16) : p'.wordAt i = p.wordAt i := by
    rw [Packet.wordAt, Packet.wordAt, hbyte (by omega), hbyte hi]
  have hlong {i : Nat} (hi : i + 3 < 16) : p'.longAt i = p.longAt i := by
    rw [Packet.longAt, Packet.longAt, hbyte (by omega), hbyte (by omega),
      hbyte (by omega), hbyte hi]
  have hoptions : optionsLengthOf p' = optionsLengthOf p := by
    rw [optionsLengthOf, optionsLengthOf, hbyte (by decide)]
  have hpasses : checksumPasses netIf header.toIpv4Header p' header.dataLength =
      checksumPasses netIf header.toIpv4Header p header.dataLength := by
    rw [checksumPasses, checksumPasses]
    cases hcap : netIf.has netdrvCapTcpIpv4CsCheck with
    | true => rfl
    | false =>
      have hbytes : p'.bytes p'.current header.dataLength.toNat =
          p.bytes p.current header.dataLength.toNat := by
        rw [hcurrent]
        refine Packet.bytes_data _ _ fun i hi => hread _ (List.mem_append_right _ ?_)
        rw [hcap]
        exact List.mem_map.mpr ⟨i, List.mem_range.mpr hi, rfl⟩
      rw [hbytes]
  have hlength : payloadLength header p' = payloadLength header p := by
    rw [payloadLength, payloadLength, hoptions]
  have hrest : (behindOptions p').count = (behindOptions p).count := by
    simp only [behindOptions, Packet.readSkipBytes, hoptions, hcount]
  rw [hpasses, hlength, hrest]
  split_ifs
  · simp only [Except.map, segmentOf, srcPortOf, destPortOf, seqNumberOf, ackNumberOf, flagsOf,
      Packet.bytes_length,
      hword (i := 0) (by decide), hword (i := 2) (by decide), hlong (i := 4) (by decide),
        hlong (i := 8) (by decide),
      hbyte (i := 13) (by decide), hlength]
  · rfl
  · rfl

end Reads

/-- The data that `TCP_EVENT_RX` designates with `packet->current` and `packet->count` are the bytes
from the data offset to the length that IPv4 announces, and they are in the frame. -/
structure Located (p : Packet) (header : Ipv4.RxHeader) (q : Packet) : Prop where
  words : 5 ≤ dataOffsetOf q
  fits : 4 * dataOffsetOf q ≤ header.dataLength.toNat
  current : (behindOptions q).current = q.current + 4 * dataOffsetOf q
  count : (payloadLength header q).toNat = header.dataLength.toNat - 4 * dataOffsetOf q
  inside : q.current + header.dataLength.toNat ≤ p.current + p.count.toNat

/-- The steps of the module that process a decoded segment. -/
def Receives (x : Stack n × Pc n) (i : Input n) (seg : Segment) : Prop :=
  ∃ lower, i = .rxFrame seg lower ∧ x.2 = .ready ∨
    ∃ release accept h hr, i = .ret release accept lower ∧ x.2 = .inReset h ⟨seg, hr⟩

/-- `TCP_EVENT_RX` is raised for the segment in some state of some module. -/
def CanRaiseRx (seg : Segment) : Prop :=
  ∃ (n : Nat) (x y : Stack n × Pc n) (i : Input n) (h : Fin n) (error : Err)
    (packet : Option Segment),
    Receives x i seg ∧ step x i = some y ∧ (.rx, error, packet) ∈ newEvents h x y

/-- The received frame `p`, of which IPv4 gives `q` to the TCP module, is not left: neither by a
read, nor by the data of `TCP_EVENT_RX`. -/
structure ParsedInside (netIf : NetIf) (p : Packet) (header : Ipv4.RxHeader) (q : Packet) :
    Prop where
  reads : ∀ i ∈ readOffsets netIf header q, p.current ≤ i ∧ i < p.current + p.count.toNat
  located : ∀ seg, decode netIf header q = .ok seg → CanRaiseRx seg → Located p header q

/-- The lengths of the headers measure a segment inside the frame: of a segment that is read, the
IPv4 header is in the frame, and so is what the checksum covers; of one with data for the
application, the TCP header is in the segment, and the segment in the frame. -/
structure WellMeasured (netIf : NetIf) (p : Packet) (header : Ipv4.RxHeader) (q : Packet) :
    Prop where
  read : ¬ q.count < headerSize → 20 ≤ (Ipv4.headerLengthOf p).toNat ∧
    (Ipv4.headerLengthOf p).toNat ≤ p.count.toNat ∧
    (netIf.has netdrvCapTcpIpv4CsCheck = true ∨ header.dataLength.toNat ≤ q.count.toNat)
  data : ¬ q.count < headerSize →
    checksumPasses netIf header.toIpv4Header q header.dataLength = true →
    flagsOf q = flagPsh ||| flagAck → payloadLength header q ≠ 0#16 →
    payloadLength header q ≤ (behindOptions q).count →
    5 ≤ dataOffsetOf q ∧ 4 * dataOffsetOf q ≤ header.dataLength.toNat ∧ header.dataLength.toNat ≤
      q.count.toNat

section HandedUp

variable {netIf : NetIf} {ethHeader : Ethernet.Header} {p q : Packet} {header : Ipv4.RxHeader}

theorem handedUp_ok (hup : handedUp netIf ethHeader p = .ok (header, q)) :
    ¬ p.count < Ipv4.rxMinHeaderSize ∧
    q = (Ipv4.behindHeader p).readSkipBytes
      ((Ipv4.headerLengthOf p).zeroExtend 16 - Ipv4.rxMinHeaderSize) := by
  rw [handedUp, Ipv4.rxFrame_eq] at hup
  split_ifs at hup with hsize
  refine ⟨hsize, ?_⟩
  unfold Ipv4.dispatch at hup
  split at hup
  · next found hf =>
    obtain rfl := List.mem_singleton.mp (List.mem_of_find?_eq_some hf)
    exact (Prod.mk.inj (Except.ok.inj hup)).2.symm
  · cases hup

theorem handedUp_measures (hup : handedUp netIf ethHeader p = .ok (header, q)) :
    ∃ skip, q.current = p.current + 20 + skip ∧ skip < 2 ^ 16 ∧ 20 ≤ p.count.toNat ∧
      (skip + 20 = (Ipv4.headerLengthOf p).toNat ∨
        (Ipv4.headerLengthOf p).toNat < 20 ∧ skip = 65516 + (Ipv4.headerLengthOf p).toNat) ∧
      q.count.toNat = (p.count.toNat + 2 ^ 16 - (Ipv4.headerLengthOf p).toNat) % 2 ^ 16 := by
  obtain ⟨hsize, rfl⟩ := handedUp_ok hup
  exact Ipv4.behindOptions_measures hsize

/-- The reads stay in the frame exactly when the IPv4 header does, and what the checksum covers. -/
theorem reads_iff (hup : handedUp netIf ethHeader p = .ok (header, q)) :
    (∀ i ∈ readOffsets netIf header q, p.current ≤ i ∧ i < p.current + p.count.toNat) ↔
      (¬ q.count < headerSize → 20 ≤ (Ipv4.headerLengthOf p).toNat ∧
        (Ipv4.headerLengthOf p).toNat ≤ p.count.toNat ∧
        (netIf.has netdrvCapTcpIpv4CsCheck = true ∨ header.dataLength.toNat ≤ q.count.toNat)) := by
  by_cases hsize : q.count < headerSize
  · rw [readOffsets, if_pos hsize]
    exact iff_of_true (List.forall_mem_nil _) fun h => absurd hsize h
  obtain ⟨hcount, rfl⟩ := handedUp_ok hup
  have hheader : 16 ≤ (Ipv4.behindOptions p).count.toNat :=
    Nat.le_trans (by decide) (Nat.le_of_not_lt hsize)
  have hreads := Ipv4.reads_behind_iff hcount (by decide) hheader
  rw [readOffsets, if_neg hsize]
  cases hcap : netIf.has netdrvCapTcpIpv4CsCheck with
  | true =>
    refine (hreads 0).trans ⟨fun h _ => ⟨h.1, h.2.1, .inl rfl⟩, fun h => ?_⟩
    obtain ⟨h20, hfits, -⟩ := h hsize
    exact ⟨h20, hfits, Nat.zero_le _⟩
  | false =>
    refine (hreads header.dataLength.toNat).trans ⟨fun h _ => ⟨h.1, h.2.1, .inr h.2.2⟩, fun h => ?_⟩
    obtain ⟨h20, hfits, hsum⟩ := h hsize
    exact ⟨h20, hfits, hsum.resolve_left Bool.false_ne_true⟩

theorem optionsLengthOf_toNat (q : Packet) :
    (optionsLengthOf q).toNat = (4 * dataOffsetOf q + 65516) % 2 ^ 16 ∧ dataOffsetOf q < 16 := by
  have hoffset : dataOffsetOf q < 16 := by
    have hlt := (q.byteAt 12).isLt
    rw [dataOffsetOf, BitVec.toNat_ushiftRight, Nat.shiftRight_eq_div_pow]
    omega
  refine ⟨?_, hoffset⟩
  have hwide : ((q.byteAt 12 >>> 4).zeroExtend 16).toNat = dataOffsetOf q := by
    change ((q.byteAt 12 >>> 4).setWidth 16).toNat = _
    rw [BitVec.toNat_setWidth]
    change dataOffsetOf q % 2 ^ 16 = _
    omega
  rw [optionsLengthOf, BitVec.toNat_sub, BitVec.toNat_mul, hwide]
  change (2 ^ 16 - 20 + dataOffsetOf q * 4 % 2 ^ 16) % 2 ^ 16 = _
  omega

/-- The data are found exactly when the TCP header is in the segment, and the segment in the
frame. -/
theorem located_iff (hup : handedUp netIf ethHeader p = .ok (header, q))
    (hlength : 20 ≤ (Ipv4.headerLengthOf p).toNat ∧ (Ipv4.headerLengthOf p).toNat ≤ p.count.toNat) :
    Located p header q ↔ 5 ≤ dataOffsetOf q ∧ 4 * dataOffsetOf q ≤ header.dataLength.toNat ∧
      header.dataLength.toNat ≤ q.count.toNat := by
  obtain ⟨skip, hcurrent, hskip, hmin, hskipped, hleft⟩ := handedUp_measures hup
  obtain ⟨hoptions, hoffset⟩ := optionsLengthOf_toNat q
  have hcount := p.count.isLt
  have hdata := header.dataLength.isLt
  constructor
  · exact fun hloc => ⟨hloc.words, hloc.fits, by have := hloc.inside; omega⟩
  · rintro ⟨hwords, hfits, hinside⟩
    refine ⟨hwords, hfits, ?_, ?_, by omega⟩
    · change q.current + 20 + (optionsLengthOf q).toNat = _
      omega
    · rw [payloadLength, BitVec.toNat_sub, BitVec.toNat_add, hoptions]
      change (2 ^ 16 - (20 + _) % 2 ^ 16 + _) % 2 ^ 16 = _
      omega

end HandedUp

section Raise

/-- A module in which handle `h` expects the segment. -/
def expecting (h : Fin n) (seg : Segment) : Stack n :=
  { (initial n (fun _ => blankPacket) portPoolStart 0).1 with
    handles := some h
    mem := fun _ => { Handle.init n with
      state := .established, port := seg.destPort, destPort := seg.srcPort
      seqNumber := seg.ackNumber, ackNumber := seg.seqNumber } }

theorem lookup_expecting (h : Fin n) (seg : Segment) : lookup (expecting h seg) seg = some h := by
  obtain ⟨k, rfl⟩ : ∃ k, n = k + 1 := ⟨n - 1, by have := h.isLt; omega⟩
  have hreg : (expecting h seg).registered = [h] := by
    rw [Stack.registered, expecting, Lib.chain]
    cases k <;> rfl
  rw [lookup, hreg, lookupIn]
  exact (if_pos rfl).trans (if_pos rfl)

/-- Exactly a PSH|ACK segment with data can raise the event. -/
theorem canRaiseRx_iff (seg : Segment) :
    CanRaiseRx seg ↔ seg.payload.length ≠ 0 ∧ seg.flags = flagPsh ||| flagAck := by
  constructor
  · rintro ⟨n, x, y, i, h, error, packet, hrec, hs, hraised⟩
    obtain ⟨k, new, heff, -, hev⟩ := step_effect hs h
    rw [newEvents_eq hev] at hraised
    cases heff with
    | data seg' lower hack hstate hlen hf =>
      have hseg : seg' = seg := by
        rcases hack.1 with ⟨hi, hpc, -⟩ | ⟨release, accept, hr, hi, hpc⟩
        · rcases hrec with ⟨lower', ⟨hi', -⟩ | ⟨_, _, _, _, hi', -⟩⟩
          · exact (Input.rxFrame.inj (hi.symm.trans hi')).1
          · cases hi.symm.trans hi'
        · rcases hrec with ⟨lower', ⟨hi', -⟩ | ⟨_, _, h', hr', -, hpc'⟩⟩
          · cases hi.symm.trans hi'
          · exact congrArg Subtype.val (Pc.inReset.inj (hpc.symm.trans hpc')).2
      exact hseg ▸ ⟨hlen, hf⟩
    | timedOut timestamp lower event _ _ _ hwhich =>
      obtain ⟨rfl, -⟩ := Prod.mk.inj (List.mem_singleton.mp hraised)
      rcases hwhich with ⟨-, he⟩ | ⟨-, he⟩ | ⟨-, he⟩ <;> cases he
    | _ => simp at hraised
  · rintro ⟨hlen, hf⟩
    let m : Stack 1 := expecting 0 seg
    have hp : seg.payload ≠ [] := fun he => hlen (by rw [he]; rfl)
    have hr : controlResult m 0 (transmitting 0) = .success :=
      controlResult_free rfl List.not_mem_nil
    have hrx := rxFrame_data (lookup_expecting 0 seg) rfl rfl hf hp rfl hr
    refine ⟨1, (m, .ready), _, .rxFrame seg (transmitting 0), 0, .success, some seg,
      ⟨transmitting 0, .inl ⟨rfl, rfl⟩⟩, congrArg some hrx, ?_⟩
    have hev :=
      ((((Untouched.refl m 0).becomes.modify (fun k => { k with ackNumber := seg.nextSeq }) fun _ =>
      rfl).sendControlFrame (a := 0) flagAck (transmitting 0)).raise .rx .success (some seg)).2
    rw [newEvents_eq hev]
    exact List.mem_singleton_self _

end Raise

theorem wellMeasured_iff {netIf : NetIf} {ethHeader : Ethernet.Header} {p q : Packet}
    {header : Ipv4.RxHeader} (hup : handedUp netIf ethHeader p = .ok (header, q)) :
    ParsedInside netIf p header q ↔ WellMeasured netIf p header q := by
  have hreads := reads_iff hup
  have hdecode : ∀ seg, decode netIf header q = .ok seg → ¬ q.count < headerSize ∧
      checksumPasses netIf header.toIpv4Header q header.dataLength = true ∧
      payloadLength header q ≤ (behindOptions q).count ∧ seg = segmentOf header q := by
    intro seg hok
    rw [decode_eq] at hok
    split_ifs at hok with hsize hsum hlen
    exact ⟨hsize, hsum, hlen, (Except.ok.inj hok).symm⟩
  have hdata : (segmentOf header q).payload.length ≠ 0 ↔ payloadLength header q ≠ 0#16 := by
    rw [segmentOf, Packet.bytes_length]
    exact not_congr ⟨fun hz => BitVec.eq_of_toNat_eq hz, fun hz => by rw [hz]; rfl⟩
  constructor
  · rintro ⟨hread, hlocated⟩
    have hwell := hreads.mp hread
    refine ⟨hwell, fun hsize hsum hf hz hlen => ?_⟩
    have hok : decode netIf header q = .ok (segmentOf header q) := by
      rw [decode_eq, if_neg hsize, if_pos hsum, if_pos hlen]
    obtain ⟨h20, hfits, -⟩ := hwell hsize
    exact (located_iff hup ⟨h20, hfits⟩).mp
      (hlocated _ hok ((canRaiseRx_iff _).mpr ⟨hdata.mpr hz, hf⟩))
  · rintro ⟨hread, hmeasured⟩
    refine ⟨hreads.mpr hread, fun seg hok hraise => ?_⟩
    obtain ⟨hsize, hsum, hlen, rfl⟩ := hdecode seg hok
    obtain ⟨hz, hf⟩ := (canRaiseRx_iff _).mp hraise
    obtain ⟨h20, hfits, -⟩ := hread hsize
    exact (located_iff hup ⟨h20, hfits⟩).mpr (hmeasured hsize hsum hf (hdata.mp hz) hlen)

/-- A received segment is parsed inside the frame exactly when its headers measure it so, and what
is decoded of it depends on the listed reads only. -/
theorem parsedInside_iff {netIf : NetIf} {ethHeader : Ethernet.Header} {p q : Packet}
    {header : Ipv4.RxHeader} (hup : handedUp netIf ethHeader p = .ok (header, q)) :
    (ParsedInside netIf p header q ↔ WellMeasured netIf p header q) ∧
    ∀ q' : Packet, q'.current = q.current → q'.count = q.count →
      (∀ i ∈ readOffsets netIf header q, q'.data i = q.data i) →
        (decode netIf header q').map (fun seg =>
          (seg.srcPort, seg.destPort, seg.seqNumber, seg.ackNumber, seg.flags,
          seg.payload.length)) = (decode netIf header q).map fun seg =>
            (seg.srcPort, seg.destPort, seg.seqNumber,
          seg.ackNumber, seg.flags, seg.payload.length) :=
  ⟨wellMeasured_iff hup, fun _ hcurrent hcount hread => decode_congr hcurrent hcount hread⟩

/-- An interface whose driver checks TCP checksums, and a frame with one byte of data whose TCP
header announces this data offset. -/
def checkingNetIf : NetIf := ⟨Vector.replicate 6 1#8, 0x0A000001#32, netdrvCapTcpIpv4CsCheck⟩
def dataFrame (dataOffset : Byte) : Packet :=
  Ipv4.wireFrame ⟨0x0A000002#32, 0x0A000001#32, protocol⟩ 0#16 0#16
    (Packet.be16 80#16 ++ Packet.be16 5000#16 ++ Packet.be32 101#32 ++ Packet.be32 9#32 ++
      [dataOffset <<< 4, flagPsh ||| flagAck] ++ Packet.be16 windowSize ++
        Packet.be32 0#32 ++ [5#8])

theorem parsedInside_iff_plain :
    ∃ (ethHeader : Ethernet.Header) (q : Packet) (header : Ipv4.RxHeader),
    handedUp checkingNetIf ethHeader (dataFrame 5#8) = .ok (header, q) ∧ dataOffsetOf q = 5 ∧
      ParsedInside checkingNetIf (dataFrame 5#8) header q := by
  let ethHeader : Ethernet.Header := ⟨Vector.replicate 6 1#8, Vector.replicate 6 2#8, 0x0800#16⟩
  have hup : handedUp checkingNetIf ethHeader (dataFrame 5#8) =
      .ok (Ipv4.rxHeaderOf ethHeader (dataFrame 5#8),
        (Ipv4.behindHeader (dataFrame 5#8)).readSkipBytes 0#16) := rfl
  exact ⟨ethHeader, _, _, hup, by decide, (parsedInside_iff hup).1.mpr
    ⟨fun _ => by decide, fun _ _ _ _ _ => by decide⟩⟩

/-- A data offset of four words: the lengths wrap twice, and five bytes from far behind the frame
are raised as data. -/
theorem short_offset_raised : ¬ ∀ (netIf : NetIf) (ethHeader : Ethernet.Header) (p q : Packet)
    (header : Ipv4.RxHeader), handedUp netIf ethHeader p = .ok (header, q) →
      ParsedInside netIf p header q := by
  intro hall
  let ethHeader : Ethernet.Header := ⟨Vector.replicate 6 1#8, Vector.replicate 6 2#8, 0x0800#16⟩
  let q : Packet := (Ipv4.behindHeader (dataFrame 4#8)).readSkipBytes 0#16
  let header : Ipv4.RxHeader := Ipv4.rxHeaderOf ethHeader (dataFrame 4#8)
  have hup : handedUp checkingNetIf ethHeader (dataFrame 4#8) = .ok (header, q) := rfl
  have hok : decode checkingNetIf header q = .ok (segmentOf header q) := by
    rw [decode_eq, if_neg (by decide), if_pos (by decide), if_pos (by decide)]
  have hraise : CanRaiseRx (segmentOf header q) := by
    refine (canRaiseRx_iff _).mpr ⟨?_, by decide⟩
    rw [segmentOf, Packet.bytes_length]
    decide
  exact absurd ((hall _ _ _ _ _ hup).located _ hok hraise).words (by decide)

end NanoIp.Tcp
