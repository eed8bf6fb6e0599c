import NanoIp.Core.Ipv4Gate
import NanoIp.Udp.Input

/-!
# The bounds of a received datagram

What `NANO_IP_UDP_RxFrame` and `NANO_IP_UDP_ComputeCS` read of a received frame, and what they
deliver of it. The length of the UDP header is summed over before it is compared with anything,
and then compared with what Ethernet has left, its padding included.
-/
namespace NanoIp.Udp

variable {n : Nat} {γ : Type}

def isSummed (netIf : NetIf) (p : Packet) : Bool :=
  checksumOf p ≠ 0#16 && !netIf.has netdrvCapUdpIpv4CsCheck

/-- The offsets that are read: the header, and as many bytes as it announces if they are summed. -/
def readOffsets (netIf : NetIf) (p : Packet) : List Nat :=
  if p.count < headerSize then []
  else (List.range 8).map (p.current + ·) ++
    (List.range (if isSummed netIf p then (announcedOf p).toNat else 0)).map (p.current + ·)

theorem checksumPasses_eq (netIf : NetIf) (header : Ipv4Header) (p : Packet) (size : BitVec 16) :
    checksumPasses netIf header p size (checksumOf p) =
      (!isSummed netIf p || computeCS header (p.bytes p.current size.toNat) size = 0#16) := by
  rw [checksumPasses, isSummed]
  cases netIf.has netdrvCapUdpIpv4CsCheck <;> simp

section Reads

variable {m : Module n} {netIf : NetIf} {header : Ipv4.RxHeader} {p p' : Packet}

/-- Datagrams with the same bytes at these offsets are treated the same. -/
theorem rxFrame_congr (hcurrent : p'.current = p.current) (hcount : p'.count = p.count)
    (hread : ∀ i ∈ readOffsets netIf p, p'.data i = p.data i) :
    (rxFrame m netIf header p').map
      (fun d => (d.handle, d.header, d.packet.current, d.packet.count)) =
      (rxFrame m netIf header p).map fun d =>
        (d.handle, d.header, d.packet.current, d.packet.count) := by
  rw [rxFrame_eq, rxFrame_eq]
  by_cases hsize : p.count < headerSize
  · have hnot : ∀ q : Packet, q.count = p.count →
      wellFormed netIf header.toIpv4Header q = false := by
      intro q hq
      rw [wellFormed, hq, decide_eq_false (BitVec.not_le.mpr hsize), Bool.false_and, Bool.false_and]
    rw [if_neg (by rw [hnot p' hcount]; exact Bool.false_ne_true),
      if_neg (by rw [hnot p rfl]; exact Bool.false_ne_true),
      rejection, rejection, hcount, if_pos hsize, if_pos hsize]
  rw [readOffsets, if_neg hsize] at hread
  have hbyte {i : Nat} (hi : i < 8) : p'.byteAt i = p.byteAt i := by
    rw [Packet.byteAt, Packet.byteAt, hcurrent]
    exact hread _ (List.mem_append_left _ (List.mem_map_of_mem (List.mem_range.mpr hi)))
  have hword {i : Nat} (hi : i + 1 < 8) : p'.wordAt i = p.wordAt i := by
    rw [Packet.wordAt, Packet.wordAt, hbyte (by omega), hbyte hi]
  have hsrc : srcPortOf p' = srcPortOf p := hword (by decide)
  have hdest : destPortOf p' = destPortOf p := hword (by decide)
  have hannounced : announcedOf p' = announcedOf p := hword (by decide)
  have hsummed : isSummed netIf p' = isSummed netIf p := by
    rw [isSummed, isSummed, show checksumOf p' = checksumOf p from hword (by decide)]
  have hpasses : checksumPasses netIf header.toIpv4Header p' (announcedOf p') (checksumOf p') =
      checksumPasses netIf header.toIpv4Header p (announcedOf p) (checksumOf p) := by
    rw [checksumPasses_eq, checksumPasses_eq, hsummed, hannounced]
    cases hs : isSummed netIf p with
    | false => rfl
    | true =>
      have hbytes : p'.bytes p'.current (announcedOf p).toNat =
          p.bytes p.current (announcedOf p).toNat := by
        rw [hcurrent]
        refine Packet.bytes_data _ _ fun i hi =>
          hread _ (List.mem_append_right _ (List.mem_map_of_mem ?_))
        rw [hs]
        exact List.mem_range.mpr hi
      rw [hbytes]
  have hwell : wellFormed netIf header.toIpv4Header p' =
      wellFormed netIf header.toIpv4Header p := by
    rw [wellFormed, wellFormed, hcount, hpasses, hannounced]
  rw [hwell, rejection, rejection, hcount, hpasses, hdest, hsrc]
  split_ifs
  · cases lookup m (destPortOf p) header.destAddress with
    | none => rfl
    | some h => simp only [Except.map, contentOf, Packet.readSkipBytes, hcurrent, hannounced]
  · rfl
  · rfl

end Reads

/-- The received frame `p`, of which IPv4 gives `q` to the UDP module, is not left by a read, and
the datagrams delivered are inside what IPv4 announces. -/
structure ParsedInside (m : Module n) (netIf : NetIf) (p : Packet) (header : Ipv4.RxHeader)
    (q : Packet) : Prop where
  reads : ∀ i ∈ readOffsets netIf q, p.current ≤ i ∧ i < p.current + p.count.toNat
  delivered : ∀ d, rxFrame m netIf header q = .ok d → 8 ≤ (announcedOf q).toNat ∧
    (announcedOf q).toNat ≤ header.dataLength.toNat ∧ d.packet.count.toNat =
      (announcedOf q).toNat - 8

/-- The lengths of the headers measure the datagram: where it is read the IPv4 header is in the
frame, and so is what is summed; a datagram that a handle would receive announces no more than
IPv4 does. -/
structure WellMeasured (m : Module n) (netIf : NetIf) (p : Packet) (header : Ipv4.RxHeader)
    (q : Packet) : Prop where
  read : ¬ q.count < headerSize → 20 ≤ (Ipv4.headerLengthOf p).toNat ∧
    (Ipv4.headerLengthOf p).toNat ≤ p.count.toNat ∧
    (isSummed netIf q = true → (announcedOf q).toNat ≤ q.count.toNat)
  received : wellFormed netIf header.toIpv4Header q = true →
    (∃ h, lookup m (destPortOf q) header.destAddress = some h) → (announcedOf q).toNat ≤
      header.dataLength.toNat

theorem announced_of_wellFormed {netIf : NetIf} {header : Ipv4Header} {q : Packet}
    (h : wellFormed netIf header q = true) : 8 ≤ (announcedOf q).toNat := by
  have hcount := q.count.isLt
  have hlt := (announcedOf q).isLt
  have hheader : headerSize.toNat = 8 := rfl
  simp only [wellFormed, Bool.and_eq_true, decide_eq_true_eq, BitVec.le_def, BitVec.toNat_sub,
    hheader] at h
  omega

/-- A received datagram is parsed inside the frame exactly when the headers measure it so. -/
theorem datagramInside_iff (m : Module n) {protocols : List (Ipv4.Protocol γ)} {netIf : NetIf}
    {ethHeader : Ethernet.Header} {p q : Packet} {header : Ipv4.RxHeader}
    {handler : Ipv4.Protocol γ}
    (hup : Ipv4.called protocols netIf ethHeader p = .ok (handler, header, q)) :
    ParsedInside m netIf p header q ↔ WellMeasured m netIf p header q := by
  obtain ⟨haccepted, -, -, rfl⟩ := Ipv4.called_ok_iff.mp hup
  have hreads : (∀ i ∈ readOffsets netIf (Ipv4.behindOptions p), p.current ≤ i ∧
    i < p.current + p.count.toNat) ↔
      (¬ (Ipv4.behindOptions p).count < headerSize → 20 ≤ (Ipv4.headerLengthOf p).toNat ∧
        (Ipv4.headerLengthOf p).toNat ≤ p.count.toNat ∧
          (isSummed netIf (Ipv4.behindOptions p) = true →
          (announcedOf (Ipv4.behindOptions p)).toNat ≤ (Ipv4.behindOptions p).count.toNat)) := by
    by_cases hsize : (Ipv4.behindOptions p).count < headerSize
    · rw [readOffsets, if_pos hsize]
      exact iff_of_true (List.forall_mem_nil _) fun h => absurd hsize h
    have hheader : 8 ≤ (Ipv4.behindOptions p).count.toNat := Nat.le_of_not_lt hsize
    rw [readOffsets, if_neg hsize, Ipv4.reads_behind_iff haccepted.size (by decide) hheader,
      forall_prop_of_true hsize]
    refine and_congr_right fun _ => and_congr_right fun _ => ?_
    split_ifs with hsummed
    · exact ⟨fun h _ => h, fun h => h hsummed⟩
    · exact iff_of_true (Nat.zero_le _) fun h => absurd h hsummed
  constructor
  · rintro ⟨hread, hdelivered⟩
    refine ⟨hreads.mp hread, fun hwell hfound => ?_⟩
    obtain ⟨h, hh⟩ := hfound
    exact (hdelivered _ (rxFrame_ok_iff.mpr ⟨hwell, h, hh, rfl⟩)).2.1
  · rintro ⟨hread, hreceived⟩
    refine ⟨hreads.mpr hread, fun d hd => ?_⟩
    obtain ⟨hwell, h, hh, rfl⟩ := rxFrame_ok_iff.mp hd
    have hmin := announced_of_wellFormed hwell
    refine ⟨hmin, hreceived hwell ⟨h, hh⟩, ?_⟩
    change (announcedOf (Ipv4.behindOptions p) - headerSize).toNat = _
    rw [BitVec.toNat_sub_of_le hmin]
    rfl

/-- A module with a handle bound to port 5000, and an interface whose driver checks nothing. -/
def listening : Module 1 :=
  ⟨some ⟨0, Nat.zero_lt_one⟩, fun _ => { Handle.init 1 with port := 5000#16, isBound := true }⟩
def plainNetIf : NetIf := ⟨Vector.replicate 6 1#8, 0x0A000001#32, 0#32⟩

/-- A frame with a datagram of two bytes that announces a length and a checksum, padded. -/
def announcingFrame (announced checksum : BitVec 16) : Packet :=
  let bs := Ipv4.wireHeader ⟨0x0A000002#32, 0x0A000001#32, protocol⟩ 0#16 0#16 30#16 ++
    Packet.be16 80#16 ++
    Packet.be16 5000#16 ++ Packet.be16 announced ++ Packet.be16 checksum ++ [1#8, 2#8]
  ⟨fun i => bs.getD i 0#8, 0, 46#16, 46#16, 0#32, none⟩

def rxEthHeader : Ethernet.Header := ⟨Vector.replicate 6 1#8, Vector.replicate 6 2#8, 0x0800#16⟩

def udpProtocol : Ipv4.Protocol Unit := ⟨protocol, fun _ _ _ => ()⟩

theorem datagramInside_iff_plain : ParsedInside listening plainNetIf (announcingFrame 10#16 0#16)
    (Ipv4.rxHeaderOf rxEthHeader (announcingFrame 10#16 0#16))
      (Ipv4.behindOptions (announcingFrame 10#16 0#16)) := by
  have hup : Ipv4.called [udpProtocol] plainNetIf rxEthHeader (announcingFrame 10#16 0#16) =
      .ok (udpProtocol, Ipv4.rxHeaderOf rxEthHeader (announcingFrame 10#16 0#16),
        Ipv4.behindOptions (announcingFrame 10#16 0#16)) :=
    Ipv4.called_ok_iff.mpr
      ⟨⟨by decide, by decide, by decide, by decide, ⟨_, List.mem_singleton_self _, by decide⟩⟩,
      rfl, rfl, rfl⟩
  exact (datagramInside_iff listening hup).mpr ⟨fun _ => by decide, fun _ _ => by decide⟩

/-- A length of 65535 is summed over before it is compared; one of 26 is compared with the padded
frame, and 16 bytes of padding are delivered as data. -/
theorem announced_length_trusted :
    (Ipv4.Accepted [udpProtocol] plainNetIf (announcingFrame 65535#16 1#16) ∧
      ¬ ParsedInside listening plainNetIf (announcingFrame 65535#16 1#16)
        (Ipv4.rxHeaderOf rxEthHeader (announcingFrame 65535#16 1#16))
        (Ipv4.behindOptions (announcingFrame 65535#16 1#16))) ∧
    Ipv4.Accepted [udpProtocol] plainNetIf (announcingFrame 26#16 0#16) ∧
      ¬ ParsedInside listening plainNetIf (announcingFrame 26#16 0#16)
        (Ipv4.rxHeaderOf rxEthHeader (announcingFrame 26#16 0#16))
        (Ipv4.behindOptions (announcingFrame 26#16 0#16)) := by
  refine ⟨⟨⟨by decide, by decide, by decide, by decide, ⟨_, List.mem_singleton_self _, by decide⟩⟩,
    ?_⟩,
    ⟨by decide, by decide, by decide, by decide, ⟨_, List.mem_singleton_self _, by decide⟩⟩, ?_⟩
  · rintro ⟨hreads, -⟩
    have hlast := hreads (20 + 65534)
      (List.mem_append_right _ (List.mem_map_of_mem (List.mem_range.mpr (by decide))))
    exact absurd hlast.2 (by decide)
  · rintro ⟨-, hdelivered⟩
    exact absurd (hdelivered _
      (rxFrame_ok_iff.mpr ⟨by decide, ⟨0, Nat.zero_lt_one⟩, by decide, rfl⟩)).2.1 (by decide)

end NanoIp.Udp
