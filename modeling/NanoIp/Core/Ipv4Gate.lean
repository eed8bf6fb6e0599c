import NanoIp.Core.Ipv4Input
import NanoIp.Core.Written

/-!
# What IPv4 reception lets through

What `NANO_IP_IPV4_RxFrame` reads of a received frame, and what it hands to the protocol
above. Version, header length and total length come from the frame; the code compares them
neither with each other nor with the number of bytes received, and subtracts them in 16 bits.
-/
namespace NanoIp.Ipv4

variable {γ : Type}

def Protocol.observed (protocol : Protocol γ) : Protocol (Protocol γ × RxHeader × Packet) :=
  ⟨protocol.protocol, fun _ header q => (protocol, header, q)⟩

/-- The handler that is called, with the header and the packet it is given; the error when none
is. -/
def called (protocols : List (Protocol γ)) (netIf : NetIf) (ethHeader : Ethernet.Header)
    (p : Packet) :
    Except Err (Protocol γ × RxHeader × Packet) :=
  rxFrame (protocols.map Protocol.observed) netIf ethHeader p

/-- The packet behind the whole header, as `Skip header options` leaves it. -/
def behindOptions (p : Packet) : Packet :=
  (behindHeader p).readSkipBytes ((headerLengthOf p).zeroExtend 16 - rxMinHeaderSize)

/-- `ip_version`, which is decoded and then used nowhere. -/
def versionOf (p : Packet) : Byte := p.byteAt 0 >>> 4

/-- The frame passes the tests of the code. -/
structure Accepted (protocols : List (Protocol γ)) (netIf : NetIf) (p : Packet) : Prop where
  size : ¬ p.count < rxMinHeaderSize
  unfragmented : isUnfragmented (fragmentOf p) = true
  checksum : checksumPasses netIf p = true
  forUs : isForUs netIf (destAddressOf p) = true
  registered : ∃ protocol ∈ protocols, protocol.protocol = protocolOf p

/-- The offsets that are read: the header without the fields that are skipped, and the bytes of the
checksum unless the driver has checked it. Of a fragment only the first fields are read. -/
def readOffsets (netIf : NetIf) (p : Packet) : List Nat :=
  if p.count < rxMinHeaderSize then []
  else ([0, 2, 3, 4, 5, 6, 7] ++
    if isUnfragmented (fragmentOf p) then [9, 12, 13, 14, 15, 16, 17, 18, 19] ++
      if netIf.has netdrvCapIpv4CsCheck then [] else List.range (headerLengthOf p).toNat
    else []).map (p.current + ·)

section Frame

variable {protocols : List (Protocol γ)} {netIf : NetIf} {ethHeader : Ethernet.Header}
  {p p' : Packet}

theorem dispatch_called (protocols : List (Protocol γ)) (netIf : NetIf) (header : RxHeader)
    (length : Byte) (p : Packet) :
    dispatch (protocols.map Protocol.observed) netIf header length p =
      match protocols.find? fun protocol => protocol.protocol = header.protocol with
      | some protocol => .ok (protocol, header,
          p.readSkipBytes (length.zeroExtend 16 - rxMinHeaderSize))
      | none => .error .protocolNotFound := by
  have hfind : (protocols.map Protocol.observed).find?
    (fun protocol => protocol.protocol = header.protocol) =
      (protocols.find? fun protocol => protocol.protocol = header.protocol).map Protocol.observed :=
    List.find?_map ..
  rw [dispatch, hfind]
  cases protocols.find? fun protocol => protocol.protocol = header.protocol with
  | none => rfl
  | some protocol => rfl

theorem rxFrame_called (protocols : List (Protocol γ)) (netIf : NetIf) (ethHeader : Ethernet.Header)
    (p : Packet) :
    rxFrame protocols netIf ethHeader p =
      (called protocols netIf ethHeader p).map fun c => c.1.rxFrame netIf c.2.1 c.2.2 := by
  rw [called, rxFrame_eq, rxFrame_eq]
  split_ifs
  · rfl
  · rw [dispatch_called, dispatch]
    cases protocols.find? fun protocol => protocol.protocol = (rxHeaderOf ethHeader p).protocol with
    | none => rfl
    | some protocol => rfl
  all_goals rfl

/-- A handler is called for the frames that pass the tests, with the header as it is decoded. -/
theorem called_ok_iff {protocol : Protocol γ} {header : RxHeader} {q : Packet} :
    called protocols netIf ethHeader p = .ok (protocol, header, q) ↔ Accepted protocols netIf p ∧
      protocols.find? (fun protocol => protocol.protocol = protocolOf p) = some protocol ∧
      header = rxHeaderOf ethHeader p ∧ q = behindOptions p := by
  rw [called, rxFrame_eq]
  constructor
  · intro h
    split_ifs at h with hsize hfragment hsum hus
    rw [dispatch_called] at h
    change (match protocols.find? fun protocol => protocol.protocol = protocolOf p with
      | some protocol => _
      | none => _) = _ at h
    cases hf : protocols.find? fun protocol => protocol.protocol = protocolOf p with
    | none =>
      rw [hf] at h
      cases h
    | some found =>
      rw [hf] at h
      obtain ⟨rfl, hrest⟩ := Prod.mk.inj (Except.ok.inj h)
      obtain ⟨rfl, rfl⟩ := Prod.mk.inj hrest
      have hnumber := List.find?_some hf
      have hregistered : ∃ protocol ∈ protocols, protocol.protocol = protocolOf p :=
        ⟨found, List.mem_of_find?_eq_some hf, of_decide_eq_true hnumber⟩
      exact ⟨⟨hsize, hfragment, hsum, hus, hregistered⟩, rfl, rfl, rfl⟩
  · rintro ⟨h, hf, rfl, rfl⟩
    rw [if_neg h.size, if_pos h.unfragmented, if_pos h.checksum, if_pos h.forUs, dispatch_called]
    change (match protocols.find? fun protocol => protocol.protocol = protocolOf p with
      | some protocol => _
      | none => _) = _
    rw [hf]
    rfl

end Frame

/-- Where the packet that is handed on begins, and how much the code believes is left of the
frame. -/
theorem behindOptions_measures {p : Packet} (hsize : ¬ p.count < rxMinHeaderSize) :
    ∃ skip, (behindOptions p).current = p.current + 20 + skip ∧ skip < 2 ^ 16 ∧ 20 ≤ p.count.toNat ∧
      (skip + 20 = (headerLengthOf p).toNat ∨
        (headerLengthOf p).toNat < 20 ∧ skip = 65516 + (headerLengthOf p).toNat) ∧
      (behindOptions p).count.toNat = (p.count.toNat + 2 ^ 16 - (headerLengthOf p).toNat) %
        2 ^ 16 := by
  have hlt := (headerLengthOf p).isLt
  have hcount := p.count.isLt
  have hlength : ((headerLengthOf p).zeroExtend 16).toNat = (headerLengthOf p).toNat := by
    change ((headerLengthOf p).setWidth 16).toNat = _
    rw [BitVec.toNat_setWidth]
    omega
  have hskip : ((headerLengthOf p).zeroExtend 16 - rxMinHeaderSize).toNat =
      (65516 + (headerLengthOf p).toNat) % 2 ^ 16 := by
    rw [BitVec.toNat_sub, hlength]
    rfl
  have hmin : 20 ≤ p.count.toNat := Nat.le_of_not_lt hsize
  refine ⟨_, rfl, BitVec.isLt _, hmin, ?_, ?_⟩
  · rw [hskip]
    omega
  · have hsub (k : BitVec 16) : (p.count - 20#16 - k).toNat =
      (p.count.toNat - 20 + (2 ^ 16 - k.toNat)) % 2 ^ 16 := by
      have hk := k.isLt
      rw [BitVec.toNat_sub, BitVec.toNat_sub, BitVec.toNat_ofNat]
      omega
    change (p.count - 20#16 - ((headerLengthOf p).zeroExtend 16 - rxMinHeaderSize)).toNat = _
    rw [hsub, hskip]
    omega

/-- A byte behind the header is one of the frame exactly if the header is in the frame, and the
byte in what is left of it. -/
theorem inside_iff {p : Packet} (hsize : ¬ p.count < rxMinHeaderSize) (j : Nat) :
    (p.current ≤ (behindOptions p).current + j ∧ (behindOptions p).current + j <
      p.current + p.count.toNat) ↔
      20 ≤ (headerLengthOf p).toNat ∧ (headerLengthOf p).toNat ≤ p.count.toNat ∧
        j < (behindOptions p).count.toNat := by
  obtain ⟨skip, hcurrent, hskip, hmin, hlength, hleft⟩ := behindOptions_measures hsize
  have hcount := p.count.isLt
  constructor
  · rintro ⟨-, hlt⟩
    refine ⟨by omega, by omega, by omega⟩
  · rintro ⟨h20, hfits, hj⟩
    exact ⟨by omega, by omega⟩

/-- What a protocol above reads from the beginning of its packet on, of a header that it has found
to be there and of a length of its own, is in the frame exactly if the IPv4 header and that length
are. -/
theorem reads_behind_iff {p : Packet} (hsize : ¬ p.count < rxMinHeaderSize) {k : Nat} (hpos : 0 < k)
    (hk : k ≤ (behindOptions p).count.toNat) (len : Nat) :
    (∀ i ∈ (List.range k).map ((behindOptions p).current + ·) ++ (List.range len).map
      ((behindOptions p).current + ·),
      p.current ≤ i ∧ i < p.current + p.count.toNat) ↔
    20 ≤ (headerLengthOf p).toNat ∧ (headerLengthOf p).toNat ≤ p.count.toNat ∧
      len ≤ (behindOptions p).count.toNat := by
  rw [List.forall_mem_append, List.forall_mem_map, List.forall_mem_map]
  simp only [inside_iff hsize, List.mem_range]
  constructor
  · rintro ⟨hfirst, hrest⟩
    obtain ⟨h20, hfits, -⟩ := hfirst 0 hpos
    refine ⟨h20, hfits, ?_⟩
    by_contra hlt
    exact lt_irrefl _ (hrest _ (by omega)).2.2
  · rintro ⟨h20, hfits, hlen⟩
    exact ⟨fun j hj => ⟨h20, hfits, by omega⟩, fun j hj => ⟨h20, hfits, by omega⟩⟩

section Reads

variable {protocols : List (Protocol γ)} {netIf : NetIf} {ethHeader : Ethernet.Header}
  {p p' : Packet}

/-- Only these offsets are read: frames that have the same bytes there are treated the same. -/
theorem called_congr (hcurrent : p'.current = p.current) (hcount : p'.count = p.count)
    (hread : ∀ i ∈ readOffsets netIf p, p'.data i = p.data i) :
    (called protocols netIf ethHeader p').map (fun c => (c.1, c.2.1, c.2.2.current, c.2.2.count)) =
      (called protocols netIf ethHeader p).map fun c =>
        (c.1, c.2.1, c.2.2.current, c.2.2.count) := by
  rw [called, called, rxFrame_eq, rxFrame_eq, hcount]
  by_cases hsize : p.count < rxMinHeaderSize
  · rw [if_pos hsize, if_pos hsize]
  rw [if_neg hsize, if_neg hsize]
  rw [readOffsets, if_neg hsize] at hread
  have hbyte {i : Nat} (hi : i ∈ [0, 2, 3, 4, 5, 6, 7]) : p'.byteAt i = p.byteAt i := by
    rw [Packet.byteAt, Packet.byteAt, hcurrent]
    exact hread _ (List.mem_map_of_mem (List.mem_append_left _ hi))
  have hword {i : Nat} (hi : i ∈ [0, 2, 3, 4, 5, 6, 7]) (hi' : i + 1 ∈ [0, 2, 3, 4, 5, 6, 7]) :
      p'.wordAt i = p.wordAt i := by
    rw [Packet.wordAt, Packet.wordAt, hbyte hi, hbyte hi']
  have hfragment : fragmentOf p' = fragmentOf p := hword (by decide) (by decide)
  rw [hfragment]
  by_cases hunfragmented : isUnfragmented (fragmentOf p) = true
  · rw [if_pos hunfragmented] at hread
    have hrest {i : Nat} (hi : i ∈ [9, 12, 13, 14, 15, 16, 17, 18, 19]) : p'.byteAt i =
        p.byteAt i := by
      rw [Packet.byteAt, Packet.byteAt, hcurrent]
      exact hread _ (List.mem_map_of_mem (List.mem_append_right _ (List.mem_append_left _ hi)))
    have hlength : headerLengthOf p' = headerLengthOf p := by
      rw [headerLengthOf, headerLengthOf, hbyte (by decide)]
    have hdest : destAddressOf p' = destAddressOf p := by
      rw [destAddressOf, destAddressOf, Packet.longAt, Packet.longAt, hrest (by decide),
        hrest (by decide),
        hrest (by decide), hrest (by decide)]
    have hsrc : srcAddressOf p' = srcAddressOf p := by
      rw [srcAddressOf, srcAddressOf, Packet.longAt, Packet.longAt, hrest (by decide),
        hrest (by decide),
        hrest (by decide), hrest (by decide)]
    have htotal : totalLengthOf p' = totalLengthOf p := hword (by decide) (by decide)
    have hprotocol : protocolOf p' = protocolOf p := hrest (by decide)
    have hheader : rxHeaderOf ethHeader p' = rxHeaderOf ethHeader p := by
      rw [rxHeaderOf, rxHeaderOf, hsrc, hdest, hprotocol, htotal, hlength]
    have hsum : checksumPasses netIf p' = checksumPasses netIf p := by
      rw [checksumPasses, checksumPasses, hlength]
      cases hcap : netIf.has netdrvCapIpv4CsCheck with
      | true => rfl
      | false =>
        have hbytes : p'.bytes p'.current (headerLengthOf p).toNat =
            p.bytes p.current (headerLengthOf p).toNat := by
          rw [hcurrent]
          refine Packet.bytes_data _ _ fun i hi =>
            hread _ (List.mem_map_of_mem
            (List.mem_append_right _ (List.mem_append_right _ ?_)))
          rw [hcap]
          exact List.mem_range.mpr hi
        rw [hbytes]
    rw [hsum, hdest, hheader, hlength, dispatch_called, dispatch_called]
    split_ifs
    · cases protocols.find? fun protocol => protocol.protocol =
        (rxHeaderOf ethHeader p).protocol with
      | none => rfl
      | some protocol =>
        simp only [Except.map, behindHeader, Packet.readSkipBytes, hcurrent, hcount]
    · rfl
    · rfl
  · rw [if_neg hunfragmented, if_neg hunfragmented]

/-- The reads stay in the frame exactly when the announced header does, where it is summed. -/
theorem reads_iff : (∀ i ∈ readOffsets netIf p, p.current ≤ i ∧ i < p.current + p.count.toNat) ↔
    (¬ p.count < rxMinHeaderSize → isUnfragmented (fragmentOf p) = true →
      netIf.has netdrvCapIpv4CsCheck = true ∨ (headerLengthOf p).toNat ≤ p.count.toNat) := by
  rw [readOffsets]
  by_cases hsize : p.count < rxMinHeaderSize
  · rw [if_pos hsize]
    exact iff_of_true (List.forall_mem_nil _) fun h => absurd hsize h
  have hmin : 20 ≤ p.count.toNat := Nat.le_of_not_lt hsize
  have hfirst : ∀ i ∈ [0, 2, 3, 4, 5, 6, 7], i < 20 := by decide
  have hrest : ∀ i ∈ [9, 12, 13, 14, 15, 16, 17, 18, 19], i < 20 := by decide
  rw [if_neg hsize, List.forall_mem_map]
  constructor
  · intro hall _ hunfragmented
    rw [if_pos hunfragmented] at hall
    cases hcap : netIf.has netdrvCapIpv4CsCheck with
    | true => exact .inl rfl
    | false =>
      right
      by_cases hz : (headerLengthOf p).toNat = 0
      · omega
      · have hlast := hall ((headerLengthOf p).toNat - 1)
          (List.mem_append_right _ (List.mem_append_right _ (by
          rw [hcap]
          exact List.mem_range.mpr (by omega))))
        omega
  · intro hwell i hi
    rcases List.mem_append.mp hi with hi | hi
    · have := hfirst i hi
      omega
    · split_ifs at hi with hunfragmented hcap
      · rw [List.append_nil] at hi
        have := hrest i hi
        omega
      · rcases List.mem_append.mp hi with hi | hi
        · have := hrest i hi
          omega
        · have hlt := List.mem_range.mp hi
          have hle := (hwell hsize hunfragmented).resolve_left hcap
          omega
      · cases hi

end Reads

/-- What the protocol above may rely on: an IPv4 header of at least twenty bytes inside the
datagram, the datagram inside the frame, and the data exactly behind the header. -/
structure Gated (p : Packet) (header : RxHeader) (q : Packet) : Prop where
  version : versionOf p = 4#8
  minimum : 20 ≤ (headerLengthOf p).toNat
  headerFits : (headerLengthOf p).toNat ≤ (totalLengthOf p).toNat
  totalFits : (totalLengthOf p).toNat ≤ p.count.toNat
  dataLength : header.dataLength.toNat = (totalLengthOf p).toNat - (headerLengthOf p).toNat
  current : q.current = p.current + (headerLengthOf p).toNat
  inside : q.current + q.count.toNat = p.current + p.count.toNat

/-- The frame is not left by a read, and a handler is called only with what it may rely on. -/
structure GatedInside (protocols : List (Protocol γ)) (netIf : NetIf) (ethHeader : Ethernet.Header)
    (p : Packet) :
    Prop where
  reads : ∀ i ∈ readOffsets netIf p, p.current ≤ i ∧ i < p.current + p.count.toNat
  gate : ∀ protocol header q, called protocols netIf ethHeader p = .ok (protocol, header, q) →
    Gated p header q

/-- The header of the frame measures it rightly: where it is summed it does not announce more
bytes than the frame has, and where the frame passes the tests of the code it is an IPv4 header,
of at least twenty bytes, inside a datagram inside the frame. -/
structure WellHeaded (protocols : List (Protocol γ)) (netIf : NetIf) (p : Packet) : Prop where
  read : ¬ p.count < rxMinHeaderSize → isUnfragmented (fragmentOf p) = true →
    netIf.has netdrvCapIpv4CsCheck = true ∨ (headerLengthOf p).toNat ≤ p.count.toNat
  accepted : Accepted protocols netIf p → versionOf p = 4#8 ∧ 20 ≤ (headerLengthOf p).toNat ∧
    (headerLengthOf p).toNat ≤ (totalLengthOf p).toNat ∧ (totalLengthOf p).toNat ≤ p.count.toNat

theorem gated_behindOptions {p : Packet} (ethHeader : Ethernet.Header)
    (hsize : ¬ p.count < rxMinHeaderSize) (hversion : versionOf p = 4#8)
    (hmin : 20 ≤ (headerLengthOf p).toNat)
    (hheader : (headerLengthOf p).toNat ≤ (totalLengthOf p).toNat)
    (htotal : (totalLengthOf p).toNat ≤ p.count.toNat) :
    Gated p (rxHeaderOf ethHeader p) (behindOptions p) := by
  obtain ⟨skip, hcurrent, -, -, hlength, hleft⟩ := behindOptions_measures hsize
  have hcount := p.count.isLt
  have hlt := (headerLengthOf p).isLt
  refine ⟨hversion, hmin, hheader, htotal, ?_, by omega, by omega⟩
  change (totalLengthOf p - (headerLengthOf p).setWidth 16).toNat = _
  rw [BitVec.toNat_sub, BitVec.toNat_setWidth]
  omega

theorem wellHeaded_iff (protocols : List (Protocol γ)) (netIf : NetIf) (ethHeader : Ethernet.Header)
    (p : Packet) :
    GatedInside protocols netIf ethHeader p ↔ WellHeaded protocols netIf p := by
  constructor
  · rintro ⟨hreads, hgate⟩
    refine ⟨reads_iff.mp hreads, fun h => ?_⟩
    obtain ⟨protocol, hin, hnumber⟩ := h.registered
    cases hf : protocols.find? fun protocol => protocol.protocol = protocolOf p with
    | none => exact absurd (decide_eq_true hnumber) (List.find?_eq_none.mp hf protocol hin)
    | some found =>
      have hgated := hgate found _ _ (called_ok_iff.mpr ⟨h, hf, rfl, rfl⟩)
      exact ⟨hgated.version, hgated.minimum, hgated.headerFits, hgated.totalFits⟩
  · rintro ⟨hread, haccepted⟩
    refine ⟨reads_iff.mpr hread, fun protocol header q hcalled => ?_⟩
    obtain ⟨h, -, rfl, rfl⟩ := called_ok_iff.mp hcalled
    obtain ⟨hversion, hmin, hheader, htotal⟩ := haccepted h
    exact gated_behindOptions ethHeader h.size hversion hmin hheader htotal

/-- The gate holds exactly for the frames whose headers measure them rightly. What the code
answers is what the handler it calls answers, and whether and how one is called depends on the
listed reads only. -/
theorem gatedInside_iff (protocols : List (Protocol γ)) (netIf : NetIf)
    (ethHeader : Ethernet.Header) (p : Packet) :
    (GatedInside protocols netIf ethHeader p ↔ WellHeaded protocols netIf p) ∧
    rxFrame protocols netIf ethHeader p =
      (called protocols netIf ethHeader p).map (fun c => c.1.rxFrame netIf c.2.1 c.2.2) ∧
    ∀ p' : Packet, p'.current = p.current → p'.count = p.count →
      (∀ i ∈ readOffsets netIf p, p'.data i = p.data i) →
        (called protocols netIf ethHeader p').map
          (fun c => (c.1, c.2.1, c.2.2.current, c.2.2.count)) =
          (called protocols netIf ethHeader p).map fun c =>
            (c.1, c.2.1, c.2.2.current, c.2.2.count) :=
  ⟨wellHeaded_iff protocols netIf ethHeader p, rxFrame_called protocols netIf ethHeader p,
    fun _ hcurrent hcount hread => called_congr hcurrent hcount hread⟩

/-- A frame of 28 bytes with a right header checksum that announces a length of zero: the handler
is told of 65516 bytes of data. -/
theorem zero_length_handed_up : ¬ ∀ (netIf : NetIf) (ethHeader : Ethernet.Header) (p : Packet),
    GatedInside [⟨17#8, fun _ _ _ => ()⟩] netIf ethHeader p := by
  intro hall
  let netIf : NetIf := ⟨Vector.replicate 6 1#8, 0x0A000001#32, 0#32⟩
  let ethHeader : Ethernet.Header := ⟨Vector.replicate 6 1#8, Vector.replicate 6 2#8, 0x0800#16⟩
  let bs := wireHeader ⟨0x0A000002#32, 0x0A000001#32, 17#8⟩ 0#16 0#16 0#16 ++ List.replicate 8 7#8
  let p : Packet := ⟨fun i => bs.getD i 0#8, 0, 28#16, 28#16, 0#32, none⟩
  have hcalled : called [⟨17#8, fun _ _ _ => ()⟩] netIf ethHeader p =
      .ok (⟨17#8, fun _ _ _ => ()⟩, rxHeaderOf ethHeader p, behindOptions p) :=
    called_ok_iff.mpr
      ⟨⟨by decide, by decide, by decide, by decide, ⟨_, List.mem_singleton_self _, by decide⟩⟩,
      rfl, rfl, rfl⟩
  exact absurd ((hall netIf ethHeader p).gate _ _ _ hcalled).headerFits (by decide)

end NanoIp.Ipv4
