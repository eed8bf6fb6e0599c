import NanoIp.Udp.Destination
import NanoIp.Udp.Output

/-!
# Corrupted datagrams

A sent datagram and its pseudo-header sum to a multiple of 65535, which no flipped bit
leaves alone: the receiver sees it as long as it looks at the checksum. It does not look
at one that is zero, and the sender writes the zero it has computed.
-/
namespace NanoIp.Udp

def flipBit (bs : List Byte) (i j : Nat) : List Byte := bs.modify i (· ^^^ BitVec.twoPow 8 j)

/-- The bytes that reach a receiver behind an IPv4 header with the sender's addresses,
on an interface that leaves checksums to the code. -/
structure Arrives (header : Ipv4Header) (bs : List Byte) (netIf : NetIf) (rxHeader : Ipv4.RxHeader)
    (q : Packet) : Prop where
  unchecked : netIf.has netdrvCapUdpIpv4CsCheck = false
  srcAddress : rxHeader.srcAddress = header.srcAddress
  destAddress : rxHeader.destAddress = header.destAddress
  bytes : q.Holds 0 bs

/-- The checksum field is not the one that means none, and a datagram with one bit of its
ports or of its payload flipped is given to nobody. -/
structure Protected (header : Ipv4Header) (bs : List Byte) : Prop where
  checksum : (bs.drop 6).take 2 ≠ [0#8, 0#8]
  detected : ∀ i j, i < 4 ∨ 8 ≤ i → i < bs.length → j < 8 →
    ∀ {n : Nat} (m : Module n) (netIf : NetIf) (rxHeader : Ipv4.RxHeader) (q : Packet),
      Arrives header (flipBit bs i j) netIf rxHeader q → ∀ d, rxFrame m netIf rxHeader q ≠ .ok d

/-- The words the sender adds up. -/
def sumOf (header : Ipv4Header) (srcPort destPort : BitVec 16) (payload : List Byte) : Nat :=
  let udpLength := BitVec.ofNat 16 (payload.length + 8)
  Lib.wordSum (pseudoHeader header udpLength) +
    Lib.wordSum (headerBytes srcPort destPort udpLength ++ payload)

section Sums

variable (header : Ipv4Header) (srcPort destPort : BitVec 16) (payload : List Byte)

theorem pseudoHeader_length (size : BitVec 16) : (pseudoHeader header size).length = 12 := rfl

theorem wordSum_pseudoHeader_pos (size : BitVec 16) :
    0 < Lib.wordSum (pseudoHeader header size) := by
  have hsplit : pseudoHeader header size =
      (Packet.be32 header.srcAddress ++ Packet.be32 header.destAddress) ++
        ([0#8, protocol] ++ Packet.be16 size) := by
    simp only [pseudoHeader, List.append_assoc]
  have hprotocol : Lib.wordSum [0#8, protocol] = 4352 := rfl
  rw [hsplit, Lib.wordSum_append _ _ (by simp [Packet.be32]), Lib.wordSum_append (Packet.be16 size)
    _ (by simp),
    hprotocol]
  omega

theorem sumOf_zero_checksum :
    Lib.wordSum (headerBytes srcPort destPort (BitVec.ofNat 16 (payload.length + 8)) ++
    [0#8, 0#8] ++ payload) =
      Lib.wordSum (headerBytes srcPort destPort (BitVec.ofNat 16 (payload.length + 8)) ++
        payload) := by
  have hzero : Lib.wordSum [0#8, 0#8] = 0 := rfl
  rw [Lib.wordSum_append _ _ (by simp), Lib.wordSum_append _ _ (by simp),
    Lib.wordSum_append _ _ (by simp),
    hzero, Nat.add_zero]

variable {header srcPort destPort payload}

theorem computeCS_eq_zero_iff (hfit : payload.length + 8 < 2 ^ 16) :
    computeCS header (headerBytes srcPort destPort (BitVec.ofNat 16 (payload.length + 8)) ++
      [0#8, 0#8] ++ payload)
        (BitVec.ofNat 16 (payload.length + 8)) = 0#16 ↔
          sumOf header srcPort destPort payload % 65535 = 0 := by
  have hpos := wordSum_pseudoHeader_pos header (BitVec.ofNat 16 (payload.length + 8))
  rw [computeCS, computeInternetCS_eq_zero_iff, Lib.residue_eq_iff, sumOf_zero_checksum]
  · change 0 < sumOf header srcPort destPort payload ∧ _ ↔ _
    have hsum : 0 < sumOf header srcPort destPort payload :=
      Nat.lt_of_lt_of_le hpos (Nat.le_add_right _ _)
    exact and_iff_right hsum
  · simp only [pseudoHeader_length, List.length_append, headerBytes_length, List.length_cons,
      List.length_nil]
    omega

theorem residue_datagram (hfit : payload.length + 8 < 2 ^ 16) :
    Lib.residue (Lib.wordSum (pseudoHeader header (BitVec.ofNat 16 (payload.length + 8))) +
      Lib.wordSum (datagram header srcPort destPort payload)) = 65535 := by
  refine residue_stored _ _ _ (by simp) ?_
  simp only [pseudoHeader_length, List.length_append, headerBytes_length, List.length_cons,
    List.length_nil]
  omega

end Sums

theorem flipBit_eq_set {bs : List Byte} {i : Nat} (hi : i < bs.length) (j : Nat) :
    flipBit bs i j = bs.set i (bs[i] ^^^ BitVec.twoPow 8 j) := by
  rw [flipBit, List.modify_eq_set_getElem?, List.getElem?_eq_getElem hi]
  rfl

theorem flipBit_length (bs : List Byte) (i j : Nat) : (flipBit bs i j).length = bs.length :=
  List.length_modify ..

theorem flipBit_getElem {bs : List Byte} {i k : Nat} (j : Nat) (hk : k < bs.length) (hne : i ≠ k) :
    (flipBit bs i j)[k]? = some bs[k] := by
  rw [flipBit, List.getElem?_modify_ne _ bs hne, List.getElem?_eq_getElem hk]

section Arrives

variable {header : Ipv4Header} {srcPort destPort : BitVec 16} {payload : List Byte} {netIf : NetIf}
  {rxHeader : Ipv4.RxHeader} {q : Packet} {i j : Nat}

/-- The length and the checksum of a datagram corrupted elsewhere are those of the
datagram. -/
theorem Arrives.byteAt
    (h : Arrives header (flipBit (datagram header srcPort destPort payload) i j) netIf rxHeader q)
    (hi : i < 4 ∨ 8 ≤ i) {k : Nat} (hlow : 4 ≤ k) (hhigh : k < 8) :
    some (q.byteAt k) = (datagram header srcPort destPort payload)[k]? := by
  have hk : k < (datagram header srcPort destPort payload).length := by
    rw [datagram_length]
    omega
  have hk' : k < (flipBit (datagram header srcPort destPort payload) i j).length := by
    rwa [flipBit_length]
  have hq := h.bytes.getElem hk'
  have hsame := flipBit_getElem j hk (i := i) (by omega)
  rw [List.getElem?_eq_getElem hk'] at hsame
  rw [Nat.zero_add] at hq
  rw [hq, hsame, List.getElem?_eq_getElem hk]

theorem Arrives.announced
    (h : Arrives header (flipBit (datagram header srcPort destPort payload) i j) netIf rxHeader q)
    (hi : i < 4 ∨ 8 ≤ i) : announcedOf q = BitVec.ofNat 16 (payload.length + 8) := by
  have h₄ := Option.some.inj (h.byteAt hi (k := 4) (by omega) (by omega))
  have h₅ := Option.some.inj (h.byteAt hi (k := 5) (by omega) (by omega))
  rw [announcedOf, Packet.wordAt, h₄, h₅, Packet.be16_word]

theorem Arrives.checksum
    (h : Arrives header (flipBit (datagram header srcPort destPort payload) i j) netIf rxHeader q)
    (hi : i < 4 ∨ 8 ≤ i) (hfit : payload.length + 8 < 2 ^ 16)
    (hsum : sumOf header srcPort destPort payload % 65535 ≠ 0) : checksumOf q ≠ 0#16 := by
  intro hzero
  apply hsum
  rw [← computeCS_eq_zero_iff hfit]
  have h₆ := Option.some.inj (h.byteAt hi (k := 6) (by omega) (by omega))
  have h₇ := Option.some.inj (h.byteAt hi (k := 7) (by omega) (by omega))
  obtain ⟨hlow, hhigh⟩ := Packet.wordAt_eq_zero hzero
  exact checksumBytes_eq_zero (h₆.symm.trans hlow) (h₇.symm.trans hhigh)

/-- The sum that the receiver checks is that of a flipped bit. -/
theorem Arrives.refused
    (h : Arrives header (flipBit (datagram header srcPort destPort payload) i j) netIf rxHeader q)
    (hi : i < 4 ∨ 8 ≤ i) (hlen : i < (datagram header srcPort destPort payload).length) (hj : j < 8)
    (hfit : payload.length + 8 < 2 ^ 16) :
    computeCS rxHeader.toIpv4Header (q.bytes q.current (announcedOf q).toNat) (announcedOf q) ≠
      0#16 := by
  have hsize : (BitVec.ofNat 16 (payload.length + 8)).toNat = payload.length + 8 := by
    rw [BitVec.toNat_ofNat, Nat.mod_eq_of_lt hfit]
  have hpseudo : pseudoHeader rxHeader.toIpv4Header (announcedOf q) =
      pseudoHeader header (BitVec.ofNat 16 (payload.length + 8)) := by
    rw [pseudoHeader, h.srcAddress, h.destAddress, h.announced hi, pseudoHeader]
  have hbytes : q.bytes q.current (announcedOf q).toNat =
      flipBit (datagram header srcPort destPort payload) i j := by
    have hq := h.bytes
    rw [Packet.Holds, Nat.add_zero, flipBit_length, datagram_length] at hq
    rw [h.announced hi, hsize, hq]
  rw [computeCS, hpseudo, hbytes, Ne, computeInternetCS_eq_zero_iff, flipBit_eq_set hlen]
  · exact Lib.residue_ne_of_flip hlen hj _ (residue_datagram hfit)
  · rw [pseudoHeader_length, flipBit_length, datagram_length]
    omega

end Arrives

theorem protected_datagram_iff (header : Ipv4Header) (srcPort destPort : BitVec 16)
    {payload : List Byte} (hfit : payload.length + 8 < 2 ^ 16) :
    Protected header (datagram header srcPort destPort payload) ↔
      sumOf header srcPort destPort payload % 65535 ≠ 0 := by
  have hfield : ((datagram header srcPort destPort payload).drop 6).take 2 =
    checksumBytes (computeCS header
      (headerBytes srcPort destPort (BitVec.ofNat 16 (payload.length + 8)) ++ [0#8, 0#8] ++ payload)
      (BitVec.ofNat 16 (payload.length + 8))) := by
    rw [datagram, List.append_assoc, List.drop_left' (headerBytes_length _ _ _)]
    rfl
  constructor
  · intro h hzero
    apply h.checksum
    rw [hfield, (computeCS_eq_zero_iff hfit).mpr hzero]
    rfl
  · intro hsum
    constructor
    · rw [hfield]
      intro hzero
      obtain ⟨hlow, hhigh⟩ := List.cons.inj hzero
      exact hsum ((computeCS_eq_zero_iff hfit).mp
        (checksumBytes_eq_zero hlow (List.cons.inj hhigh).1))
    · intro i j hi hlen hj n m netIf rxHeader q harrives d hd
      obtain ⟨hwell, -⟩ := rxFrame_ok_iff.mp hd
      rw [wellFormed, Bool.and_eq_true, Bool.and_eq_true, checksumPasses, harrives.unchecked,
        Bool.or_false,
        Bool.or_eq_true, decide_eq_true_eq, decide_eq_true_eq] at hwell
      rcases hwell.1.2 with hnone | hright
      · exact harrives.checksum hi hfit hsum hnone
      · exact harrives.refused hi hlen hj hfit (of_decide_eq_true hright)

/-- The datagrams of a handle are protected exactly if what the checksum covers does not
sum to a multiple of 65535. -/
theorem sent_protected_iff {n : Nat} (k : Handle n) (lower : Lower) (ipv4Address : Ipv4Address)
    (port : BitVec 16) {p : Packet} {room : Nat} {payload : List Byte}
    (hp : Sendable p room payload) :
    let header := outputHeader k lower ipv4Address p
    Protected header ((completePacket k port header p).bytes room (payload.length + 8)) ↔
      sumOf header k.port port payload % 65535 ≠ 0 := by
  dsimp only
  rw [completePacket_bytes k port _ hp]
  exact protected_datagram_iff _ _ _ hp.fits

/-- A handle bound to port 9 of 192.168.1.2, and layers below that are not asked. -/
def sender : Handle 1 := ⟨0xC0A80102#32, 9#16, Ipv4.Handle.init, true, none⟩
def silent : Lower := ⟨.ok 0, fun _ => .ok (0#32, Ipv4.sampleNetIf), fun _ => .pending, .success, 0⟩

def written (b₀ b₁ : Byte) : Packet :=
  (allocatedPacket 2#16 ⟨fun _ => 0#8, 0, 0#16, 0#16, 0#32, none⟩).writeBuffer [b₀, b₁]

theorem written_sendable (b₀ b₁ : Byte) : Sendable (written b₀ b₁) 34 [b₀, b₁] where
  toComposed := (allocatedPacket_composed _ _).writeBuffer _ (by simp)
  fits := by simp

theorem sent_protected_iff_sample :
    Protected (outputHeader sender silent 0xC0A80101#32 (written 1 2))
      ((completePacket sender 7#16 (outputHeader sender silent 0xC0A80101#32 (written 1 2))
        (written 1 2)).bytes
        34 10) :=
  (sent_protected_iff sender silent 0xC0A80101#32 7#16 (written_sendable 1 2)).mpr (by decide)

/-- The header of 192.168.1.2 to 192.168.1.1, and a packet that holds a datagram. -/
def senderHeader : Ipv4Header := ⟨0xC0A80102#32, 0xC0A80101#32, protocol⟩
def holding (bs : List Byte) : Packet :=
  ⟨fun i => bs.getD i 0#8, 0, BitVec.ofNat 16 bs.length, BitVec.ofNat 16 bs.length, 0#32, none⟩

/-- The bytes 124 and 118 make the sum a multiple: the datagram goes out without a
checksum, and is delivered with a bit of its payload flipped. -/
theorem corrupted_datagram_delivered :
    (¬ ∀ (k : Handle 1) (lower : Lower) (ipv4Address : Ipv4Address) (port : BitVec 16) (p : Packet)
      (room : Nat)
      (payload : List Byte), Sendable p room payload →
      Protected (outputHeader k lower ipv4Address p)
        ((completePacket k port (outputHeader k lower ipv4Address p) p).bytes room
          (payload.length + 8))) ∧
    ∃ d, rxFrame boundModule Ipv4.sampleNetIf (headerTo 0xC0A80101#32) (holding (flipBit
        ((completePacket sender 7#16 senderHeader (written 124 118)).bytes 34 10) 8 0)) = .ok d ∧
      (d.packet.byteAt 0, d.packet.byteAt 1) = (125#8, 118#8) := by
  constructor
  · intro hall
    exact (hall sender silent 0xC0A80101#32 7#16 (written 124 118) 34 _
      (written_sendable 124 118)).checksum
      (by decide)
  · exact ⟨_, rxFrame_ok_iff.mpr ⟨by decide, 0, by decide, rfl⟩, by decide⟩

end NanoIp.Udp
