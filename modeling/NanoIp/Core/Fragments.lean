import NanoIp.Core.Ipv4Input

/-!
# Fragments

The code masks the flags and offset field with the lowest three bits and tests the
highest of them, so it drops a frame by one bit of its fragment offset. The flag
that announces more fragments is not looked at.
-/
namespace NanoIp.Ipv4

variable {γ : Type}

def moreFragments (p : Packet) : Bool := (fragmentOf p).getLsbD 13

def fragmentOffset (p : Packet) : Nat := (fragmentOf p &&& 0x1FFF#16).toNat

/-- The frame carries a part of a datagram. -/
def IsFragment (p : Packet) : Prop := moreFragments p = true ∨ fragmentOffset p ≠ 0

instance (p : Packet) : Decidable (IsFragment p) := inferInstanceAs (Decidable (_ ∨ _))

/-- The length and the bytes of what the frame carries behind its header. -/
def dataLengthOf (p : Packet) : Nat := (totalLengthOf p).toNat - (headerLengthOf p).toNat
def dataOf (p : Packet) : List Byte :=
  p.bytes (p.current + (headerLengthOf p).toNat) (dataLengthOf p)

/-- A frame with a valid IPv4 header, for the interface and a registered protocol. -/
structure Receivable (protocols : List (Protocol γ)) (netIf : NetIf) (p : Packet) : Prop where
  version : p.byteAt 0 >>> 4 = 4#8
  header : 20 ≤ (headerLengthOf p).toNat
  whole : (headerLengthOf p).toNat ≤ (totalLengthOf p).toNat ∧ (totalLengthOf p).toNat ≤
    p.count.toNat
  checksum : checksumPasses netIf p = true
  address : destAddressOf p = netIf.ipv4Address
  registered : ∃ protocol ∈ protocols, protocol.protocol = protocolOf p

/-- A datagram as its sender splits it. -/
structure Datagram where
  srcAddress : Ipv4Address
  destAddress : Ipv4Address
  protocol : Byte
  identification : BitVec 16
  payload : List Byte

/-- The frame carries a proper part of the datagram and is marked as one. -/
structure Carries (d : Datagram) (p : Packet) : Prop where
  srcAddress : srcAddressOf p = d.srcAddress
  destAddress : destAddressOf p = d.destAddress
  protocol : protocolOf p = d.protocol
  identification : p.wordAt 4 = d.identification
  part : dataOf p = (d.payload.drop (8 * fragmentOffset p)).take (dataLengthOf p)
  proper : 0 < dataLengthOf p ∧ dataLengthOf p < d.payload.length
  more : moreFragments p = true ↔ 8 * fragmentOffset p + dataLengthOf p < d.payload.length

/-- The frames are the fragments of the datagram, in any order. -/
structure Splits (d : Datagram) (fragments : List Packet) : Prop where
  several : 2 ≤ fragments.length
  carries : ∀ p ∈ fragments, Carries d p
  covers : ∀ i < d.payload.length, ∃ p ∈ fragments,
    8 * fragmentOffset p ≤ i ∧ i < 8 * fragmentOffset p + dataLengthOf p

/-- No handler, or some handler, is called for the frame. -/
def Refused (protocols : List (Protocol γ)) (netIf : NetIf) (ethHeader : Ethernet.Header)
    (p : Packet) : Prop :=
  ∃ e, rxFrame protocols netIf ethHeader p = .error e
def Dispatched (protocols : List (Protocol γ)) (netIf : NetIf) (ethHeader : Ethernet.Header)
    (p : Packet) : Prop :=
  ∃ r, rxFrame protocols netIf ethHeader p = .ok r

/-- Fragments are refused and whole datagrams dispatched. -/
def FragmentsRefused (protocols : List (Protocol γ)) (netIf : NetIf) (ethHeader : Ethernet.Header)
    (p : Packet) : Prop :=
  (IsFragment p → Refused protocols netIf ethHeader p) ∧
    (¬ IsFragment p → Dispatched protocols netIf ethHeader p)

variable {protocols : List (Protocol γ)} {netIf : NetIf} {ethHeader : Ethernet.Header} {p : Packet}

theorem refused_iff :
    Refused protocols netIf ethHeader p ↔ ¬ Dispatched protocols netIf ethHeader p := by
  unfold Refused Dispatched
  cases rxFrame protocols netIf ethHeader p with
  | error e => simp
  | ok r => simp

theorem isUnfragmented_iff (p : Packet) :
    isUnfragmented (fragmentOf p) = true ↔ (fragmentOffset p).testBit 2 = false := by
  have hmask (v : BitVec 16) : (v &&& 0x07#16) &&& 0x04#16 =
      if v.getLsbD 2 then 0x04#16 else 0#16 := by
    rw [BitVec.and_assoc]
    exact BitVec.and_twoPow v 2
  have hbit : (fragmentOffset p).testBit 2 = (fragmentOf p).getLsbD 2 := by
    show (fragmentOf p &&& 0x1FFF#16).getLsbD 2 = _
    rw [BitVec.getLsbD_and]
    exact Bool.and_true _
  rw [hbit, isUnfragmented, hmask, decide_eq_true_eq]
  cases (fragmentOf p).getLsbD 2 <;> simp

theorem Receivable.isForUs (hr : Receivable protocols netIf p) :
    isForUs netIf (destAddressOf p) = true := by
  rw [hr.address, Ipv4.isForUs, BitVec.and_self]
  simp

theorem Receivable.dispatched_iff (hr : Receivable protocols netIf p) :
    Dispatched protocols netIf ethHeader p ↔ (fragmentOffset p).testBit 2 = false := by
  have hsize : ¬ p.count < rxMinHeaderSize := by
    have h₁ := hr.header
    have h₂ := hr.whole
    rw [BitVec.lt_def]
    show ¬ p.count.toNat < 20
    omega
  rw [Dispatched, rxFrame_eq, if_neg hsize, ← isUnfragmented_iff]
  cases isUnfragmented (fragmentOf p) with
  | false => simp
  | true =>
    simp only [hr.checksum, hr.isForUs, ↓reduceIte, iff_true]
    exact dispatch_ok hr.registered _ _

theorem Splits.first {d : Datagram} {fragments : List Packet} (hs : Splits d fragments) :
    ∃ p ∈ fragments, fragmentOffset p = 0 ∧ IsFragment p := by
  obtain ⟨p₀, hp₀⟩ := List.exists_mem_of_length_pos (Nat.lt_of_lt_of_le Nat.zero_lt_two hs.several)
  have hpos : 0 < d.payload.length :=
    Nat.lt_of_le_of_lt (Nat.zero_le _) (hs.carries p₀ hp₀).proper.2
  obtain ⟨p, hp, hle, -⟩ := hs.covers 0 hpos
  have hzero : fragmentOffset p = 0 := by omega
  have hc := hs.carries p hp
  refine ⟨p, hp, hzero, .inl (hc.more.mpr ?_)⟩
  have hproper := hc.proper
  omega

/-- A frame is treated right exactly if it is no fragment, or one whose offset has bit
2 set; of a whole split some fragment is always dispatched. -/
theorem fragmentsRefused_iff (protocols : List (Protocol γ)) (netIf : NetIf)
    (ethHeader : Ethernet.Header) :
    (∀ p, Receivable protocols netIf p →
      (FragmentsRefused protocols netIf ethHeader p ↔
        (IsFragment p → (fragmentOffset p).testBit 2 = true))) ∧
    ∀ (d : Datagram) (fragments : List Packet), Splits d fragments →
      (∀ p ∈ fragments, Receivable protocols netIf p) →
      ¬ ∀ p ∈ fragments, Refused protocols netIf ethHeader p := by
  constructor
  · intro p hr
    have hd : Dispatched protocols netIf ethHeader p ↔ _ := hr.dispatched_iff
    rw [FragmentsRefused, refused_iff, hd, Bool.not_eq_false]
    refine and_iff_left_of_imp fun _ hwhole => ?_
    have hzero : fragmentOffset p = 0 := by
      by_contra hne
      exact hwhole (.inr hne)
    rw [hzero, Nat.zero_testBit]
  · intro d fragments hs hr hall
    obtain ⟨p, hp, hzero, -⟩ := hs.first
    refine refused_iff.mp (hall p hp) ((hr p hp).dispatched_iff.mpr ?_)
    rw [hzero, Nat.zero_testBit]

/-- An interface, and one upper protocol that only reports its call. -/
def sampleNetIf : NetIf := ⟨Vector.replicate 6 1#8, 0xC0A80101#32, 0#32⟩
def sampleProtocols : List (Protocol Unit) := [⟨17#8, fun _ _ _ => ()⟩]
def sampleEthHeader : Ethernet.Header := ⟨Vector.replicate 6 1#8, Vector.replicate 6 2#8, 0x0800#16⟩

/-- Sixteen bytes sent to the interface in two fragments, the second one first. -/
def samplePayload : List Byte := [1, 2, 3, 4, 5, 6, 7, 8, 9, 10, 11, 12, 13, 14, 15, 16]
def sampleHeader : Ipv4Header := ⟨0xC0A80102#32, 0xC0A80101#32, 17#8⟩
def sampleFirst : Packet := wireFrame sampleHeader 7#16 0x2000#16 (samplePayload.take 8)
def sampleSecond : Packet := wireFrame sampleHeader 7#16 0x0001#16 (samplePayload.drop 8)
def sampleLater : Packet := wireFrame sampleHeader 7#16 0x0004#16 samplePayload

theorem sample_receivable (p : Packet) (hp : p = sampleFirst ∨ p = sampleSecond ∨ p = sampleLater) :
    Receivable sampleProtocols sampleNetIf p := by
  rcases hp with rfl | rfl | rfl <;>
    exact ⟨by decide, by decide, by decide, by decide, by
      decide, ⟨_, List.mem_cons_self, by decide⟩⟩

theorem sample_splits : Splits ⟨0xC0A80102#32, 0xC0A80101#32, 17#8, 7#16, samplePayload⟩
    [sampleSecond, sampleFirst] where
  several := by decide
  carries p hp := by
    have hp : p = sampleSecond ∨ p = sampleFirst := by simpa using hp
    rcases hp with rfl | rfl <;>
      exact ⟨by decide, by decide, by decide, by decide, by decide, by decide, by decide⟩
  covers := by decide

theorem fragmentsRefused_iff_sample :
    FragmentsRefused sampleProtocols sampleNetIf sampleEthHeader sampleLater ∧
    ¬ ∀ p ∈ [sampleSecond, sampleFirst], Refused sampleProtocols sampleNetIf sampleEthHeader p := by
  obtain ⟨hframe, hsplit⟩ := fragmentsRefused_iff sampleProtocols sampleNetIf sampleEthHeader
  constructor
  · exact (hframe _ (sample_receivable _ (.inr (.inr rfl)))).mpr fun _ => by decide
  · refine hsplit _ _ sample_splits fun p hp => sample_receivable p ?_
    have hp : p = sampleSecond ∨ p = sampleFirst := by simpa using hp
    rcases hp with rfl | rfl
    · exact .inr (.inl rfl)
    · exact .inl rfl

/-- The first fragment of a datagram is given to its protocol. -/
theorem first_fragment_dispatched : ¬ ∀ (protocols : List (Protocol Unit)) (netIf : NetIf)
    (ethHeader : Ethernet.Header) (p : Packet), Receivable protocols netIf p →
    FragmentsRefused protocols netIf ethHeader p := by
  intro hall
  have hr := sample_receivable sampleFirst (.inl rfl)
  have hrefused := (hall _ _ sampleEthHeader _ hr).1 (by decide)
  exact refused_iff.mp hrefused (hr.dispatched_iff.mpr (by decide))

end NanoIp.Ipv4
