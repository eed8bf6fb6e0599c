import NanoIp.Core.EthernetInput
import NanoIp.Lib.Burst

/-!
# Frames with a burst of errors

A frame and its check sequence leave the residue. Errors within 32 consecutive bits, in
the order in which they are transmitted, add a remainder that is not zero, wherever they
stand and however long the frame is: the interface that checks frames itself refuses it.
-/
namespace NanoIp.Ethernet

/-- The bytes that arrive where `error` was added on the way. -/
def corrupted (bs error : List Byte) : List Byte := List.zipWith (· ^^^ ·) bs error

theorem bitsOf_xor (a b : Byte) (k : Nat) :
    bitsOf (a ^^^ b) k = List.zipWith xor (bitsOf a k) (bitsOf b k) := by
  rw [bitsOf, bitsOf, bitsOf, List.zipWith_map, List.zipWith_self]
  exact List.map_congr_left fun i _ => BitVec.getLsbD_xor

theorem allBits_cons (b : Byte) (bs : List Byte) : allBits (b :: bs) = bitsOf b 8 ++ allBits bs :=
  List.flatMap_cons

theorem allBits_length (bs : List Byte) : (allBits bs).length = 8 * bs.length := by
  induction bs with
  | nil => rfl
  | cons b bs ih =>
    have hbits : (bitsOf b 8).length = 8 := rfl
    rw [allBits_cons, List.length_append, ih, List.length_cons, hbits]
    omega

theorem allBits_corrupted (bs error : List Byte) (hlen : bs.length = error.length) :
    allBits (corrupted bs error) = List.zipWith xor (allBits bs) (allBits error) := by
  induction bs generalizing error with
  | nil =>
    obtain rfl := List.length_eq_zero_iff.mp hlen.symm
    rfl
  | cons b bs ih =>
    cases error with
    | nil => cases hlen
    | cons e error =>
      have hbits : (bitsOf b 8).length = (bitsOf e 8).length := rfl
      rw [allBits_cons, allBits_cons, List.zipWith_append hbits, ← bitsOf_xor,
        ← ih error (Nat.succ.inj hlen),
        ← allBits_cons]
      rfl

/-- Other bytes than those of a frame and its check sequence, a burst apart, do not leave
the residue. -/
theorem crcOf_corrupted_ne (frame error : List Byte) (hsize : error.length = frame.length + csSize)
    (hburst : Lib.IsBurst 32 (allBits error)) :
    crcOf (corrupted (frame ++ fcsBytes (crcOf frame)) error) ≠ csResidue := by
  have hlen : (frame ++ fcsBytes (crcOf frame)).length = error.length := by
    rw [hsize, List.length_append]
    rfl
  have hbits : (allBits (frame ++ fcsBytes (crcOf frame))).length = (allBits error).length := by
    rw [allBits_length, allBits_length, hlen]
  have hsent := crcOf_fcs frame
  rw [crcOf, foldl_crcByte] at hsent
  rw [crcOf, foldl_crcByte, allBits_corrupted _ _ hlen, ← hsent]
  exact Lib.crc_corrupted_ne (by decide) hbits hburst _

/-- A frame of `n` bytes whose check sequence was right, with errors within 32 consecutive
bits: the residue is wrong, and the frame is refused for it unless its length was refused
before. -/
theorem burst_isRejected {γ : Type} (frame error : List Byte) (q : Packet)
    (hsize : error.length = frame.length + csSize) (hburst : Lib.IsBurst 32 (allBits error))
    (hcount : q.count.toNat = frame.length)
    (hbytes : q.bytes 0 (frame.length + csSize) =
      corrupted (frame ++ fcsBytes (crcOf frame)) error) :
    computeCrc q true ≠ csResidue ∧
      ∀ (protocols : List (Protocol γ)) (netIf : NetIf), netIf.has netdrvCapEthCsCheck = false →
        rxFrame protocols netIf q =
          .error (if isLongEnough netIf q then .invalidCrc else .packetTooShort) := by
  have hresidue : computeCrc q true ≠ csResidue := by
    change crcOf (q.bytes 0 (q.count.toNat + csSize)) ≠ csResidue
    rw [hcount, hbytes]
    exact crcOf_corrupted_ne frame error hsize hburst
  refine ⟨hresidue, fun protocols netIf hcap => ?_⟩
  have hfails : crcPasses netIf q = false := by
    rw [crcPasses, hcap, Bool.false_or, decide_eq_false hresidue]
  rw [rxFrame_eq, hfails]
  cases isLongEnough netIf q <;> rfl

/-- A frame as it arrives, its bytes and those of its check sequence with `error` added. -/
def arrived (frame error : List Byte) : Packet where
  data i := (corrupted (frame ++ fcsBytes (crcOf frame)) error).getD i 0#8
  current := 0
  size := BitVec.ofNat 16 (frame.length + csSize)
  count := BitVec.ofNat 16 frame.length
  flags := 0#32
  netIf := none

theorem arrived_bytes (frame error : List Byte) (hsize : error.length = frame.length + csSize) :
    (arrived frame error).bytes 0 (frame.length + csSize) =
      corrupted (frame ++ fcsBytes (crcOf frame)) error := by
  have hlen : (corrupted (frame ++ fcsBytes (crcOf frame)) error).length =
      frame.length + csSize := by
    rw [corrupted, List.length_zipWith, hsize, List.length_append]
    exact Nat.min_self _
  refine List.ext_getElem (by rw [Packet.bytes_length, hlen]) fun i h₁ h₂ => ?_
  rw [Packet.bytes_getElem, Nat.zero_add]
  exact (List.getD_eq_getElem?_getD).trans
    (congrArg (Option.getD · 0#8) (List.getElem?_eq_getElem h₂))

/-- A burst that can be seen to lie behind bit `start`. -/
theorem isBurst_of_span {k : Nat} {bits : List Bool} (start : Nat) (hne : true ∈ bits)
    (hspan : ∀ x ∈ bits.zipIdx, x.1 = true → start ≤ x.2 ∧ x.2 < start + k) : Lib.IsBurst k bits :=
  ⟨hne, start, fun _ hi => hspan _ (List.mk_mem_zipIdx_iff_getElem?.mpr hi) rfl⟩

/-- A frame of `n` bytes between two stations, filled up. -/
def plainFrame (n : Nat) : List Byte :=
  List.replicate 6 2#8 ++ List.replicate 6 4#8 ++ [8#8, 0#8] ++ List.replicate (n - 14) 0x55#8

/-- The first and the last of 32 bits that start with the last one of byte `before`. -/
def farApart (before behind : Nat) : List Byte :=
  List.replicate before 0#8 ++ [0x80#8, 0#8, 0#8, 0#8, 0x40#8] ++ List.replicate behind 0#8

/-- A frame of 60 bytes, two of its bits flipped on the way. -/
theorem burst_isRejected_sixty :
    computeCrc (arrived (plainFrame 60) (farApart 30 29)) true ≠ csResidue ∧
    rxFrame ([] : List (Protocol Unit)) ⟨Vector.replicate 6 2#8, 0x0A000001#32, 0#32⟩
      (arrived (plainFrame 60) (farApart 30 29)) = .error .invalidCrc := by
  obtain ⟨hresidue, hrx⟩ := burst_isRejected (γ := Unit) (plainFrame 60) (farApart 30 29) _ rfl
    (isBurst_of_span 247 (by decide) (by decide +kernel)) rfl (arrived_bytes _ _ rfl)
  exact ⟨hresidue, (hrx [] ⟨Vector.replicate 6 2#8, 0x0A000001#32, 0#32⟩ (by decide)).trans rfl⟩

/-- A frame of 20 bytes is refused for its length, whatever its check sequence. -/
theorem burst_short :
    Lib.IsBurst 32 (allBits (farApart 10 9)) ∧
      (arrived (plainFrame 20) (farApart 10 9)).bytes 0 24 =
        corrupted (plainFrame 20 ++ fcsBytes (crcOf (plainFrame 20))) (farApart 10 9) ∧
      (⟨Vector.replicate 6 2#8, 0x0A000001#32, 0#32⟩ : NetIf).has netdrvCapEthCsCheck = false ∧
      rxFrame ([] : List (Protocol Unit)) ⟨Vector.replicate 6 2#8, 0x0A000001#32, 0#32⟩
        (arrived (plainFrame 20) (farApart 10 9)) ≠ .error .invalidCrc := by
  refine ⟨isBurst_of_span 87 (by decide) (by decide +kernel), arrived_bytes _ _ rfl, by decide, ?_⟩
  rw [rxFrame_eq]
  have hshort : isLongEnough ⟨Vector.replicate 6 2#8, 0x0A000001#32, 0#32⟩
    (arrived (plainFrame 20) (farApart 10 9)) = false := by decide
  rw [hshort]
  exact fun h => by cases h

end NanoIp.Ethernet
