import NanoIp.Core.Ethernet
import NanoIp.Lib.Crc

/-!
# The frame check sequence

`NANO_IP_ETHERNET_ComputeCrc` takes four bits at a time; it computes the bit-serial
check of the Ethernet polynomial, each byte's lowest bit first. A frame that is followed
by its check sequence leaves the residue a receiver compares with, and no longer does
once the frame is padded behind it.
-/
namespace NanoIp.Ethernet

def polynomial : BitVec 32 := 0x04C11DB7#32

/-- `ETHERNET_CS_RESIDUE`. -/
def csResidue : BitVec 32 := 0xC704DD7B#32

def crcOf (bs : List Byte) : BitVec 32 := bs.foldl crcByte 0xFFFFFFFF#32

/-- The check sequence of a remainder, as `NANO_IP_ETHERNET_SendPacket` appends it. -/
def fcsBytes (crc : BitVec 32) : List Byte :=
  let fcs := ~~~ crc.reverse
  [fcs.truncate 8, (fcs >>> 8).truncate 8, (fcs >>> 16).truncate 8, (fcs >>> 24).truncate 8]

/-- The loop behind `Invert bits order`: the set bits of the remainder are added up, each at
its mirrored place. -/
def invertBitsOrder (computedCrc : BitVec 32) : BitVec 32 :=
  (List.range 32).foldl (fun fcs i => if computedCrc.getLsbD (31 - i) then fcs + 1#32 <<<
    i else fcs) 0#32

/-- No place is added to twice, so nothing is carried and the sum is the mirrored remainder. -/
theorem invertBitsOrder_eq (computedCrc : BitVec 32) :
    invertBitsOrder computedCrc = computedCrc.reverse := by
  have hupTo : ∀ k ≤ 32, ((List.range k).foldl
      (fun fcs i => if computedCrc.getLsbD (31 - i) then fcs + 1#32 <<< i else fcs) 0#32).toNat =
        computedCrc.reverse.toNat % 2 ^ k := by
    intro k
    induction k with
    | zero => intro _; rw [pow_zero, Nat.mod_one]; rfl
    | succ k ih =>
      intro hk
      have hlow := Nat.mod_lt computedCrc.reverse.toNat (Nat.two_pow_pos k)
      have hpow : 2 ^ (k + 1) ≤ 2 ^ 32 := Nat.pow_le_pow_right (by decide) hk
      have hbit : computedCrc.reverse.toNat.testBit k = computedCrc.getLsbD (31 - k) := by
        rw [BitVec.testBit_toNat, BitVec.getLsbD_reverse, BitVec.getMsbD_eq_getLsbD]
        simp [show k < 32 by omega]
      rw [List.range_succ, List.foldl_append, Nat.mod_pow_succ, ← Nat.toNat_testBit, hbit,
        ← ih (by omega)]
      rw [← ih (by omega)] at hlow
      rw [List.foldl_cons, List.foldl_nil]
      cases computedCrc.getLsbD (31 - k) with
      | false => rw [if_neg Bool.false_ne_true, Bool.toNat_false, Nat.mul_zero, Nat.add_zero]
      | true =>
        rw [pow_succ] at hpow
        rw [if_pos rfl, BitVec.toNat_add, BitVec.toNat_shiftLeft, Nat.shiftLeft_eq,
          Nat.mod_eq_of_lt (a := _ * _),
          Nat.mod_eq_of_lt]
        all_goals simp only [BitVec.toNat_ofNat, Nat.reducePow, Nat.one_mod, Bool.toNat_true]
        all_goals omega
  refine BitVec.eq_of_toNat_eq ?_
  rw [invertBitsOrder, hupTo 32 (Nat.le_refl 32), Nat.mod_eq_of_lt computedCrc.reverse.isLt]

def bitsOf (b : Byte) (k : Nat) : List Bool := (List.range k).map b.getLsbD

def fed (x : Bool) (k : Nat) : BitVec 32 := (if x then polynomial else 0#32) <<< k

theorem fed_msb (x : Bool) {k : Nat} (hk : k < 4) : (fed x k).msb = false := by
  have hall : ∀ (x : Bool) (k : Fin 4), (fed x k.val).msb = false := by decide
  exact hall x ⟨k, hk⟩

theorem fed_shiftLeft (x : Bool) (k : Nat) : fed x k <<< 1 = fed x (k + 1) := by
  rw [fed, fed, BitVec.shiftLeft_add]

theorem crcBit_moved (crc t : BitVec 32) {k : Nat} (hk : k < 32) (ht : t.msb = false) (bit : Bool) :
    Lib.crcBit polynomial (crc <<< k ^^^ t) bit =
      crc <<< (k + 1) ^^^ (t <<< 1 ^^^ fed (crc.getLsbD (31 - k) ^^ bit) 0) := by
  have hmsb : (crc <<< k).msb = crc.getLsbD (31 - k) := by
    rw [BitVec.msb_shiftLeft, BitVec.getMsbD_eq_getLsbD]
    simp [hk]
  have hfed (x : Bool) : (if x then polynomial else 0#32) = fed x 0 := by cases x <;> rfl
  rw [Lib.crcBit, BitVec.msb_xor, hmsb, ht, Bool.xor_false, hfed, BitVec.shiftLeft_xor_distrib,
    ← BitVec.shiftLeft_add, BitVec.xor_assoc]

/-- Four bits at a time the remainder moves up by four, and what each of the four feeds
back is decided by the bits that stand there before. -/
theorem crcNibble_eq (crc : BitVec 32) (b : Byte) :
    crcNibble crc b = Lib.crc polynomial crc (bitsOf b 4) := by
  have hq (x : Bool) : (if x then 0x04C11DB7#32 else 0#32) = fed x 0 ∧
      (if x then 0x09823B6E#32 else 0#32) = fed x 1 ∧
        (if x then 0x130476DC#32 else 0#32) = fed x 2 ∧
      (if x then 0x2608EDB8#32 else 0#32) = fed x 3 := by
    cases x <;> decide
  have hnone : crc = crc <<< 0 ^^^ 0#32 := by rw [BitVec.shiftLeft_zero, BitVec.xor_zero]
  have h₀ := crcBit_moved crc 0#32 (k := 0) (by omega) rfl (b.getLsbD 0)
  rw [← hnone, show (0#32 <<< 1 : BitVec 32) = 0#32 from rfl, BitVec.zero_xor] at h₀
  have h₁ := crcBit_moved crc (fed (crc.getLsbD 31 ^^ b.getLsbD 0) 0) (k := 1) (by omega)
    (fed_msb _ (by omega)) (b.getLsbD 1)
  have h₂ := crcBit_moved crc (fed (crc.getLsbD 31 ^^ b.getLsbD 0) 1 ^^^
    fed (crc.getLsbD 30 ^^ b.getLsbD 1) 0)
    (k := 2) (by omega) (by rw [BitVec.msb_xor, fed_msb _ (by omega), fed_msb _ (by omega)]; rfl)
      (b.getLsbD 2)
  have h₃ := crcBit_moved crc (fed (crc.getLsbD 31 ^^ b.getLsbD 0) 2 ^^^
    fed (crc.getLsbD 30 ^^ b.getLsbD 1) 1 ^^^
    fed (crc.getLsbD 29 ^^ b.getLsbD 2) 0) (k := 3) (by omega)
    (by rw [BitVec.msb_xor, BitVec.msb_xor, fed_msb _ (by omega), fed_msb _
      (by omega), fed_msb _ (by omega)]; rfl)
    (b.getLsbD 3)
  simp only [BitVec.shiftLeft_xor_distrib, fed_shiftLeft, Nat.reduceAdd, Nat.reduceSub]
    at h₀ h₁ h₂ h₃
  change _ = Lib.crcBit polynomial (Lib.crcBit polynomial (Lib.crcBit polynomial
    (Lib.crcBit polynomial crc (b.getLsbD 0)) (b.getLsbD 1)) (b.getLsbD 2)) (b.getLsbD 3)
  rw [h₀, h₁, h₂, h₃, crcNibble]
  rw [(hq _).1, (hq _).2.1, (hq _).2.2.1, (hq _).2.2.2]
  ac_rfl

theorem crcByte_eq (crc : BitVec 32) (b : Byte) :
    crcByte crc b = Lib.crc polynomial crc (bitsOf b 8) := by
  have hbits : bitsOf b 8 = bitsOf b 4 ++ bitsOf (b >>> 4) 4 := by
    simp [bitsOf, List.range_succ]
  rw [crcByte, crcNibble_eq, crcNibble_eq, hbits, Lib.crc_append]

def allBits (bs : List Byte) : List Bool := bs.flatMap fun b => bitsOf b 8

theorem foldl_crcByte (bs : List Byte) (crc : BitVec 32) :
    bs.foldl crcByte crc = Lib.crc polynomial crc (allBits bs) := by
  induction bs generalizing crc with
  | nil => rfl
  | cons b bs ih =>
    rw [List.foldl_cons, ih, crcByte_eq, ← Lib.crc_append]
    rfl

theorem allBits_fcsBytes (crc : BitVec 32) : allBits (fcsBytes crc) = Lib.complement crc 32 := by
  have hbit (i : Nat) (hi : i < 32) : (~~~ crc.reverse).getLsbD i = !crc.getMsbD i := by
    rw [BitVec.getLsbD_not, BitVec.getLsbD_reverse, decide_eq_true hi, Bool.true_and]
  have hbyte (k : Nat) (hk : k + 8 ≤ 32) : bitsOf ((~~~ crc.reverse >>> k).truncate 8) 8 =
      (List.range 8).map fun i => !crc.getMsbD (k + i) := by
    refine List.map_congr_left fun i hi => ?_
    have hi := List.mem_range.mp hi
    rw [BitVec.truncate_eq_setWidth, BitVec.getLsbD_setWidth, BitVec.getLsbD_ushiftRight,
      hbit _ (by omega)]
    simp [hi]
  have hfirst := hbyte 0 (by omega)
  rw [BitVec.ushiftRight_zero] at hfirst
  have hsplit : Lib.complement crc 32 = (List.range 8).map (fun i => !crc.getMsbD (0 + i)) ++
      ((List.range 8).map (fun i => !crc.getMsbD (8 + i)) ++
        ((List.range 8).map (fun i => !crc.getMsbD (16 + i)) ++
        ((List.range 8).map (fun i => !crc.getMsbD (24 + i)) ++ []))) := rfl
  rw [hsplit, ← hfirst, ← hbyte 8 (by omega), ← hbyte 16 (by omega), ← hbyte 24 (by omega)]
  rfl

theorem crcOf_fcs (bs : List Byte) : crcOf (bs ++ fcsBytes (crcOf bs)) = csResidue := by
  rw [crcOf, List.foldl_append, foldl_crcByte (fcsBytes _), allBits_fcsBytes]
  change Lib.crc polynomial (crcOf bs) _ = _
  rw [Lib.crc_complement]
  decide

theorem crcOf_fcs_padded (bs : List Byte) {k : Nat} (hpos : 0 < k) (hk : k < 47) :
    crcOf (bs ++ fcsBytes (crcOf bs) ++ List.replicate k 0#8) ≠ csResidue := by
  have hall : ∀ k : Fin 46, (List.replicate (k.val + 1) 0#8).foldl crcByte csResidue ≠
      csResidue := by
    decide +kernel
  have hfcs := crcOf_fcs bs
  rw [crcOf] at hfcs
  rw [crcOf, List.foldl_append, hfcs]
  have h := hall ⟨k - 1, by omega⟩
  rwa [show k - 1 + 1 = k from by omega] at h

end NanoIp.Ethernet
