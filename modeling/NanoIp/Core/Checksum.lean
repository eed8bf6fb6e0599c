import NanoIp.Core.Types
import NanoIp.Lib.OnesComplement

/-!
# The Internet checksum

`NANO_IP_ComputeInternetCS` as a little-endian host computes it: 16-bit words
are read low byte first, summed in 32 bits, folded and inverted.
-/
namespace NanoIp

/-- One `checksum += *data` loop; a trailing odd byte is added alone, which only a buffer
has: every pseudo-header is of an even size. -/
def sumWords (sum : BitVec 32) : List Byte → BitVec 32
  | lo :: hi :: bs => sumWords (sum + (lo.zeroExtend 32 + (hi.zeroExtend 32 <<< 8))) bs
  | [b] => sum + b.zeroExtend 32
  | [] => sum

def foldCarry (sum : BitVec 32) : BitVec 32 := (sum &&& 0xFFFF#32) + (sum >>> 16)

theorem foldCarry_toNat (sum : BitVec 32) :
    (foldCarry sum).toNat = sum.toNat % 2 ^ 16 + sum.toNat / 2 ^ 16 := by
  have hlow : (sum &&& 0xFFFF#32).toNat = sum.toNat % 2 ^ 16 := by
    rw [BitVec.toNat_and]
    exact Nat.and_two_pow_sub_one_eq_mod sum.toNat 16
  have hhigh : (sum >>> 16).toNat = sum.toNat / 2 ^ 16 := by
    rw [BitVec.toNat_ushiftRight, Nat.shiftRight_eq_div_pow]
  rw [foldCarry, BitVec.toNat_add, hlow, hhigh, Nat.mod_eq_of_lt]
  have := sum.isLt
  omega

theorem foldCarry_twice_lt (sum : BitVec 32) : (foldCarry (foldCarry sum)).toNat < 2 ^ 16 := by
  rw [foldCarry_toNat, foldCarry_toNat]
  have := sum.isLt
  omega

/-- The folding loop, unrolled to the two passes it can take. -/
def foldSum (sum : BitVec 32) : BitVec 32 :=
  if sum >>> 16 = 0#32 then sum
  else if foldCarry sum >>> 16 = 0#32 then foldCarry sum
  else foldCarry (foldCarry sum)

/-- The folding loop as it stands, in a number of passes; `none` when they do not suffice. -/
def foldLoop (passes : Nat) (sum : BitVec 32) : Option (BitVec 32) :=
  if sum >>> 16 = 0#32 then some sum
  else match passes with
    | 0 => none
    | passes + 1 => foldLoop passes (foldCarry sum)

/-- `NANO_IP_ComputeInternetCS`; an absent pseudo-header is the empty list. -/
def computeInternetCS (pseudoHeader buffer : List Byte) : BitVec 16 :=
  (~~~ foldSum (sumWords (sumWords 0#32 pseudoHeader) buffer)).truncate 16

def checksumBytes (checksum : BitVec 16) : List Byte :=
  [checksum.truncate 8, (checksum >>> 8).truncate 8]

theorem checksumBytes_eq_zero {checksum : BitVec 16} (hlow : checksum.truncate 8 = 0#8)
    (hhigh : (checksum >>> 8).truncate 8 = 0#8) : checksum = 0#16 := by
  have h₁ := congrArg BitVec.toNat hlow
  have h₂ := congrArg BitVec.toNat hhigh
  have hc := checksum.isLt
  simp only [BitVec.truncate_eq_setWidth, BitVec.toNat_setWidth, BitVec.toNat_ushiftRight,
    Nat.shiftRight_eq_div_pow, BitVec.toNat_ofNat] at h₁ h₂
  exact BitVec.eq_of_toNat_eq (by rw [BitVec.toNat_ofNat]; omega)

theorem zeroExtend_toNat (b : Byte) : (b.zeroExtend 32).toNat = b.toNat := by
  have hb := b.isLt
  change (b.setWidth 32).toNat = _
  rw [BitVec.toNat_setWidth]
  omega

/-- The loops add up words without overflow. -/
theorem sumWords_toNat : ∀ (bs : List Byte) (sum : BitVec 32), sum.toNat + Lib.wordSum bs < 2 ^ 32 →
    (sumWords sum bs).toNat = sum.toNat + Lib.wordSum bs
  | [], _, _ => rfl
  | [b], sum, h => by
    have hb := b.isLt
    simp only [Lib.wordSum] at h ⊢
    rw [sumWords, BitVec.toNat_add, zeroExtend_toNat]
    omega
  | lo :: hi :: bs, sum, h => by
    have hlo := lo.isLt
    have hhi := hi.isLt
    have hword : (sum + (lo.zeroExtend 32 + (hi.zeroExtend 32 <<< 8))).toNat =
        sum.toNat + (lo.toNat + 256 * hi.toNat) := by
      simp only [Lib.wordSum] at h
      rw [BitVec.toNat_add, BitVec.toNat_add, BitVec.toNat_shiftLeft, zeroExtend_toNat,
        zeroExtend_toNat,
        Nat.shiftLeft_eq]
      omega
    simp only [Lib.wordSum] at h ⊢
    rw [sumWords, sumWords_toNat bs _ (by omega), hword]
    omega

theorem foldSum_toNat (sum : BitVec 32) : (foldSum sum).toNat = Lib.residue sum.toNat := by
  have hlow : ∀ s : BitVec 32, s >>> 16 = 0#32 → s.toNat < 2 ^ 16 := by
    intro s hs
    have h := congrArg BitVec.toNat hs
    rw [BitVec.toNat_ushiftRight, Nat.shiftRight_eq_div_pow] at h
    simp only [BitVec.toNat_ofNat] at h
    omega
  have hfold : ∀ s : BitVec 32, Lib.residue (foldCarry s).toNat = Lib.residue s.toNat := by
    intro s
    rw [foldCarry_toNat, Lib.residue_fold]
  unfold foldSum
  split_ifs with h₀ h₁
  · rw [Lib.residue_of_lt (hlow sum h₀)]
  · rw [← hfold sum, Lib.residue_of_lt (hlow _ h₁)]
  · rw [← hfold sum, ← hfold (foldCarry sum), Lib.residue_of_lt (foldCarry_twice_lt sum)]

theorem computeInternetCS_toNat {pseudoHeader buffer : List Byte}
    (hlen : pseudoHeader.length + buffer.length ≤ 2 ^ 16 + 2 ^ 8) :
    (computeInternetCS pseudoHeader buffer).toNat =
      65535 - Lib.residue (Lib.wordSum pseudoHeader + Lib.wordSum buffer) := by
  have hp := Lib.wordSum_le pseudoHeader
  have hb := Lib.wordSum_le buffer
  have hsum : (sumWords (sumWords 0#32 pseudoHeader) buffer).toNat =
      Lib.wordSum pseudoHeader + Lib.wordSum buffer := by
    have hfirst : (sumWords 0#32 pseudoHeader).toNat = Lib.wordSum pseudoHeader := by
      rw [sumWords_toNat pseudoHeader 0#32 (by simp only [BitVec.toNat_ofNat]; omega)]
      simp
    rw [sumWords_toNat buffer _ (by rw [hfirst]; omega), hfirst]
  have hle := Lib.residue_le (Lib.wordSum pseudoHeader + Lib.wordSum buffer)
  rw [computeInternetCS, BitVec.truncate_eq_setWidth, BitVec.toNat_setWidth, BitVec.toNat_not,
    foldSum_toNat, hsum]
  omega

theorem computeInternetCS_eq_zero_iff {pseudoHeader buffer : List Byte}
    (hlen : pseudoHeader.length + buffer.length ≤ 2 ^ 16 + 2 ^ 8) :
    computeInternetCS pseudoHeader buffer = 0#16 ↔
      Lib.residue (Lib.wordSum pseudoHeader + Lib.wordSum buffer) = 65535 := by
  have hle := Lib.residue_le (Lib.wordSum pseudoHeader + Lib.wordSum buffer)
  rw [← BitVec.toNat_inj, computeInternetCS_toNat hlen]
  simp only [BitVec.toNat_ofNat]
  omega

theorem foldLoop_two (sum : BitVec 32) : foldLoop 2 sum = some (foldSum sum) := by
  have hlast : foldCarry (foldCarry sum) >>> 16 = 0#32 := by
    refine BitVec.eq_of_toNat_eq ?_
    rw [BitVec.toNat_ushiftRight, Nat.shiftRight_eq_div_pow,
      Nat.div_eq_of_lt (foldCarry_twice_lt sum)]
    rfl
  rw [foldLoop, foldLoop, foldLoop, if_pos hlast, foldSum, apply_ite some, apply_ite some]

/-- A checksum stored over two zero bytes at an even position makes the sum right. -/
theorem residue_stored (pseudoHeader before after : List Byte) (heven : before.length % 2 = 0)
    (hlen : pseudoHeader.length + (before ++ [0#8, 0#8] ++ after).length ≤ 2 ^ 16 + 2 ^ 8) :
    Lib.residue (Lib.wordSum pseudoHeader + Lib.wordSum (before ++
      checksumBytes (computeInternetCS pseudoHeader (before ++ [0#8, 0#8] ++ after)) ++ after)) =
        65535 := by
  have hsplit : ∀ word : List Byte, word.length = 2 →
      Lib.wordSum (before ++ word ++ after) = Lib.wordSum before + Lib.wordSum word +
        Lib.wordSum after := by
    intro word hw
    rw [Lib.wordSum_append after _ (by rw [List.length_append, hw]; omega),
      Lib.wordSum_append word _ heven]
  have hzero : Lib.wordSum [0#8, 0#8] = 0 := rfl
  have hcs := computeInternetCS_toNat hlen
  rw [hsplit [0#8, 0#8] rfl, hzero] at hcs
  have hbytes : Lib.wordSum
    (checksumBytes (computeInternetCS pseudoHeader (before ++ [0#8, 0#8] ++ after))) =
      (computeInternetCS pseudoHeader (before ++ [0#8, 0#8] ++ after)).toNat := Lib.wordSum_bytes _
  rw [hsplit (checksumBytes _) rfl, hbytes, hcs]
  have h := Lib.residue_complement
    (Lib.wordSum pseudoHeader + (Lib.wordSum before + 0 + Lib.wordSum after))
  rw [← h]
  congr 1
  omega

/-- The accumulator holds the sum of the words read so far. -/
theorem sumWords_exact {pseudoHeader buffer : List Byte}
    (hlen : pseudoHeader.length + buffer.length ≤ 2 ^ 16 + 2 ^ 8) (k l : Nat) :
    (sumWords 0#32 (pseudoHeader.take k)).toNat = Lib.wordSum (pseudoHeader.take k) ∧
      (sumWords (sumWords 0#32 pseudoHeader) (buffer.take l)).toNat =
        Lib.wordSum pseudoHeader + Lib.wordSum (buffer.take l) := by
  have hzero : (0#32).toNat = 0 := rfl
  have hexact : ∀ bs : List Byte, bs.length ≤ 2 ^ 16 + 2 ^ 8 → (sumWords 0#32 bs).toNat =
      Lib.wordSum bs := by
    intro bs hbs
    have hle := Lib.wordSum_le bs
    rw [sumWords_toNat bs 0#32 (by rw [hzero]; omega), hzero, Nat.zero_add]
  have hk := List.length_take_le' k pseudoHeader
  have hl := List.length_take_le' l buffer
  have hp := Lib.wordSum_le pseudoHeader
  have hb := Lib.wordSum_le (buffer.take l)
  have hheader := hexact pseudoHeader (by omega)
  refine ⟨hexact _ (by omega), ?_⟩
  rw [sumWords_toNat _ _ (by rw [hheader]; omega), hheader]

theorem computeInternetCS_flip {pseudoHeader buffer : List Byte}
    (hlen : pseudoHeader.length + buffer.length ≤ 2 ^ 16 + 2 ^ 8)
    (hzero : computeInternetCS pseudoHeader buffer = 0#16) {j : Nat} (hj : j < 8) :
    (∀ (i : Nat) (hi : i < pseudoHeader.length),
      computeInternetCS (pseudoHeader.set i (pseudoHeader[i] ^^^ BitVec.twoPow 8 j))
        buffer ≠ 0#16) ∧
    ∀ (i : Nat) (hi : i < buffer.length),
      computeInternetCS pseudoHeader (buffer.set i (buffer[i] ^^^ BitVec.twoPow 8 j)) ≠ 0#16 := by
  rw [computeInternetCS_eq_zero_iff hlen] at hzero
  constructor
  · intro i hi
    rw [Nat.add_comm] at hzero
    rw [Ne, computeInternetCS_eq_zero_iff (by rw [List.length_set]; exact hlen), Nat.add_comm]
    exact Lib.residue_ne_of_flip hi hj _ hzero
  · intro i hi
    rw [Ne, computeInternetCS_eq_zero_iff (by rw [List.length_set]; exact hlen)]
    exact Lib.residue_ne_of_flip hi hj _ hzero

/-- The checksum on a little-endian host is the Internet's with its bytes exchanged: the
complement of the one's complement sum of the words in network order. Nothing overflows
while it is summed, two passes fold it, and stored low byte first in two zero bytes it is
found again and guards every bit. -/
theorem computeInternetCS_spec (pseudoHeader buffer : List Byte)
    (heven : pseudoHeader.length % 2 = 0) (hheader : pseudoHeader.length ≤ 12)
    (hbuffer : buffer.length ≤ 65535) :
    computeInternetCS pseudoHeader buffer =
        Lib.byteSwap (~~~ Lib.onesSum
          (Lib.bigEndianWords pseudoHeader ++ Lib.bigEndianWords buffer)) ∧
    (∀ k l, (sumWords 0#32 (pseudoHeader.take k)).toNat = Lib.wordSum (pseudoHeader.take k) ∧
      (sumWords (sumWords 0#32 pseudoHeader) (buffer.take l)).toNat =
        Lib.wordSum pseudoHeader + Lib.wordSum (buffer.take l)) ∧
    (∀ sum, foldLoop 2 sum = some (foldSum sum)) ∧
    ∀ before after, before.length % 2 = 0 → buffer = before ++ [0#8, 0#8] ++ after →
      let stored := before ++ checksumBytes (computeInternetCS pseudoHeader buffer) ++ after
      computeInternetCS pseudoHeader stored = 0#16 ∧
      ∀ j < 8, (∀ (i : Nat) (hi : i < pseudoHeader.length),
          computeInternetCS (pseudoHeader.set i (pseudoHeader[i] ^^^ BitVec.twoPow 8 j))
            stored ≠ 0#16) ∧
        ∀ (i : Nat) (hi : i < stored.length),
          computeInternetCS pseudoHeader (stored.set i (stored[i] ^^^ BitVec.twoPow 8 j)) ≠
            0#16 := by
  have hlen : pseudoHeader.length + buffer.length ≤ 2 ^ 16 + 2 ^ 8 := by omega
  refine ⟨?_, sumWords_exact hlen, foldLoop_two, fun before after hbefore hsplit => ?_⟩
  · refine BitVec.eq_of_toNat_eq ?_
    rw [computeInternetCS_toNat hlen, Lib.byteSwap_not, BitVec.toNat_not, Lib.byteSwap_onesSum]
  · have hstored : (before ++ checksumBytes (computeInternetCS pseudoHeader buffer) ++
      after).length =
        buffer.length := by
      rw [hsplit, List.length_append, List.length_append, List.length_append, List.length_append]
      rfl
    have hzero : computeInternetCS pseudoHeader
        (before ++ checksumBytes (computeInternetCS pseudoHeader buffer) ++ after) = 0#16 := by
      rw [computeInternetCS_eq_zero_iff (by rw [hstored]; exact hlen), hsplit]
      exact residue_stored pseudoHeader before after hbefore (by rw [← hsplit]; exact hlen)
    exact ⟨hzero, fun j hj => computeInternetCS_flip (by rw [hstored]; exact hlen) hzero hj⟩

/-- An odd buffer behind a pseudo-header of two words. -/
theorem computeInternetCS_spec_odd :
    computeInternetCS [0x0A#8, 0x00#8, 0xFF#8, 0x01#8] [0xC0#8, 0x00#8, 0x00#8, 0x00#8, 0x7F#8] =
      Lib.byteSwap (~~~ Lib.onesSum (Lib.bigEndianWords [0x0A#8, 0x00#8, 0xFF#8, 0x01#8] ++
        Lib.bigEndianWords [0xC0#8, 0x00#8, 0x00#8, 0x00#8, 0x7F#8])) :=
  (computeInternetCS_spec [0x0A#8, 0x00#8, 0xFF#8, 0x01#8] [0xC0#8, 0x00#8, 0x00#8, 0x00#8, 0x7F#8]
    (by decide) (by decide) (by decide)).1

end NanoIp
