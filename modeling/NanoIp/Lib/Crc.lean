import Mathlib.Data.BitVec

/-!
# Cyclic redundancy checks

A message is divided bit by bit, the remainder's highest bit first. The division is
linear in exclusive or, so feeding a remainder its own bits cancels it: what is left when
their complements are fed does not depend on the remainder.
-/
namespace Lib

variable {w : Nat} (poly : BitVec w)

def crcBit (s : BitVec w) (b : Bool) : BitVec w := (s <<< 1) ^^^ (if s.msb ^^ b then poly else 0#w)

def crc (s : BitVec w) (bits : List Bool) : BitVec w := bits.foldl (crcBit poly) s

theorem crc_append (s : BitVec w) (as bs : List Bool) :
    crc poly s (as ++ bs) = crc poly (crc poly s as) bs :=
  List.foldl_append

theorem crcBit_xor (s t : BitVec w) (a b : Bool) :
    crcBit poly (s ^^^ t) (a ^^ b) = crcBit poly s a ^^^ crcBit poly t b := by
  have hselect : ∀ x y : Bool, (if x ^^ y then poly else 0#w) =
      (if x then poly else 0#w) ^^^ (if y then poly else 0#w) := by
    intro x y
    cases x <;> cases y <;> simp
  have hcond : ((s ^^^ t).msb ^^ (a ^^ b)) = ((s.msb ^^ a) ^^ (t.msb ^^ b)) := by
    rw [BitVec.msb_xor]
    cases s.msb <;> cases t.msb <;> cases a <;> cases b <;> rfl
  rw [crcBit, crcBit, crcBit, hcond, hselect, BitVec.shiftLeft_xor_distrib]
  ac_rfl

theorem crcBit_msb (s : BitVec w) : crcBit poly s s.msb = s <<< 1 := by
  rw [crcBit, Bool.xor_self, if_neg Bool.false_ne_true, BitVec.xor_zero]

def complement (s : BitVec w) (k : Nat) : List Bool := (List.range k).map fun i => !s.getMsbD i

theorem crc_complement_upTo (s : BitVec w) : ∀ k ≤ w,
    crc poly s (complement s k) = (s <<< k) ^^^ crc poly 0#w (List.replicate k true)
  | 0, _ => by simp [complement, crc]
  | k + 1, hk => by
    have ih := crc_complement_upTo s k (by omega)
    have hbits : complement s (k + 1) = complement s k ++ [!s.getMsbD k] := by
      simp [complement, List.range_succ]
    have hbit : (!s.getMsbD k) = ((s <<< k).msb ^^ true) := by
      rw [BitVec.msb_shiftLeft, Bool.xor_true]
    rw [hbits, crc_append, ih, List.replicate_succ', crc_append, hbit]
    change crcBit poly _ _ = _ ^^^ crcBit poly _ _
    rw [crcBit_xor, crcBit_msb, ← BitVec.shiftLeft_add]

theorem crc_complement (s : BitVec w) :
    crc poly s (complement s w) = crc poly 0#w (List.replicate w true) := by
  rw [crc_complement_upTo poly s w (Nat.le_refl w), BitVec.shiftLeft_eq_zero (Nat.le_refl w),
    BitVec.zero_xor]

end Lib
