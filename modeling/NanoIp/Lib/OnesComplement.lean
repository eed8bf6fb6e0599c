import Mathlib.Data.BitVec
import Mathlib.Tactic.Ring

/-!
# One's complement sums of 16-bit words

A list of bytes is summed as words, low byte first; folding the carries of a sum back
into its low 16 bits leaves its residue modulo 65535, with 65535 for the multiples that
are not zero. Adding the complement of the residue makes a sum a multiple of 65535, and
a single flipped bit unmakes it.
-/
namespace Lib

/-- The sum of the words; a trailing odd byte is a word by itself. -/
def wordSum : List (BitVec 8) → Nat
  | lo :: hi :: bs => lo.toNat + 256 * hi.toNat + wordSum bs
  | [b] => b.toNat
  | [] => 0

def weight (i : Nat) : Nat := if i % 2 = 0 then 1 else 256

theorem wordSum_append (bs : List (BitVec 8)) :
    ∀ as : List (BitVec 8), as.length % 2 = 0 → wordSum (as ++ bs) = wordSum as + wordSum bs
  | [], _ => (Nat.zero_add _).symm
  | [_], h => by simp at h
  | lo :: hi :: as, h => by
    have htail : as.length % 2 = 0 := by
      rw [List.length_cons, List.length_cons] at h
      omega
    simp only [List.cons_append, wordSum, wordSum_append bs as htail, Nat.add_assoc]

/-- Zeros behind the bytes do not count, also where they fill up the last word. -/
theorem wordSum_zeros (k : Nat) :
    ∀ bs : List (BitVec 8), wordSum (bs ++ List.replicate k 0#8) = wordSum bs
  | [] => by
    have hzero (k : Nat) : wordSum (List.replicate k 0#8) = 0 ∧
        wordSum (List.replicate (k + 1) 0#8) = 0 := by
      induction k with
      | zero => exact ⟨rfl, rfl⟩
      | succ k ih =>
        refine ⟨ih.2, ?_⟩
        rw [List.replicate_succ, List.replicate_succ, wordSum, ih.1]
        rfl
    rw [List.nil_append, (hzero k).1]
    rfl
  | [b] => by
    cases k with
    | zero => rfl
    | succ k =>
      have hrest := wordSum_zeros k []
      rw [List.nil_append] at hrest
      rw [List.replicate_succ, List.singleton_append, wordSum, hrest]
      rfl
  | lo :: hi :: bs => by
    rw [List.cons_append, List.cons_append, wordSum, wordSum, wordSum_zeros k bs]

theorem wordSum_le : ∀ bs : List (BitVec 8), wordSum bs ≤ 65535 * ((bs.length + 1) / 2)
  | [] => Nat.zero_le _
  | [b] => by
    have hb := b.isLt
    simp only [wordSum, List.length_singleton]
    omega
  | lo :: hi :: bs => by
    have hlo := lo.isLt
    have hhi := hi.isLt
    have htail := wordSum_le bs
    simp only [wordSum, List.length_cons]
    omega

/-- Replacing a byte changes the sum by what the byte counts. -/
theorem wordSum_set (b : BitVec 8) : ∀ (bs : List (BitVec 8)) (i : Nat) (h : i < bs.length),
    wordSum (bs.set i b) + weight i * bs[i].toNat = wordSum bs + weight i * b.toNat
  | [], _, h => by simp at h
  | [a], i, h => by
    obtain rfl : i = 0 := by simpa using h
    simp [wordSum, weight, Nat.add_comm]
  | lo :: hi :: bs, 0, _ => by
    simp only [List.set_cons_zero, wordSum, weight, List.getElem_cons_zero, Nat.zero_mod, if_true]
    omega
  | lo :: hi :: bs, 1, _ => by
    have hw : weight 1 = 256 := rfl
    simp only [List.set_cons_succ, List.set_cons_zero, wordSum, hw, List.getElem_cons_succ,
      List.getElem_cons_zero]
    omega
  | lo :: hi :: bs, i + 2, h => by
    have htail := wordSum_set b bs i (by simpa using h)
    have hw : weight (i + 2) = weight i := by simp [weight]
    simp only [List.set_cons_succ, wordSum, List.getElem_cons_succ, hw]
    omega

theorem wordSum_bytes (v : BitVec 16) : wordSum [v.truncate 8, (v >>> 8).truncate 8] = v.toNat := by
  have hv := v.isLt
  simp only [wordSum, BitVec.truncate_eq_setWidth, BitVec.toNat_setWidth, BitVec.toNat_ushiftRight,
    Nat.shiftRight_eq_div_pow]
  omega

def residue (x : Nat) : Nat := if x = 0 then 0 else (x - 1) % 65535 + 1

theorem residue_le (x : Nat) : residue x ≤ 65535 := by
  unfold residue
  split_ifs <;> omega

theorem residue_of_lt {x : Nat} (h : x < 2 ^ 16) : residue x = x := by
  unfold residue
  split_ifs <;> omega

theorem residue_fold (x : Nat) : residue (x % 2 ^ 16 + x / 2 ^ 16) = residue x := by
  unfold residue
  split_ifs <;> omega

theorem residue_eq_iff (x : Nat) : residue x = 65535 ↔ 0 < x ∧ x % 65535 = 0 := by
  by_cases hx : x = 0
  · subst hx
    decide
  · rw [residue, if_neg hx]
    omega

theorem residue_complement (x : Nat) : residue (x + (65535 - residue x)) = 65535 := by
  have hle := residue_le x
  rw [residue_eq_iff]
  by_cases hx : x = 0
  · subst hx
    decide
  · rw [residue, if_neg hx]
    omega

theorem residue_add (x y : Nat) : residue (residue x + y) = residue (x + y) := by
  unfold residue
  split_ifs <;> omega

def onesAdd (a b : BitVec 16) : BitVec 16 :=
  BitVec.ofNat 16 ((a.toNat + b.toNat) % 2 ^ 16 + (a.toNat + b.toNat) / 2 ^ 16)

def onesSum (words : List (BitVec 16)) : BitVec 16 := words.foldl onesAdd 0#16

theorem onesAdd_toNat (a b : BitVec 16) : (onesAdd a b).toNat = residue (a.toNat + b.toNat) := by
  have ha := a.isLt
  have hb := b.isLt
  have hlt : (a.toNat + b.toNat) % 2 ^ 16 + (a.toNat + b.toNat) / 2 ^ 16 < 2 ^ 16 := by omega
  rw [onesAdd, BitVec.toNat_ofNat, Nat.mod_eq_of_lt hlt, ← residue_fold, residue_of_lt hlt]

theorem onesSum_toNat (words : List (BitVec 16)) :
    (onesSum words).toNat = residue (words.map BitVec.toNat).sum := by
  have hfrom : ∀ a : BitVec 16, (words.foldl onesAdd a).toNat =
      residue (a.toNat + (words.map BitVec.toNat).sum) := by
    induction words with
    | nil =>
      intro a
      exact (residue_of_lt a.isLt).symm
    | cons w ws ih =>
      intro a
      rw [List.foldl_cons, ih, onesAdd_toNat, residue_add, List.map_cons, List.sum_cons,
        Nat.add_assoc]
  rw [onesSum, hfrom, BitVec.toNat_ofNat, Nat.zero_mod, Nat.zero_add]

/-- The words of a list of bytes, the high byte first; behind a last odd byte stands a zero. -/
def bigEndianWords : List (BitVec 8) → List (BitVec 16)
  | hi :: lo :: bs => (hi ++ lo : BitVec 16) :: bigEndianWords bs
  | [b] => [(b ++ 0#8 : BitVec 16)]
  | [] => []

theorem append_toNat (hi lo : BitVec 8) :
    (hi ++ lo : BitVec 16).toNat = 256 * hi.toNat + lo.toNat := by
  have hlo := lo.isLt
  rw [BitVec.toNat_append, Nat.shiftLeft_eq, Nat.mul_comm, Nat.two_pow_add_eq_or_of_lt hlo]

/-- Moved up by a byte, a sum of words is that of the words read the other way round, up to
a multiple of 65535 that vanishes with it. -/
theorem bigEndian_wordSum : ∀ bs : List (BitVec 8), ∃ k ≤ wordSum bs,
    256 * ((bigEndianWords bs).map BitVec.toNat).sum = wordSum bs + 65535 * k
  | [] => ⟨0, Nat.zero_le _, rfl⟩
  | [b] => by
    refine ⟨b.toNat, Nat.le_refl _, ?_⟩
    rw [bigEndianWords, List.map_singleton, List.sum_singleton, append_toNat, wordSum,
      BitVec.toNat_ofNat]
    omega
  | hi :: lo :: bs => by
    obtain ⟨k, hk, htail⟩ := bigEndian_wordSum bs
    refine ⟨hi.toNat + k, ?_, ?_⟩
    · rw [wordSum]
      omega
    · rw [bigEndianWords, List.map_cons, List.sum_cons, append_toNat, wordSum]
      omega

def byteSwap (v : BitVec 16) : BitVec 16 := (v.truncate 8 ++ (v >>> 8).truncate 8 : BitVec 16)

theorem byteSwap_toNat (v : BitVec 16) :
    (byteSwap v).toNat = 256 * (v.toNat % 256) + v.toNat / 256 := by
  have hv := v.isLt
  rw [byteSwap, append_toNat]
  simp only [BitVec.truncate_eq_setWidth, BitVec.toNat_setWidth, BitVec.toNat_ushiftRight,
    Nat.shiftRight_eq_div_pow]
  omega

theorem byteSwap_not (v : BitVec 16) : byteSwap (~~~ v) = ~~~ byteSwap v := by
  have hv := v.isLt
  refine BitVec.eq_of_toNat_eq ?_
  rw [BitVec.toNat_not, byteSwap_toNat, byteSwap_toNat, BitVec.toNat_not]
  omega

theorem byteSwap_residue {v : BitVec 16} {x : Nat} (h : v.toNat = residue x) :
    (byteSwap v).toNat = residue (256 * x) := by
  have hv := v.isLt
  have hmul : residue (256 * x) = residue (256 * residue x) := by
    unfold residue
    split_ifs <;> omega
  rw [byteSwap_toNat, hmul, ← h]
  unfold residue
  split_ifs <;> omega

theorem byteSwap_onesSum (as bs : List (BitVec 8)) :
    (byteSwap (onesSum (bigEndianWords as ++ bigEndianWords bs))).toNat =
      residue (wordSum as + wordSum bs) := by
  obtain ⟨k, hk, has⟩ := bigEndian_wordSum as
  obtain ⟨l, hl, hbs⟩ := bigEndian_wordSum bs
  rw [byteSwap_residue (onesSum_toNat _), List.map_append, List.sum_append, Nat.mul_add, has, hbs]
  unfold residue
  split_ifs <;> omega

theorem toNat_xor_twoPow (b : BitVec 8) {j : Nat} (hj : j < 8) :
    (b ^^^ BitVec.twoPow 8 j).toNat = b.toNat + 2 ^ j ∨ (b ^^^ BitVec.twoPow 8 j).toNat + 2 ^ j =
      b.toNat := by
  have hall : ∀ b : Fin 256, ∀ j : Fin 8, b.val ^^^ 2 ^ j.val = b.val + 2 ^ j.val ∨
      (b.val ^^^ 2 ^ j.val) + 2 ^ j.val = b.val := by decide +kernel
  have h := hall ⟨b.toNat, b.isLt⟩ ⟨j, hj⟩
  rwa [BitVec.toNat_xor, BitVec.toNat_twoPow_of_lt hj]

theorem residue_ne_of_flip {bs : List (BitVec 8)} {i j : Nat} (hi : i < bs.length) (hj : j < 8)
    (s : Nat) (h : residue (s + wordSum bs) = 65535) :
    residue (s + wordSum (bs.set i (bs[i] ^^^ BitVec.twoPow 8 j))) ≠ 65535 := by
  intro hno
  have hset := wordSum_set (bs[i] ^^^ BitVec.twoPow 8 j) bs i hi
  have hj' : 2 ^ j ≤ 2 ^ 7 := Nat.pow_le_pow_right (by decide) (by omega)
  have hpos : 0 < 2 ^ j := Nat.two_pow_pos j
  have hw : weight i = 1 ∨ weight i = 256 := by
    unfold weight
    split_ifs
    · exact .inl rfl
    · exact .inr rfl
  rw [residue_eq_iff] at h hno
  rcases toNat_xor_twoPow bs[i] hj with he | he <;> rcases hw with hw | hw <;>
    rw [hw] at hset <;> omega

end Lib
