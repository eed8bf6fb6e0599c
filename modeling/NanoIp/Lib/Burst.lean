import NanoIp.Lib.Crc

/-!
# Bursts of errors

A check is as wide as its polynomial. Whatever is changed within as many consecutive bits
is told by the remainder: read backwards, a remainder that has become zero was fed its own
highest bits, so a division that starts from nothing was fed nothing.
-/
namespace Lib

/-- Some bit is set, and those that are lie within `k` consecutive places. -/
structure IsBurst (k : Nat) (pattern : List Bool) : Prop where
  nonempty : true ∈ pattern
  confined : ∃ start, ∀ i, pattern[i]? = some true → start ≤ i ∧ i < start + k

theorem all_false_of_not_mem {bits : List Bool} (h : true ∉ bits) :
    bits = List.replicate bits.length false :=
  List.eq_replicate_length.mpr fun _ hb => Bool.eq_false_iff.mpr fun htrue => h (htrue ▸ hb)

/-- The bits before and behind a burst are not set. -/
theorem IsBurst.split {k : Nat} {pattern : List Bool} (h : IsBurst k pattern) :
    ∃ (i j : Nat) (burst : List Bool), pattern = List.replicate i false ++
      (burst ++ List.replicate j false) ∧
      burst.length ≤ k ∧ true ∈ burst := by
  obtain ⟨start, hconfined⟩ := h.confined
  have hbefore : true ∉ pattern.take start := by
    intro hmem
    obtain ⟨i, hi⟩ := List.mem_iff_getElem?.mp hmem
    have hlt : i < start := by
      by_contra hge
      rw [List.getElem?_take, if_neg hge] at hi
      cases hi
    rw [List.getElem?_take_of_lt hlt] at hi
    exact absurd (hconfined i hi).1 (by omega)
  have hbehind : true ∉ (pattern.drop start).drop k := by
    intro hmem
    obtain ⟨i, hi⟩ := List.mem_iff_getElem?.mp hmem
    rw [List.getElem?_drop, List.getElem?_drop] at hi
    exact absurd (hconfined _ hi).2 (by omega)
  have hsplit : pattern = pattern.take start ++
      ((pattern.drop start).take k ++ (pattern.drop start).drop k) := by
    rw [List.take_append_drop, List.take_append_drop]
  refine ⟨(pattern.take start).length, ((pattern.drop start).drop k).length,
    (pattern.drop start).take k, ?_,
    List.length_take_le .., ?_⟩
  · rw [← all_false_of_not_mem hbefore, ← all_false_of_not_mem hbehind]
    exact hsplit
  · have hmem := h.nonempty
    rw [hsplit] at hmem
    rcases List.mem_append.mp hmem with hmem | hmem
    · exact absurd hmem hbefore
    · exact (List.mem_append.mp hmem).resolve_right hbehind

section

variable {w : Nat} (poly : BitVec w)

theorem crc_xor (as bs : List Bool) (hlen : as.length = bs.length) (s t : BitVec w) :
    crc poly (s ^^^ t) (List.zipWith xor as bs) = crc poly s as ^^^ crc poly t bs := by
  induction as generalizing bs s t with
  | nil =>
    obtain rfl := List.length_eq_zero_iff.mp hlen.symm
    rfl
  | cons a as ih =>
    cases bs with
    | nil => cases hlen
    | cons b bs =>
      change crc poly (crcBit poly (s ^^^ t) (a ^^ b)) (List.zipWith xor as bs) = _
      rw [crcBit_xor]
      exact ih bs (Nat.succ.inj hlen) _ _

theorem crcBit_zero_false : crcBit poly 0#w false = 0#w := by simp [crcBit]

theorem crcBit_zero_true : crcBit poly 0#w true = poly := by simp [crcBit]

theorem crc_zero_replicate_false (k : Nat) : crc poly 0#w (List.replicate k false) = 0#w := by
  induction k with
  | zero => rfl
  | succ k ih =>
    rw [List.replicate_succ]
    change crc poly (crcBit poly 0#w false) _ = _
    rw [crcBit_zero_false, ih]

/-- Moved up by `k`, the lowest bit stands at place `k`. -/
theorem getLsbD_shiftLeft_at (s : BitVec w) {k : Nat} (hk : k < w) :
    (s <<< k).getLsbD k = s.getLsbD 0 := by
  rw [BitVec.getLsbD_shiftLeft, Nat.sub_self, decide_eq_true hk, decide_eq_false (Nat.lt_irrefl k)]
  rfl

variable {poly}

/-- Where the lowest bit of the polynomial is set, the bit that was fed last is seen: if the
low bits are clear afterwards, it was the highest of the remainder. -/
theorem crcBit_shifted (hlow : poly.getLsbD 0 = true) {s : BitVec w} {b : Bool} {j : Nat}
    (hj : j < w) (h : crcBit poly s b <<< j = 0#w) : b = s.msb ∧ s <<< (j + 1) = 0#w := by
  have hbit : (crcBit poly s b).getLsbD 0 = (s.msb ^^ b) := by
    rw [crcBit, BitVec.getLsbD_xor, BitVec.getLsbD_shiftLeft]
    cases s.msb ^^ b <;> simp [hlow]
  have hclear : (crcBit poly s b).getLsbD 0 = false := by
    have hat : (crcBit poly s b <<< j).getLsbD j = false := by rw [h, BitVec.getLsbD_zero]
    rwa [getLsbD_shiftLeft_at _ hj] at hat
  have hfed : b = s.msb := by
    rw [hbit] at hclear
    cases b <;> cases hm : s.msb <;> simp_all
  rw [hfed, crcBit_msb, ← BitVec.shiftLeft_add, Nat.add_comm] at h
  exact ⟨hfed, h⟩

theorem crc_shifted (hlow : poly.getLsbD 0 = true) (bits : List Bool) {s : BitVec w}
    (hlen : bits.length ≤ w) (h : crc poly s bits = 0#w) : s <<< bits.length = 0#w := by
  induction bits generalizing s with
  | nil => exact (BitVec.shiftLeft_zero s).trans h
  | cons b bits ih => exact (crcBit_shifted hlow hlen (ih (Nat.le_of_lt hlen) h)).2

/-- From nothing, no more bits than the check is wide lead to nothing only if none is set. -/
theorem crc_zero_ne (hlow : poly.getLsbD 0 = true) {bits : List Bool} (hlen : bits.length ≤ w)
    (hset : true ∈ bits) :
    crc poly 0#w bits ≠ 0#w := by
  induction bits with
  | nil => cases hset
  | cons b bits ih =>
    change crc poly (crcBit poly 0#w b) bits ≠ 0#w
    cases b with
    | false =>
      rw [crcBit_zero_false]
      exact ih (Nat.le_of_lt hlen) ((List.mem_cons.mp hset).resolve_left Bool.noConfusion)
    | true =>
      rw [crcBit_zero_true]
      intro hzero
      have hat : (poly <<< bits.length).getLsbD bits.length = false := by
        rw [crc_shifted hlow bits (Nat.le_of_lt hlen) hzero, BitVec.getLsbD_zero]
      rw [getLsbD_shiftLeft_at _ hlen, hlow] at hat
      cases hat

/-- Zero bits do not clear a remainder. -/
theorem crc_replicate_false_ne (hlow : poly.getLsbD 0 = true) {s : BitVec w} (hs : s ≠ 0#w)
    (k : Nat) :
    crc poly s (List.replicate k false) ≠ 0#w := by
  induction k generalizing s with
  | zero => exact hs
  | succ k ih =>
    refine ih fun hzero => hs ?_
    have hpos : 0 < w := by
      by_contra hw
      obtain rfl : w = 0 := by omega
      exact hs (Subsingleton.elim _ _)
    obtain ⟨hmsb, hup⟩ := crcBit_shifted hlow hpos ((BitVec.shiftLeft_zero _).trans hzero)
    refine BitVec.eq_of_getMsbD_eq fun i _ => ?_
    cases i with
    | zero => simpa [BitVec.msb] using hmsb.symm
    | succ i =>
      have hat := congrArg (BitVec.getMsbD · i) hup
      simpa [Nat.add_comm] using hat

theorem crc_burst_ne (hlow : poly.getLsbD 0 = true) {pattern : List Bool} (h : IsBurst w pattern) :
    crc poly 0#w pattern ≠ 0#w := by
  obtain ⟨i, j, burst, rfl, hlen, hset⟩ := h.split
  rw [crc_append, crc_zero_replicate_false, crc_append]
  exact crc_replicate_false_ne hlow (crc_zero_ne hlow hlen hset) j

theorem crc_corrupted_ne (hlow : poly.getLsbD 0 = true) {bits pattern : List Bool}
    (hlen : bits.length = pattern.length) (h : IsBurst w pattern) (s : BitVec w) :
    crc poly s (List.zipWith xor bits pattern) ≠ crc poly s bits := by
  have hsum := crc_xor poly bits pattern hlen s 0#w
  rw [BitVec.xor_zero] at hsum
  rw [hsum]
  intro hsame
  have hnone := congrArg (crc poly s bits ^^^ ·) hsame
  simp only [← BitVec.xor_assoc, BitVec.xor_self, BitVec.zero_xor] at hnone
  exact crc_burst_ne hlow h hnone

end

end Lib
