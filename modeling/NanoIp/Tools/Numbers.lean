import NanoIp.Core.Types
import NanoIp.Lib.Numeral

/-!
# Numbers as strings

`NANO_IP_atoi` and `NANO_IP_itoa` of `nano_ip_tools.c`. The digits are written the last one first
and swapped in place. The number whose magnitude is not an `int` is negated to itself, and then
indexes the table of digits.
-/
namespace NanoIp.Tools

/-- The loop of `NANO_IP_atoi` over the characters in front of the terminator. -/
def atoiLoop (res : BitVec 32) : List Byte → BitVec 32
  | [] => res
  | c :: str => atoiLoop (res * 10#32 + (c.setWidth 32 - 48#32)) str

/-- `NANO_IP_atoi`. -/
def atoi (str : List Byte) : BitVec 32 :=
  if str.head? = some 45#8 then -atoiLoop 0#32 str.tail else atoiLoop 0#32 str

/-- `ascii_base`, with its terminator. -/
def asciiBase : List Byte :=
  [48#8, 49#8, 50#8, 51#8, 52#8, 53#8, 54#8, 55#8, 56#8, 57#8, 97#8, 98#8, 99#8, 100#8,
    101#8, 102#8, 0#8]

def asciiAt (i : Int) : Option Byte := if 0 ≤ i then asciiBase[i.toNat]? else none

/-- The loop of `NANO_IP_itoa` that divides, for at most `fuel` rounds. -/
def divideLoop (base : Int) : Nat → Int → Nat → (Nat → Byte) → Option (Int × Nat × (Nat → Byte))
  | 0, _, _, _ => none
  | fuel + 1, value, invStr, mem =>
    if base ≤ value then
      let q := value.tdiv base
      let r := value - q * base
      (asciiAt r).bind fun c => divideLoop base fuel q (invStr + 1) (Function.update mem invStr c)
    else some (value, invStr, mem)

/-- The loop of `NANO_IP_itoa` that swaps. -/
def swapLoop : Nat → Nat → Nat → (Nat → Byte) → Option (Nat → Byte)
  | 0, _, _, _ => none
  | fuel + 1, str, invStr, mem =>
    if str < invStr then
      swapLoop fuel (str + 1) (invStr - 1) (Function.update (Function.update mem str (mem invStr))
        invStr (mem str))
    else some mem

/-- `NANO_IP_itoa`, into the memory from `str` on. -/
def itoa (fuel : Nat) (value : BitVec 32) (mem : Nat → Byte) (base : Int) : Option (Nat → Byte) :=
  let negative := value.toInt < 0
  let str := if negative then 1 else 0
  let mem := if negative then Function.update mem 0 45#8 else mem
  let value := if negative then (-value).toInt else value.toInt
  (divideLoop base fuel value str mem).bind fun x =>
    (asciiAt x.1).bind fun c =>
      swapLoop fuel str x.2.1 (Function.update (Function.update x.2.2 x.2.1 c) (x.2.1 + 1) 0#8)

def digitChar (d : Nat) : Byte := BitVec.ofNat 8 (if d < 10 then 48 + d else 87 + d)

def canonical (base : Nat) (value : BitVec 32) : List Byte :=
  (if value.toInt < 0 then [45#8] else []) ++ (Lib.numeral base value.toInt.natAbs).map digitChar

/-- The memory holds these characters from here on. -/
def Spells (mem : Nat → Byte) (p : Nat) (cs : List Byte) : Prop :=
  ∀ i c, cs[i]? = some c → mem (p + i) = c

section Memory

variable {mem mem' : Nat → Byte} {p : Nat} {c : Byte} {cs ds : List Byte}

theorem spells_nil (mem : Nat → Byte) (p : Nat) : Spells mem p [] := fun i c h => by cases h

theorem spells_cons : Spells mem p (c :: cs) ↔ mem p = c ∧ Spells mem (p + 1) cs := by
  constructor
  · intro h
    refine ⟨h 0 c rfl, fun i d hd => ?_⟩
    rw [Nat.add_assoc, Nat.add_comm 1]
    exact h (i + 1) d hd
  · rintro ⟨hc, h⟩ i d hd
    cases i with
    | zero => exact hc.trans (Option.some.inj hd)
    | succ i =>
      rw [Nat.add_comm i 1, ← Nat.add_assoc]
      exact h i d hd

theorem spells_append :
    Spells mem p (cs ++ ds) ↔ Spells mem p cs ∧ Spells mem (p + cs.length) ds := by
  induction cs generalizing p with
  | nil => exact ⟨fun h => ⟨spells_nil mem p, h⟩, fun h => h.2⟩
  | cons c cs ih =>
    rw [List.cons_append, spells_cons, spells_cons, ih, List.length_cons, and_assoc, Nat.add_assoc,
      Nat.add_comm 1]

theorem Spells.congr (h : Spells mem p cs) (heq : ∀ i, p ≤ i → i < p + cs.length → mem' i = mem i) :
    Spells mem' p cs := by
  intro i c hc
  obtain ⟨hi, -⟩ := List.getElem?_eq_some_iff.mp hc
  rw [heq (p + i) (Nat.le_add_right p i) (Nat.add_lt_add_left hi p)]
  exact h i c hc

end Memory

section Swap

/-- The characters from `lo` to `hi` change places, and no others. -/
theorem swapLoop_swaps {fuel lo hi : Nat} (mem : Nat → Byte) (hfuel : hi + 1 < lo + fuel)
    (hle : lo ≤ hi + 1) :
    ∃ mem', swapLoop fuel lo hi mem = some mem' ∧
      ∀ i, mem' i = if lo ≤ i ∧ i ≤ hi then mem (lo + hi - i) else mem i := by
  induction fuel generalizing lo hi mem with
  | zero => omega
  | succ fuel ih =>
    rw [swapLoop]
    by_cases hlt : lo < hi
    · rw [if_pos hlt]
      have hstep : hi - 1 + 1 < lo + 1 + fuel := by omega
      obtain ⟨mem', hloop, hmem⟩ :=
        ih (Function.update (Function.update mem lo (mem hi)) hi (mem lo)) hstep (by omega)
      refine ⟨mem', hloop, fun i => ?_⟩
      rw [hmem]
      by_cases hin : lo + 1 ≤ i ∧ i ≤ hi - 1
      · rw [if_pos hin, if_pos (by omega), show lo + 1 + (hi - 1) - i = lo + hi - i by omega,
          Function.update_of_ne (by omega), Function.update_of_ne (by omega)]
      · rw [if_neg hin]
        by_cases hhi : i = hi
        · subst hhi
          rw [Function.update_self, if_pos (by omega), show lo + i - i = lo by omega]
        · rw [Function.update_of_ne hhi]
          by_cases hlo : i = lo
          · subst hlo
            rw [Function.update_self, if_pos (by omega), show i + hi - i = hi by omega]
          · rw [Function.update_of_ne hlo, if_neg (by omega)]
    · rw [if_neg hlt]
      refine ⟨mem, rfl, fun i => ?_⟩
      split_ifs with hi'
      · rw [show lo + hi - i = i by omega]
      · rfl

theorem swapLoop_reverse {fuel p : Nat} {mem : Nat → Byte} {cs : List Byte} (h : Spells mem p cs)
    (hne : cs ≠ []) (hfuel : cs.length < fuel) :
    ∃ mem', swapLoop fuel p (p + cs.length - 1) mem = some mem' ∧
      Spells mem' p cs.reverse ∧ ∀ i, i < p ∨ p + cs.length ≤ i → mem' i = mem i := by
  have hpos : 0 < cs.length := List.length_pos_iff.mpr hne
  have hstep : p + cs.length - 1 + 1 < p + fuel := by omega
  obtain ⟨mem', hloop, hmem⟩ := swapLoop_swaps mem hstep (by omega)
  refine ⟨mem', hloop, fun i c hc => ?_, fun i hi => ?_⟩
  · have hi : i < cs.length := by
      rw [← List.length_reverse]
      exact (List.getElem?_eq_some_iff.mp hc).1
    rw [List.getElem?_reverse hi] at hc
    rw [hmem, if_pos (by omega), ← h _ c hc]
    congr 1
    omega
  · rw [hmem, if_neg (by omega)]

end Swap

section Itoa

variable {base : Nat}

theorem asciiAt_digit {d : Nat} (h : d < 16) : asciiAt d = some (digitChar d) := by
  have hall : ∀ d < 16, asciiBase[d]? = some (digitChar d) := by decide
  rw [asciiAt, if_pos (Int.natCast_nonneg d)]
  exact hall d h

/-- The digits but the first, the last one first; the first is left over. -/
theorem divideLoop_digits (hb : 2 ≤ base) (hb' : base ≤ 16) {fuel : Nat} (n p : Nat)
    (mem : Nat → Byte) (hfuel : (Lib.numeral base n).length ≤ fuel) :
    ∃ (lead k : Nat) (mem' : Nat → Byte),
      divideLoop base fuel n p mem = some ((lead : Int), p + k, mem') ∧ lead < base ∧
      (Lib.numeral base n).length = k + 1 ∧
      Spells (Function.update mem' (p + k) (digitChar lead)) p
        ((Lib.numeral base n).map digitChar).reverse ∧
      ∀ i, i < p → mem' i = mem i := by
  induction fuel generalizing n p mem with
  | zero =>
    have hpos := List.length_pos_iff.mpr (Lib.numeral_ne_nil base n)
    omega
  | succ fuel ih =>
    rw [divideLoop]
    by_cases hlt : n < base
    · rw [if_neg (by omega)]
      refine ⟨n, 0, mem, rfl, hlt, by rw [Lib.numeral_lt hlt]; rfl, ?_, fun _ _ => rfl⟩
      rw [Lib.numeral_lt hlt]
      exact spells_cons.mpr ⟨Function.update_self .., spells_nil _ _⟩
    · have hge : base ≤ n := Nat.le_of_not_lt hlt
      have hq : (n : Int).tdiv base = ((n / base : Nat) : Int) := (Int.ofNat_tdiv n base).symm
      have hr : (n : Int) - ((n / base : Nat) : Int) * base = ((n % base : Nat) : Int) := by
        have hmod := Nat.div_add_mod n base
        rw [Nat.mul_comm] at hmod
        omega
      have hdigit : n % base < 16 := Nat.lt_of_lt_of_le (Nat.mod_lt n (by omega)) hb'
      have hnumeral := Lib.numeral_ge hb hge
      rw [hnumeral, List.length_append, List.length_singleton] at hfuel
      obtain ⟨lead, k, mem', hloop, hlead, hlen, hspells, hframe⟩ :=
        ih (n / base) (p + 1) (Function.update mem p (digitChar (n % base))) (by omega)
      refine ⟨lead, k + 1, mem', ?_, hlead, ?_, ?_, fun i hi => ?_⟩
      · rw [if_pos (by omega)]
        dsimp only
        rw [hq, hr, asciiAt_digit hdigit, Option.bind_some, hloop, Nat.add_assoc, Nat.add_comm 1]
      · rw [hnumeral, List.length_append, hlen, List.length_singleton]
      · rw [hnumeral, List.map_append, List.reverse_append]
        refine spells_cons.mpr ⟨?_, ?_⟩
        · rw [Function.update_of_ne (by omega), hframe p (Nat.lt_succ_self p)]
          exact Function.update_self ..
        · rw [show p + (k + 1) = p + 1 + k by omega]
          exact hspells
      · rw [hframe i (by omega)]
        exact Function.update_of_ne (by omega) ..

/-- What is written of a magnitude. -/
theorem magnitude_written (hb : 2 ≤ base) (hb' : base ≤ 16) {n : Nat} (hn : n < 2 ^ 32) (p : Nat)
    (mem : Nat → Byte) (k : Nat) : ∃ mem', ((divideLoop base (33 + k) n p mem).bind fun x =>
      (asciiAt x.1).bind fun c =>
        swapLoop (33 + k) p x.2.1
          (Function.update (Function.update x.2.2 x.2.1 c) (x.2.1 + 1) 0#8)) = some mem' ∧
      Spells mem' p ((Lib.numeral base n).map digitChar ++ [0#8]) ∧ ∀ i, i < p →
        mem' i = mem i := by
  have hlen : (Lib.numeral base n).length ≤ 32 :=
    Lib.numeral_length_le hb (by omega) (Nat.lt_of_lt_of_le hn (Nat.pow_le_pow_left hb 32))
  obtain ⟨lead, j, mem₁, hloop, hlead, hlen₁, hspells, hframe⟩ :=
    divideLoop_digits hb hb' n p mem (Nat.le_trans hlen (by omega : 32 ≤ 33 + k))
  have hlength : ((Lib.numeral base n).map digitChar).reverse.length = j + 1 := by
    rw [List.length_reverse, List.length_map, hlen₁]
  have hbefore : Spells (Function.update (Function.update mem₁ (p + j) (digitChar lead))
    (p + j + 1) 0#8) p
      ((Lib.numeral base n).map digitChar).reverse :=
    hspells.congr fun i _ hi => Function.update_of_ne (by omega) ..
  have hroom : ((Lib.numeral base n).map digitChar).reverse.length < 33 + k := by omega
  obtain ⟨mem', hswap, hspells', hframe'⟩ :=
    swapLoop_reverse hbefore (List.ne_nil_of_length_eq_add_one hlength) hroom
  refine ⟨mem', ?_, ?_, fun i hi => ?_⟩
  · rw [hloop, Option.bind_some, asciiAt_digit (by omega), Option.bind_some]
    rw [hlength] at hswap
    exact hswap
  · rw [List.reverse_reverse] at hspells'
    refine spells_append.mpr ⟨hspells', spells_cons.mpr ⟨?_, spells_nil _ _⟩⟩
    rw [List.length_map, hlen₁, hframe' _ (.inr (by omega))]
    exact Function.update_self ..
  · rw [hframe' i (.inl hi), Function.update_of_ne (by omega), Function.update_of_ne (by omega),
      hframe i hi]

end Itoa

section Atoi

theorem atoiLoop_digits {ds : List Nat} (hds : ∀ d ∈ ds, d < 10) (n : Nat) :
    atoiLoop (BitVec.ofNat 32 n) (ds.map digitChar) =
      BitVec.ofNat 32 (ds.foldl (fun n d => n * 10 + d) n) := by
  induction ds generalizing n with
  | nil => rfl
  | cons d ds ih =>
    have hdigit : ∀ d < 10, (digitChar d).setWidth 32 - 48#32 = BitVec.ofNat 32 d := by decide
    rw [List.map_cons, atoiLoop, hdigit d (hds d List.mem_cons_self), List.foldl_cons,
      ← ih fun d hd => hds d (List.mem_cons_of_mem _ hd), BitVec.ofNat_add, BitVec.ofNat_mul]

theorem atoiLoop_numeral (n : Nat) :
    atoiLoop 0#32 ((Lib.numeral 10 n).map digitChar) = BitVec.ofNat 32 n := by
  have hten : 2 ≤ 10 := by omega
  rw [atoiLoop_digits (fun d hd => Lib.numeral_digit hten hd) 0]
  exact congrArg (BitVec.ofNat 32) (Lib.ofNumeral_numeral hten n)

theorem atoi_canonical (value : BitVec 32) : atoi (canonical 10 value) = value := by
  by_cases hneg : value.toInt < 0
  · have habs : -((value.toInt.natAbs : Nat) : Int) = value.toInt := by omega
    rw [canonical, if_pos hneg, atoi, List.singleton_append, List.head?_cons, if_pos rfl,
      List.tail_cons,
      atoiLoop_numeral, ← BitVec.ofInt_natCast, ← BitVec.ofInt_neg, habs, BitVec.ofInt_toInt]
  · have habs : ((value.toInt.natAbs : Nat) : Int) = value.toInt := by omega
    have hsign : ((Lib.numeral 10 value.toInt.natAbs).map digitChar).head? ≠ some 45#8 := by
      intro h
      obtain ⟨d, hd, hchar⟩ := List.mem_map.mp (List.mem_of_mem_head? h)
      have hten : 2 ≤ 10 := by omega
      have hall : ∀ d < 10, digitChar d ≠ 45#8 := by decide
      exact hall d (Lib.numeral_digit hten hd) hchar
    rw [canonical, if_neg hneg, atoi, List.nil_append, if_neg hsign, atoiLoop_numeral,
      ← BitVec.ofInt_natCast, habs,
      BitVec.ofInt_toInt]

end Atoi

/-- The `int` whose magnitude is none. -/
def intMin : BitVec 32 := 0x80000000#32

section Itoa

variable {base : Nat}

theorem itoa_written (hb : 2 ≤ base) (hb' : base ≤ 16) {value : BitVec 32} (h : value ≠ intMin)
    (mem : Nat → Byte) (k : Nat) :
    ∃ mem', itoa (33 + k) value mem base = some mem' ∧
      Spells mem' 0 (canonical base value ++ [0#8]) := by
  have hrange := value.isLt
  have hn : value.toInt.natAbs < 2 ^ 32 := by
    have hlt := BitVec.toInt_lt (x := value)
    have hle := BitVec.le_toInt (x := value)
    omega
  by_cases hneg : value.toInt < 0
  · have hvalue : (-value).toInt = ((value.toInt.natAbs : Nat) : Int) := by
      rw [BitVec.toInt_neg_of_ne_intMin h]
      omega
    obtain ⟨mem', hloop, hspells, hframe⟩ :=
      magnitude_written hb hb' hn 1 (Function.update mem 0 45#8) k
    refine ⟨mem', ?_, ?_⟩
    · simp only [itoa, if_pos hneg, hvalue]
      exact hloop
    · rw [canonical, if_pos hneg, List.singleton_append, List.cons_append]
      exact spells_cons.mpr ⟨hframe 0 Nat.one_pos, hspells⟩
  · have hvalue : value.toInt = ((value.toInt.natAbs : Nat) : Int) := by omega
    obtain ⟨mem', hloop, hspells, -⟩ := magnitude_written hb hb' hn 0 mem k
    refine ⟨mem', ?_, ?_⟩
    · simp only [itoa, if_neg hneg]
      rw [hvalue]
      exact hloop
    · rw [canonical, if_neg hneg]
      exact hspells

theorem itoa_intMin (mem : Nat → Byte) (fuel base : Nat) : itoa fuel intMin mem base = none := by
  have hneg : intMin.toInt < 0 := by decide
  have hvalue : (-intMin).toInt = -2147483648 := by decide
  simp only [itoa, if_pos hneg, hvalue]
  cases fuel with
  | zero => rfl
  | succ fuel =>
    rw [divideLoop, if_neg (by omega)]
    rfl

/-- A number is written to any base and read back from the decimal one, but for the one whose
magnitude is none. -/
theorem itoa_iff (hb : 2 ≤ base) (hb' : base ≤ 16) (value : BitVec 32) (mem : Nat → Byte) :
    ((∃ fuel, ∀ k, ∃ mem', itoa (fuel + k) value mem base = some mem' ∧
        Spells mem' 0 (canonical base value ++ [0#8])) ∧
      (∀ d ∈ Lib.numeral base value.toInt.natAbs, d < base) ∧
      (value ≠ 0#32 → (Lib.numeral base value.toInt.natAbs).head? ≠ some 0) ∧
      (base = 10 → atoi (canonical base value) = value)) ↔ value ≠ intMin := by
  constructor
  · rintro ⟨⟨fuel, hwritten⟩, -⟩ rfl
    obtain ⟨mem', hrun, -⟩ := hwritten 0
    rw [itoa_intMin] at hrun
    cases hrun
  · intro h
    refine ⟨⟨33, itoa_written hb hb' h mem⟩, fun d hd => Lib.numeral_digit hb hd, fun hne => ?_, ?_⟩
    · refine Lib.numeral_head fun hzero => hne ?_
      have hint : value.toInt = (0#32).toInt := Int.natAbs_eq_zero.mp hzero
      exact BitVec.eq_of_toInt_eq hint
    · rintro rfl
      exact atoi_canonical value

/-- The number -42. -/
theorem itoa_iff_decimal :
    ∃ fuel, ∀ k, ∃ mem', itoa (fuel + k) 4294967254#32 (fun _ => 0#8) (10 : Nat) = some mem' ∧
    Spells mem' 0 [45#8, 52#8, 50#8, 0#8] := by
  have hcanonical : canonical 10 4294967254#32 = [45#8, 52#8, 50#8] := by
    have hnumeral : Lib.numeral 10 42 = [4, 2] := by simp [Lib.numeral]
    have habs : (4294967254#32).toInt.natAbs = 42 := by decide
    have hneg : (4294967254#32).toInt < 0 := by decide
    rw [canonical, if_pos hneg, habs, hnumeral]
    decide
  have h := ((itoa_iff (by omega : 2 ≤ 10) (by omega : 10 ≤ 16) 4294967254#32 fun _ => 0#8).mpr
    (by decide)).1
  rw [hcanonical] at h
  exact h

/-- The least number is not written. -/
theorem itoa_least :
    ¬ ∃ fuel mem', itoa fuel 0x80000000#32 (fun _ => 0#8) (10 : Nat) = some mem' := by
  rintro ⟨fuel, mem', hrun⟩
  have hnone := itoa_intMin (fun _ => 0#8) fuel 10
  rw [intMin, hrun] at hnone
  cases hnone

end Itoa

end NanoIp.Tools
