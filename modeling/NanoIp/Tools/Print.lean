import NanoIp.Tools.Numbers

/-!
# Numbers in formatted output

The functions of `nano_ip_tools.c` that write a number into a string with a fill character and a
width. Each writes the upper digits first and fills in front of them; the sign comes behind the
fill, where the C standard has it in front of zeroes.
-/
namespace NanoIp.Tools

def putFill (fill : Byte) (width : Int) : List Byte := List.replicate width.toNat fill

theorem div_ten_lt {value : BitVec 32} (h : 0#32 < value / 10#32) :
    (value / 10#32).toNat < value.toNat := by
  have hdiv : (value / 10#32).toNat = value.toNat / 10 := rfl
  have hpos : 0 < value.toNat / 10 := hdiv ▸ BitVec.lt_def.mp h
  rw [hdiv]
  omega

/-- `NANO_IP_PutUnsignedInt`: the characters that it writes. -/
def putUnsignedInt (fill : Byte) (width : Int) (value : BitVec 32) : List Byte :=
  (if h : 0#32 < value / 10#32 then putUnsignedInt fill (width - 1) (value / 10#32)
    else putFill fill (width - 1)) ++ [(value % 10#32 + 48#32).setWidth 8]
termination_by value.toNat
decreasing_by exact div_ten_lt h

/-- `absolute`. -/
def absolute (value : BitVec 32) : BitVec 32 := if value.toInt < 0 then -value else value

def signed (value part : BitVec 32) : BitVec 32 := if value.toInt < 0 then -part else part

theorem absolute_signed (value : BitVec 32) (h : 0#32 < absolute value / 10#32) :
    absolute (signed value (absolute value / 10#32)) = absolute value / 10#32 := by
  have hdiv : (absolute value / 10#32).toNat = (absolute value).toNat / 10 := rfl
  have hlt := (absolute value).isLt
  have hpos : 0 < (absolute value / 10#32).toNat := BitVec.lt_def.mp h
  generalize absolute value / 10#32 = part at hdiv hpos ⊢
  have hpart : part.toNat < 2 ^ 31 := by omega
  rw [signed]
  split_ifs
  · have hneg : (-part).toInt < 0 := by
      rw [BitVec.toInt_neg_iff, BitVec.toNat_neg]
      omega
    rw [absolute, if_pos hneg, BitVec.neg_neg]
  · have hnot : ¬ part.toInt < 0 := by
      rw [BitVec.toInt_neg_iff]
      omega
    rw [absolute, if_neg hnot]

theorem absolute_lt (value : BitVec 32) (h : 0#32 < absolute value / 10#32) :
    (absolute (signed value (absolute value / 10#32))).toNat < (absolute value).toNat := by
  rw [absolute_signed value h]
  exact div_ten_lt h

/-- `NANO_IP_PutSignedInt`. -/
def putSignedInt (fill : Byte) (width : Int) (value : BitVec 32) : List Byte :=
  (if _h : 0#32 < absolute value / 10#32 then
      putSignedInt fill (width - 1) (signed value (absolute value / 10#32))
    else
      putFill fill (if value.toInt < 0 then width - 1 - 1 else width - 1) ++
        if value.toInt < 0 then [45#8] else []) ++ [(absolute value % 10#32 + 48#32).setWidth 8]
termination_by (absolute value).toNat
decreasing_by exact absolute_lt value _h

/-- `NANO_IP_PutHexa`. -/
def putHexa (fill : Byte) (width : Int) (maj : Bool) (value : BitVec 32) : List Byte :=
  (if h : 0#32 < value >>> 4 then putHexa fill (width - 1) maj (value >>> 4) else putFill fill
    (width - 1)) ++
    [if value &&& 15#32 < 10#32 then ((value &&& 15#32) + 48#32).setWidth 8
      else if maj then ((value &&& 15#32) - 10#32 + 65#32).setWidth 8
      else ((value &&& 15#32) - 10#32 + 97#32).setWidth 8]
termination_by value.toNat
decreasing_by
  have hshift : (value >>> 4).toNat = value.toNat / 16 := by
    rw [BitVec.toNat_ushiftRight, Nat.shiftRight_eq_div_pow]
  have hpos : 0 < (value >>> 4).toNat := BitVec.lt_def.mp h
  omega

def hexChar (maj : Bool) (d : Nat) : Byte :=
  BitVec.ofNat 8 (if d < 10 then 48 + d else (if maj then 55 else 87) + d)

/-- The conversions of numbers. -/
inductive Conversion where
  | d | i | u | x | X
  deriving DecidableEq

/-- What a conversion writes. -/
def Conversion.put (fill : Byte) (width : Int) (value : BitVec 32) : Conversion → List Byte
  | .d | .i => putSignedInt fill width value
  | .u => putUnsignedInt fill width value
  | .x => putHexa fill width false value
  | .X => putHexa fill width true value

/-- What the C standard has for a sign and digits: zeroes stand between them, spaces in front. -/
def padded (zero : Bool) (width : Nat) (sign digits : List Byte) : List Byte :=
  let missing := width - (sign.length + digits.length)
  if zero then sign ++ List.replicate missing 48#8 ++ digits else List.replicate missing 32#8 ++
    sign ++ digits

/-- `printf` of the C standard. -/
def Conversion.printf (zero : Bool) (width : Nat) (value : BitVec 32) : Conversion → List Byte
  | .d | .i =>
    padded zero width (if value.toInt < 0 then [45#8] else [])
      ((Lib.numeral 10 value.toInt.natAbs).map digitChar)
  | .u => padded zero width [] ((Lib.numeral 10 value.toNat).map digitChar)
  | .x => padded zero width [] ((Lib.numeral 16 value.toNat).map (hexChar false))
  | .X => padded zero width [] ((Lib.numeral 16 value.toNat).map (hexChar true))

def fillOf (zero : Bool) : Byte := if zero then 48#8 else 32#8

section Put

variable {fill : Byte} {value : BitVec 32}

theorem digit_char {d : BitVec 32} (h : d.toNat < 10) :
    (d + 48#32).setWidth 8 = digitChar d.toNat := by
  have hlt := d.isLt
  rw [digitChar, if_pos h]
  apply BitVec.eq_of_toNat_eq
  simp only [BitVec.toNat_setWidth, BitVec.toNat_add, BitVec.toNat_ofNat]
  omega

theorem toNat_div_ten (value : BitVec 32) : (value / 10#32).toNat = value.toNat / 10 := rfl

theorem toNat_mod_ten (value : BitVec 32) : (value % 10#32).toNat = value.toNat % 10 := rfl

theorem upper_iff (value : BitVec 32) : 0#32 < value / 10#32 ↔ 10 ≤ value.toNat := by
  rw [BitVec.lt_def, toNat_div_ten]
  change 0 < value.toNat / 10 ↔ _
  omega

theorem putUnsignedInt_eq (fill : Byte) (width : Int) (value : BitVec 32) :
    putUnsignedInt fill width value =
    putFill fill (width - (Lib.numeral 10 value.toNat).length) ++ (Lib.numeral 10 value.toNat).map
      digitChar := by
  have hten : 2 ≤ 10 := by omega
  have hnat : ∀ n, n < 2 ^ 32 → (BitVec.ofNat 32 n).toNat = n := fun n hn => by
    rw [BitVec.toNat_ofNat, Nat.mod_eq_of_lt hn]
  have hchar : ∀ n, n < 2 ^ 32 → (BitVec.ofNat 32 n % 10#32 + 48#32).setWidth 8 =
      digitChar (n % 10) := by
    intro n hn
    have hmod : (BitVec.ofNat 32 n % 10#32).toNat = n % 10 := by rw [toNat_mod_ten, hnat n hn]
    rw [digit_char (by omega), hmod]
  have hlast : ∀ width n, n < 2 ^ 32 → n < 10 → putUnsignedInt fill width (BitVec.ofNat 32 n) =
      putFill fill (width - 1) ++ [digitChar n] := by
    intro width n hn hlast
    have hupper : ¬ 0#32 < BitVec.ofNat 32 n / 10#32 := by
      rw [upper_iff, hnat n hn]
      omega
    rw [putUnsignedInt, dif_neg hupper, hchar n hn, Nat.mod_eq_of_lt hlast]
  have hupper : ∀ width n, n < 2 ^ 32 → 10 ≤ n → putUnsignedInt fill width (BitVec.ofNat 32 n) =
      putUnsignedInt fill (width - 1) (BitVec.ofNat 32 (n / 10)) ++ [digitChar (n % 10)] := by
    intro width n hn hge
    have hupper : 0#32 < BitVec.ofNat 32 n / 10#32 := by
      rw [upper_iff, hnat n hn]
      exact hge
    have hdiv : BitVec.ofNat 32 n / 10#32 = BitVec.ofNat 32 (n / 10) := by
      apply BitVec.eq_of_toNat_eq
      rw [toNat_div_ten, hnat n hn, hnat (n / 10) (by omega)]
    rw [putUnsignedInt, dif_pos hupper, hchar n hn, hdiv]
  have h := Lib.writes_numeral hten (P := (· < 2 ^ 32))
    (fun n hn _ => Nat.lt_of_le_of_lt (Nat.div_le_self n 10) hn)
    (f := fun width n => putUnsignedInt fill width (BitVec.ofNat 32 n)) hlast hupper
      width value.isLt
  rw [BitVec.ofNat_toNat, BitVec.setWidth_eq] at h
  exact h

/-- The magnitudes that a part of a number with this sign can have. -/
def Magnitude (value : BitVec 32) (n : Nat) : Prop :=
  if value.toInt < 0 then 0 < n ∧ n ≤ 2 ^ 31 else n < 2 ^ 31

theorem magnitude_part {n : Nat} (h : Magnitude value n) : (BitVec.ofNat 32 n).toNat = n ∧
    ((signed value (BitVec.ofNat 32 n)).toInt < 0 ↔ value.toInt < 0) ∧
    absolute (signed value (BitVec.ofNat 32 n)) = BitVec.ofNat 32 n := by
  rw [Magnitude] at h
  have hnat : (BitVec.ofNat 32 n).toNat = n := by
    rw [BitVec.toNat_ofNat]
    split_ifs at h
    · omega
    · omega
  refine ⟨hnat, ?_⟩
  split_ifs at h with hneg
  · have hpart : (-BitVec.ofNat 32 n).toInt < 0 := by
      rw [BitVec.toInt_neg_iff, BitVec.toNat_neg, hnat]
      omega
    rw [signed, if_pos hneg, absolute, if_pos hpart, BitVec.neg_neg]
    exact ⟨iff_of_true hpart hneg, rfl⟩
  · have hpart : ¬ (BitVec.ofNat 32 n).toInt < 0 := by
      rw [BitVec.toInt_neg_iff, hnat]
      omega
    rw [signed, if_neg hneg, absolute, if_neg hpart]
    exact ⟨iff_of_false hpart hneg, rfl⟩

theorem magnitude_natAbs (value : BitVec 32) : Magnitude value value.toInt.natAbs ∧
    signed value (BitVec.ofNat 32 value.toInt.natAbs) = value := by
  have hlt := BitVec.toInt_lt (x := value)
  have hle := BitVec.le_toInt (x := value)
  rw [Magnitude, signed]
  split_ifs with hneg
  · have habs : -((value.toInt.natAbs : Nat) : Int) = value.toInt := by omega
    refine ⟨by omega, ?_⟩
    rw [← BitVec.ofInt_natCast, ← BitVec.ofInt_neg, habs, BitVec.ofInt_toInt]
  · have habs : ((value.toInt.natAbs : Nat) : Int) = value.toInt := by omega
    refine ⟨by omega, ?_⟩
    rw [← BitVec.ofInt_natCast, habs, BitVec.ofInt_toInt]

/-- Magnitudes are written as unsigned numbers are, with the sign behind the fill. -/
theorem putSignedInt_eq (fill : Byte) (width : Int) (value : BitVec 32) :
    putSignedInt fill width value =
    putFill fill (if value.toInt < 0 then width - (Lib.numeral 10 value.toInt.natAbs).length - 1
      else width - (Lib.numeral 10 value.toInt.natAbs).length) ++
      (if value.toInt < 0 then [45#8] else []) ++ (Lib.numeral 10 value.toInt.natAbs).map
        digitChar := by
  have hten : 2 ≤ 10 := by omega
  have hclosed : ∀ n, Magnitude value n → 10 ≤ n → Magnitude value (n / 10) := by
    intro n hn hge
    rw [Magnitude] at hn ⊢
    split_ifs at hn ⊢
    · omega
    · omega
  have hchar : ∀ n, Magnitude value n → (BitVec.ofNat 32 n % 10#32 + 48#32).setWidth 8 =
      digitChar (n % 10) := by
    intro n hn
    have hmod : (BitVec.ofNat 32 n % 10#32).toNat = n % 10 := by
      rw [toNat_mod_ten, (magnitude_part hn).1]
    rw [digit_char (by omega), hmod]
  have hlast : ∀ width n, Magnitude value n → n < 10 →
    putSignedInt fill width (signed value (BitVec.ofNat 32 n)) =
      (putFill fill (if value.toInt < 0 then width - 1 - 1 else width - 1) ++
        if value.toInt < 0 then [45#8] else []) ++ [digitChar n] := by
    intro width n hn hlast
    obtain ⟨hnat, hsign, habs⟩ := magnitude_part hn
    have hupper : ¬ 0#32 < absolute (signed value (BitVec.ofNat 32 n)) / 10#32 := by
      rw [habs, upper_iff, hnat]
      omega
    rw [putSignedInt, dif_neg hupper, habs, hchar n hn, Nat.mod_eq_of_lt hlast]
    simp only [hsign]
  have hupper : ∀ width n, Magnitude value n → 10 ≤ n →
    putSignedInt fill width (signed value (BitVec.ofNat 32 n)) =
      putSignedInt fill (width - 1) (signed value (BitVec.ofNat 32 (n / 10))) ++
        [digitChar (n % 10)] := by
    intro width n hn hge
    obtain ⟨hnat, hsign, habs⟩ := magnitude_part hn
    have hupper : 0#32 < absolute (signed value (BitVec.ofNat 32 n)) / 10#32 := by
      rw [habs, upper_iff, hnat]
      exact hge
    have hdiv : BitVec.ofNat 32 n / 10#32 = BitVec.ofNat 32 (n / 10) := by
      apply BitVec.eq_of_toNat_eq
      rw [toNat_div_ten, hnat, (magnitude_part (hclosed n hn hge)).1]
    have hpart : signed (signed value (BitVec.ofNat 32 n)) (BitVec.ofNat 32 (n / 10)) =
        signed value (BitVec.ofNat 32 (n / 10)) := if_congr hsign rfl rfl
    rw [putSignedInt, dif_pos hupper, habs, hchar n hn, hdiv, hpart]
  obtain ⟨hmagnitude, hvalue⟩ := magnitude_natAbs value
  have h := Lib.writes_numeral hten (P := Magnitude value) hclosed
    (f := fun width n => putSignedInt fill width (signed value (BitVec.ofNat 32 n)))
    (p := fun width => putFill fill (if value.toInt < 0 then width - 1 else width) ++
      if value.toInt < 0 then [45#8] else []) hlast hupper width hmagnitude
  rw [hvalue] at h
  exact h

/-- The hexadecimal digit of a number. -/
theorem hex_char (maj : Bool) (value : BitVec 32) :
    (if value &&& 15#32 < 10#32 then ((value &&& 15#32) + 48#32).setWidth 8
      else if maj then ((value &&& 15#32) - 10#32 + 65#32).setWidth 8
      else ((value &&& 15#32) - 10#32 + 97#32).setWidth 8) = hexChar maj (value.toNat % 16) := by
  have hdigit : ∀ d < 16, (if BitVec.ofNat 32 d < 10#32 then (BitVec.ofNat 32 d + 48#32).setWidth 8
      else if maj then (BitVec.ofNat 32 d - 10#32 + 65#32).setWidth 8
      else (BitVec.ofNat 32 d - 10#32 + 97#32).setWidth 8) = hexChar maj d := by
    cases maj <;> decide
  have hmask : value &&& 15#32 = BitVec.ofNat 32 (value.toNat % 16) := by
    have hrest : (BitVec.ofNat 32 (value.toNat % 16)).toNat = value.toNat % 16 := by
      rw [BitVec.toNat_ofNat]
      omega
    apply BitVec.eq_of_toNat_eq
    rw [BitVec.toNat_and, hrest]
    exact Nat.and_two_pow_sub_one_eq_mod value.toNat 4
  rw [hmask]
  exact hdigit _ (Nat.mod_lt _ (by omega))

theorem putHexa_eq (fill : Byte) (width : Int) (maj : Bool) (value : BitVec 32) :
    putHexa fill width maj value =
    putFill fill (width - (Lib.numeral 16 value.toNat).length) ++
      (Lib.numeral 16 value.toNat).map (hexChar maj) := by
  have hsixteen : 2 ≤ 16 := by omega
  have hnat : ∀ n, n < 2 ^ 32 → (BitVec.ofNat 32 n).toNat = n := fun n hn => by
    rw [BitVec.toNat_ofNat, Nat.mod_eq_of_lt hn]
  have hshift : ∀ n, n < 2 ^ 32 → BitVec.ofNat 32 n >>> 4 = BitVec.ofNat 32 (n / 16) := by
    intro n hn
    apply BitVec.eq_of_toNat_eq
    rw [BitVec.toNat_ushiftRight, Nat.shiftRight_eq_div_pow, hnat n hn, hnat (n / 16) (by omega)]
  have hpos : ∀ n, n < 2 ^ 32 → (0#32 < BitVec.ofNat 32 n >>> 4 ↔ 16 ≤ n) := by
    intro n hn
    rw [hshift n hn, BitVec.lt_def, hnat (n / 16) (by omega)]
    change 0 < n / 16 ↔ _
    omega
  have hlast : ∀ width n, n < 2 ^ 32 → n < 16 → putHexa fill width maj (BitVec.ofNat 32 n) =
      putFill fill (width - 1) ++ [hexChar maj n] := by
    intro width n hn hlast
    have hupper : ¬ 0#32 < BitVec.ofNat 32 n >>> 4 := by
      rw [hpos n hn]
      omega
    rw [putHexa, dif_neg hupper, hex_char, hnat n hn, Nat.mod_eq_of_lt hlast]
  have hupper : ∀ width n, n < 2 ^ 32 → 16 ≤ n → putHexa fill width maj (BitVec.ofNat 32 n) =
      putHexa fill (width - 1) maj (BitVec.ofNat 32 (n / 16)) ++ [hexChar maj (n % 16)] := by
    intro width n hn hge
    rw [putHexa, dif_pos ((hpos n hn).mpr hge), hex_char, hnat n hn, hshift n hn]
  have h := Lib.writes_numeral hsixteen (P := (· < 2 ^ 32))
    (fun n hn _ => Nat.lt_of_le_of_lt (Nat.div_le_self n 16) hn)
    (f := fun width n => putHexa fill width maj (BitVec.ofNat 32 n)) hlast hupper width value.isLt
  rw [BitVec.ofNat_toNat, BitVec.setWidth_eq] at h
  exact h

theorem fill_padded (zero : Bool) (width : Nat) (digits : List Byte) :
    putFill (fillOf zero) ((width : Int) - digits.length) ++ digits =
      padded zero width [] digits := by
  have hwidth : ((width : Int) - digits.length).toNat = width - digits.length := by omega
  rw [putFill, hwidth, padded, List.length_nil, Nat.zero_add]
  cases zero
  · exact (List.append_nil _).symm ▸ rfl
  · rfl

theorem put_unsigned (zero : Bool) (width : Nat) (value : BitVec 32) :
    putUnsignedInt (fillOf zero) width value =
      padded zero width [] ((Lib.numeral 10 value.toNat).map digitChar) := by
  rw [putUnsignedInt_eq, ← fill_padded, List.length_map]

theorem put_hexa (zero : Bool) (width : Nat) (maj : Bool) (value : BitVec 32) :
    putHexa (fillOf zero) width maj value =
      padded zero width [] ((Lib.numeral 16 value.toNat).map (hexChar maj)) := by
  rw [putHexa_eq, ← fill_padded, List.length_map]

/-- With a sign that is to stand in front of zeroes they are not. -/
theorem signed_padded_iff (zero : Bool) (width : Nat) (value : BitVec 32) :
    putSignedInt (fillOf zero) width value =
      padded zero width (if value.toInt < 0 then [45#8] else [])
        ((Lib.numeral 10 value.toInt.natAbs).map digitChar) ↔
      ¬(zero = true ∧ value.toInt < 0 ∧ 1 + (Lib.numeral 10 value.toInt.natAbs).length <
        width) := by
  have hlength : (Lib.numeral 10 value.toInt.natAbs).length =
      ((Lib.numeral 10 value.toInt.natAbs).map digitChar).length := (List.length_map _).symm
  rw [putSignedInt_eq, hlength]
  generalize (Lib.numeral 10 value.toInt.natAbs).map digitChar = digits
  by_cases hneg : value.toInt < 0
  · have hwidth : ((width : Int) - digits.length - 1).toNat = width - (1 + digits.length) := by
      omega
    rw [if_pos hneg, if_pos hneg, putFill, hwidth, padded, List.length_singleton]
    cases zero with
    | false => exact iff_of_true rfl fun h => Bool.noConfusion h.1
    | true =>
      by_cases hmissing : 1 + digits.length < width
      · -- a zero where the sign should be
        refine iff_of_false (fun heq => ?_) (not_not_intro ⟨rfl, hneg, hmissing⟩)
        obtain ⟨k, hk⟩ : ∃ k, width - (1 + digits.length) = k + 1 :=
          Nat.exists_eq_succ_of_ne_zero (by omega)
        rw [hk, List.replicate_succ] at heq
        have hhead := congrArg List.head? heq
        exact absurd (Option.some.inj hhead) (by decide)
      · have hnone : width - (1 + digits.length) = 0 := by omega
        rw [hnone]
        exact iff_of_true rfl fun h => hmissing h.2.2
  · rw [if_neg hneg, if_neg hneg, List.append_nil]
    exact iff_of_true (fill_padded zero width digits) fun h => hneg h.2.1

theorem signed_length (zero : Bool) (width : Nat) (value : BitVec 32) :
    (putSignedInt (fillOf zero) width value).length =
      (padded zero width (if value.toInt < 0 then [45#8] else [])
      ((Lib.numeral 10 value.toInt.natAbs).map digitChar)).length := by
  rw [putSignedInt_eq, padded]
  cases zero <;> by_cases hneg : value.toInt < 0 <;>
    simp only [putFill, hneg, if_true, if_false, List.length_append, List.length_replicate,
      List.length_map,
      List.length_nil, List.length_singleton, Bool.false_eq_true] <;> omega

end Put

/-- The sign and the digits are fewer than the width, and zeroes are to stand between them. -/
def SignBehindZeroes (zero : Bool) (width : Nat) (value : BitVec 32) (conversion : Conversion) :
    Prop :=
  (conversion = .d ∨ conversion = .i) ∧ zero = true ∧ value.toInt < 0 ∧
    1 + (Lib.numeral 10 value.toInt.natAbs).length < width

/-- A conversion writes what the C standard says if and only if no sign is to stand in front of
zeroes. -/
theorem put_eq_printf_iff (zero : Bool) (width : Nat) (value : BitVec 32)
    (conversion : Conversion) :
    conversion.put (fillOf zero) width value = conversion.printf zero width value ↔
      ¬SignBehindZeroes zero width value conversion := by
  have hsigned : conversion = .d ∨ conversion = .i →
      (conversion.put (fillOf zero) width value = conversion.printf zero width value ↔
        ¬SignBehindZeroes zero width value conversion) := by
    intro hconversion
    have hbehind : SignBehindZeroes zero width value conversion ↔
        zero = true ∧ value.toInt < 0 ∧ 1 + (Lib.numeral 10 value.toInt.natAbs).length < width :=
      and_iff_right hconversion
    rw [hbehind, ← signed_padded_iff]
    rcases hconversion with rfl | rfl
    · rfl
    · rfl
  have hunsigned : conversion ≠ .d ∧ conversion ≠ .i →
      conversion.put (fillOf zero) width value = conversion.printf zero width value →
      (conversion.put (fillOf zero) width value = conversion.printf zero width value ↔
        ¬SignBehindZeroes zero width value conversion) :=
    fun hnot heq => iff_of_true heq fun h => not_or.mpr hnot h.1
  cases conversion with
  | d => exact hsigned (.inl rfl)
  | i => exact hsigned (.inr rfl)
  | u => exact hunsigned (by decide) (put_unsigned zero width value)
  | x => exact hunsigned (by decide) (put_hexa zero width false value)
  | X => exact hunsigned (by decide) (put_hexa zero width true value)

theorem put_length (zero : Bool) (width : Nat) (value : BitVec 32) (conversion : Conversion) :
    (conversion.put (fillOf zero) width value).length =
      (conversion.printf zero width value).length := by
  cases conversion with
  | d => exact signed_length zero width value
  | i => exact signed_length zero width value
  | u => exact congrArg List.length (put_unsigned zero width value)
  | x => exact congrArg List.length (put_hexa zero width false value)
  | X => exact congrArg List.length (put_hexa zero width true value)

end NanoIp.Tools
