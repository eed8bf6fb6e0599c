import NanoIp.Tools.Print

/-!
# Formatted output

`NANO_IP_vsnprintf` of `nano_ip_tools.c`. What is left of the buffer bounds the width of a
conversion and ends the loop, but it does not bound what a conversion writes, so the output stays in
the buffer exactly as long as every number and string that is reached fits into what is left.
-/
namespace NanoIp.Tools

/-- `va_arg`. A string is given by its characters. -/
inductive Arg where
  | int (value : BitVec 32)
  | string (source : List Byte)

/-- `NANO_IP_PutChar`. -/
def putChar (c : Byte) : List Byte := [c]

/-- `NANO_IP_PutString`. -/
def putString : List Byte → List Byte
  | [] => []
  | c :: source => if c ≠ 0#8 then c :: putString source else []

/-- The loop that reads a width. -/
def parseWidth (width : BitVec 8) : List Byte → BitVec 8 × List Byte
  | [] => (width, [])
  | c :: format =>
    if 48#8 ≤ c ∧ c ≤ 57#8 then parseWidth (width * 10#8 + (c - 48#8)) format
    else (width, c :: format)

/-- The next argument, which is to be a number. -/
def putInt (put : BitVec 32 → List Byte) : List Arg → Option (Option (List Byte) × List Arg)
  | .int value :: ap => some (some (put value), ap)
  | _ => none

/-- The switch: the characters that are written, if the type is known, and the other arguments.
There is no result without an argument of the type. -/
def convert (fill : Byte) (width : BitVec 8) (type : Byte) (ap : List Arg) :
    Option (Option (List Byte) × List Arg) :=
  if type = 100#8 ∨ type = 105#8 then putInt (putSignedInt fill width.toNat) ap
  else if type = 117#8 then putInt (putUnsignedInt fill width.toNat) ap
  else if type = 120#8 then putInt (putHexa fill width.toNat false) ap
  else if type = 88#8 then putInt (putHexa fill width.toNat true) ap
  else if type = 115#8 then
    match ap with
    | .string source :: ap => some (some (putString source), ap)
    | _ => none
  else if type = 99#8 then putInt (fun value => putChar (value.setWidth 8)) ap
  else some (none, ap)

/-- What is returned, and what is written to the string, in this order and at these offsets. -/
structure Output where
  ret : Int
  writes : List (Byte × Nat)
  deriving DecidableEq

/-- The end of `NANO_IP_vsnprintf`. -/
def terminate (size currentSize : Nat) (writes : List (Byte × Nat)) : Output :=
  if currentSize < size then ⟨currentSize, writes ++ [(0#8, currentSize)]⟩
  else ⟨(currentSize : Int) - 1, writes ++ [(0#8, currentSize - 1)]⟩

/-- A counter, which is a `signed int` and never negative. Where it overflows, C does not say what
happens, and there is no result. -/
def addInt (a b : Nat) : Option Nat := if a + b < 2 ^ 31 then some (a + b) else none

/-- The loop of `NANO_IP_vsnprintf` for at most `fuel` rounds; `str` stands behind `currentSize`
characters. The counter that `NANO_IP_PutString` keeps of its characters overflows no sooner than
the sum with `currentSize`. -/
def printLoop (size : Nat) : Nat → List Byte → List Arg → Nat → List (Byte × Nat) → Option Output
  | 0, _, _, _, _ => none
  | fuel + 1, format, ap, currentSize, writes =>
    match format with
    | [] => some (terminate size currentSize writes)
    | c :: format =>
      if c ≠ 0#8 ∧ currentSize < size then
        if c ≠ 37#8 then (addInt currentSize 1).bind fun next =>
          printLoop size fuel format ap next (writes ++ [(c, currentSize)])
        else if format.head? = some 37#8 then (addInt currentSize 1).bind fun next =>
          printLoop size fuel format.tail ap next (writes ++ [(37#8, currentSize)])
        else
          let zero : Bool := format.head? = some 48#8
          let x := parseWidth 0#8 (if zero then format.tail else format)
          (addInt currentSize x.1.toNat).bind fun reach =>
            let width := if size < reach then BitVec.ofNat 8 (size - currentSize) else x.1
            (convert (if zero then 48#8 else 32#8) width (x.2.headD 0#8) ap).bind fun y =>
              y.1.elim (some ⟨-1, writes⟩) fun chars =>
                (addInt currentSize chars.length).bind fun next =>
                printLoop size fuel x.2.tail y.2 next (writes ++ chars.zipIdx currentSize)
      else some (terminate size currentSize writes)

/-- `NANO_IP_vsnprintf`, into a string of at least one byte. -/
def vsnprintf (fuel size : Nat) (format : List Byte) (ap : List Arg) : Option Output :=
  printLoop size fuel format ap 0 [(0#8, 0)]

def write (str : Nat → Option Byte) (w : Byte × Nat) : Nat → Option Byte :=
  Function.update str w.2 (some w.1)

def Output.str (r : Output) : Nat → Option Byte := r.writes.foldl write fun _ => none

/-- The output stays in the string: it is terminated in it behind the number of characters that is
returned. -/
def Output.Stays (size : Nat) (r : Output) : Prop :=
  (∀ w ∈ r.writes, w.2 < size) ∧ ∃ n : Nat, r.ret = n ∧ n < size ∧ r.str n = some 0#8

/-- The string has these characters, and their number is returned. -/
def Output.Spells (r : Output) (chars : List Byte) : Prop :=
  r.ret = chars.length ∧ ∀ i ≤ chars.length, r.str i = (chars ++ [0#8])[i]?

/-- The digits of a width, and of the fill character in front of them. -/
structure Digits where
  list : List Nat
  small : ∀ d ∈ list, d < 10

def Digits.zero (ds : Digits) : Bool := ds.list.head? = some 0

def Digits.width (ds : Digits) : Nat := Lib.ofNumeral 10 ds.list % 256

/-- What a format is made of, with its arguments. -/
inductive Item where
  | char (c : Byte) (ordinary : c ≠ 0#8 ∧ c ≠ 37#8)
  | percent
  | number (ds : Digits) (conversion : Conversion) (value : BitVec 32)
  | string (ds : Digits) (source : List Byte) (text : 0#8 ∉ source)
  | character (ds : Digits) (value : BitVec 32)

def Conversion.type : Conversion → Byte
  | .d => 100#8
  | .i => 105#8
  | .u => 117#8
  | .x => 120#8
  | .X => 88#8

def Digits.format (ds : Digits) (type : Byte) : List Byte :=
  37#8 :: (ds.list.map digitChar ++ [type])

def Item.format : Item → List Byte
  | .char c _ => [c]
  | .percent => [37#8, 37#8]
  | .number ds conversion _ => ds.format conversion.type
  | .string ds _ _ => ds.format 115#8
  | .character ds _ => ds.format 99#8

def Item.args : Item → List Arg
  | .char .. | .percent => []
  | .number _ _ value | .character _ value => [.int value]
  | .string _ source _ => [.string source]

/-- What an item writes behind `currentSize` characters. -/
def Item.chars (size currentSize : Nat) : Item → List Byte
  | .char c _ => [c]
  | .percent => [37#8]
  | .number ds conversion value =>
      conversion.put (fillOf ds.zero) (min ds.width (size - currentSize) : Nat) value
  | .string _ source _ => source
  | .character _ value => [value.setWidth 8]

/-- What an item cannot do without: its characters that do not fill. -/
def Item.need : Item → Nat
  | .number _ conversion value => (conversion.printf false 0 value).length
  | .string _ source _ => source.length
  | _ => 1

/-- The width that is left of an item's. -/
def Item.width (size currentSize : Nat) : Item → Nat
  | .number ds .. => min ds.width (size - currentSize)
  | _ => 0

/-- The width as it is read, before it is cut. -/
def Item.parsed : Item → Nat
  | .number ds .. | .string ds .. | .character ds _ => ds.width
  | _ => 0

/-- As long as the buffer is not full, the next item fits without its fill into what is left. -/
def Fits (size : Nat) : Nat → List Item → Prop
  | _, [] => True
  | currentSize, item :: items =>
    currentSize < size → currentSize + item.need ≤ size ∧
      Fits size (currentSize + max item.need (item.width size currentSize)) items

/-- As long as the buffer is not full, the counters do not overflow at the next item: neither the
sum that is compared with the size of the buffer, nor the number of characters behind the item. -/
def Counts (size : Nat) : Nat → List Item → Prop
  | _, [] => True
  | currentSize, item :: items =>
    currentSize < size → currentSize + item.parsed < 2 ^ 31 ∧
      currentSize + max item.need (item.width size currentSize) < 2 ^ 31 ∧
        Counts size (currentSize + max item.need (item.width size currentSize)) items

/-- The characters behind those that have been written. -/
def emit (size : Nat) : List Item → List Byte → List Byte
  | [], out => out
  | item :: items, out =>
    if out.length < size then emit size items (out ++ item.chars size out.length) else out

section Loop

variable {size fuel currentSize : Nat} {ap : List Arg} {format : List Byte}
  {writes : List (Byte × Nat)}

theorem digitChar_digit {d : Nat} (hd : d < 10) :
    (48#8 ≤ digitChar d ∧ digitChar d ≤ 57#8) ∧ digitChar d - 48#8 = BitVec.ofNat 8 d ∧
      (digitChar d = 48#8 ↔ d = 0) := by
  have h : ∀ d < 10, (48#8 ≤ digitChar d ∧ digitChar d ≤ 57#8) ∧ digitChar d - 48#8 =
    BitVec.ofNat 8 d ∧
      (digitChar d = 48#8 ↔ d = 0) := by decide
  exact h d hd

theorem parseWidth_digits {ds : List Nat} (hds : ∀ d ∈ ds, d < 10) {type : Byte}
    (htype : ¬(48#8 ≤ type ∧ type ≤ 57#8)) (n : Nat) (format : List Byte) :
    parseWidth (BitVec.ofNat 8 n) (ds.map digitChar ++ type :: format) =
      (BitVec.ofNat 8 (ds.foldl (fun n d => n * 10 + d) n), type :: format) := by
  induction ds generalizing n with
  | nil => exact if_neg htype
  | cons d ds ih =>
    obtain ⟨hdigit, hvalue, -⟩ := digitChar_digit (hds d List.mem_cons_self)
    rw [List.map_cons, List.cons_append, parseWidth, if_pos hdigit, hvalue, List.foldl_cons,
      ← ih fun d hd => hds d (List.mem_cons_of_mem _ hd), BitVec.ofNat_add, BitVec.ofNat_mul]

/-- The fill and the width in front of a type. -/
theorem parse_digits (ds : Digits) {type : Byte} (htype : ¬(48#8 ≤ type ∧ type ≤ 57#8))
    (format : List Byte) :
    decide ((ds.list.map digitChar ++ type :: format).head? = some 48#8) = ds.zero ∧
    parseWidth 0#8 (if ds.zero then (ds.list.map digitChar ++ type :: format).tail
      else ds.list.map digitChar ++ type :: format) =
        (BitVec.ofNat 8 ds.width, type :: format) := by
  have hparse : ∀ {l : List Nat}, (∀ d ∈ l, d < 10) →
    parseWidth 0#8 (l.map digitChar ++ type :: format) =
      (BitVec.ofNat 8 (Lib.ofNumeral 10 l % 256), type :: format) := by
    intro l hl
    have hbyte : BitVec.ofNat 8 (Lib.ofNumeral 10 l % 256) =
        BitVec.ofNat 8 (Lib.ofNumeral 10 l) := by
      apply BitVec.eq_of_toNat_eq
      rw [BitVec.toNat_ofNat, BitVec.toNat_ofNat, Nat.mod_mod]
    rw [hbyte]
    exact parseWidth_digits hl htype 0 format
  obtain ⟨list, hsmall⟩ := ds
  cases list with
  | nil =>
    have hzero : ¬(some type = some 48#8) := by
      intro h
      rw [Option.some.inj h] at htype
      exact htype (by decide)
    exact ⟨decide_eq_false hzero, hparse hsmall⟩
  | cons d l =>
    have hdigit := (digitChar_digit (hsmall d List.mem_cons_self)).2.2
    by_cases hd : d = 0
    · subst hd
      exact ⟨rfl, hparse fun d hd => hsmall d (List.mem_cons_of_mem _ hd)⟩
    · have hzero : Digits.zero ⟨d :: l, hsmall⟩ = false := decide_eq_false fun h =>
        hd (Option.some.inj h)
      rw [hzero]
      exact ⟨decide_eq_false fun h => hd (hdigit.mp (Option.some.inj h)), hparse hsmall⟩

theorem addInt_bind {α : Type} (a b : Nat) (f : Nat → Option α) :
    (addInt a b).bind f = if a + b < 2 ^ 31 then f (a + b) else none := by
  rw [addInt]
  split_ifs <;> rfl

/-- One round on a conversion. -/
theorem printLoop_conversion (ds : Digits) {type : Byte} (htype : ¬(48#8 ≤ type ∧ type ≤ 57#8))
    (hpercent : type ≠ 37#8) (hroom : currentSize < size) :
    printLoop size (fuel + 1) (ds.format type ++ format) ap currentSize writes =
      if currentSize + ds.width < 2 ^ 31 then
        (convert (fillOf ds.zero) (BitVec.ofNat 8 (min ds.width (size - currentSize))) type
          ap).bind fun y =>
          y.1.elim (some ⟨-1, writes⟩) fun chars =>
            (addInt currentSize chars.length).bind fun next =>
            printLoop size fuel format y.2 next (writes ++ chars.zipIdx currentSize)
      else none := by
  have hformat : ds.format type ++ format = 37#8 :: (ds.list.map digitChar ++ type :: format) := by
    rw [Digits.format, List.cons_append, List.append_assoc]
    rfl
  have hhead : ¬ (ds.list.map digitChar ++ type :: format).head? = some 37#8 := by
    have hdigit : ∀ d < 10, digitChar d ≠ 37#8 := by decide
    obtain ⟨list, hsmall⟩ := ds
    cases list with
    | nil => exact fun h => hpercent (Option.some.inj h)
    | cons d l => exact fun h => hdigit d (hsmall d List.mem_cons_self) (Option.some.inj h)
  have hbyte : (BitVec.ofNat 8 ds.width).toNat = ds.width := by
    rw [BitVec.toNat_ofNat]
    exact Nat.mod_eq_of_lt (Nat.mod_lt _ (by omega))
  have hwidth : (if size < currentSize + ds.width then BitVec.ofNat 8 (size - currentSize)
      else BitVec.ofNat 8 ds.width) = BitVec.ofNat 8 (min ds.width (size - currentSize)) := by
    split_ifs
    · rw [Nat.min_eq_right (by omega)]
    · rw [Nat.min_eq_left (by omega)]
  obtain ⟨hzero, hparse⟩ := parse_digits ds htype format
  have hnul : (37#8 : Byte) ≠ 0#8 ∧ currentSize < size := ⟨by decide, hroom⟩
  rw [hformat, printLoop, if_pos hnul, if_neg (not_not_intro rfl), if_neg hhead]
  simp only [hzero, hparse, hbyte, addInt_bind currentSize ds.width, hwidth]
  rfl

theorem convert_number (fill : Byte) (width : BitVec 8) (conversion : Conversion)
    (value : BitVec 32) (ap : List Arg) :
    convert fill width conversion.type (.int value :: ap) =
      some (some (conversion.put fill width.toNat value), ap) := by
  cases conversion <;> rfl

theorem putString_text {source : List Byte} (h : 0#8 ∉ source) : putString source = source := by
  induction source with
  | nil => rfl
  | cons c source ih =>
    rw [List.mem_cons, not_or] at h
    rw [putString, if_pos (Ne.symm h.1), ih h.2]

theorem ite_one_behind {α : Type} (currentSize : Nat) (x : Option α) :
    (if currentSize + 0 < 2 ^ 31 then if currentSize + 1 < 2 ^ 31 then x else none else none) =
      if currentSize + 1 < 2 ^ 31 then x else none := by
  split_ifs with h₁ h₂
  · rfl
  · rfl
  · omega
  · rfl

/-- One round writes the characters of one item, or a counter overflows. -/
theorem printLoop_item (item : Item) (hroom : currentSize < size) :
    printLoop size (fuel + 1) (item.format ++ format) (item.args ++ ap) currentSize writes =
      if currentSize + item.parsed < 2 ^ 31 then
        if currentSize + (item.chars size currentSize).length < 2 ^ 31 then
          printLoop size fuel format ap (currentSize + (item.chars size currentSize).length)
            (writes ++ (item.chars size currentSize).zipIdx currentSize)
        else none
      else none := by
  cases item with
  | char c ordinary =>
    rw [Item.format, List.singleton_append, printLoop, if_pos ⟨ordinary.1, hroom⟩,
      if_pos ordinary.2, addInt_bind]
    exact (ite_one_behind _ _).symm
  | percent =>
    have hnul : (37#8 : Byte) ≠ 0#8 ∧ currentSize < size := ⟨by decide, hroom⟩
    rw [Item.format, List.cons_append, printLoop, if_pos hnul, if_neg (not_not_intro rfl),
      List.singleton_append,
      List.head?_cons, if_pos rfl, addInt_bind]
    exact (ite_one_behind _ _).symm
  | number ds conversion value =>
    have htype : ¬(48#8 ≤ conversion.type ∧ conversion.type ≤ 57#8) ∧ conversion.type ≠ 37#8 := by
      cases conversion <;> decide
    have hlt : ds.width < 256 := Nat.mod_lt _ (by omega)
    have hwidth : (BitVec.ofNat 8 (min ds.width (size - currentSize))).toNat =
        min ds.width (size - currentSize) := by
      rw [BitVec.toNat_ofNat]
      omega
    rw [Item.format, printLoop_conversion ds htype.1 htype.2 hroom, Item.args,
      List.singleton_append, convert_number,
      hwidth, Option.bind_some, Option.elim_some, addInt_bind]
    rfl
  | string ds source text =>
    have hconvert : convert (fillOf ds.zero)
      (BitVec.ofNat 8 (min ds.width (size - currentSize))) 115#8
        (.string source :: ap) = some (some (putString source), ap) := rfl
    rw [Item.format, printLoop_conversion ds (by decide) (by decide) hroom, Item.args,
      List.singleton_append, hconvert,
      putString_text text, Option.bind_some, Option.elim_some, addInt_bind]
    rfl
  | character ds value =>
    have hconvert : convert (fillOf ds.zero)
      (BitVec.ofNat 8 (min ds.width (size - currentSize))) 99#8
        (.int value :: ap) = some (some (putChar (value.setWidth 8)), ap) := rfl
    rw [Item.format, printLoop_conversion ds (by decide) (by decide) hroom, Item.args,
      List.singleton_append, hconvert,
      Option.bind_some, Option.elim_some, addInt_bind]
    rfl

theorem printLoop_full (hfull : ¬ currentSize < size) :
    printLoop size (fuel + 1) format ap currentSize writes =
      some (terminate size currentSize writes) := by
  cases format with
  | nil => rfl
  | cons c format =>
    rw [printLoop]
    exact if_neg fun h => hfull h.2

theorem printf_length (zero : Bool) (width : Nat) (value : BitVec 32) (conversion : Conversion) :
    (conversion.printf zero width value).length =
      max (conversion.printf false 0 value).length width := by
  have hpadded : ∀ sign digits : List Byte, (padded zero width sign digits).length =
      max (padded false 0 sign digits).length width := by
    intro sign digits
    rw [padded, padded]
    cases zero <;> simp only [List.length_append, List.length_replicate, Bool.false_eq_true,
      if_true, if_false] <;>
      omega
  cases conversion <;> exact hpadded _ _

theorem printf_le (conversion : Conversion) (value : BitVec 32) :
    (conversion.printf false 0 value).length ≤ 11 := by
  have hpadded (sign digits : List Byte) : (padded false 0 sign digits).length =
      sign.length + digits.length := by
    rw [padded]
    simp
  have hlt := value.isLt
  have hten {v : Nat} (hv : v < 2 ^ 32) : (Lib.numeral 10 v).length ≤ 10 :=
    Lib.numeral_length_le (by omega) (by omega) (hv.trans (by decide))
  have hsixteen : (Lib.numeral 16 value.toNat).length ≤ 8 :=
    Lib.numeral_length_le (by omega) (by omega) (hlt.trans_le (by decide))
  cases conversion with
  | d | i =>
    have habs : value.toInt.natAbs < 2 ^ 32 := by
      rw [BitVec.toInt_eq_toNat_cond]
      split_ifs <;> omega
    have hsign : (if value.toInt < 0 then [45#8] else [] : List Byte).length ≤ 1 := by
      split_ifs <;> decide
    have hdigits := hten habs
    rw [Conversion.printf, hpadded, List.length_map]
    omega
  | u =>
    have hdigits := hten hlt
    rw [Conversion.printf, hpadded, List.length_map, List.length_nil]
    omega
  | x | X =>
    rw [Conversion.printf, hpadded, List.length_map, List.length_nil]
    omega

theorem chars_length (item : Item) :
    (item.chars size currentSize).length = max item.need (item.width size currentSize) := by
  cases item with
  | number ds conversion value => exact (put_length _ _ _ _).trans (printf_length _ _ _ _)
  | string ds source text => exact (Nat.max_zero _).symm
  | char c ordinary => rfl
  | percent => rfl
  | character ds value => rfl

/-- The loop writes the characters of the items, unless a counter overflows on the way. -/
theorem printLoop_items (size : Nat) (items : List Item) (fuel : Nat) (out : List Byte) :
    (Counts size out.length items →
      printLoop size (items.length + 1 + fuel) (items.flatMap Item.format)
        (items.flatMap Item.args) out.length
          ((0#8, 0) :: out.zipIdx) =
        some (terminate size (emit size items out).length
          ((0#8, 0) :: (emit size items out).zipIdx))) ∧
    (¬ Counts size out.length items →
      printLoop size (items.length + 1 + fuel) (items.flatMap Item.format)
        (items.flatMap Item.args) out.length
        ((0#8, 0) :: out.zipIdx) = none) := by
  induction items generalizing out with
  | nil =>
    have hfuel : ([] : List Item).length + 1 + fuel = fuel + 1 := by
      rw [List.length_nil]
      omega
    refine ⟨fun _ => ?_, fun h => absurd trivial h⟩
    rw [List.flatMap_nil, hfuel, printLoop]
    rfl
  | cons item items ih =>
    have hfuel : (item :: items).length + 1 + fuel = items.length + 1 + fuel + 1 := by
      rw [List.length_cons]
      omega
    rw [List.flatMap_cons, List.flatMap_cons, hfuel, emit, Counts]
    by_cases hroom : out.length < size
    · have hnext := ih (out ++ item.chars size out.length)
      rw [List.length_append, List.zipIdx_append, Nat.zero_add, chars_length,
        ← List.cons_append] at hnext
      rw [printLoop_item item hroom, if_pos hroom, forall_prop_of_true hroom, chars_length]
      constructor
      · rintro ⟨hparsed, hbehind, hcounts⟩
        rw [if_pos hparsed, if_pos hbehind]
        exact hnext.1 hcounts
      · intro hnot
        split_ifs with hparsed hbehind
        · exact hnext.2 fun hcounts => hnot ⟨hparsed, hbehind, hcounts⟩
        · rfl
        · rfl
    · rw [printLoop_full hroom, if_neg hroom]
      exact ⟨fun _ => rfl, fun hnot => absurd (fun h => absurd h hroom) hnot⟩

/-- In a buffer that is 256 bytes shorter than an `int` can count, no counter overflows as long as
the items fit. -/
theorem counts_of_fits (hsize : size + 256 ≤ 2 ^ 31) (items : List Item) {currentSize : Nat}
    (hfits : Fits size currentSize items) : Counts size currentSize items := by
  induction items generalizing currentSize with
  | nil => trivial
  | cons item items ih =>
    rw [Counts]
    intro hroom
    obtain ⟨hneed, hrest⟩ := hfits hroom
    have hparsed : item.parsed < 256 := by
      cases item with
      | char | percent => exact Nat.zero_lt_succ 255
      | number | string | character => exact Nat.mod_lt _ (Nat.zero_lt_succ 255)
    have hwidth : currentSize + item.width size currentSize ≤ size := by
      cases item <;> simp only [Item.width] <;> omega
    exact ⟨by omega, by omega, ih hrest⟩

theorem emit_length_le (size : Nat) (items : List Item) (out : List Byte) :
    out.length ≤ (emit size items out).length := by
  induction items generalizing out with
  | nil => exact Nat.le_refl _
  | cons item items ih =>
    rw [emit]
    split_ifs
    · have h := ih (out ++ item.chars size out.length)
      rw [List.length_append] at h
      omega
    · exact Nat.le_refl _

/-- The characters are no more than the buffer has if and only if each item fits. -/
theorem emit_le_iff (items : List Item) {out : List Byte} (hout : out.length ≤ size) :
    (emit size items out).length ≤ size ↔ Fits size out.length items := by
  induction items generalizing out with
  | nil => exact iff_of_true hout trivial
  | cons item items ih =>
    rw [emit, Fits]
    split_ifs with hroom
    · rw [forall_prop_of_true hroom]
      have hlength : (out ++ item.chars size out.length).length =
          out.length + max item.need (item.width size out.length) := by
            rw [List.length_append, chars_length]
      have hwidth : out.length + item.width size out.length ≤ size := by
        cases item <;> simp only [Item.width] <;> omega
      by_cases hneed : out.length + item.need ≤ size
      · rw [ih (by omega), hlength]
        exact (and_iff_right hneed).symm
      · refine iff_of_false (fun h => ?_) fun h => hneed h.1
        have hle := emit_length_le size items (out ++ item.chars size out.length)
        omega
    · exact iff_of_true hout fun h => absurd h hroom

theorem str_zipIdx (str : Nat → Option Byte) (l : List Byte) {i : Nat} (hi : i < l.length) :
    l.zipIdx.foldl write str i = l[i]? := by
  induction l using List.reverseRecOn with
  | nil => exact absurd hi (Nat.not_lt_zero i)
  | append_singleton l c ih =>
    rw [List.zipIdx_append, List.foldl_append, List.zipIdx_singleton, List.foldl_cons,
      List.foldl_nil,
      Nat.zero_add, write]
    by_cases hlast : i = l.length
    · rw [hlast, Function.update_self, List.getElem?_concat_length]
    · have hlt : i < l.length := by
        rw [List.length_append, List.length_singleton] at hi
        omega
      rw [Function.update_of_ne hlast, ih hlt, List.getElem?_append_left hlt]

theorem terminate_spells {out : List Byte} (h : out.length < size) :
    (terminate size out.length ((0#8, 0) :: out.zipIdx)).Spells out := by
  rw [terminate, if_pos h]
  refine ⟨rfl, fun i hi => ?_⟩
  have hwrites : (0#8, 0) :: out.zipIdx ++ [(0#8, out.length)] =
      (0#8, 0) :: (out ++ [0#8]).zipIdx := by
    rw [List.zipIdx_append, Nat.zero_add]
    rfl
  rw [Output.str, hwrites, List.foldl_cons]
  apply str_zipIdx
  rw [List.length_append, List.length_singleton]
  omega

/-- The output stays in the buffer if and only if it has no more characters than the buffer. -/
theorem terminate_stays_iff (hsize : 0 < size) (out : List Byte) :
    (terminate size out.length ((0#8, 0) :: out.zipIdx)).Stays size ↔ out.length ≤ size := by
  have hinside : out.length ≤ size → ∀ w ∈ (0#8, 0) :: out.zipIdx, w.2 < size := by
    intro hle w hw
    rw [List.mem_cons] at hw
    rcases hw with rfl | hw
    · exact hsize
    · have hlt := List.snd_lt_of_mem_zipIdx hw
      omega
  by_cases h : out.length < size
  · obtain ⟨hret, hstr⟩ := terminate_spells h
    refine iff_of_true ⟨fun w hw => ?_, out.length, hret, h, ?_⟩ h.le
    · rw [terminate, if_pos h, List.mem_append, List.mem_singleton] at hw
      rcases hw with hw | rfl
      · exact hinside h.le w hw
      · exact h
    · rw [hstr _ (Nat.le_refl _), List.getElem?_concat_length]
  · rw [terminate, if_neg h]
    constructor
    · intro hstays
      have hlast := hstays.1 (0#8, out.length - 1)
        (List.mem_append_right _ (List.mem_singleton_self _))
      change out.length - 1 < size at hlast
      omega
    · intro hle
      have hlast : out.length - 1 < size := by omega
      refine ⟨fun w hw => ?_, out.length - 1, ?_, hlast, ?_⟩
      · rw [List.mem_append, List.mem_singleton] at hw
        rcases hw with hw | rfl
        · exact hinside hle w hw
        · exact hlast
      · change (out.length : Int) - 1 = ((out.length - 1 : Nat) : Int)
        omega
      · rw [Output.str, List.foldl_append]
        exact Function.update_self _ _ _

end Loop

/-- Formatted output stays in its buffer if and only if each number and string that is reached
fits, without its fill, into what is left of it, and no counter overflows on the way; in a buffer
that is not as long as an `int` can count, none does. -/
theorem vsnprintf_stays_iff (size : Nat) (items : List Item) :
    ((∃ r, (∀ k, vsnprintf (items.length + 1 + k) (size + 1) (items.flatMap Item.format)
        (items.flatMap Item.args) = some r) ∧ r.Stays (size + 1)) ↔
      Fits (size + 1) 0 items ∧ Counts (size + 1) 0 items) ∧
    (size + 257 ≤ 2 ^ 31 → Fits (size + 1) 0 items → Counts (size + 1) 0 items) := by
  have hfits : (emit (size + 1) items []).length ≤ size + 1 ↔ Fits (size + 1) 0 items :=
    emit_le_iff items (Nat.zero_le _)
  refine ⟨⟨?_, ?_⟩, fun hsize => counts_of_fits (by omega) items⟩
  · rintro ⟨r, hrun, hstays⟩
    by_cases hcounts : Counts (size + 1) 0 items
    · obtain rfl := Option.some.inj ((hrun 0).symm.trans ((printLoop_items _ items 0 []).1 hcounts))
      exact ⟨hfits.mp ((terminate_stays_iff (Nat.succ_pos size) _).mp hstays), hcounts⟩
    · cases (hrun 0).symm.trans ((printLoop_items _ items 0 []).2 hcounts)
  · rintro ⟨hf, hcounts⟩
    exact ⟨_, fun k => (printLoop_items _ items k []).1 hcounts,
      (terminate_stays_iff (Nat.succ_pos size) _).mpr (hfits.mpr hf)⟩

/-- A string that is longer than the buffer is written behind it. -/
theorem long_string_overruns : ∃ r,
    (∀ k, vsnprintf (k + 2) 2 [37#8, 115#8] [.string [97#8, 98#8, 99#8]] = some r) ∧
      ¬ r.Stays 2 ∧ (99#8, 2) ∈ r.writes := by
  refine ⟨_, fun k => rfl, fun h => ?_, by decide⟩
  exact absurd (h.1 (99#8, 2) (by decide)) (by decide)

theorem Output.Spells.unique {r : Output} {a b : List Byte} (ha : r.Spells a) (hb : r.Spells b) :
    a = b := by
  have hlength : a.length = b.length := Int.ofNat_inj.mp (ha.1.symm.trans hb.1)
  apply List.ext_getElem?
  intro i
  by_cases hi : i < a.length
  · have h := (ha.2 i hi.le).symm.trans (hb.2 i (hlength ▸ hi.le))
    rw [List.getElem?_append_left hi, List.getElem?_append_left (hlength ▸ hi)] at h
    exact h
  · rw [List.getElem?_eq_none (by omega), List.getElem?_eq_none (by omega)]

/-- With enough room the string has what the function of the conversion writes. -/
theorem vsnprintf_number (ds : Digits) (hwidth : Lib.ofNumeral 10 ds.list ≤ 255)
    (conversion : Conversion) (value : BitVec 32) (size : Nat)
    (hroom : (conversion.printf ds.zero (Lib.ofNumeral 10 ds.list) value).length < size) : ∃ r,
    (∀ k, vsnprintf (k + 2) size (ds.format conversion.type) [.int value] = some r) ∧
      r.Spells (conversion.put (fillOf ds.zero) (Lib.ofNumeral 10 ds.list : Nat) value) := by
  have hlength := printf_length ds.zero (Lib.ofNumeral 10 ds.list) value conversion
  have hchars : emit size [.number ds conversion value] [] =
      conversion.put (fillOf ds.zero) (Lib.ofNumeral 10 ds.list : Nat) value := by
    have hmin : min ds.width (size - 0) = Lib.ofNumeral 10 ds.list := by
      rw [Digits.width, Nat.mod_eq_of_lt (by omega)]
      omega
    have hempty : ([] : List Byte).length < size := Nat.zero_lt_of_lt hroom
    rw [emit, if_pos hempty, emit, List.nil_append, Item.chars, List.length_nil, hmin]
  refine ⟨_, fun k => ?_, terminate_spells ((put_length _ _ _ _).trans_lt hroom)⟩
  have hneed : (conversion.printf false 0 value).length ≤ 11 := printf_le conversion value
  have hcounts : Counts size 0 [.number ds conversion value] := by
    refine fun _ => ⟨?_, ?_, trivial⟩
    · change 0 + ds.width < 2 ^ 31
      rw [Digits.width]
      omega
    · change 0 + max (conversion.printf false 0 value).length (min ds.width (size - 0)) < 2 ^ 31
      rw [Digits.width]
      omega
  have h := (printLoop_items size [.number ds conversion value] k []).1 hcounts
  rw [List.flatMap_singleton, List.flatMap_singleton, hchars, List.length_singleton,
    Nat.add_comm] at h
  exact h

/-- With enough room, a number is written as the C standard says if and only if no sign is to stand
in front of zeroes. -/
theorem vsnprintf_prints_iff (ds : Digits) (hwidth : Lib.ofNumeral 10 ds.list ≤ 255)
    (conversion : Conversion) (value : BitVec 32) {size : Nat}
    (hroom : (conversion.printf ds.zero (Lib.ofNumeral 10 ds.list) value).length < size) : ∃ r,
    (∀ k, vsnprintf (k + 2) size (ds.format conversion.type) [.int value] = some r) ∧
      (r.Spells (conversion.printf ds.zero (Lib.ofNumeral 10 ds.list) value) ↔
        ¬SignBehindZeroes ds.zero (Lib.ofNumeral 10 ds.list) value conversion) := by
  obtain ⟨r, hrun, hspells⟩ := vsnprintf_number ds hwidth conversion value size hroom
  refine ⟨r, hrun, ?_⟩
  rw [← put_eq_printf_iff]
  exact ⟨fun h => hspells.unique h, fun h => h ▸ hspells⟩

theorem vsnprintf_prints_iff_hexadecimal : ∃ r,
    (∀ k, vsnprintf (k + 2) 9 (Digits.format ⟨[0, 8], by decide⟩ (Conversion.type .x))
      [.int 48879#32] = some r) ∧
      (r.Spells (Conversion.printf true 8 48879#32 .x) ↔ ¬SignBehindZeroes true 8 48879#32 .x) :=
  vsnprintf_prints_iff ⟨[0, 8], by decide⟩ (by decide) .x 48879#32 (by decide +kernel)

/-- The zero in front of a negative digit with three places stands in front of the sign. -/
theorem sign_behind_zero : ∃ r,
    (∀ k, vsnprintf (k + 2) 8 [37#8, 48#8, 51#8, 100#8] [.int (BitVec.ofInt 32 (-5))] = some r) ∧
      r.Spells [48#8, 45#8, 53#8] ∧ Conversion.printf true 3 (BitVec.ofInt 32 (-5)) .d =
        [45#8, 48#8, 53#8] ∧
      ¬ r.Spells (Conversion.printf true 3 (BitVec.ofInt 32 (-5)) .d) := by
  obtain ⟨r, hrun, hspells⟩ :=
    vsnprintf_number ⟨[0, 3], by decide⟩ (by decide) .d (BitVec.ofInt 32 (-5)) 8
    (by decide +kernel)
  have hput : Conversion.put (fillOf true) 3 (BitVec.ofInt 32 (-5)) .d = [48#8, 45#8, 53#8] := by
    decide +kernel
  have hprintf : Conversion.printf true 3 (BitVec.ofInt 32 (-5)) .d = [45#8, 48#8, 53#8] := by
    decide +kernel
  refine ⟨r, hrun, hput ▸ hspells, hprintf, fun h => ?_⟩
  have heq := hspells.unique h
  exact absurd (hput.symm.trans (heq.trans hprintf)) (by decide)

end NanoIp.Tools
