import NanoIp.Tools.Numbers

/-!
# Strings of IPv4 addresses

`NANO_IP_inet_ntoa` of `nano_ip_tools.c` scans four parts of at most three characters and steps
over what follows each of them, be it a dot or the terminator. It does not ask whether the
characters are digits, whether a number is an octet, or whether a fourth part is the last.
-/
namespace NanoIp.Tools

def maxIpv4AddressStringSize : Nat := 16

/-- The loop that looks for the separator, while a part has room for as many characters: the part,
where the loop stops, and what it reads. -/
def scanPart (addrStr : Nat → Byte) : Nat → Nat → List Byte × Nat × List Nat
  | 0, charCount => ([], charCount, [charCount])
  | room + 1, charCount =>
    if addrStr charCount ≠ 0#8 ∧ addrStr charCount ≠ 46#8 ∧
      charCount < maxIpv4AddressStringSize then
      let x := scanPart addrStr room (charCount + 1)
      (addrStr charCount :: x.1, x.2.1, charCount :: x.2.2)
    else ([], charCount, [charCount])

/-- `part_value`. -/
def partValue (part : List Byte) : Byte := (atoi part).setWidth 8

/-- The loop over the parts that are left: the address, and what it reads. -/
def partsLoop (addrStr : Nat → Byte) : Nat → Nat → BitVec 32 → BitVec 32 × List Nat
  | 0, _, ipAddr => (ipAddr, [])
  | left + 1, charCount, ipAddr =>
    let x := scanPart addrStr 3 charCount
    if x.2.1 < maxIpv4AddressStringSize ∧ x.1 ≠ [] ∧
      (addrStr x.2.1 = 46#8 ∨ addrStr x.2.1 = 0#8) then
      let y := partsLoop addrStr left (x.2.1 + 1)
        (ipAddr + (partValue x.1).setWidth 32 <<< (8 * left))
      (y.1, x.2.2 ++ y.2)
    else (0#32, x.2.2)

/-- `NANO_IP_inet_ntoa`, and the characters it reads. -/
def inetNtoa (addrStr : Nat → Byte) : BitVec 32 × List Nat := partsLoop addrStr 4 0 0#32

/-- A decimal number from 0 to 255, of one to three digits. -/
def IsOctet (part : List Byte) (a : Nat) : Prop :=
  ∃ ds : List Nat, part = ds.map digitChar ∧ (∀ d ∈ ds, d < 10) ∧ 1 ≤ ds.length ∧ ds.length ≤ 3 ∧
    Lib.ofNumeral 10 ds = a ∧ a ≤ 255

/-- Four of them, separated by dots. -/
def IsAddress (str : List Byte) (ip : BitVec 32) : Prop :=
  ∃ p₃ p₂ p₁ p₀ a₃ a₂ a₁ a₀, str = p₃ ++ 46#8 :: (p₂ ++ 46#8 :: (p₁ ++ 46#8 :: p₀)) ∧
    IsOctet p₃ a₃ ∧ IsOctet p₂ a₂ ∧ IsOctet p₁ a₁ ∧ IsOctet p₀ a₀ ∧
    ip = BitVec.ofNat 32 (a₃ * 2 ^ 24 + a₂ * 2 ^ 16 + a₁ * 2 ^ 8 + a₀)

/-- What a parser of addresses does with a string. -/
structure Parses (addrStr : Nat → Byte) (str : List Byte) : Prop where
  reads : ∀ i ∈ (inetNtoa addrStr).2, i ≤ str.length
  valid : ∀ ip, IsAddress str ip → (inetNtoa addrStr).1 = ip
  invalid : (¬ ∃ ip, IsAddress str ip) → (inetNtoa addrStr).1 = 0#32

/-- A part that is not scanned. -/
def BadPart (part : List Byte) : Prop := part = [] ∨ 3 < part.length

instance (part : List Byte) : Decidable (BadPart part) := inferInstanceAs (Decidable (_ ∨ _))

section Scan

variable {addrStr : Nat → Byte} {c : Byte} {part rest : List Byte}

/-- A part is scanned up to its end, or as far as there is room. -/
theorem scanPart_eq (hnul : 0#8 ∉ part) (hdot : 46#8 ∉ part) (hc : c = 46#8 ∨ c = 0#8)
    {room charCount : Nat} (hspells : Spells addrStr charCount (part ++ [c]))
    (hmax : charCount + room ≤ 16) :
    (scanPart addrStr room charCount).1 = part.take room ∧
      (scanPart addrStr room charCount).2.1 = charCount + (part.take room).length := by
  induction room generalizing part charCount with
  | zero => exact ⟨rfl, rfl⟩
  | succ room ih =>
    rw [scanPart]
    cases part with
    | nil =>
      have hstop : addrStr charCount = c := (spells_cons.mp hspells).1
      rw [if_neg]
      · exact ⟨rfl, rfl⟩
      · rintro ⟨hnul, hdot, -⟩
        rcases hc with rfl | rfl
        · exact hdot hstop
        · exact hnul hstop
    | cons b part =>
      obtain ⟨hb, hrest⟩ := spells_cons.mp hspells
      rw [List.mem_cons, not_or] at hnul hdot
      have htest : addrStr charCount ≠ 0#8 ∧ addrStr charCount ≠ 46#8 ∧
          charCount < maxIpv4AddressStringSize := by
        rw [hb]
        exact ⟨Ne.symm hnul.1, Ne.symm hdot.1,
          Nat.lt_of_lt_of_le (by omega : charCount < charCount + (room + 1)) hmax⟩
      obtain ⟨hpart, hcount⟩ := ih hnul.2 hdot.2 hrest (by omega)
      rw [if_pos htest]
      dsimp only
      rw [hpart, hcount, hb, List.take_succ_cons, List.length_cons]
      exact ⟨rfl, by omega⟩

theorem scanPart_reads (addrStr : Nat → Byte) (room charCount : Nat) :
    charCount ∈ (scanPart addrStr room charCount).2.2 ∧
      ∀ i ∈ (scanPart addrStr room charCount).2.2, i ≤ (scanPart addrStr room charCount).2.1 := by
  induction room generalizing charCount with
  | zero => exact ⟨List.mem_singleton_self _, fun i hi => Nat.le_of_eq (List.mem_singleton.mp hi)⟩
  | succ room ih =>
    rw [scanPart]
    split_ifs
    · obtain ⟨hself, hle⟩ := ih (charCount + 1)
      refine ⟨List.mem_cons_self, fun i hi => ?_⟩
      rcases List.mem_cons.mp hi with rfl | hi
      · exact Nat.le_of_succ_le (hle _ hself)
      · exact hle i hi
    · exact ⟨List.mem_singleton_self _, fun i hi => Nat.le_of_eq (List.mem_singleton.mp hi)⟩

/-- A part that is empty or too long ends the loop. -/
theorem partsLoop_bad (hbad : BadPart part) (hnul : 0#8 ∉ part) (hdot : 46#8 ∉ part)
    (hc : c = 46#8 ∨ c = 0#8) (left : Nat) {charCount : Nat}
    (hspells : Spells addrStr charCount (part ++ [c])) (hmax : charCount + 3 ≤ 16)
    (ipAddr : BitVec 32) : (partsLoop addrStr (left + 1) charCount ipAddr).1 = 0#32 ∧
      ∀ i ∈ (partsLoop addrStr (left + 1) charCount ipAddr).2, i ≤ charCount + part.length := by
  obtain ⟨hpart, hcount⟩ := scanPart_eq hnul hdot hc hspells hmax
  have hle : ∀ i ∈ (scanPart addrStr 3 charCount).2.2, i ≤ charCount + part.length := by
    intro i hi
    have hstop := (scanPart_reads addrStr 3 charCount).2 i hi
    rw [hcount] at hstop
    exact Nat.le_trans hstop (Nat.add_le_add_left (List.length_take_le' 3 part) charCount)
  rw [partsLoop, if_neg]
  · exact ⟨rfl, hle⟩
  · rintro ⟨-, hne, hend⟩
    rw [hpart] at hne
    rcases hbad with rfl | hlong
    · exact hne rfl
    · -- the loop stops in the middle of the part
      have hthird : part[3]? = some part[3] := List.getElem?_eq_getElem hlong
      have hmiddle : addrStr (charCount + 3) = part[3] := by
        refine hspells 3 _ ?_
        rw [List.getElem?_append_left hlong]
        exact hthird
      have hmem : part[3] ∈ part := List.getElem_mem hlong
      rw [hcount, List.length_take_of_le (Nat.le_of_lt hlong), hmiddle] at hend
      rcases hend with hend | hend
      · exact hdot (hend ▸ hmem)
      · exact hnul (hend ▸ hmem)

/-- Any other is taken, whatever it says, and what follows it is stepped over. -/
theorem partsLoop_good (hgood : ¬BadPart part) (hnul : 0#8 ∉ part) (hdot : 46#8 ∉ part)
    (hc : c = 46#8 ∨ c = 0#8) (left : Nat) {charCount : Nat}
    (hspells : Spells addrStr charCount (part ++ [c])) (hmax : charCount + 3 < 16)
    (ipAddr : BitVec 32) : ∃ reads, (∀ i ∈ reads, i ≤ charCount + part.length) ∧
      partsLoop addrStr (left + 1) charCount ipAddr =
        ((partsLoop addrStr left (charCount + part.length + 1)
            (ipAddr + (partValue part).setWidth 32 <<< (8 * left))).1,
          reads ++ (partsLoop addrStr left (charCount + part.length + 1)
            (ipAddr + (partValue part).setWidth 32 <<< (8 * left))).2) := by
  obtain ⟨hpart, hcount⟩ := scanPart_eq hnul hdot hc hspells (Nat.le_of_lt hmax)
  obtain ⟨hne, hshort⟩ := not_or.mp hgood
  have hfits : part.length ≤ 3 := Nat.le_of_not_lt hshort
  rw [List.take_of_length_le hfits] at hpart hcount
  have hend : addrStr (charCount + part.length) = c :=
    (spells_cons.mp (spells_append.mp hspells).2).1
  have hle := (scanPart_reads addrStr 3 charCount).2
  refine ⟨(scanPart addrStr 3 charCount).2.2, fun i hi => hcount ▸ hle i hi, ?_⟩
  have htest : (scanPart addrStr 3 charCount).2.1 < maxIpv4AddressStringSize ∧
    (scanPart addrStr 3 charCount).1 ≠ [] ∧
      (addrStr (scanPart addrStr 3 charCount).2.1 = 46#8 ∨
        addrStr (scanPart addrStr 3 charCount).2.1 = 0#8) := by
    rw [hpart, hcount, hend]
    exact ⟨Nat.lt_of_le_of_lt (Nat.add_le_add_left hfits charCount) hmax, hne, hc⟩
  rw [partsLoop, if_pos htest, hpart, hcount]

end Scan

/-- What becomes of parts: a bad one gives zero, and too few lead over the end. -/
def outcome : Nat → List (List Byte) → BitVec 32 → Option (BitVec 32)
  | 0, _, ipAddr => some ipAddr
  | _ + 1, [], _ => none
  | left + 1, part :: parts, ipAddr =>
    if BadPart part then some 0#32
    else outcome left parts (ipAddr + (partValue part).setWidth 32 <<< (8 * left))

section Outcome

variable {addrStr : Nat → Byte} {str : List Byte}

theorem splitOn_cases (str : List Byte) : (46#8 ∉ str ∧ str.splitOn 46#8 = [str]) ∨
    ∃ part rest, str = part ++ 46#8 :: rest ∧ 46#8 ∉ part ∧ str.splitOn 46#8 =
      part :: rest.splitOn 46#8 := by
  by_cases h : 46#8 ∈ str
  · obtain ⟨part, rest, rfl, hpart⟩ := List.eq_append_cons_of_mem h
    refine .inr ⟨part, rest, rfl, hpart, ?_⟩
    rw [List.splitOn_append_cons_self, List.splitOn_eq_singleton hpart, List.singleton_append]
  · exact .inl ⟨h, List.splitOn_eq_singleton h⟩

/-- The result, if there is one, and nothing read behind `stop`; if there is none, something. -/
def Yields (stop : Nat) (x : BitVec 32 × List Nat) (result : Option (BitVec 32)) : Prop :=
  (∀ v, result = some v → x.1 = v ∧ ∀ i ∈ x.2, i ≤ stop) ∧ (result = none → ∃ i ∈ x.2, stop < i)

theorem yields_some {stop : Nat} {x : BitVec 32 × List Nat} {v : BitVec 32} (hv : x.1 = v)
    (hreads : ∀ i ∈ x.2, i ≤ stop) : Yields stop x (some v) := by
  refine ⟨fun v' hv' => ⟨hv.trans (Option.some.inj hv'), hreads⟩, fun h => ?_⟩
  cases h

theorem yields_none {stop i : Nat} {x : BitVec 32 × List Nat} (hi : i ∈ x.2) (hlt : stop < i) :
    Yields stop x none := by
  refine ⟨fun v hv => ?_, fun _ => ⟨i, hi, hlt⟩⟩
  cases hv

theorem Yields.behind {stop : Nat} {x : BitVec 32 × List Nat} {result : Option (BitVec 32)}
    (h : Yields stop x result) {reads : List Nat} (hreads : ∀ i ∈ reads, i ≤ stop) :
    Yields stop (x.1, reads ++ x.2) result := by
  obtain ⟨hsome, hnone⟩ := h
  refine ⟨fun v hv => ?_, fun hresult => ?_⟩
  · obtain ⟨hv, hle⟩ := hsome v hv
    refine ⟨hv, fun i hi => ?_⟩
    rcases List.mem_append.mp hi with hi | hi
    · exact hreads i hi
    · exact hle i hi
  · obtain ⟨i, hi, hlt⟩ := hnone hresult
    exact ⟨i, List.mem_append_right _ hi, hlt⟩

theorem partsLoop_reads (addrStr : Nat → Byte) (left charCount : Nat) (ipAddr : BitVec 32) :
    charCount ∈ (partsLoop addrStr (left + 1) charCount ipAddr).2 := by
  have hself := (scanPart_reads addrStr 3 charCount).1
  rw [partsLoop]
  split_ifs
  · exact List.mem_append_left _ hself
  · exact hself

/-- The loop computes the outcome of the parts of the string, and reads no further than its end
unless they are too few. -/
theorem partsLoop_outcome (hnul : 0#8 ∉ str) {left charCount : Nat}
    (hspells : Spells addrStr charCount (str ++ [0#8])) (hmax : charCount + 4 * left ≤ 16)
    (ipAddr : BitVec 32) :
    Yields (charCount + str.length) (partsLoop addrStr left charCount ipAddr)
      (outcome left (str.splitOn 46#8) ipAddr) := by
  induction left generalizing str charCount ipAddr with
  | zero => exact yields_some rfl fun i hi => absurd hi List.not_mem_nil
  | succ left ih =>
    rcases splitOn_cases str with ⟨hdot, hsplit⟩ | ⟨part, rest, rfl, hdot, hsplit⟩
    · rw [hsplit, outcome]
      split_ifs with hbad
      · obtain ⟨hzero, hreads⟩ :=
          partsLoop_bad hbad hnul hdot (.inr rfl) left hspells (by omega) ipAddr
        exact yields_some hzero hreads
      · obtain ⟨reads, hreads, hrun⟩ := partsLoop_good hbad hnul hdot (.inr rfl) left hspells
          (by omega) ipAddr
        rw [hrun]
        refine Yields.behind ?_ hreads
        cases left with
        | zero => exact yields_some rfl fun i hi => absurd hi List.not_mem_nil
        | succ left =>
          -- the next part would begin behind the terminator
          exact yields_none (partsLoop_reads addrStr left _ _) (Nat.lt_succ_self _)
    · have hpart : 0#8 ∉ part := fun h => hnul (List.mem_append_left _ h)
      have hrest : 0#8 ∉ rest := fun h => hnul (List.mem_append_right _ (List.mem_cons_of_mem _ h))
      rw [List.append_assoc, List.cons_append, spells_append, spells_cons] at hspells
      obtain ⟨hfirst, hsep, hbehind⟩ := hspells
      have hhere : Spells addrStr charCount (part ++ [46#8]) :=
        spells_append.mpr ⟨hfirst, spells_cons.mpr ⟨hsep, spells_nil _ _⟩⟩
      have hlength : charCount + (part ++ 46#8 :: rest).length = charCount + part.length + 1 +
          rest.length := by
        rw [List.length_append, List.length_cons]
        omega
      have hfits : ∀ i, i ≤ charCount + part.length →
          i ≤ charCount + part.length + 1 + rest.length := by
        intro i hi
        omega
      rw [hsplit, outcome, hlength]
      split_ifs with hbad
      · obtain ⟨hzero, hreads⟩ :=
          partsLoop_bad hbad hpart hdot (.inl rfl) left hhere (by omega) ipAddr
        exact yields_some hzero fun i hi => hfits i (hreads i hi)
      · obtain ⟨reads, hreads, hrun⟩ :=
          partsLoop_good hbad hpart hdot (.inl rfl) left hhere (by omega) ipAddr
        have hshort : part.length ≤ 3 := Nat.le_of_not_lt (not_or.mp hbad).2
        rw [hrun]
        exact (ih hrest hbehind (by omega) _).behind fun i hi => hfits i (hreads i hi)

/-- A bad part among those that are looked at. -/
theorem outcome_bad {left : Nat} {parts : List (List Byte)}
    (h : ∃ part ∈ parts.take left, BadPart part) (ipAddr : BitVec 32) :
    outcome left parts ipAddr = some 0#32 := by
  induction left generalizing parts ipAddr with
  | zero =>
    obtain ⟨part, hpart, -⟩ := h
    exact absurd hpart List.not_mem_nil
  | succ left ih =>
    cases parts with
    | nil =>
      obtain ⟨part, hpart, -⟩ := h
      exact absurd hpart List.not_mem_nil
    | cons part parts =>
      rw [outcome]
      split_ifs with hbad
      · rfl
      · refine ih ?_ _
        obtain ⟨bad, hmem, hbad'⟩ := h
        rcases List.mem_cons.mp hmem with rfl | hmem
        · exact absurd hbad' hbad
        · exact ⟨bad, hmem, hbad'⟩

theorem outcome_short {left : Nat} {parts : List (List Byte)}
    (h : ¬ ∃ part ∈ parts.take left, BadPart part) (hlength : parts.length < left)
    (ipAddr : BitVec 32) : outcome left parts ipAddr = none := by
  induction left generalizing parts ipAddr with
  | zero => omega
  | succ left ih =>
    cases parts with
    | nil => rfl
    | cons part parts =>
      rw [outcome, if_neg fun hbad => h ⟨part, List.mem_cons_self, hbad⟩]
      refine ih ?_ (Nat.lt_of_succ_lt_succ hlength) _
      rintro ⟨bad, hmem, hbad⟩
      exact h ⟨bad, List.mem_cons_of_mem _ hmem, hbad⟩

theorem outcome_four {p₃ p₂ p₁ p₀ : List Byte} {parts : List (List Byte)} (h₃ : ¬BadPart p₃)
    (h₂ : ¬BadPart p₂) (h₁ : ¬BadPart p₁) (h₀ : ¬BadPart p₀) :
    outcome 4 (p₃ :: p₂ :: p₁ :: p₀ :: parts) 0#32 =
      some (BitVec.ofNat 32 ((partValue p₃).toNat * 2 ^ 24 + (partValue p₂).toNat * 2 ^ 16 +
        (partValue p₁).toNat * 2 ^ 8 + (partValue p₀).toNat)) := by
  rw [outcome, if_neg h₃, outcome, if_neg h₂, outcome, if_neg h₁, outcome, if_neg h₀, outcome]
  congr 1
  have hlt₃ := (partValue p₃).isLt
  have hlt₂ := (partValue p₂).isLt
  have hlt₁ := (partValue p₁).isLt
  have hlt₀ := (partValue p₀).isLt
  apply BitVec.eq_of_toNat_eq
  simp only [BitVec.toNat_add, BitVec.toNat_shiftLeft, BitVec.toNat_setWidth, BitVec.toNat_ofNat,
    Nat.shiftLeft_eq]
  omega

/-- What an octet says is what it is taken for. -/
theorem IsOctet.scanned {part : List Byte} {a : Nat} (h : IsOctet part a) :
    ¬BadPart part ∧ 46#8 ∉ part ∧ (partValue part).toNat = a := by
  obtain ⟨ds, rfl, hds, hpos, hshort, hvalue, ha⟩ := h
  have hchar : ∀ c ∈ ds.map digitChar, c ≠ 46#8 ∧ c ≠ 45#8 := by
    intro c hc
    obtain ⟨d, hd, rfl⟩ := List.mem_map.mp hc
    have hall : ∀ d < 10, digitChar d ≠ 46#8 ∧ digitChar d ≠ 45#8 := by decide
    exact hall d (hds d hd)
  refine ⟨?_, fun hdot => (hchar _ hdot).1 rfl, ?_⟩
  · rintro (hnil | hlong)
    · rw [List.map_eq_nil_iff.mp hnil] at hpos
      cases hpos
    · rw [List.length_map] at hlong
      omega
  · have hsign : (ds.map digitChar).head? ≠ some 45#8 := fun h =>
      (hchar _ (List.mem_of_mem_head? h)).2 rfl
    rw [partValue, atoi, if_neg hsign, atoiLoop_digits hds 0]
    change ((BitVec.ofNat 32 (Lib.ofNumeral 10 ds)).setWidth 8).toNat = a
    rw [hvalue, BitVec.toNat_setWidth, BitVec.toNat_ofNat]
    omega

/-- A string that is an address is parsed as what it says. -/
theorem outcome_address {ip : BitVec 32} (h : IsAddress str ip) :
    (¬ ∃ part ∈ (str.splitOn 46#8).take 4, BadPart part) ∧ outcome 4 (str.splitOn 46#8) 0#32 =
      some ip := by
  obtain ⟨p₃, p₂, p₁, p₀, a₃, a₂, a₁, a₀, rfl, h₃, h₂, h₁, h₀, rfl⟩ := h
  obtain ⟨hgood₃, hdot₃, rfl⟩ := h₃.scanned
  obtain ⟨hgood₂, hdot₂, rfl⟩ := h₂.scanned
  obtain ⟨hgood₁, hdot₁, rfl⟩ := h₁.scanned
  obtain ⟨hgood₀, hdot₀, rfl⟩ := h₀.scanned
  have hsplit : (p₃ ++ 46#8 :: (p₂ ++ 46#8 :: (p₁ ++ 46#8 :: p₀))).splitOn 46#8 =
      [p₃, p₂, p₁, p₀] := by
    rw [List.splitOn_append_cons_self, List.splitOn_append_cons_self, List.splitOn_append_cons_self,
      List.splitOn_eq_singleton hdot₃, List.splitOn_eq_singleton hdot₂,
        List.splitOn_eq_singleton hdot₁,
      List.splitOn_eq_singleton hdot₀]
    rfl
  rw [hsplit]
  refine ⟨?_, outcome_four hgood₃ hgood₂ hgood₁ hgood₀⟩
  rintro ⟨part, hmem, hbad⟩
  rw [List.take_of_length_le (Nat.le_refl 4)] at hmem
  simp only [List.mem_cons, List.not_mem_nil, or_false] at hmem
  rcases hmem with rfl | rfl | rfl | rfl
  · exact hgood₃ hbad
  · exact hgood₂ hbad
  · exact hgood₁ hbad
  · exact hgood₀ hbad

/-- Other strings give zero only if their first four parts are taken for zeroes. -/
theorem outcome_zero (hgood : ¬ ∃ part ∈ (str.splitOn 46#8).take 4, BadPart part)
    (hlength : 4 ≤ (str.splitOn 46#8).length) : ∃ v, outcome 4 (str.splitOn 46#8) 0#32 = some v ∧
      (v = 0#32 ↔ ∀ part ∈ (str.splitOn 46#8).take 4, partValue part = 0#8) := by
  obtain ⟨p₃, rest, hparts⟩ :=
    List.exists_cons_of_length_pos (Nat.lt_of_lt_of_le (by omega : 0 < 4) hlength)
  rw [hparts, List.length_cons] at hlength
  obtain ⟨p₂, rest, rfl⟩ := List.exists_cons_of_length_pos (by omega : 0 < rest.length)
  rw [List.length_cons] at hlength
  obtain ⟨p₁, rest, rfl⟩ := List.exists_cons_of_length_pos (by omega : 0 < rest.length)
  rw [List.length_cons] at hlength
  obtain ⟨p₀, parts, rfl⟩ := List.exists_cons_of_length_pos (by omega : 0 < rest.length)
  rw [hparts] at hgood ⊢
  have hall : ∀ part ∈ [p₃, p₂, p₁, p₀], ¬BadPart part := fun part hmem hbad =>
    hgood ⟨part, hmem, hbad⟩
  refine ⟨_, outcome_four (hall _ (by simp)) (hall _ (by simp)) (hall _ (by simp))
    (hall _ (by simp)), ?_⟩
  have hlt₃ := (partValue p₃).isLt
  have hlt₂ := (partValue p₂).isLt
  have hlt₁ := (partValue p₁).isLt
  have hlt₀ := (partValue p₀).isLt
  simp only [List.take_succ_cons, List.take_zero, List.mem_cons, List.not_mem_nil, or_false,
    forall_eq_or_imp,
    forall_eq, ← BitVec.toNat_inj, BitVec.toNat_ofNat]
  omega

end Outcome

/-- A string is parsed as it should if and only if one of its first four parts is empty or too long,
or it is an address, or it has four parts at least and the first four are taken for zeroes. -/
theorem parses_iff {addrStr : Nat → Byte} {str : List Byte} (hnul : 0#8 ∉ str)
    (hspells : Spells addrStr 0 (str ++ [0#8])) : Parses addrStr str ↔
      (∃ part ∈ (str.splitOn 46#8).take 4, BadPart part) ∨ (∃ ip, IsAddress str ip) ∨
        4 ≤ (str.splitOn 46#8).length ∧ ∀ part ∈ (str.splitOn 46#8).take 4,
          partValue part = 0#8 := by
  obtain ⟨hsome, hnone⟩ := partsLoop_outcome hnul hspells (Nat.le_refl (0 + 4 * 4)) 0#32
  rw [Nat.zero_add] at hnone
  simp only [Nat.zero_add] at hsome
  have hparses : ∀ v, outcome 4 (str.splitOn 46#8) 0#32 = some v →
      ((¬ ∃ ip, IsAddress str ip) → v = 0#32) → Parses addrStr str := by
    intro v hv hzero
    obtain ⟨hresult, hreads⟩ := hsome v hv
    refine ⟨hreads, fun ip hip => ?_, fun hno => hresult.trans (hzero hno)⟩
    exact hresult.trans (Option.some.inj (hv.symm.trans (outcome_address hip).2))
  constructor
  · intro h
    by_cases hbad : ∃ part ∈ (str.splitOn 46#8).take 4, BadPart part
    · exact .inl hbad
    by_cases hlength : 4 ≤ (str.splitOn 46#8).length
    · by_cases haddress : ∃ ip, IsAddress str ip
      · exact .inr (.inl haddress)
      · obtain ⟨v, hv, hzero⟩ := outcome_zero hbad hlength
        exact .inr (.inr ⟨hlength, hzero.mp ((hsome v hv).1.symm.trans (h.invalid haddress))⟩)
    · obtain ⟨i, hi, hlt⟩ := hnone (outcome_short hbad (Nat.lt_of_not_le hlength) 0#32)
      exact absurd (h.reads i hi) (Nat.not_le_of_lt hlt)
  · rintro (hbad | ⟨ip, hip⟩ | ⟨hlength, hzeroes⟩)
    · exact hparses _ (outcome_bad hbad 0#32) fun _ => rfl
    · exact hparses ip (outcome_address hip).2 fun hno => absurd ⟨ip, hip⟩ hno
    · by_cases hbad : ∃ part ∈ (str.splitOn 46#8).take 4, BadPart part
      · exact hparses _ (outcome_bad hbad 0#32) fun _ => rfl
      · obtain ⟨v, hv, hzero⟩ := outcome_zero hbad hlength
        exact hparses v hv fun _ => hzero.mpr hzeroes

def memoryOf (str : List Byte) (i : Nat) : Byte := (str ++ [0#8]).getD i 0#8

theorem memoryOf_spells (str : List Byte) : Spells (memoryOf str) 0 (str ++ [0#8]) := by
  intro i c hc
  rw [Nat.zero_add, memoryOf, List.getD_eq_getElem?_getD, hc]
  rfl

/-- The string 10.0.0.1. -/
theorem parses_iff_private :
    (inetNtoa (memoryOf [49#8, 48#8, 46#8, 48#8, 46#8, 48#8, 46#8, 49#8])).1 = 0x0a000001#32 := by
  have haddress : IsAddress [49#8, 48#8, 46#8, 48#8, 46#8, 48#8, 46#8, 49#8] 0x0a000001#32 :=
    ⟨[49#8, 48#8], [48#8], [48#8], [49#8], 10, 0, 0, 1, rfl, ⟨[1, 0], by decide⟩, ⟨[0], by decide⟩,
      ⟨[0], by decide⟩,
      ⟨[1], by decide⟩, rfl⟩
  exact ((parses_iff (by decide) (memoryOf_spells _)).mpr (.inr (.inl ⟨_, haddress⟩))).valid _
    haddress

/-- Of the string 1.2.3 the character behind the terminator is read. -/
theorem three_parts_overread :
    ¬ Parses (memoryOf [49#8, 46#8, 50#8, 46#8, 51#8]) [49#8, 46#8, 50#8, 46#8, 51#8] := by
  intro h
  have hread : 6 ∈ (inetNtoa (memoryOf [49#8, 46#8, 50#8, 46#8, 51#8])).2 := by decide
  exact absurd (h.reads 6 hread) (by decide)

end NanoIp.Tools
