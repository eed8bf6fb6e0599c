import NanoIp.Core.Types
import Mathlib.Data.List.FinRange
import Mathlib.Data.List.Sort
import Mathlib.Logic.Function.Basic

/-!
# The ARP table

`arp_module.entries` with its slots numbered. Additions scan the slots upward,
lookups downward, and a slot freed in between is taken again, so the order in which
the entries of one address stand depends on the whole history of the table.
-/
namespace NanoIp.Arp

/-- `nano_ip_arp_entry_type_t`. -/
inductive EntryType where
  | unused | static | dynamic
  deriving DecidableEq, Repr

/-- `nano_ip_arp_table_entry_t`. -/
structure Entry where
  entryType : EntryType
  macAddress : MacAddress
  ipv4Address : Ipv4Address
  timestamp : BitVec 32
  deriving DecidableEq

/-- The entry `MEMSET` leaves. -/
def Entry.zero : Entry := ⟨.unused, Vector.replicate 6 0#8, 0#32, 0#32⟩

/-- `NANO_IP_ARP_ENTRY_VALIDITY_PERIOD`. -/
def entryValidityPeriod : BitVec 32 := 600000#32

/-- `arp_module.entries`, of `NANO_IP_MAX_ARP_ENTRY_COUNT = c` slots. -/
abbrev Table (c : Nat) := Fin c → Entry

def Table.empty (c : Nat) : Table c := fun _ => Entry.zero

variable {c : Nat}

def Entry.isFor (e : Entry) (ipv4Address : Ipv4Address) : Bool :=
  e.entryType ≠ .unused && e.ipv4Address = ipv4Address

/-- `Check corresponding entry`: an entry of the address and of the same type, or a
dynamic one. -/
def Entry.corresponds (e : Entry) (type : EntryType) (ipv4Address : Ipv4Address) : Bool :=
  e.ipv4Address = ipv4Address && (e.entryType = type || e.entryType = .dynamic)

/-- What the scan of `NANO_IP_ARP_AddEntry` has found so far. -/
structure Scan (c : Nat) where
  freeEntry : Option (Fin c)
  correspondingEntry : Option (Fin c)
  oldestEntry : Option (Fin c)

/-- The scan of `NANO_IP_ARP_AddEntry` over the slots that remain; it ends at a
corresponding entry. -/
def scan (entries : Table c) (type : EntryType) (ipv4Address : Ipv4Address) :
    List (Fin c) → Scan c → Scan c
  | [], s => s
  | i :: is, s =>
    let entry := entries i
    if entry.entryType ≠ .unused then
      if entry.corresponds type ipv4Address then { s with correspondingEntry := some i }
      else if entry.entryType = .dynamic ∧
          (s.oldestEntry.all fun j => entry.timestamp < (entries j).timestamp) = true then
        scan entries type ipv4Address is { s with oldestEntry := some i }
      else scan entries type ipv4Address is s
    else scan entries type ipv4Address is { s with freeEntry := some i }

/-- `Determine which entry to use`. -/
def Scan.entry (s : Scan c) : Option (Fin c) :=
  match s.correspondingEntry, s.freeEntry with
  | some i, _ => some i
  | none, some i => some i
  | none, none => s.oldestEntry

/-- `NANO_IP_ARP_AddEntry` at the counter value `now`. -/
def addEntry (entries : Table c) (type : EntryType) (mac : MacAddress) (ipv4Address : Ipv4Address)
    (now : BitVec 32) : Err × Table c :=
  if ipv4Address ≠ 0#32 then
    match (scan entries type ipv4Address (List.finRange c) ⟨none, none, none⟩).entry with
    | some i => (.success, Function.update entries i ⟨type, mac, ipv4Address, now⟩)
    | none => (.resource, entries)
  else (.invalidArg, entries)

/-- `NANO_IP_ARP_RemoveEntry`: the first static entry of the address is cleared. -/
def removeEntry (entries : Table c) (ipv4Address : Ipv4Address) : Err × Table c :=
  match (List.finRange c).find? fun i =>
      (entries i).entryType = .static && (entries i).ipv4Address = ipv4Address with
  | some i => (.success, Function.update entries i Entry.zero)
  | none => (.invalidArg, entries)

/-- `Check validity`: static, or learned not too long ago by the counter. -/
def Entry.isValid (e : Entry) (now : BitVec 32) : Bool :=
  e.entryType = .static || now - e.timestamp ≤ entryValidityPeriod

/-- The search of `NANO_IP_ARP_Request`, from the last slot down: the first entry of
the address decides, and is given up when it is not valid any more. -/
def search (entries : Table c) (ipv4Address : Ipv4Address) (now : BitVec 32) :
    Option MacAddress × Table c :=
  match (List.finRange c).reverse.find? fun i => (entries i).isFor ipv4Address with
  | some i =>
    if (entries i).isValid now then (some (entries i).macAddress, entries)
    else (none, Function.update entries i { entries i with entryType := .unused })
  | none => (none, entries)

section Slots

variable {p : Fin c → Bool} {i : Fin c}

theorem find?_first : (List.finRange c).find? p = some i ↔ p i = true ∧ ∀ j < i, p j = false := by
  rw [List.find?_eq_some_iff_getElem]
  constructor
  · rintro ⟨hp, k, hk, rfl, hbefore⟩
    refine ⟨hp, fun j hj => ?_⟩
    rw [List.getElem_finRange] at hj
    have hno := hbefore j.val hj
    rw [List.getElem_finRange] at hno
    simpa using hno
  · rintro ⟨hp, hbefore⟩
    refine ⟨hp, i.val, by simp, by simp, fun j hj => ?_⟩
    rw [List.getElem_finRange]
    simpa using hbefore ⟨j, by omega⟩ hj

/-- The first slot of a kind, counting downward. -/
theorem find?_last :
    (List.finRange c).reverse.find? p = some i ↔ p i = true ∧ ∀ j, i < j → p j = false := by
  rw [List.find?_eq_some_iff_append]
  constructor
  · rintro ⟨hp, before, after, hl, hbefore⟩
    refine ⟨hp, fun j hj => ?_⟩
    have hsorted : (List.finRange c).reverse.Pairwise (· > ·) := by
      rw [List.pairwise_reverse]
      exact List.pairwise_lt_finRange c
    have hin : j ∈ before ++ i :: after := by
      rw [← hl]
      simp
    rw [hl, List.pairwise_append] at hsorted
    rcases List.mem_append.mp hin with hin | hin
    · simpa using hbefore j hin
    · rcases List.mem_cons.mp hin with rfl | hin
      · exact absurd hj (lt_irrefl _)
      · exact absurd hj (lt_asymm ((List.pairwise_cons.mp hsorted.2.1).1 j hin))
  · rintro ⟨hp, hafter⟩
    obtain ⟨before, after, hl⟩ :=
      List.append_of_mem (show i ∈ (List.finRange c).reverse from by simp)
    refine ⟨hp, before, after, hl, fun j hj => ?_⟩
    have hsorted : (List.finRange c).reverse.Pairwise (· > ·) := by
      rw [List.pairwise_reverse]
      exact List.pairwise_lt_finRange c
    rw [hl, List.pairwise_append] at hsorted
    simp [hafter j (hsorted.2.2 j hj i List.mem_cons_self)]

theorem find?_none : (List.finRange c).find? p = none ↔ ∀ j, p j = false := by
  simp [List.find?_eq_none]

theorem find?_reverse_none : (List.finRange c).reverse.find? p = none ↔ ∀ j, p j = false := by
  simp [List.find?_eq_none]

end Slots

def Entry.isTaken (e : Entry) (type : EntryType) (ipv4Address : Ipv4Address) : Bool :=
  e.entryType ≠ .unused && e.corresponds type ipv4Address

theorem scan_corresponding (entries : Table c) (type : EntryType) (ipv4Address : Ipv4Address)
    (is : List (Fin c)) :
    ∀ s : Scan c, s.correspondingEntry = none →
      (scan entries type ipv4Address is s).correspondingEntry =
        is.find? fun i => (entries i).isTaken type ipv4Address := by
  induction is with
  | nil => intro s hs; exact hs
  | cons i is ih =>
    intro s hs
    rw [scan, List.find?_cons]
    split_ifs with hu hk ho
    · have hi : (entries i).isTaken type ipv4Address = true := by simp [Entry.isTaken, hu, hk]
      rw [hi]
    · have hi : (entries i).isTaken type ipv4Address = false := by simp [Entry.isTaken, hk]
      rw [hi]
      exact ih _ hs
    · have hi : (entries i).isTaken type ipv4Address = false := by simp [Entry.isTaken, hk]
      rw [hi]
      exact ih _ hs
    · have hi : (entries i).isTaken type ipv4Address = false := by simp_all [Entry.isTaken]
      rw [hi]
      exact ih _ hs

theorem scan_free (entries : Table c) (type : EntryType) (ipv4Address : Ipv4Address)
    (is : List (Fin c)) :
    ∀ s : Scan c, (∀ i ∈ is, (entries i).isTaken type ipv4Address = false) →
      (scan entries type ipv4Address is s).freeEntry =
        (is.reverse.find? fun i => (entries i).entryType = .unused).or s.freeEntry := by
  induction is with
  | nil => intro s _; rfl
  | cons i is ih =>
    intro s hno
    have hno' : ∀ j ∈ is, (entries j).isTaken type ipv4Address = false :=
      fun j hj => hno j (List.mem_cons_of_mem i hj)
    have hi := hno i List.mem_cons_self
    rw [scan, List.reverse_cons, List.find?_append]
    split_ifs with hu hk ho
    · simp [Entry.isTaken, hu, hk] at hi
    · simp [ih _ hno', hu]
    · simp [ih _ hno', hu]
    · rw [ih _ hno']
      have hu' : (entries i).entryType = .unused := by simpa using hu
      cases is.reverse.find? fun i => (entries i).entryType = .unused <;> simp [hu']

/-- No entry is taken over and no slot is free: the addition drops an entry, or fails. -/
def Overflows (entries : Table c) (type : EntryType) (ipv4Address : Ipv4Address) : Prop :=
  ∀ i, (entries i).isTaken type ipv4Address = false ∧ (entries i).entryType ≠ .unused

instance (entries : Table c) (type : EntryType) (ipv4Address : Ipv4Address) :
    Decidable (Overflows entries type ipv4Address) := inferInstanceAs (Decidable (∀ _, _))

/-- The slot an addition uses: the lowest entry it takes over, or the highest free slot. -/
def Uses (entries : Table c) (type : EntryType) (ipv4Address : Ipv4Address) (i : Fin c) : Prop :=
  ((entries i).isTaken type ipv4Address = true ∧
    ∀ j < i, (entries j).isTaken type ipv4Address = false) ∨
    ((∀ j, (entries j).isTaken type ipv4Address = false) ∧ (entries i).entryType = .unused ∧
      ∀ j, i < j → (entries j).entryType ≠ .unused)

instance (entries : Table c) (type : EntryType) (ipv4Address : Ipv4Address) (i : Fin c) :
    Decidable (Uses entries type ipv4Address i) := inferInstanceAs (Decidable (_ ∨ _))

/-- Without an overflow an addition writes exactly one slot. -/
theorem addEntry_uses {entries : Table c} {type : EntryType} {ipv4Address : Ipv4Address}
    (mac : MacAddress) (now : BitVec 32) (hip : ipv4Address ≠ 0#32)
    (ho : ¬ Overflows entries type ipv4Address) :
    ∃ i, Uses entries type ipv4Address i ∧ addEntry entries type mac ipv4Address now =
      (.success, Function.update entries i ⟨type, mac, ipv4Address, now⟩) := by
  have hcorr := scan_corresponding entries type ipv4Address (List.finRange c) ⟨none, none, none⟩ rfl
  unfold addEntry
  rw [if_pos hip]
  cases hf : (List.finRange c).find? fun i => (entries i).isTaken type ipv4Address with
  | some i =>
    rw [hf] at hcorr
    refine ⟨i, .inl (find?_first.mp hf), ?_⟩
    simp only [Scan.entry, hcorr]
  | none =>
    rw [hf] at hcorr
    have hno := find?_none.mp hf
    have hfree := scan_free entries type ipv4Address (List.finRange c) ⟨none, none, none⟩ fun i _ =>
      hno i
    rw [Option.or_none] at hfree
    cases hu : (List.finRange c).reverse.find? fun i => (entries i).entryType = .unused with
    | some i =>
      rw [hu] at hfree
      obtain ⟨hi, hafter⟩ := find?_last.mp hu
      refine ⟨i, .inr ⟨hno, of_decide_eq_true hi, fun j hj => of_decide_eq_false (hafter j hj)⟩, ?_⟩
      simp only [Scan.entry, hcorr, hfree]
    | none =>
      exact absurd (fun i => ⟨hno i, of_decide_eq_false (find?_reverse_none.mp hu i)⟩) ho

theorem scan_lowest {entries : Table c} {type : EntryType} {ipv4Address : Ipv4Address} {i : Fin c}
    (h : (scan entries type ipv4Address (List.finRange c) ⟨none, none, none⟩).entry = some i)
    {j : Fin c} (hj : j < i) : (entries j).isTaken type ipv4Address = false := by
  have hcorr := scan_corresponding entries type ipv4Address (List.finRange c) ⟨none, none, none⟩ rfl
  cases hf : (List.finRange c).find? fun i => (entries i).isTaken type ipv4Address with
  | none => exact find?_none.mp hf j
  | some k =>
    rw [hf] at hcorr
    simp only [Scan.entry, hcorr] at h
    obtain rfl := Option.some.inj h
    exact (find?_first.mp hf).2 j hj

/-- An addition made twice is made once. -/
theorem addEntry_again (entries : Table c) {type : EntryType} (ht : type ≠ .unused)
    (mac : MacAddress) (ipv4Address : Ipv4Address) (now : BitVec 32) :
    (addEntry (addEntry entries type mac ipv4Address now).2 type mac ipv4Address now).2 =
      (addEntry entries type mac ipv4Address now).2 := by
  by_cases hip : ipv4Address ≠ 0#32
  · cases hs : (scan entries type ipv4Address (List.finRange c) ⟨none, none, none⟩).entry with
    | none => simp only [addEntry, if_pos hip, hs]
    | some i =>
      have hagain : (List.finRange c).find? (fun j =>
          (Function.update entries i ⟨type, mac, ipv4Address, now⟩ j).isTaken type ipv4Address) =
            some i := by
        refine find?_first.mpr ⟨?_, fun j hj => ?_⟩
        · rw [Function.update_self]
          simp [Entry.isTaken, Entry.corresponds, ht]
        · rw [Function.update_of_ne (ne_of_lt hj)]
          exact scan_lowest hs hj
      have hcorr := scan_corresponding
        (Function.update entries i ⟨type, mac, ipv4Address, now⟩) type
        ipv4Address (List.finRange c) ⟨none, none, none⟩ rfl
      rw [hagain] at hcorr
      simp only [addEntry, if_pos hip, hs]
      simp only [Scan.entry, hcorr, Function.update_idem]
  · simp only [addEntry, if_neg hip]

end NanoIp.Arp
