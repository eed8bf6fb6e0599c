import NanoIp.Arp.Table
import NanoIp.Lib.Slots

/-!
# The static entries of the ARP table

A dynamic entry never takes the slot of a static one, and a static entry finds a slot as long as
not all of them hold static entries.
-/
namespace NanoIp.Arp

variable {c : Nat} {entries : Table c} {type : EntryType} {ipv4Address : Ipv4Address}

def Entry.static (e : Entry) : Option (Ipv4Address × MacAddress) :=
  if e.entryType = .static then some (e.ipv4Address, e.macAddress) else none

def statics (entries : Table c) : List (Ipv4Address × MacAddress) :=
  Lib.Slots.values Entry.static entries

theorem static_none {e : Entry} : e.static = none ↔ e.entryType ≠ .static := by
  rw [Entry.static]
  split_ifs with h
  · simp [h]
  · simp [h]

theorem removeEntry_statics (entries : Table c) (ipv4Address : Ipv4Address) :
    statics (removeEntry entries ipv4Address).2 = (statics entries).eraseP fun a =>
      a.1 = ipv4Address := by
  have hfind : (List.finRange c).find? (fun i =>
        (entries i).entryType = .static && (entries i).ipv4Address = ipv4Address) =
      (List.finRange c).find? fun i => (entries i).static.any fun a => a.1 = ipv4Address := by
    refine congrArg (List.find? · _) (funext fun i => ?_)
    rw [Entry.static]
    split_ifs with h <;> simp [h]
  rw [removeEntry, hfind]
  cases hi : (List.finRange c).find? fun i => (entries i).static.any fun a => a.1 = ipv4Address with
  | none => exact (Lib.Slots.values_remove_none hi).symm
  | some i => exact Lib.Slots.values_remove (e := Entry.zero) rfl hi

theorem scan_oldest (entries : Table c) (type : EntryType) (ipv4Address : Ipv4Address)
    (is : List (Fin c)) :
    ∀ s : Scan c, (∀ j ∈ s.oldestEntry, (entries j).entryType = .dynamic) →
    ∀ j ∈ (scan entries type ipv4Address is s).oldestEntry, (entries j).entryType = .dynamic := by
  induction is with
  | nil => exact fun _ hs => hs
  | cons i is ih =>
    intro s hs
    rw [scan]
    split_ifs with hused hcorr hold
    · exact hs
    · refine ih _ fun j hj => ?_
      obtain rfl := Option.some.inj hj
      exact hold.1
    · exact ih _ hs
    · exact ih _ hs

/-- A dynamic entry that is not taken over leaves an oldest one. -/
theorem scan_oldest_some (entries : Table c) (type : EntryType) (ipv4Address : Ipv4Address)
    (is : List (Fin c)) :
    ∀ s : Scan c, (∀ i ∈ is, (entries i).isTaken type ipv4Address = false) →
    s.oldestEntry.isSome = true ∨ (∃ i ∈ is, (entries i).entryType = .dynamic) →
    (scan entries type ipv4Address is s).oldestEntry.isSome = true := by
  induction is with
  | nil =>
    rintro s - (hs | ⟨i, hi, -⟩)
    · exact hs
    · cases hi
  | cons i is ih =>
    intro s hno hs
    have hno' : ∀ j ∈ is, (entries j).isTaken type ipv4Address = false :=
      fun j hj => hno j (List.mem_cons_of_mem i hj)
    rw [scan]
    split_ifs with hused hcorr hold
    · have htaken := hno i List.mem_cons_self
      simp [Entry.isTaken, hused, hcorr] at htaken
    · exact ih _ hno' (.inl rfl)
    · refine ih _ hno' ?_
      rcases hs with hs | ⟨j, hj, hdyn⟩
      · exact .inl hs
      · rcases List.mem_cons.mp hj with rfl | hj
        · rw [not_and, Bool.not_eq_true] at hold
          left
          cases ho : s.oldestEntry with
          | none =>
            have hall := hold hdyn
            rw [ho] at hall
            cases hall
          | some _ => rfl
        · exact .inr ⟨j, hj, hdyn⟩
    · refine ih _ hno' ?_
      rcases hs with hs | ⟨j, hj, hdyn⟩
      · exact .inl hs
      · rcases List.mem_cons.mp hj with rfl | hj
        · rw [hdyn] at hused
          exact absurd (by decide) hused
        · exact .inr ⟨j, hj, hdyn⟩

/-- What the scan comes to: the slot that is written is not that of a static entry of another
kind, and there is none only if all slots are static. -/
theorem scan_entry (entries : Table c) (type : EntryType) (ipv4Address : Ipv4Address) :
    match (scan entries type ipv4Address (List.finRange c) ⟨none, none, none⟩).entry with
    | some i => (entries i).entryType = .static → (entries i).isTaken type ipv4Address = true
    | none => ∀ i, (entries i).entryType = .static := by
  have hcorr := scan_corresponding entries type ipv4Address (List.finRange c) ⟨none, none, none⟩ rfl
  have hold := scan_oldest entries type ipv4Address (List.finRange c) ⟨none, none, none⟩ nofun
  cases hf : (List.finRange c).find? fun i => (entries i).isTaken type ipv4Address with
  | some i =>
    rw [hf] at hcorr
    simp only [Scan.entry, hcorr]
    exact fun _ => (find?_first.mp hf).1
  | none =>
    rw [hf] at hcorr
    have hno := find?_none.mp hf
    have hfree := scan_free entries type ipv4Address (List.finRange c) ⟨none, none, none⟩ fun i _ =>
      hno i
    rw [Option.or_none] at hfree
    cases hu : (List.finRange c).reverse.find? fun i => (entries i).entryType = .unused with
    | some i =>
      rw [hu] at hfree
      simp only [Scan.entry, hcorr, hfree]
      have hunused := of_decide_eq_true (find?_last.mp hu).1
      exact fun hstatic => by rw [hunused] at hstatic; cases hstatic
    | none =>
      rw [hu] at hfree
      have hsome := scan_oldest_some entries type ipv4Address (List.finRange c)
        ⟨none, none, none⟩ fun i _ => hno i
      simp only [Scan.entry, hcorr, hfree]
      cases ho :
        (scan entries type ipv4Address (List.finRange c) ⟨none, none, none⟩).oldestEntry with
      | some i =>
        have hdyn := hold i ho
        exact fun hstatic => by rw [hdyn] at hstatic; cases hstatic
      | none =>
        rw [ho] at hsome
        intro i
        cases hi : (entries i).entryType with
        | static => rfl
        | unused => exact absurd hi (of_decide_eq_false (find?_reverse_none.mp hu i))
        | dynamic =>
          have hcontra := hsome (.inr ⟨i, List.mem_finRange i, hi⟩)
          cases hcontra

/-- A learned address leaves the static entries. -/
theorem addEntry_dynamic (entries : Table c) (mac : MacAddress) (ipv4Address : Ipv4Address)
    (now : BitVec 32) :
    statics (addEntry entries .dynamic mac ipv4Address now).2 = statics entries := by
  have hscan := scan_entry entries .dynamic ipv4Address
  rw [addEntry]
  split_ifs
  · cases hs : (scan entries .dynamic ipv4Address (List.finRange c) ⟨none, none, none⟩).entry with
    | none => rfl
    | some i =>
      rw [hs] at hscan
      refine Lib.Slots.values_same ?_
      have hnot : (entries i).entryType ≠ .static := by
        intro hstatic
        have htaken := hscan hstatic
        simp [Entry.isTaken, Entry.corresponds, hstatic] at htaken
      rw [static_none.mpr hnot]
      rfl
  · rfl

/-- A static entry for an address that has none. -/
theorem addEntry_static (mac : MacAddress) (now : BitVec 32) (hip : ipv4Address ≠ 0#32)
    (hnone : ∀ a ∈ statics entries, a.1 ≠ ipv4Address) (hroom : (statics entries).length < c) :
    (statics (addEntry entries .static mac ipv4Address now).2).Perm
      ((ipv4Address, mac) :: statics entries) := by
  have hscan := scan_entry entries .static ipv4Address
  rw [addEntry, if_pos hip]
  cases hs : (scan entries .static ipv4Address (List.finRange c) ⟨none, none, none⟩).entry with
  | none =>
    rw [hs] at hscan
    obtain ⟨i, hi⟩ := Lib.Slots.exists_free hroom
    exact absurd (hscan i) (static_none.mp hi)
  | some i =>
    rw [hs] at hscan
    refine Lib.Slots.values_store (static_none.mpr fun hstatic => ?_) rfl
    have htaken := hscan hstatic
    have hmem : ((entries i).ipv4Address, (entries i).macAddress) ∈ statics entries :=
      List.mem_filterMap.mpr ⟨i, List.mem_finRange i, if_pos hstatic⟩
    simp only [Entry.isTaken, Entry.corresponds, Bool.and_eq_true, decide_eq_true_eq] at htaken
    exact hnone _ hmem htaken.2.1

end NanoIp.Arp
