import NanoIp.Arp.Statics
import NanoIp.Lib.Deadline

/-!
# Eviction from a full ARP table

For a new address a full table gives up the dynamic entry with the least timestamp. That is
the oldest one as long as the counter has not wrapped between two of them; an entry written
after the wrap looks older than all that were written before it.
-/
namespace NanoIp.Arp

variable {c : Nat} {entries : Table c} {type : EntryType} {ipv4Address : Ipv4Address}

def Entry.age (e : Entry) (now : BitVec 32) : BitVec 32 := now - e.timestamp

/-- All slots are in use, none of them for the address. -/
structure Full (entries : Table c) (ipv4Address : Ipv4Address) : Prop where
  used : ∀ i, (entries i).entryType ≠ .unused
  new : ∀ i, (entries i).ipv4Address ≠ ipv4Address

/-- No dynamic entry of the slots has a lesser timestamp than the one found. -/
theorem scan_least (entries : Table c) (type : EntryType) (ipv4Address : Ipv4Address)
    (is : List (Fin c)) :
    ∀ s : Scan c, (∀ i ∈ is, (entries i).isTaken type ipv4Address = false) →
    ∀ j ∈ (scan entries type ipv4Address is s).oldestEntry,
      (∀ k ∈ s.oldestEntry, (entries j).timestamp ≤ (entries k).timestamp) ∧
      ∀ k ∈ is, (entries k).entryType = .dynamic → (entries j).timestamp ≤
        (entries k).timestamp := by
  induction is with
  | nil =>
    intro s _ j hj
    refine ⟨fun k hk => ?_, nofun⟩
    obtain rfl := Option.some.inj (hj.symm.trans hk)
    exact BitVec.le_refl _
  | cons i is ih =>
    intro s hno j hj
    have hno' : ∀ k ∈ is, (entries k).isTaken type ipv4Address = false :=
      fun k hk => hno k (List.mem_cons_of_mem i hk)
    rw [scan] at hj
    split_ifs at hj with hused hcorr hold
    · have htaken := hno i List.mem_cons_self
      simp [Entry.isTaken, hused, hcorr] at htaken
    · -- the slot becomes the oldest: its timestamp is less than that of the one before
      obtain ⟨hfirst, hrest⟩ := ih _ hno' j hj
      have hji := hfirst i rfl
      refine ⟨fun k hk => ?_, fun k hk hdyn => ?_⟩
      · have hlt := hold.2
        rw [Option.all_eq_true] at hlt
        exact BitVec.le_trans hji (BitVec.le_of_lt (of_decide_eq_true (hlt k hk)))
      · rcases List.mem_cons.mp hk with rfl | hk
        · exact hji
        · exact hrest k hk hdyn
    · obtain ⟨hfirst, hrest⟩ := ih _ hno' j hj
      refine ⟨hfirst, fun k hk hdyn => ?_⟩
      rcases List.mem_cons.mp hk with rfl | hk
      · -- the slot does not become the oldest: one before it has no greater timestamp
        cases ho : s.oldestEntry with
        | none =>
          rw [ho] at hold
          exact absurd ⟨hdyn, rfl⟩ hold
        | some l =>
          rw [ho, not_and] at hold
          have hle : (entries l).timestamp ≤ (entries k).timestamp := by
            have hge := hold hdyn
            rw [Option.all_some, decide_eq_true_eq] at hge
            exact BitVec.not_lt.mp hge
          exact BitVec.le_trans (hfirst l ho) hle
      · exact hrest k hk hdyn
    · obtain ⟨hfirst, hrest⟩ := ih _ hno' j hj
      refine ⟨hfirst, fun k hk hdyn => ?_⟩
      rcases List.mem_cons.mp hk with rfl | hk
      · rw [hdyn] at hused
        exact absurd (by decide) hused
      · exact hrest k hk hdyn

/-- On a full table a new address takes the dynamic entry with the least timestamp; without a
dynamic entry it is turned down. -/
theorem addEntry_full (h : Full entries ipv4Address) (hip : ipv4Address ≠ 0#32) (type : EntryType)
    (mac : MacAddress) (now : BitVec 32) :
    (∃ i, (entries i).entryType = .dynamic ∧
      (∀ j, (entries j).entryType = .dynamic → (entries i).timestamp ≤ (entries j).timestamp) ∧
      addEntry entries type mac ipv4Address now =
        (.success, Function.update entries i ⟨type, mac, ipv4Address, now⟩)) ∨
    ((∀ i, (entries i).entryType = .static) ∧ addEntry entries type mac ipv4Address now =
      (.resource, entries)) := by
  have hno : ∀ i ∈ List.finRange c, (entries i).isTaken type ipv4Address = false := by
    intro i _
    simp [Entry.isTaken, Entry.corresponds, h.new i]
  have hcorr := scan_corresponding entries type ipv4Address (List.finRange c) ⟨none, none, none⟩ rfl
  have hfree := scan_free entries type ipv4Address (List.finRange c) ⟨none, none, none⟩ hno
  have hunused : (List.finRange c).reverse.find? (fun i => (entries i).entryType = .unused) =
    none :=
    find?_reverse_none.mpr fun i => decide_eq_false (h.used i)
  rw [find?_none.mpr fun i => hno i (List.mem_finRange i)] at hcorr
  rw [Option.or_none, hunused] at hfree
  rw [addEntry, if_pos hip, Scan.entry, hcorr, hfree]
  cases ho : (scan entries type ipv4Address (List.finRange c) ⟨none, none, none⟩).oldestEntry with
  | some i =>
    have hdyn := scan_oldest entries type ipv4Address (List.finRange c) ⟨none, none, none⟩
      (fun j hj => by cases hj) i ho
    have hleast := scan_least entries type ipv4Address (List.finRange c) ⟨none, none, none⟩ hno i ho
    exact .inl ⟨i, hdyn, fun j => hleast.2 j (List.mem_finRange j), rfl⟩
  | none =>
    have hsome := scan_oldest_some entries type ipv4Address (List.finRange c) ⟨none, none, none⟩ hno
    rw [ho] at hsome
    refine .inr ⟨fun i => ?_, rfl⟩
    cases hi : (entries i).entryType with
    | static => rfl
    | unused => exact absurd hi (h.used i)
    | dynamic => cases hsome (.inr ⟨i, List.mem_finRange i, hi⟩)

/-- What an addition to a full table should do: give up a dynamic entry that no other is older
than, and fail exactly when there is none. -/
def EvictsOldest (entries : Table c) (type : EntryType) (mac : MacAddress)
    (ipv4Address : Ipv4Address) (now : BitVec 32) : Prop :=
  ((addEntry entries type mac ipv4Address now).1 = .resource ↔
    ∀ i, (entries i).entryType = .static) ∧
    ((∀ i, (entries i).entryType = .static) →
      (addEntry entries type mac ipv4Address now).2 = entries) ∧
    ((∃ i, (entries i).entryType = .dynamic) → ∃ i, (entries i).entryType = .dynamic ∧
      (∀ j, (entries j).entryType = .dynamic → (entries j).age now ≤ (entries i).age now) ∧
      addEntry entries type mac ipv4Address now =
        (.success, Function.update entries i ⟨type, mac, ipv4Address, now⟩))

/-- The counter has not wrapped between two of the dynamic entries, or between all of them and
now. -/
def OneLap (entries : Table c) (now : BitVec 32) : Prop :=
  (∀ i, (entries i).entryType = .dynamic → (entries i).timestamp ≤ now) ∨
    ∀ i, (entries i).entryType = .dynamic → now < (entries i).timestamp

/-- The oldest entry goes exactly if the counter has not wrapped between the dynamic entries. -/
theorem evictsOldest_iff (h : Full entries ipv4Address) (hip : ipv4Address ≠ 0#32)
    (type : EntryType) (mac : MacAddress) (now : BitVec 32) :
    EvictsOldest entries type mac ipv4Address now ↔ OneLap entries now := by
  rcases addEntry_full h hip type mac now with ⟨i, hdyn, hleast, hadd⟩ | ⟨hstatic, hadd⟩
  · have hnot : ¬ ∀ j, (entries j).entryType = .static := by
      intro hall
      rw [hall i] at hdyn
      cases hdyn
    constructor
    · rintro ⟨-, -, hevicts⟩
      obtain ⟨j, -, holdest, hadd'⟩ := hevicts ⟨i, hdyn⟩
      -- both slots hold the new address, which stood in neither
      have hij : j = i := by
        by_contra hne
        have hsame := congrFun (Prod.mk.inj (hadd.symm.trans hadd')).2 i
        rw [Function.update_self, Function.update_of_ne (Ne.symm hne)] at hsame
        exact h.new i (congrArg Entry.ipv4Address hsame).symm
      subst hij
      by_cases hle : (entries j).timestamp ≤ now
      · refine .inl fun k hk => ?_
        by_contra hlt
        exact BitVec.not_lt.mpr (holdest k hk) (Lib.age_lt_of_laps hle (BitVec.not_le.mp hlt))
      · exact .inr fun k hk => Nat.lt_of_lt_of_le (BitVec.not_le.mp hle) (hleast k hk)
    · intro hlap
      refine ⟨?_, fun hall => absurd hall hnot, fun _ => ⟨i, hdyn, fun j hj => ?_, hadd⟩⟩
      · rw [hadd]
        exact ⟨nofun, fun hall => absurd hall hnot⟩
      · refine Lib.age_le_of_le ?_ (hleast j hj)
        rcases hlap with hlap | hlap
        · exact iff_of_true (hlap i hdyn) (hlap j hj)
        · exact iff_of_false (BitVec.not_le.mpr (hlap i hdyn)) (BitVec.not_le.mpr (hlap j hj))
  · have hnone : ∀ i, (entries i).entryType ≠ .dynamic := by
      intro i hdyn
      rw [hstatic i] at hdyn
      cases hdyn
    refine iff_of_true ⟨?_, fun _ => by rw [hadd], ?_⟩ (.inl fun i hi => absurd hi (hnone i))
    · rw [hadd]
      exact ⟨fun _ => hstatic, fun _ => rfl⟩
    · rintro ⟨i, hi⟩
      exact absurd hi (hnone i)

/-- A full table of a static and of two dynamic entries. -/
def threeEntries (first second : BitVec 32) : Table 3 :=
  #v[⟨.static, Vector.replicate 6 0xFF#8, 0xFFFFFFFF#32, 0#32⟩,
    ⟨.dynamic, Vector.replicate 6 1#8, 0x0A000001#32, first⟩,
    ⟨.dynamic, Vector.replicate 6 2#8, 0x0A000002#32, second⟩].get

theorem evictsOldest_iff_learned :
    EvictsOldest (threeEntries 100#32 50#32) .dynamic (Vector.replicate 6 3#8)
    0x0A000003#32 200#32 ↔ OneLap (threeEntries 100#32 50#32) 200#32 :=
  evictsOldest_iff ⟨by decide, by decide⟩ (by decide) .dynamic (Vector.replicate 6 3#8) 200#32

/-- Written 300 ms and 100 ms ago, on either side of the wrap: the younger entry goes. -/
theorem wrapped_youngest_evicted :
    Full (threeEntries 0xFFFFFF9C#32 100#32) 0x0A000003#32 ∧
    (∀ i, ((threeEntries 0xFFFFFF9C#32 100#32) i).entryType = .dynamic →
      ((threeEntries 0xFFFFFF9C#32 100#32) i).age 200#32 < 0x80000000#32) ∧
    ¬ EvictsOldest (threeEntries 0xFFFFFF9C#32 100#32) .dynamic (Vector.replicate 6 3#8)
      0x0A000003#32 200#32 := by
  refine ⟨⟨by decide, by decide⟩, by decide, ?_⟩
  rintro ⟨-, -, hevicts⟩
  obtain ⟨i, -, holdest, hadd⟩ := hevicts ⟨⟨1, by decide⟩, rfl⟩
  have hold := holdest ⟨1, by decide⟩ rfl
  have hkept := congrFun (Prod.mk.inj hadd).2 ⟨1, by decide⟩
  clear holdest hadd
  revert i
  decide

end NanoIp.Arp
