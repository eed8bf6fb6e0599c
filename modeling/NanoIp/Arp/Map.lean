import NanoIp.Arp.Module
import NanoIp.Lib.Run

/-!
# The table as an address map

What the table is for: a static and a dynamic MAC address for each IPv4 address, each
the latest one added, the static one first and the dynamic one only for a while. A table
that holds one entry of each kind for an address, the static one above the dynamic one,
answers lookups like the map; the additions that break this order are the defects.
-/
namespace NanoIp.Arp

variable {c n : Nat}

/-- `NANO_IP_ARP_ENTRY_VALIDITY_PERIOD`, in milliseconds. -/
def validityMs : Nat := entryValidityPeriod.toNat

/-- The latest static addition for each address, unless it was removed, and the latest
dynamic one with its time. -/
structure AddressMap where
  static : Ipv4Address → Option MacAddress
  dynamic : Ipv4Address → Option (MacAddress × Nat)

namespace AddressMap

def empty : AddressMap := ⟨fun _ => none, fun _ => none⟩

def add (map : AddressMap) (type : EntryType) (mac : MacAddress) (ipv4Address : Ipv4Address)
    (time : Nat) :
    AddressMap :=
  match type with
  | .static => { map with static := Function.update map.static ipv4Address (some mac) }
  | .dynamic => { map with dynamic := Function.update map.dynamic ipv4Address (some (mac, time)) }
  | .unused => map

def remove (map : AddressMap) (ipv4Address : Ipv4Address) : AddressMap :=
  { map with static := Function.update map.static ipv4Address none }

def fresh (map : AddressMap) (ipv4Address : Ipv4Address) (now : Nat) : Option MacAddress :=
  (map.dynamic ipv4Address).bind fun (mac, time) =>
    if now - time ≤ validityMs then some mac else none

def resolve (map : AddressMap) (ipv4Address : Ipv4Address) (now : Nat) : Option MacAddress :=
  (map.static ipv4Address).or (map.fresh ipv4Address now)

end AddressMap

/-- An entry of a type for the address stands in the slot. -/
def Table.has (entries : Table c) (type : EntryType) (ipv4Address : Ipv4Address) (i : Fin c) :
    Prop :=
  (entries i).entryType = type ∧ (entries i).ipv4Address = ipv4Address

instance (entries : Table c) (type : EntryType) (ipv4Address : Ipv4Address) (i : Fin c) :
    Decidable (entries.has type ipv4Address i) := inferInstanceAs (Decidable (_ ∧ _))

/-- The table stands for the map at time `now`. -/
structure Refines (entries : Table c) (map : AddressMap) (now : Nat) : Prop where
  once : ∀ type ip i j, type ≠ .unused → entries.has type ip i → entries.has type ip j → i = j
  above : ∀ ip i j, entries.has .static ip i → entries.has .dynamic ip j → j < i
  static : ∀ ip i, entries.has .static ip i → map.static ip = some (entries i).macAddress
  dynamic : ∀ ip i, entries.has .dynamic ip i → ∃ time ≤ now,
    map.dynamic ip = some ((entries i).macAddress, time) ∧ (entries i).timestamp =
      BitVec.ofNat 32 time
  staticHeld : ∀ ip mac, map.static ip = some mac → ∃ i, entries.has .static ip i
  dynamicHeld : ∀ ip mac, map.fresh ip now = some mac →
    ∃ i, entries.has .dynamic ip i ∨ entries.has .static ip i

theorem refines_empty (now : Nat) : Refines (Table.empty c) AddressMap.empty now where
  once _ _ _ _ ht hi := absurd hi.1.symm ht
  above _ _ _ hi := nomatch hi.1
  static _ _ hi := nomatch hi.1
  dynamic _ _ hi := nomatch hi.1
  staticHeld _ _ hmac := nomatch hmac
  dynamicHeld _ _ hmac := nomatch hmac

section Fresh

variable {map : AddressMap} {ip ip' : Ipv4Address} {mac : MacAddress} {type : EntryType}
  {now time : Nat}

theorem static_add_of_ne (h : type = .static → ip' ≠ ip) :
    (map.add type mac ip time).static ip' = map.static ip' := by
  cases type with
  | unused | dynamic => rfl
  | static => exact Function.update_of_ne (h rfl) _ _

theorem dynamic_add_of_ne (h : type = .dynamic → ip' ≠ ip) :
    (map.add type mac ip time).dynamic ip' = map.dynamic ip' := by
  cases type with
  | unused | static => rfl
  | dynamic => exact Function.update_of_ne (h rfl) _ _

theorem fresh_add_of_ne (h : type = .dynamic → ip' ≠ ip) :
    (map.add type mac ip time).fresh ip' now = map.fresh ip' now := by
  rw [AddressMap.fresh, dynamic_add_of_ne h, AddressMap.fresh]

theorem fresh_some : map.fresh ip now = some mac ↔
    ∃ time, map.dynamic ip = some (mac, time) ∧ now - time ≤ validityMs := by
  unfold AddressMap.fresh
  rw [Option.bind_eq_some_iff]
  constructor
  · rintro ⟨⟨mac', time⟩, hd, hif⟩
    dsimp only at hif
    split_ifs at hif with ht
    obtain rfl := Option.some.inj hif
    exact ⟨time, hd, ht⟩
  · rintro ⟨time, hd, ht⟩
    exact ⟨(mac, time), hd, if_pos ht⟩

theorem fresh_earlier {now' : Nat} (h : map.fresh ip now' = some mac) (hle : now ≤ now') :
    map.fresh ip now = some mac := by
  obtain ⟨time, hd, ht⟩ := fresh_some.mp h
  exact fresh_some.mpr ⟨time, hd, by omega⟩

end Fresh

section Slot

variable {entries : Table c} {type type' : EntryType} {ip ip' : Ipv4Address}
  {i k : Fin c} {e : Entry}

theorem has_update_self : Table.has (Function.update entries i e) type ip i ↔
    e.entryType = type ∧ e.ipv4Address = ip := by rw [Table.has, Function.update_self]

theorem has_update_of_ne (hk : k ≠ i) :
    Table.has (Function.update entries i e) type ip k ↔ entries.has type ip k := by
  rw [Table.has, Function.update_of_ne hk, Table.has]

theorem has_update_iff : Table.has (Function.update entries i e) type ip k ↔
    k = i ∧ e.entryType = type ∧ e.ipv4Address = ip ∨ k ≠ i ∧ entries.has type ip k := by
  by_cases hk : k = i
  · subst hk
    rw [has_update_self]
    exact ⟨fun h => .inl ⟨rfl, h⟩, fun h => h.elim And.right fun h => absurd rfl h.1⟩
  · rw [has_update_of_ne hk]
    exact ⟨fun h => .inr ⟨hk, h⟩, fun h => h.elim (fun h => absurd h.1 hk) And.right⟩

theorem has_update_other (hslot : (entries i).entryType = .unused ∨ (entries i).ipv4Address = ip)
    (ht : type' ≠ .unused) (hip : ip' ≠ ip) (hk : entries.has type' ip' k) :
    Table.has (Function.update entries i e) type' ip' k := by
  refine (has_update_of_ne ?_).mpr hk
  rintro rfl
  rcases hslot with hunused | hsame
  · exact ht (hk.1.symm.trans hunused)
  · exact hip (hk.2.symm.trans hsame)

theorem has_update_unused (ht : type ≠ .unused) (he : e.entryType = .unused) :
    Table.has (Function.update entries i e) type ip k ↔ k ≠ i ∧ entries.has type ip k := by
  by_cases hk : k = i
  · subst hk
    rw [has_update_self, he]
    exact ⟨fun h => absurd h.1.symm ht, fun h => absurd rfl h.1⟩
  · rw [has_update_of_ne hk]
    exact ⟨fun h => ⟨hk, h⟩, fun h => h.2⟩

theorem isTaken_iff (ht : type ≠ .unused) : (entries k).isTaken type ip = true ↔
    entries.has type ip k ∨ entries.has .dynamic ip k := by
  simp only [Entry.isTaken, Entry.corresponds, Table.has, Bool.and_eq_true, Bool.or_eq_true,
    decide_eq_true_eq,
    ne_eq]
  constructor
  · rintro ⟨-, hip, hty | hty⟩
    · exact .inl ⟨hty, hip⟩
    · exact .inr ⟨hty, hip⟩
  · rintro (⟨hty, hip⟩ | ⟨hty, hip⟩)
    · exact ⟨by rw [hty]; exact ht, hip, .inl hty⟩
    · exact ⟨by rw [hty]; decide, hip, .inr hty⟩

/-- The slot an addition uses holds an entry of the address, or none of the address that
the addition would take over exists. -/
theorem Uses.held (hu : Uses entries type ip i) (ht : type ≠ .unused) :
    (entries.has type ip i ∨ entries.has .dynamic ip i) ∨
      ((entries i).entryType = .unused ∧ ∀ k, ¬ entries.has type ip k ∧
        ¬ entries.has .dynamic ip k) := by
  rcases hu with ⟨htaken, -⟩ | ⟨hno, hunused, -⟩
  · exact .inl ((isTaken_iff ht).mp htaken)
  · right
    refine ⟨hunused, fun k => not_or.mp fun hk => ?_⟩
    have hk' := (isTaken_iff ht).mpr hk
    rw [hno k] at hk'
    cases hk'

end Slot

namespace Refines

variable {entries : Table c} {map : AddressMap} {now : Nat}

theorem later (hr : Refines entries map now) {now' : Nat} (hle : now ≤ now') :
    Refines entries map now' where
  once := hr.once
  above := hr.above
  static := hr.static
  dynamic ip i hi := by
    obtain ⟨time, ht, hd, hs⟩ := hr.dynamic ip i hi
    exact ⟨time, Nat.le_trans ht hle, hd, hs⟩
  staticHeld := hr.staticHeld
  dynamicHeld ip mac hmac := hr.dynamicHeld ip mac (fresh_earlier hmac hle)

variable {type : EntryType} {ip : Ipv4Address} {i k : Fin c}

theorem static_unique (hr : Refines entries map now) {j : Fin c} (hi : entries.has .static ip i)
    (hj : entries.has .static ip j) : i = j := hr.once .static ip i j (by decide) hi hj

theorem dynamic_unique (hr : Refines entries map now) {j : Fin c} (hi : entries.has .dynamic ip i)
    (hj : entries.has .dynamic ip j) : i = j := hr.once .dynamic ip i j (by decide) hi hj

/-- Writing an entry over one of the same address or into a free slot keeps the table a
map if it becomes the only one of its type and the static one stays above. -/
theorem write (hr : Refines entries map now) (ht : type ≠ .unused)
    (hslot : (entries i).entryType = .unused ∨ (entries i).ipv4Address = ip)
    (honly : ∀ k, k ≠ i → ¬ entries.has type ip k)
    (habove : type = .static → ∀ k, k ≠ i → ¬ entries.has .dynamic ip k)
    (hbelow : type = .dynamic → ∀ k, entries.has .static ip k → i < k) (mac : MacAddress) :
    Refines (Function.update entries i ⟨type, mac, ip, BitVec.ofNat 32 now⟩)
      (map.add type mac ip now) now := by
  have hself : Table.has (Function.update entries i ⟨type, mac, ip, BitVec.ofNat 32 now⟩)
    type ip i :=
    has_update_self.mpr ⟨rfl, rfl⟩
  -- another entry of the type is for another address
  have hne {ip' : Ipv4Address} {k : Fin c} (hki : k ≠ i) (hk : entries.has type ip' k) :
      ip' ≠ ip := by
    rintro rfl
    exact honly k hki hk
  refine ⟨?_, ?_, ?_, ?_, ?_, ?_⟩
  · intro type' ip' k j ht' hk hj
    rcases has_update_iff.mp hk with ⟨rfl, rfl, rfl⟩ | ⟨hki, hkold⟩
    · rcases has_update_iff.mp hj with ⟨rfl, -, -⟩ | ⟨hji, hjold⟩
      · rfl
      · exact absurd hjold (honly j hji)
    · rcases has_update_iff.mp hj with ⟨rfl, rfl, rfl⟩ | ⟨-, hjold⟩
      · exact absurd hkold (honly k hki)
      · exact hr.once _ _ _ _ ht' hkold hjold
  · intro ip' k j hk hj
    rcases has_update_iff.mp hk with ⟨rfl, hst, rfl⟩ | ⟨hki, hkold⟩
    · rcases has_update_iff.mp hj with ⟨-, hdy, -⟩ | ⟨hji, hjold⟩
      · exact absurd (hst.symm.trans hdy) (by decide)
      · exact absurd hjold (habove hst j hji)
    · rcases has_update_iff.mp hj with ⟨rfl, hdy, rfl⟩ | ⟨-, hjold⟩
      · exact hbelow hdy k hkold
      · exact hr.above _ _ _ hkold hjold
  · intro ip' k hk
    rcases has_update_iff.mp hk with ⟨rfl, hst, rfl⟩ | ⟨hki, hkold⟩
    · obtain rfl : type = .static := hst
      rw [Function.update_self]
      exact Function.update_self _ _ _
    · rw [Function.update_of_ne hki, ← hr.static _ _ hkold]
      exact static_add_of_ne fun hst => hne hki (hst ▸ hkold)
  · intro ip' k hk
    rcases has_update_iff.mp hk with ⟨rfl, hdy, rfl⟩ | ⟨hki, hkold⟩
    · obtain rfl : type = .dynamic := hdy
      rw [Function.update_self]
      exact ⟨now, Nat.le_refl _, Function.update_self _ _ _, rfl⟩
    · rw [Function.update_of_ne hki, dynamic_add_of_ne fun hdy => hne hki (hdy ▸ hkold)]
      exact hr.dynamic _ _ hkold
  · intro ip' mac' hmac
    by_cases hip : ip' = ip
    · subst hip
      cases type with
      | unused => exact absurd rfl ht
      | static => exact ⟨i, hself⟩
      | dynamic =>
        obtain ⟨k, hk⟩ := hr.staticHeld ip' mac' hmac
        exact ⟨k, (has_update_of_ne (ne_of_gt (hbelow rfl k hk))).mpr hk⟩
    · rw [static_add_of_ne fun _ => hip] at hmac
      obtain ⟨k, hk⟩ := hr.staticHeld ip' mac' hmac
      exact ⟨k, has_update_other hslot (by decide) hip hk⟩
  · intro ip' mac' hmac
    by_cases hip : ip' = ip
    · subst hip
      cases type with
      | unused => exact absurd rfl ht
      | static => exact ⟨i, .inr hself⟩
      | dynamic => exact ⟨i, .inl hself⟩
    · rw [fresh_add_of_ne fun _ => hip] at hmac
      obtain ⟨k, hk⟩ := hr.dynamicHeld ip' mac' hmac
      exact ⟨k, hk.imp (has_update_other hslot (by decide) hip)
        (has_update_other hslot (by decide) hip)⟩

/-- Freeing a slot takes its static entry from the map, and nothing if the entry was a
dynamic one; what is fresh of its address must have another entry. -/
theorem clear (hr : Refines entries map now) (ht : type ≠ .unused) (hi : entries.has type ip i)
    {e : Entry} (he : e.entryType = .unused) {map' : AddressMap}
    (hdynamic : map'.dynamic = map.dynamic)
    (hstatic : map'.static = if type = .static then Function.update map.static ip
      none else map.static)
    (hheld : ∀ mac, map.fresh ip now = some mac → ∃ k, k ≠ i ∧
      (entries.has .dynamic ip k ∨ entries.has .static ip k)) :
    Refines (Function.update entries i e) map' now := by
  have hfresh : ∀ ip', map'.fresh ip' now = map.fresh ip' now := by
    intro ip'
    rw [AddressMap.fresh, hdynamic, AddressMap.fresh]
  have hback : ∀ {type' ip' k}, Table.has (Function.update entries i e) type' ip' k →
    type' ≠ .unused →
      k ≠ i ∧ entries.has type' ip' k := fun h ht' => (has_update_unused ht' he).mp h
  have hkept : ∀ {type' ip' k}, entries.has type' ip' k → type' ≠ .unused → k ≠ i →
      Table.has (Function.update entries i e) type' ip' k := fun h ht' hk =>
        (has_update_unused ht' he).mpr ⟨hk, h⟩
  refine ⟨?_, ?_, ?_, ?_, ?_, ?_⟩
  · exact fun type' ip' k j ht' hk hj => hr.once _ _ _ _ ht' (hback hk ht').2 (hback hj ht').2
  · exact fun ip' k j hk hj => hr.above _ _ _ (hback hk (by decide)).2 (hback hj (by decide)).2
  · intro ip' k hk
    obtain ⟨hki, hkold⟩ := hback hk (by decide)
    rw [Function.update_of_ne hki, ← hr.static _ _ hkold, hstatic]
    split_ifs with hst
    · subst hst
      refine Function.update_of_ne ?_ _ _
      rintro rfl
      exact hki (hr.static_unique hkold hi)
    · rfl
  · intro ip' k hk
    obtain ⟨hki, hkold⟩ := hback hk (by decide)
    rw [Function.update_of_ne hki, hdynamic]
    exact hr.dynamic _ _ hkold
  · intro ip' mac hmac
    rw [hstatic] at hmac
    have hold : map.static ip' = some mac ∧ ¬ (type = .static ∧ ip' = ip) := by
      split_ifs at hmac with hst
      · have hip : ip' ≠ ip := by
          rintro rfl
          rw [Function.update_self] at hmac
          cases hmac
        exact ⟨(Function.update_of_ne hip _ _).symm.trans hmac, fun h => hip h.2⟩
      · exact ⟨hmac, fun h => hst h.1⟩
    obtain ⟨k, hk⟩ := hr.staticHeld ip' mac hold.1
    refine ⟨k, hkept hk (by decide) ?_⟩
    rintro rfl
    exact hold.2 ⟨hi.1.symm.trans hk.1, hk.2.symm.trans hi.2⟩
  · intro ip' mac hmac
    rw [hfresh] at hmac
    have hother : ∃ k, k ≠ i ∧ (entries.has .dynamic ip' k ∨ entries.has .static ip' k) := by
      by_cases hip : ip' = ip
      · subst hip
        exact hheld mac hmac
      · obtain ⟨k, hk⟩ := hr.dynamicHeld ip' mac hmac
        refine ⟨k, ?_, hk⟩
        rintro rfl
        rcases hk with hk | hk <;> exact hip (hk.2.symm.trans hi.2)
    obtain ⟨k, hki, hk⟩ := hother
    exact ⟨k, hk.imp (fun hk => hkept hk (by decide) hki) fun hk => hkept hk (by decide) hki⟩

theorem remove_absent (hr : Refines entries map now) (hno : ∀ k, ¬ entries.has .static ip k) :
    map.remove ip = map := by
  have hnone : map.static ip = none := by
    cases hm : map.static ip with
    | none => rfl
    | some mac =>
      obtain ⟨k, hk⟩ := hr.staticHeld ip mac hm
      exact absurd hk (hno k)
  rw [AddressMap.remove, ← hnone, Function.update_eq_self]

end Refines

end NanoIp.Arp
