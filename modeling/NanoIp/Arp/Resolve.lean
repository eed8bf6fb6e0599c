import NanoIp.Arp.Map

/-!
# Lookups answer like the map

The module runs with an observer that keeps the address map beside it. As long as no
addition puts the entries of an address in the wrong order, no removal takes away a
static entry that has taken the place of a dynamic one, and no lookup comes so late that
the counter has wrapped around an entry's age, every lookup answers like the map.
-/
namespace NanoIp.Arp

variable {c n : Nat}

/-- The module and the milliseconds since start. -/
structure Node (c n : Nat) where
  module : Module c n
  time : Nat

/-- `NANO_IP_OAL_TIME_GetMsCounter`. -/
def Node.msCounter (x : Node c n) : BitVec 32 := BitVec.ofNat 32 x.time

/-- The calls that reach the module, and the time that passes between them. -/
inductive Input (c n : Nat) where
  | addEntry (type : EntryType) (mac : MacAddress) (ipv4Address : Ipv4Address)
  | removeEntry (ipv4Address : Ipv4Address)
  | request (netIf : NetIf) (r : Fin n) (ipv4Address : Ipv4Address) (link : Link)
  | cancelRequest (r : Fin n)
  | rxFrame (netIf : NetIf) (p : Packet) (link : Link)
  | periodicTask
  | elapse (ms : Nat)

def step (x : Node c n) : Input c n → Option (Node c n)
  | .addEntry type mac ip =>
    if type = .unused then none else some
      { x with module := x.module.addEntry type mac ip x.msCounter }
  | .removeEntry ip => some { x with
      module := { x.module with entries := (removeEntry x.module.entries ip).2 } }
  | .request netIf r ip link =>
    some ⟨(request x.module netIf r ip link x.msCounter).module, x.time + link.elapsed⟩
  | .cancelRequest r => some { x with module := (cancelRequest x.module r).1 }
  | .rxFrame netIf p link =>
    some ⟨(rxFrame x.module netIf p link x.msCounter).module, x.time + link.elapsed⟩
  | .periodicTask => some { x with module := (periodicTask x.module x.msCounter).1 }
  | .elapse ms => some { x with time := x.time + ms }

/-- The frame is accepted as a request to the interface, and a response can be allocated. -/
def learnsRequest (netIf : NetIf) (p : Packet) (link : Link) : Bool :=
  packetSizeIpv4 ≤ p.count && (decode p).isValid && (decode p).operation = opRequest &&
    netIf.ipv4Address = (decode p).targetProtoAddress && link.alloc.isOk

/-- The addition an input makes: type, MAC address and IPv4 address. -/
def addition (x : Node c n) : Input c n → Option (EntryType × MacAddress × Ipv4Address)
  | .addEntry type mac ip => some (type, mac, ip)
  | .rxFrame netIf p link =>
    if learnsRequest netIf p link || (rxFrame x.module netIf p link x.msCounter).calls ≠ [] then
      some (.dynamic, (decode p).senderHwAddress, (decode p).senderProtoAddress)
    else none
  | _ => none

/-- The map as the observer keeps it; the address 0 is never added. -/
def AddressMap.see (map : AddressMap) (x : Node c n) (i : Input c n) (_ : Node c n) : AddressMap :=
  match i with
  | .removeEntry ip => map.remove ip
  | i =>
    match addition x i with
    | some (type, mac, ip) => if ip ≠ 0#32 then map.add type mac ip x.time else map
    | none => map

/-- The addition of the step finds an entry to take over or a free slot. -/
def InBounds (x : Node c n) (i : Input c n) : Prop :=
  ∀ added ∈ addition x i, ¬ Overflows x.module.entries added.1 added.2.2

instance (x : Node c n) (i : Input c n) : Decidable (InBounds x i) :=
  inferInstanceAs (Decidable (∀ added ∈ addition x i, _))

/-- An addition keeps the entries of its address in order: a static one does not meet
both a static and a dynamic entry, and a dynamic one uses a slot below the static entry. -/
def KeepsOrder (entries : Table c) (type : EntryType) (ip : Ipv4Address) : Prop :=
  match type with
  | .static => ∀ k j, entries.has .static ip k → ¬ entries.has .dynamic ip j
  | .dynamic => ∀ i k, Uses entries .dynamic ip i → entries.has .static ip k → i < k
  | .unused => True

instance (entries : Table c) (ip : Ipv4Address) : ∀ type, Decidable (KeepsOrder entries type ip)
  | .static => inferInstanceAs (Decidable (∀ _ _, _))
  | .dynamic => inferInstanceAs (Decidable (∀ _ _, _))
  | .unused => .isTrue trivial

/-- A removed static entry has not taken the place of a dynamic one that is still fresh. -/
def KeepsFresh (entries : Table c) (map : AddressMap) (now : Nat) (ip : Ipv4Address) : Prop :=
  (∃ i, entries.has .static ip i) → map.fresh ip now ≠ none → ∃ i, entries.has .dynamic ip i

instance (entries : Table c) (map : AddressMap) (now : Nat) (ip : Ipv4Address) :
    Decidable (KeepsFresh entries map now ip) := inferInstanceAs (Decidable (_ → _ → _))

/-- A dynamic entry that the lookup comes to is not so old that its age has wrapped to a
valid one. -/
def Unwrapped (entries : Table c) (map : AddressMap) (now : Nat) (ip : Ipv4Address) : Prop :=
  (∃ i, entries.has .dynamic ip i) → map.static ip = none → ∀ entry ∈ map.dynamic ip,
    (now - entry.2) % 2 ^ 32 ≤ validityMs → now - entry.2 ≤ validityMs

instance (entries : Table c) (map : AddressMap) (now : Nat) (ip : Ipv4Address) :
    Decidable (Unwrapped entries map now ip) :=
      inferInstanceAs (Decidable (_ → _ → ∀ entry ∈ map.dynamic ip, _))

/-- What a removal and a lookup require beside the order. -/
def Timely (z : Node c n × AddressMap) : Input c n → Prop
  | .removeEntry ip => KeepsFresh z.1.module.entries z.2 z.1.time ip
  | .request _ _ ip _ => Unwrapped z.1.module.entries z.2 z.1.time ip
  | _ => True

instance (z : Node c n × AddressMap) : ∀ i, Decidable (Timely z i)
  | .removeEntry _ => inferInstanceAs (Decidable (KeepsFresh _ _ _ _))
  | .request _ _ _ _ => inferInstanceAs (Decidable (Unwrapped _ _ _ _))
  | .addEntry _ _ _ | .cancelRequest _ | .rxFrame _ _ _ | .periodicTask | .elapse _ =>
      .isTrue trivial

/-- The condition on a step. -/
def InOrder (z : Node c n × AddressMap) (i : Input c n) : Prop :=
  (∀ added ∈ addition z.1 i, KeepsOrder z.1.module.entries added.1 added.2.2) ∧ Timely z i

instance (z : Node c n × AddressMap) (i : Input c n) : Decidable (InOrder z i) :=
  inferInstanceAs (Decidable ((∀ added ∈ addition z.1 i, _) ∧ _))

namespace Refines

variable {entries : Table c} {map : AddressMap} {now : Nat} {ip : Ipv4Address}

/-- An addition in order is an addition to the map. -/
theorem addEntry (hr : Refines entries map now) {type : EntryType} (ht : type ≠ .unused)
    (ho : ¬ Overflows entries type ip) (hk : KeepsOrder entries type ip) (hip : ip ≠ 0#32)
    (mac : MacAddress) :
    Refines (Arp.addEntry entries type mac ip (BitVec.ofNat 32 now)).2
      (map.add type mac ip now) now := by
  obtain ⟨i, hu, he⟩ := addEntry_uses mac (BitVec.ofNat 32 now) hip ho
  have hheld := hu.held ht
  rw [he]
  refine hr.write ht ?_ ?_ ?_ ?_ mac
  · rcases hheld with (h | h) | ⟨h, -⟩
    · exact .inr h.2
    · exact .inr h.2
    · exact .inl h
  · intro k hki hk'
    rcases hheld with (h | h) | ⟨-, hno⟩
    · exact hki (hr.once _ _ _ _ ht hk' h)
    · cases type with
      | unused => exact ht rfl
      | static => exact hk k i hk' h
      | dynamic => exact hki (hr.dynamic_unique hk' h)
    · exact (hno k).1 hk'
  · rintro rfl k hki hk'
    rcases hheld with (h | h) | ⟨-, hno⟩
    · exact hk i k h hk'
    · exact hki (hr.dynamic_unique hk' h)
    · exact (hno k).2 hk'
  · rintro rfl k hk'
    exact hk i k hu hk'

/-- A removal is one of the map. -/
theorem removeEntry (hr : Refines entries map now) (hf : KeepsFresh entries map now ip) :
    Refines (Arp.removeEntry entries ip).2 (map.remove ip) now := by
  unfold Arp.removeEntry
  cases hfind : (List.finRange c).find? fun i =>
      (entries i).entryType = .static && (entries i).ipv4Address = ip with
  | none =>
    rw [hr.remove_absent fun k hk => ?_]
    · exact hr
    · have hno := find?_none.mp hfind k
      simp [hk.1, hk.2] at hno
  | some i =>
    have hi := (find?_first.mp hfind).1
    rw [Bool.and_eq_true, decide_eq_true_eq, decide_eq_true_eq] at hi
    refine hr.clear (nofun : EntryType.static ≠ .unused) hi rfl rfl rfl fun mac hmac => ?_
    obtain ⟨k, hk⟩ := hf ⟨i, hi⟩ (by rw [hmac]; exact Option.some_ne_none mac)
    refine ⟨k, ?_, .inl hk⟩
    rintro rfl
    exact absurd (hi.1.symm.trans hk.1) nofun

/-- The counter tells the age of a dynamic entry. -/
theorem isValid_dynamic (hr : Refines entries map now) (hw : Unwrapped entries map now ip)
    (hstatic : map.static ip = none) {i : Fin c} (hi : entries.has .dynamic ip i) :
    (entries i).isValid (BitVec.ofNat 32 now) = true ↔ map.fresh ip now =
      some (entries i).macAddress := by
  obtain ⟨time, hle, hd, hs⟩ := hr.dynamic ip i hi
  have hage : (BitVec.ofNat 32 now - (entries i).timestamp).toNat = (now - time) % 2 ^ 32 := by
    rw [hs]
    bv_omega
  have hvalid : (entries i).isValid (BitVec.ofNat 32 now) = true ↔ (now - time) % 2 ^ 32 ≤
      validityMs := by
    simp [Entry.isValid, hi.1, BitVec.le_def, hage, validityMs]
  rw [hvalid, fresh_some]
  constructor
  · intro h
    exact ⟨time, hd, hw ⟨i, hi⟩ hstatic _ hd h⟩
  · rintro ⟨time', hd', h⟩
    obtain rfl : time = time' := by
      rw [hd] at hd'
      exact (Prod.mk.inj (Option.some.inj hd')).2
    exact Nat.le_trans (Nat.mod_le _ _) h

/-- The search of the table finds what the map resolves to, and gives up only entries
that the map does not need. -/
theorem search (hr : Refines entries map now) (hw : Unwrapped entries map now ip) :
    (Arp.search entries ip (BitVec.ofNat 32 now)).1 = map.resolve ip now ∧
      Refines (Arp.search entries ip (BitVec.ofNat 32 now)).2 map now := by
  have hisFor : ∀ k, (entries k).isFor ip = true ↔ entries.has .static ip k ∨
      entries.has .dynamic ip k := by
    intro k
    simp only [Entry.isFor, Table.has, Bool.and_eq_true, decide_eq_true_eq]
    cases (entries k).entryType <;> simp
  unfold Arp.search
  cases hfind : (List.finRange c).reverse.find? fun i => (entries i).isFor ip with
  | none =>
    have hno : ∀ k, ¬ (entries.has .static ip k ∨ entries.has .dynamic ip k) := by
      intro k hk
      have hk' := (hisFor k).mpr hk
      rw [find?_reverse_none.mp hfind k] at hk'
      cases hk'
    have hstatic : map.static ip = none := by
      refine Option.eq_none_iff_forall_ne_some.mpr fun mac hmac => ?_
      obtain ⟨k, hk⟩ := hr.staticHeld ip mac hmac
      exact hno k (.inl hk)
    have hfresh : map.fresh ip now = none := by
      refine Option.eq_none_iff_forall_ne_some.mpr fun mac hmac => ?_
      obtain ⟨k, hk⟩ := hr.dynamicHeld ip mac hmac
      exact hno k hk.symm
    refine ⟨?_, hr⟩
    rw [AddressMap.resolve, hstatic, hfresh]
    rfl
  | some i =>
    obtain ⟨hi, hlast⟩ := find?_last.mp hfind
    dsimp only
    rcases (hisFor i).mp hi with hs | hd
    · have hvalid : (entries i).isValid (BitVec.ofNat 32 now) = true := by
        simp [Entry.isValid, hs.1]
      rw [if_pos hvalid, AddressMap.resolve, hr.static ip i hs]
      exact ⟨rfl, hr⟩
    · have hstatic : map.static ip = none := by
        refine Option.eq_none_iff_forall_ne_some.mpr fun mac hmac => ?_
        obtain ⟨k, hk⟩ := hr.staticHeld ip mac hmac
        have hk' := (hisFor k).mpr (.inl hk)
        rw [hlast k (hr.above ip k i hk hd)] at hk'
        cases hk'
      have hvalid := hr.isValid_dynamic hw hstatic hd
      by_cases hv : (entries i).isValid (BitVec.ofNat 32 now) = true
      · rw [if_pos hv, AddressMap.resolve, hstatic, hvalid.mp hv]
        exact ⟨rfl, hr⟩
      · have hfresh : map.fresh ip now = none := by
          refine Option.eq_none_iff_forall_ne_some.mpr fun mac hmac => hv (hvalid.mpr ?_)
          obtain ⟨time, hdyn, -⟩ := fresh_some.mp hmac
          obtain ⟨time', -, hdyn', -⟩ := hr.dynamic ip i hd
          obtain ⟨rfl, -⟩ := Prod.mk.inj (Option.some.inj (hdyn.symm.trans hdyn'))
          exact hmac
        rw [if_neg hv, AddressMap.resolve, hstatic, hfresh]
        exact ⟨rfl, hr.clear (by decide : EntryType.dynamic ≠ .unused) hd rfl rfl rfl
          fun mac hmac => by
          rw [hfresh] at hmac
          cases hmac⟩

end Refines

/-- A received frame changes the table by the addition it makes. -/
theorem rxFrame_entries (m : Module c n) (netIf : NetIf) (p : Packet) (link : Link)
    (now : BitVec 32) :
    (rxFrame m netIf p link now).module.entries =
      if learnsRequest netIf p link || (rxFrame m netIf p link now).calls ≠ [] then
        (Arp.addEntry m.entries .dynamic (decode p).senderHwAddress
          (decode p).senderProtoAddress now).2
      else m.entries := by
  unfold rxFrame
  by_cases hc : p.count < packetSizeIpv4
  · have hl : learnsRequest netIf p link = false := by simp [learnsRequest, BitVec.not_le.mpr hc]
    simp [hc, hl]
  · rw [if_neg hc]
    dsimp only
    by_cases hv : (decode p).isValid = true
    · rw [if_pos hv]
      by_cases hreq : (decode p).operation = opRequest
      · rw [if_pos hreq]
        unfold handleRequest
        by_cases ht : netIf.ipv4Address = (decode p).targetProtoAddress
        · rw [if_pos ht]
          cases ha : link.alloc with
          | error e => simp [learnsRequest, ha, Except.isOk, Except.toBool]
          | ok q =>
            have hl : learnsRequest netIf p link = true := by
              simp [learnsRequest, BitVec.not_lt.mp hc, hv, hreq, ht, ha, Except.isOk,
                Except.toBool]
            rw [hl]
            dsimp only
            split <;> rfl
        · have hl : learnsRequest netIf p link = false := by simp [learnsRequest, ht]
          simp [ht, hl]
      · rw [if_neg hreq]
        have hl : learnsRequest netIf p link = false := by simp [learnsRequest, hreq]
        by_cases hresp : (decode p).operation = opResponse
        · rw [if_pos hresp, hl, Bool.false_or]
          simpa using handleResponse_entries m netIf now (decode p)
        · simp [hresp, hl]
    · have hl : learnsRequest netIf p link = false := by simp [learnsRequest, hv]
      simp [hv, hl]

section Step

variable {x y : Node c n} {map : AddressMap} {i : Input c n}

theorem Refines.added {entries : Table c} {now : Nat} (hr : Refines entries map now)
    {type : EntryType} {ip : Ipv4Address} (ht : type ≠ .unused) (ho : ¬ Overflows entries type ip)
    (hk : KeepsOrder entries type ip) (mac : MacAddress) :
    Refines (Arp.addEntry entries type mac ip (BitVec.ofNat 32 now)).2
      (if ip ≠ 0#32 then map.add type mac ip now else map) now := by
  split_ifs with hip
  · exact hr.addEntry ht ho hk hip mac
  · obtain rfl := not_not.mp hip
    exact hr

/-- Each step in bounds and in order keeps the table standing for the map. -/
theorem step_refines (hr : Refines x.module.entries map x.time) (hb : InBounds x i) (ho : InOrder (x, map) i)
    (hs : step x i = some y) : Refines y.module.entries (map.see x i y) y.time := by
  cases i with
  | addEntry type mac ip =>
    rw [step] at hs
    split_ifs at hs with ht
    obtain rfl := Option.some.inj hs
    exact hr.added ht (hb _ rfl) (ho.1 _ rfl) mac
  | removeEntry ip =>
    obtain rfl := Option.some.inj hs
    exact hr.removeEntry ho.2
  | request netIf r ip link =>
    obtain rfl := Option.some.inj hs
    dsimp only
    rw [request_entries]
    exact (hr.search ho.2).2.later (Nat.le_add_right _ _)
  | cancelRequest r =>
    obtain rfl := Option.some.inj hs
    dsimp only
    rwa [cancelRequest_entries]
  | rxFrame netIf p link =>
    obtain rfl := Option.some.inj hs
    refine Refines.later ?_ (Nat.le_add_right x.time link.elapsed)
    have hadd : addition x (.rxFrame netIf p link) =
        if learnsRequest netIf p link || (rxFrame x.module netIf p link x.msCounter).calls ≠ [] then
          some (.dynamic, (decode p).senderHwAddress, (decode p).senderProtoAddress)
        else none := rfl
    rw [rxFrame_entries]
    unfold AddressMap.see
    dsimp only
    split_ifs at hadd ⊢ with hl
    · rw [hadd]
      exact hr.added (by decide : EntryType.dynamic ≠ .unused) (hb _ hadd) (ho.1 _ hadd) _
    · rw [hadd]
      exact hr
  | periodicTask =>
    obtain rfl := Option.some.inj hs
    dsimp only
    rwa [periodicTask_entries]
  | elapse ms =>
    obtain rfl := Option.some.inj hs
    exact hr.later (Nat.le_add_right _ _)

end Step

/-- The answer the map wants: the address it resolves to, or a broadcast request if a
packet for it can be allocated. -/
def AnswersLike (map : AddressMap) (x : Node c n) (netIf : NetIf) (r : Fin n) (ip : Ipv4Address) (link : Link) :
    Prop :=
  let requested := request x.module netIf r ip link x.msCounter
  match map.resolve ip x.time with
  | some mac => requested.answer = .resolved mac
  | none => (∀ mac, requested.answer ≠ .resolved mac) ∧
      ∀ p, link.alloc = .ok p →
        requested.handed = some (sentPacket netIf (requestHeader netIf) (requestFrame netIf ip) p)

theorem answersLike_of_search {map : AddressMap} {x : Node c n} {ip : Ipv4Address}
    (h : (search x.module.entries ip x.msCounter).1 = map.resolve ip x.time) (netIf : NetIf)
    (r : Fin n) (link : Link) : AnswersLike map x netIf r ip link := by
  unfold AnswersLike
  rw [← h]
  unfold request
  rcases search x.module.entries ip x.msCounter with ⟨_ | mac, entries⟩
  · dsimp only
    cases link.alloc with
    | error e => exact ⟨nofun, nofun⟩
    | ok p =>
      dsimp only
      cases link.driver with
      | ok u => exact ⟨nofun, fun q hq => by rw [Except.ok.inj hq]⟩
      | error e => exact ⟨nofun, fun q hq => by rw [Except.ok.inj hq]⟩
  · rfl

/-- In every run without overflows whose steps are in order, every lookup answers like
the map. -/
theorem lookup_answers_like (time : Nat) {z : Node c n × AddressMap}
    (hr : Lib.Reach (Lib.observe step AddressMap.see) (fun z i => InBounds z.1 i ∧ InOrder z i)
      (⟨Module.init c n, time⟩, AddressMap.empty) z) {netIf : NetIf} {r : Fin n} {ip : Ipv4Address}
    {link : Link} (ho : InOrder z (.request netIf r ip link)) :
    AnswersLike z.2 z.1 netIf r ip link := by
  have hinv : Refines z.1.module.entries z.2 z.1.time := by
    refine hr.invariant (I := fun z => Refines z.1.module.entries z.2 z.1.time) (refines_empty time)
      fun z i z' hi hok hs => ?_
    obtain ⟨hs', hsee⟩ := Lib.observe_some.mp hs
    rw [hsee]
    exact step_refines hi hok.1 hok.2 hs'
  exact answersLike_of_search (hinv.search ho.2).1 netIf r link

/-- A received frame, as the packet object behind its Ethernet header. -/
def receivedPacket (frame : Frame) : Packet :=
  { writeFrame ⟨fun _ => 0#8, 0, 60#16, 0#16, 0#32, none⟩ frame with current := 0, count := 46#16 }

/-- An interface 192.168.1.1, a request it receives from another node, and a link on
which everything works. -/
def sampleNetIf : NetIf := ⟨Vector.replicate 6 1#8, 0xC0A80101#32, 0#32⟩
def sampleMac (b : Byte) : MacAddress := Vector.replicate 6 b
def sampleLink : Link := ⟨.ok ⟨fun _ => 0#8, 0, 0#16, 0#16, 0#32, none⟩, .ok (), 1⟩
def requestFrom (ipv4Address : Ipv4Address) (mac : MacAddress) : Packet :=
  receivedPacket (requestFrame ⟨mac, ipv4Address, 0#32⟩ sampleNetIf.ipv4Address)

/-- A static entry, then a request received from another address: both addresses
resolve, and for a third one a request is sent. -/
theorem lookup_answers_like_sample : ∃ z : Node 2 1 × AddressMap,
    z.2.resolve 0xC0A80102#32 z.1.time = some (sampleMac 2) ∧
    z.2.resolve 0xC0A80103#32 z.1.time = some (sampleMac 3) ∧
    z.2.resolve 0xC0A80104#32 z.1.time = none ∧
    AnswersLike z.2 z.1 sampleNetIf 0 0xC0A80102#32 sampleLink ∧
    AnswersLike z.2 z.1 sampleNetIf 0 0xC0A80103#32 sampleLink ∧
    AnswersLike z.2 z.1 sampleNetIf 0 0xC0A80104#32 sampleLink := by
  obtain ⟨z, hr, hz⟩ := Lib.exists_of_runInputs (Lib.observe step AddressMap.see)
    (fun z i => InBounds z.1 i ∧ InOrder z i) (⟨Module.init 2 1, 7⟩, AddressMap.empty)
    [.addEntry .static (sampleMac 2) 0xC0A80102#32, .elapse 100,
      .rxFrame sampleNetIf (requestFrom 0xC0A80103#32 (sampleMac 3)) sampleLink, .elapse 1000]
    (fun z => z.2.resolve 0xC0A80102#32 z.1.time = some (sampleMac 2) ∧
      z.2.resolve 0xC0A80103#32 z.1.time = some (sampleMac 3) ∧ z.2.resolve 0xC0A80104#32 z.1.time =
        none ∧
      InOrder z (.request sampleNetIf 0 0xC0A80102#32 sampleLink) ∧
      InOrder z (.request sampleNetIf 0 0xC0A80103#32 sampleLink) ∧
      InOrder z (.request sampleNetIf 0 0xC0A80104#32 sampleLink)) (by decide)
  obtain ⟨h₁, h₂, h₃, ho₁, ho₂, ho₃⟩ := of_decide_eq_true hz
  exact ⟨z, h₁, h₂, h₃, lookup_answers_like 7 hr ho₁, lookup_answers_like 7 hr ho₂,
    lookup_answers_like 7 hr ho₃⟩

/-- A static entry replaced after its address has also been learned: the lookup still
finds the old one. -/
theorem stale_static_found :
    ¬ ∀ (c n : Nat) (time : Nat) (z : Node c n × AddressMap) (netIf : NetIf) (r : Fin n)
    (ip : Ipv4Address) (link : Link),
    Lib.Reach (Lib.observe step AddressMap.see) (fun z i => InBounds z.1 i)
      (⟨Module.init c n, time⟩, AddressMap.empty) z → AnswersLike z.2 z.1 netIf r ip link := by
  intro hall
  obtain ⟨z, hr, hz⟩ := Lib.exists_of_runInputs
    (Lib.observe step AddressMap.see) (fun z i => InBounds z.1 i)
    (⟨Module.init 10 1, 7⟩, AddressMap.empty)
    [.addEntry .static (sampleMac 2) 0xC0A80102#32,
      .rxFrame sampleNetIf (requestFrom 0xC0A80102#32 (sampleMac 2)) sampleLink,
      .addEntry .static (sampleMac 3) 0xC0A80102#32]
    (fun z => z.2.resolve 0xC0A80102#32 z.1.time = some (sampleMac 3) ∧
      (search z.1.module.entries 0xC0A80102#32 z.1.msCounter).1 = some (sampleMac 2)) (by decide)
  obtain ⟨hmap, hfound⟩ := of_decide_eq_true hz
  have hno := hall 10 1 7 z sampleNetIf 0 0xC0A80102#32 sampleLink hr
  unfold AnswersLike request at hno
  rw [hmap] at hno
  generalize hs : search z.1.module.entries 0xC0A80102#32 z.1.msCounter = found at hno hfound
  obtain ⟨mac, entries⟩ := found
  obtain rfl : mac = some (sampleMac 2) := hfound
  exact absurd (ArpAnswer.resolved.inj hno) (by decide)

end NanoIp.Arp
