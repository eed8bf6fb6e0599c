import NanoIp.Udp.Input
import NanoIp.Core.Fragments

/-!
# The destination filter

IPv4 and UDP both compare addresses by a bitwise AND: a destination passes when it
has every bit of the address, whatever else it has. The addresses that pass are
described bit by bit, and with them the datagrams that reach a stranger.
-/
namespace NanoIp.Udp

open Ipv4 (Dispatched destAddressOf protocolOf fragmentOf isForUs isUnfragmented rxMinHeaderSize)

variable {n : Nat} {γ : Type}

/-- Some bit of the address is missing from the destination. -/
def MissesBit (address dest : Ipv4Address) : Prop :=
  ∃ i, address.getLsbD i = true ∧ dest.getLsbD i = false

theorem and_eq_left_iff (address dest : Ipv4Address) :
    address &&& dest = address ↔ ¬ MissesBit address dest := by
  constructor
  · rintro h ⟨i, ha, hd⟩
    have hi := congrArg (BitVec.getLsbD · i) h
    simp only [BitVec.getLsbD_and, ha, hd] at hi
    cases hi
  · intro h
    apply BitVec.eq_of_getLsbD_eq
    intro i _
    rw [BitVec.getLsbD_and]
    cases ha : address.getLsbD i with
    | false => rfl
    | true =>
      cases hd : dest.getLsbD i with
      | true => rfl
      | false => exact absurd ⟨i, ha, hd⟩ h

/-- The limited broadcast address, or the one of the interface's subnet. -/
def IsBroadcast (netIf : NetIf) (netmask dest : Ipv4Address) : Prop :=
  dest = 0xFFFFFFFF#32 ∨ dest = (netIf.ipv4Address &&& netmask) ||| ~~~ netmask

/-- The destinations an interface should take. -/
def IsOurs (netIf : NetIf) (netmask dest : Ipv4Address) : Prop :=
  dest = netIf.ipv4Address ∨ IsBroadcast netIf netmask dest ∨ netIf.ipv4Address = 0#32

/-- The destinations a handle should take on the interface. -/
def IsHandles (netIf : NetIf) (netmask : Ipv4Address) (k : Handle n) (destPort : BitVec 16)
    (dest : Ipv4Address) : Prop :=
  k.port = destPort ∧ (k.ipv4Address = 0#32 ∨ k.ipv4Address = dest ∨ IsBroadcast netIf netmask dest)

/-- Everything but the destination lets the frame pass IPv4. -/
structure PassesIpv4 (protocols : List (Ipv4.Protocol γ)) (netIf : NetIf) (p : Packet) : Prop where
  size : ¬ p.count < rxMinHeaderSize
  fragment : isUnfragmented (fragmentOf p) = true
  checksum : Ipv4.checksumPasses netIf p = true
  registered : ∃ protocol ∈ protocols, protocol.protocol = protocolOf p

/-- The handle has the destination port, and no bit of its address is missing from
the destination. -/
def Takes (k : Handle n) (destPort : BitVec 16) (dest : Ipv4Address) : Prop :=
  k.port = destPort ∧ ¬ MissesBit k.ipv4Address dest

theorem receives_iff (k : Handle n) (destPort : BitVec 16) (dest : Ipv4Address) :
    k.receives destPort dest = true ↔ Takes k destPort dest := by
  rw [Handle.receives, Takes, Bool.and_eq_true, decide_eq_true_eq, decide_eq_true_eq,
    and_eq_left_iff]

theorem dispatched_iff {protocols : List (Ipv4.Protocol γ)} {netIf : NetIf}
    {ethHeader : Ethernet.Header} {p : Packet}
    (hcap : netIf.has netdrvCapIpv4AddressCheck = false) :
    Dispatched protocols netIf ethHeader p ↔
      PassesIpv4 protocols netIf p ∧ ¬ MissesBit netIf.ipv4Address (destAddressOf p) := by
  have hours : isForUs netIf (destAddressOf p) = true ↔
      ¬ MissesBit netIf.ipv4Address (destAddressOf p) := by
    rw [isForUs, hcap, Bool.false_or, decide_eq_true_eq, and_eq_left_iff]
  rw [← hours, Dispatched, Ipv4.rxFrame_eq]
  constructor
  · rintro ⟨r, hr⟩
    split_ifs at hr with hsize hfragment hchecksum hdest
    refine ⟨⟨hsize, hfragment, hchecksum, ?_⟩, hdest⟩
    unfold Ipv4.dispatch at hr
    split at hr
    · next protocol hf =>
      have hfound := List.find?_some hf
      exact ⟨protocol, List.mem_of_find?_eq_some hf, of_decide_eq_true hfound⟩
    · cases hr
  · rintro ⟨hp, hdest⟩
    rw [if_neg hp.size, if_pos hp.fragment, if_pos hp.checksum, if_pos hdest]
    exact Ipv4.dispatch_ok hp.registered _ _

theorem lookup_some_iff {m : Module n} {destPort : BitVec 16} {dest : Ipv4Address} {h : Fin n} :
    lookup m destPort dest = some h ↔ Takes (m.mem h) destPort dest ∧
      ∃ before after, m.bound = before ++ h :: after ∧
        ∀ k ∈ before, ¬ Takes (m.mem k) destPort dest := by
  rw [lookup, List.find?_eq_some_iff_append]
  simp only [receives_iff, Bool.not_eq_eq_eq_not, Bool.not_true, ← Bool.not_eq_true]

/-- IPv4 keeps strangers' datagrams exactly from the interfaces of whose address they
miss a bit, and UDP gives a datagram to the right handle exactly if the first one of
the list that takes it is right. -/
theorem destinationFilter_iff (netIf : NetIf) (hcap : netIf.has netdrvCapIpv4AddressCheck = false)
    (netmask : Ipv4Address) :
    (∀ (protocols : List (Ipv4.Protocol γ)) (ethHeader : Ethernet.Header) (p : Packet),
      (Dispatched protocols netIf ethHeader p → IsOurs netIf netmask (destAddressOf p)) ↔
        (PassesIpv4 protocols netIf p → IsOurs netIf netmask (destAddressOf p) ∨
          MissesBit netIf.ipv4Address (destAddressOf p))) ∧
    ∀ (m : Module n) (header : Ipv4.RxHeader) (p : Packet),
      (∀ d, rxFrame m netIf header p = .ok d →
        IsHandles netIf netmask (m.mem d.handle) d.header.destPort header.destAddress) ↔
        (wellFormed netIf header.toIpv4Header p = true → ∀ before h after, m.bound =
          before ++ h :: after →
          (∀ k ∈ before, ¬ Takes (m.mem k) (destPortOf p) header.destAddress) →
          Takes (m.mem h) (destPortOf p) header.destAddress →
          IsHandles netIf netmask (m.mem h) (destPortOf p) header.destAddress) := by
  constructor
  · intro protocols ethHeader p
    rw [dispatched_iff hcap]
    tauto
  · intro m header p
    constructor
    · intro hall hw before h after hb hno ht
      exact hall _ (rxFrame_ok_iff.mpr
        ⟨hw, h, lookup_some_iff.mpr ⟨ht, before, after, hb, hno⟩, rfl⟩)
    · intro hall d hd
      obtain ⟨hw, h, hl, rfl⟩ := rxFrame_ok_iff.mp hd
      obtain ⟨ht, before, after, hb, hno⟩ := lookup_some_iff.mp hl
      exact hall hw before h after hb hno ht

instance (netIf : NetIf) (netmask dest : Ipv4Address) :
    Decidable (IsBroadcast netIf netmask dest) :=
  inferInstanceAs (Decidable (_ ∨ _))
instance (netIf : NetIf) (netmask dest : Ipv4Address) : Decidable (IsOurs netIf netmask dest) :=
  inferInstanceAs (Decidable (_ ∨ _ ∨ _))
instance (netIf : NetIf) (netmask : Ipv4Address) (k : Handle n) (destPort : BitVec 16)
    (dest : Ipv4Address) :
    Decidable (IsHandles netIf netmask k destPort dest) :=
      inferInstanceAs (Decidable (_ ∧ (_ ∨ _ ∨ _)))

def boundModule :
    Module 1 := ⟨some ⟨0, Nat.one_pos⟩, fun _ =>
      ⟨0xC0A80101#32, 7#16, Ipv4.Handle.init, true, none⟩⟩

def datagramTo (dest : Ipv4Address) : Packet :=
  Ipv4.wireFrame ⟨0xC0A80102#32, dest, protocol⟩ 7#16 0#16 [0, 9, 0, 7, 0, 10, 0, 0, 1, 2]

def headerTo (dest : Ipv4Address) : Ipv4.RxHeader :=
  Ipv4.rxHeaderOf Ipv4.sampleEthHeader (datagramTo dest)

/-- A datagram to 192.168.1.1 is given to the interface of that address and to its
handle; one to 192.168.1.4 misses a bit and is not. -/
theorem destinationFilter_iff_sample :
    (Dispatched [ipv4Protocol boundModule] Ipv4.sampleNetIf Ipv4.sampleEthHeader
      (datagramTo 0xC0A80104#32) →
      IsOurs Ipv4.sampleNetIf 0xFFFFFF00#32 (destAddressOf (datagramTo 0xC0A80104#32))) ∧
    ∀ d, rxFrame boundModule Ipv4.sampleNetIf (headerTo 0xC0A80101#32)
        (Ipv4.behindHeader (datagramTo 0xC0A80101#32)) = .ok d →
      IsHandles Ipv4.sampleNetIf 0xFFFFFF00#32 (boundModule.mem d.handle) d.header.destPort
        (headerTo 0xC0A80101#32).destAddress := by
  obtain ⟨hip, hudp⟩ := destinationFilter_iff (n := 1) (γ := Except Err (Delivery 1))
    Ipv4.sampleNetIf
    (by decide) 0xFFFFFF00#32
  constructor
  · exact (hip _ _ _).mpr fun _ => .inr ⟨0, by decide, by decide⟩
  · refine (hudp boundModule _ _).mpr fun _ before h after _ _ _ => ?_
    have h0 : h = 0 := Subsingleton.elim _ _
    rw [h0]
    decide

/-- A datagram to 192.168.1.3 is given to the interface 192.168.1.1. -/
theorem foreign_unicast_delivered : ¬ ∀ (netIf : NetIf) (netmask : Ipv4Address)
    (ethHeader : Ethernet.Header) (m : Module 1) (header : Ipv4.RxHeader) (p : Packet),
    netIf.has netdrvCapIpv4AddressCheck = false →
    (Dispatched [ipv4Protocol m] netIf ethHeader p → IsOurs netIf netmask (destAddressOf p)) ∧
    ∀ d, rxFrame m netIf header (Ipv4.behindHeader p) = .ok d →
      IsHandles netIf netmask (m.mem d.handle) d.header.destPort header.destAddress := by
  intro hall
  obtain ⟨hip, -⟩ := hall Ipv4.sampleNetIf 0xFFFFFF00#32 Ipv4.sampleEthHeader boundModule
    (headerTo 0xC0A80103#32) (datagramTo 0xC0A80103#32) (by decide)
  refine absurd (hip ((dispatched_iff (by decide)).mpr ⟨?_, ?_⟩)) (by decide)
  · exact ⟨by decide, by decide, by decide, _, List.mem_cons_self, by decide⟩
  · exact (and_eq_left_iff _ _).mp (by decide)

end NanoIp.Udp
