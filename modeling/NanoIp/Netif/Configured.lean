import NanoIp.Netif.Route
import NanoIp.Arp.Frame
import NanoIp.Arp.Statics
import NanoIp.Lib.Run

/-!
# Reconfiguring interfaces

`NANO_IP_NET_IFACES_SetIpv4Address` and `NANO_IP_NET_IFACES_SetMacAddress` with the route table
and the ARP table they keep. An observer remembers the default route that should be there. The
tables follow the configurations as long as no call changes an address that was set before: the
entry that is removed from the ARP table is that of the new address.
-/
namespace NanoIp.Ifaces

/-- The fields of `nano_ip_net_if_t` that a configuration sets. -/
structure NetIf where
  macAddress : MacAddress
  ipv4Address : Ipv4Address
  ipv4Netmask : Ipv4Address
  deriving DecidableEq

/-- `net_ifaces_module`, of interface 0 for localhost and `n` others, with `route_module` and the
table of `arp_module`. -/
structure Module (n c a : Nat) where
  netIfs : Fin (n + 1) → NetIf
  route : Route.Module (n + 1) c
  arp : Arp.Table a

variable {n c a : Nat}

/-- `LOCALHOST_INTERFACE_ID`. -/
def localhost (n : Nat) : Fin (n + 1) := ⟨0, Nat.succ_pos n⟩

/-- `0xFFFFFFFFu`, as a netmask and as `IPV4_BROADCAST_ADDRESS`. -/
def hostNetmask : Ipv4Address := 0xFFFFFFFF#32
def broadcastAddress : Ipv4Address := 0xFFFFFFFF#32

/-- After start-up: no interface has an address, and `NANO_IP_IPV4_Init` has added the broadcast
entry at the counter value `now`. -/
def Module.init (n c a : Nat) (now : BitVec 32) : Module n c a where
  netIfs _ := ⟨Arp.nullMacAddress, 0#32, 0#32⟩
  route := Route.Module.init (n + 1) c
  arp := (Arp.addEntry (Arp.Table.empty a) .static Arp.broadcastMacAddress broadcastAddress now).2

/-- The routes that `NANO_IP_NET_IFACES_SetIpv4Address` removes: the localhost route of the
address there was, and `Remove previous routes`. -/
def deleteRoutes (route : Route.Module (n + 1) c) (netIf : NetIf) (gatewayAddress : Ipv4Address) :
    Route.Module (n + 1) c :=
  let route := (Route.delete route netIf.ipv4Address hostNetmask).2
  let route := if netIf.ipv4Address ≠ 0#32 then
      (Route.delete route netIf.ipv4Address netIf.ipv4Netmask).2 else route
  if gatewayAddress ≠ 0#32 then (Route.delete route 0#32 0#32).2 else route

/-- The routes it adds: `Add localhost route` and `Add new routes`. -/
def addRoutes (route : Route.Module (n + 1) c) (netIf : NetIf) (i : Fin (n + 1))
    (gatewayAddress : Ipv4Address) :
    Err × Route.Module (n + 1) c :=
  let route := (Route.add route netIf.ipv4Address hostNetmask 0#32 (localhost n)).2
  let (ret, route) := Route.add route netIf.ipv4Address netIf.ipv4Netmask 0#32 i
  if ret = .success ∧ gatewayAddress ≠ 0#32 then Route.add route 0#32 0#32 gatewayAddress i
  else (ret, route)

/-- `NANO_IP_NET_IFACES_SetIpv4Address` on an interface there is. -/
def setIpv4Address (x : Module n c a) (i : Fin (n + 1))
    (address netmask gatewayAddress : Ipv4Address) (now : BitVec 32) : Err × Module n c a :=
  let arp := (Arp.removeEntry x.arp address).2
  let route := deleteRoutes x.route (x.netIfs i) gatewayAddress
  let netIf := { x.netIfs i with ipv4Address := address, ipv4Netmask := netmask }
  let arp := (Arp.addEntry arp .static netIf.macAddress netIf.ipv4Address now).2
  let (ret, route) := addRoutes route netIf i gatewayAddress
  (ret, ⟨Function.update x.netIfs i netIf, route, arp⟩)

/-- `NANO_IP_NET_IFACES_SetMacAddress` on an interface there is. -/
def setMacAddress (x : Module n c a) (i : Fin (n + 1)) (mac : MacAddress) (now : BitVec 32) :
    Module n c a :=
  let arp := (Arp.removeEntry x.arp (x.netIfs i).ipv4Address).2
  let netIf := { x.netIfs i with macAddress := mac }
  { x with
    netIfs := Function.update x.netIfs i netIf
    arp := (Arp.addEntry arp .static netIf.macAddress netIf.ipv4Address now).2 }

/-- The calls of a run, and what the ARP module learns in between. -/
inductive Input (n : Nat) where
  | setIpv4Address (i : Fin (n + 1)) (address netmask gatewayAddress : Ipv4Address)
      (now : BitVec 32)
  | setMacAddress (i : Fin (n + 1)) (mac : MacAddress) (now : BitVec 32)
  | learn (mac : MacAddress) (ipv4Address : Ipv4Address) (now : BitVec 32)

def step (x : Module n c a) : Input n → Option (Module n c a)
  | .setIpv4Address i address netmask gatewayAddress now =>
    some (setIpv4Address x i address netmask gatewayAddress now).2
  | .setMacAddress i mac now => some (setMacAddress x i mac now)
  | .learn mac ipv4Address now =>
      some { x with arp := (Arp.addEntry x.arp .dynamic mac ipv4Address now).2 }

/-- The interface and the gateway of the latest call with a gateway, as long as the interface keeps
that configuration. -/
abbrev Default (n : Nat) := Option (Fin (n + 1) × Ipv4Address)

def Default.see (default : Default n) (_ : Module n c a) (input : Input n) (_ : Module n c a) :
    Default n :=
  match input with
  | .setIpv4Address i _ _ gatewayAddress _ =>
    if gatewayAddress ≠ 0#32 then some (i, gatewayAddress) else default.filter fun d => d.1 ≠ i
  | _ => default

/-- The routes an interface should have: that of its address to localhost, and that of its subnet.
-/
def NetIf.routes (netIf : NetIf) (i : Fin (n + 1)) : List (Route.NetRoute (n + 1)) :=
  if netIf.ipv4Address = 0#32 then []
  else [⟨netIf.ipv4Address &&& hostNetmask, hostNetmask, 0#32, some (localhost n)⟩,
    ⟨netIf.ipv4Address &&& netIf.ipv4Netmask, netIf.ipv4Netmask, 0#32, some i⟩]

def Default.routes (default : Default n) : List (Route.NetRoute (n + 1)) :=
  default.toList.map fun d => ⟨0#32, 0#32, d.2, some d.1⟩

def NetIf.static (netIf : NetIf) : Option (Ipv4Address × MacAddress) :=
  if netIf.ipv4Address = 0#32 then none else some (netIf.ipv4Address, netIf.macAddress)

def expectedRoutes (netIfs : Fin (n + 1) → NetIf) (default : Default n) :
    List (Route.NetRoute (n + 1)) :=
  (List.finRange (n + 1)).flatMap (fun i => (netIfs i).routes i) ++ default.routes

def expectedStatics (netIfs : Fin (n + 1) → NetIf) : List (Ipv4Address × MacAddress) :=
  (broadcastAddress, Arp.broadcastMacAddress) :: (List.finRange (n + 1)).filterMap fun i =>
    (netIfs i).static

/-- The tables hold exactly what the configurations ask for. -/
structure Consistent (z : Module n c a × Default n) : Prop where
  routes : z.1.route.routes.Perm (expectedRoutes z.1.netIfs z.2)
  statics : (Arp.statics z.1.arp).Perm (expectedStatics z.1.netIfs)

/-- The tables have room for one configuration of each interface. -/
structure Roomy (n c a : Nat) : Prop where
  routes : 2 * (n + 1) + 1 ≤ c
  entries : n + 2 ≤ a

/-- The keys of the routes that a call deletes. -/
def deletedKeys (netIf : NetIf) (gatewayAddress : Ipv4Address) : List (Ipv4Address × Ipv4Address) :=
  (netIf.ipv4Address &&& hostNetmask, hostNetmask) ::
    ((if netIf.ipv4Address ≠ 0#32 then
      [(netIf.ipv4Address &&& netIf.ipv4Netmask, netIf.ipv4Netmask)] else []) ++
      if gatewayAddress ≠ 0#32 then [(0#32, 0#32)] else [])

/-- The routes it is to delete. -/
def dueRoutes (netIf : NetIf) (i : Fin (n + 1)) (default : Default n)
    (gatewayAddress : Ipv4Address) :
    List (Route.NetRoute (n + 1)) :=
  netIf.routes i ++ if gatewayAddress ≠ 0#32 then default.routes else []

/-- The condition on a call: the address is one that only this interface may have had, and it has
had no other; the default route goes only with another one; and for each key that is deleted the
routes to delete come first in the table. -/
structure Orderly (z : Module n c a × Default n) (i : Fin (n + 1))
    (address gatewayAddress : Ipv4Address) :
    Prop where
  nonzero : address ≠ 0#32
  unicast : address ≠ broadcastAddress
  own : ∀ j, j ≠ i → (z.1.netIfs j).ipv4Address ≠ address
  unchanged : (z.1.netIfs i).ipv4Address = 0#32 ∨ (z.1.netIfs i).ipv4Address = address
  replaced : gatewayAddress = 0#32 → ∀ d ∈ z.2, d.1 ≠ i
  first : ∀ k ∈ deletedKeys (z.1.netIfs i) gatewayAddress,
    ((z.1.route.routes.filter fun r => r.key = k).take
      ((deletedKeys (z.1.netIfs i) gatewayAddress).count k)).Perm
      ((dueRoutes (z.1.netIfs i) i z.2 gatewayAddress).filter fun r => r.key = k)

/-- The condition on the steps of a run. -/
def Input.Orderly (z : Module n c a × Default n) : Input n → Prop
  | .setIpv4Address i address _ gatewayAddress _ => Ifaces.Orderly z i address gatewayAddress
  | .setMacAddress _ _ _ | .learn _ _ _ => True

instance (z : Module n c a × Default n) (i : Fin (n + 1)) (address gatewayAddress : Ipv4Address) :
    Decidable (Orderly z i address gatewayAddress) :=
  -- by the lists themselves: an instance found for the bounded quantifiers may run over every
  -- address
  decidable_of_iff (address ≠ 0#32 ∧ address ≠ broadcastAddress ∧
    ((List.finRange (n + 1)).all fun j => j = i ∨ (z.1.netIfs j).ipv4Address ≠ address) = true ∧
    ((z.1.netIfs i).ipv4Address = 0#32 ∨ (z.1.netIfs i).ipv4Address = address) ∧
    (gatewayAddress = 0#32 → (z.2.all fun d => d.1 ≠ i) = true) ∧
    ((deletedKeys (z.1.netIfs i) gatewayAddress).all fun k =>
      ((z.1.route.routes.filter fun r => r.key = k).take
        ((deletedKeys (z.1.netIfs i) gatewayAddress).count k)).Perm
        ((dueRoutes (z.1.netIfs i) i z.2 gatewayAddress).filter fun r => r.key = k)) = true) <| by
    simp only [List.all_eq_true, Option.all_eq_true, decide_eq_true_eq, List.mem_finRange,
      forall_true_left,
      or_iff_not_imp_left]
    exact ⟨fun h => ⟨h.1, h.2.1, h.2.2.1, or_iff_not_imp_left.mpr h.2.2.2.1, h.2.2.2.2.1,
      h.2.2.2.2.2⟩,
      fun h => ⟨h.nonzero, h.unicast, h.own, or_iff_not_imp_left.mp h.unchanged,
        h.replaced, h.first⟩⟩

instance (z : Module n c a × Default n) : ∀ input : Input n, Decidable (input.Orderly z)
  | .setIpv4Address i address _ gatewayAddress _ =>
    inferInstanceAs (Decidable (Ifaces.Orderly z i address gatewayAddress))
  | .setMacAddress _ _ _ | .learn _ _ _ => .isTrue trivial

section Separate

variable {netIfs : Fin (n + 1) → NetIf} {default : Default n} {i : Fin (n + 1)}

/-- The routes and the entries of the interfaces beside `i`. -/
def otherRoutes (netIfs : Fin (n + 1) → NetIf) (i : Fin (n + 1)) : List (Route.NetRoute (n + 1)) :=
  ((List.finRange (n + 1)).erase i).flatMap fun j => (netIfs j).routes j

def otherStatics (netIfs : Fin (n + 1) → NetIf) (i : Fin (n + 1)) :
    List (Ipv4Address × MacAddress) :=
  (broadcastAddress, Arp.broadcastMacAddress) :: ((List.finRange (n + 1)).erase i).filterMap
    fun j => (netIfs j).static

theorem ne_of_mem_others {j : Fin (n + 1)} (hj : j ∈ (List.finRange (n + 1)).erase i) : j ≠ i :=
  ((List.nodup_finRange (n + 1)).mem_erase_iff.mp hj).1

theorem expectedRoutes_separate (netIfs : Fin (n + 1) → NetIf) (default : Default n)
    (i : Fin (n + 1)) :
    (expectedRoutes netIfs default).Perm
      ((netIfs i).routes i ++ (otherRoutes netIfs i ++ default.routes)) := by
  have hperm := (List.perm_cons_erase (List.mem_finRange i)).flatMap_right fun j =>
    (netIfs j).routes j
  rw [List.flatMap_cons] at hperm
  rw [← List.append_assoc]
  exact hperm.append_right _

theorem expectedStatics_separate (netIfs : Fin (n + 1) → NetIf) (i : Fin (n + 1)) :
    (expectedStatics netIfs).Perm ((netIfs i).static.toList ++ otherStatics netIfs i) := by
  have hperm := (List.perm_cons_erase (List.mem_finRange i)).filterMap fun j => (netIfs j).static
  rw [List.filterMap_cons] at hperm
  refine (hperm.cons _).trans ?_
  cases (netIfs i).static with
  | none => exact List.Perm.refl _
  | some entry => exact List.Perm.swap _ _ _

/-- A configuration of `i` leaves the others. -/
theorem otherRoutes_update (netIf : NetIf) :
    otherRoutes (Function.update netIfs i netIf) i = otherRoutes netIfs i := by
  unfold otherRoutes
  refine List.flatMap_congr fun j hj => ?_
  rw [Function.update_of_ne (ne_of_mem_others hj)]

theorem otherStatics_update (netIf : NetIf) :
    otherStatics (Function.update netIfs i netIf) i = otherStatics netIfs i := by
  unfold otherStatics
  refine congrArg (List.cons _) (List.filterMap_congr fun j hj => ?_)
  rw [Function.update_of_ne (ne_of_mem_others hj)]

theorem others_length : ((List.finRange (n + 1)).erase i).length = n := by
  rw [List.length_erase_of_mem (List.mem_finRange i), List.length_finRange, Nat.add_sub_cancel]

theorem routes_length (netIfs : Fin (n + 1) → NetIf) (is : List (Fin (n + 1))) :
    (is.flatMap fun j => (netIfs j).routes j).length ≤ 2 * is.length := by
  induction is with
  | nil => exact Nat.le_refl 0
  | cons j is ih =>
    have hone : ((netIfs j).routes j).length ≤ 2 := by
      unfold NetIf.routes
      split_ifs <;> simp
    rw [List.flatMap_cons, List.length_append, List.length_cons]
    omega

theorem otherRoutes_length (netIfs : Fin (n + 1) → NetIf) (i : Fin (n + 1)) :
    (otherRoutes netIfs i).length ≤ 2 * n := by
  have hle := routes_length netIfs ((List.finRange (n + 1)).erase i)
  rwa [others_length] at hle

theorem otherStatics_length (netIfs : Fin (n + 1) → NetIf) (i : Fin (n + 1)) :
    (otherStatics netIfs i).length ≤ n + 1 := by
  have hle := List.length_filterMap_le (fun j => (netIfs j).static)
    ((List.finRange (n + 1)).erase i)
  rw [others_length] at hle
  exact Nat.succ_le_succ hle

end Separate

section Routes

variable {route : Route.Module (n + 1) c} {netIf : NetIf} {i : Fin (n + 1)}
  {gatewayAddress : Ipv4Address}
  {rest : List (Route.NetRoute (n + 1))}

/-- `m'` is `m` without the first route of each of the keys. -/
structure Deletes (m m' : Route.Module (n + 1) c) (keys : List (Ipv4Address × Ipv4Address)) :
    Prop where
  routes : m'.routes = Lib.Slots.eraseKeys Route.NetRoute.key keys m.routes
  counted : m.Counted → m'.Counted

namespace Deletes

variable {m m' m'' : Route.Module (n + 1) c} {keys keys' : List (Ipv4Address × Ipv4Address)}

theorem delete (m : Route.Module (n + 1) c) (destAddr netmask : Ipv4Address) :
    Deletes m (Route.delete m destAddr netmask).2 [(destAddr &&& netmask, netmask)] :=
  ⟨(Route.delete_routes m destAddr netmask).1, (Route.delete_routes m destAddr netmask).2⟩

theorem append (h : Deletes m m' keys) (h' : Deletes m' m'' keys') :
    Deletes m m'' (keys ++ keys') :=
  ⟨by rw [h'.routes, h.routes, Lib.Slots.eraseKeys_append], fun hm => h'.counted (h.counted hm)⟩

theorem when (h : Deletes m m' keys) (p : Prop) [Decidable p] :
    Deletes m (if p then m' else m) (if p then keys else []) := by
  split_ifs
  · exact h
  · exact ⟨rfl, id⟩

end Deletes

theorem deleteRoutes_deletes (route : Route.Module (n + 1) c) (netIf : NetIf)
    (gatewayAddress : Ipv4Address) :
    Deletes route (deleteRoutes route netIf gatewayAddress) (deletedKeys netIf gatewayAddress) := by
  have h₁ := Deletes.delete route netIf.ipv4Address hostNetmask
  have h₂ := (Deletes.delete (Route.delete route netIf.ipv4Address hostNetmask).2 netIf.ipv4Address
    netIf.ipv4Netmask).when (netIf.ipv4Address ≠ 0#32)
  have h₃ := (Deletes.delete
    (if netIf.ipv4Address ≠ 0#32 then
      (Route.delete (Route.delete route netIf.ipv4Address hostNetmask).2 netIf.ipv4Address
        netIf.ipv4Netmask).2
    else (Route.delete route netIf.ipv4Address hostNetmask).2)
    0#32 0#32).when (gatewayAddress ≠ 0#32)
  exact h₁.append (h₂.append h₃)

/-- A route that is due has a key that is deleted. -/
theorem due_keys {default : Default n} {r : Route.NetRoute (n + 1)}
    (hr : r ∈ dueRoutes netIf i default gatewayAddress) :
    r.key ∈ deletedKeys netIf gatewayAddress := by
  unfold dueRoutes NetIf.routes Default.routes at hr
  unfold deletedKeys
  rcases List.mem_append.mp hr with hr | hr
  · split_ifs at hr with haddress
    · cases hr
    · rw [if_pos haddress]
      rcases List.mem_cons.mp hr with rfl | hr
      · exact List.mem_cons_self
      · obtain rfl := List.mem_singleton.mp hr
        exact List.mem_cons_of_mem _ (List.mem_append_left _ List.mem_cons_self)
  · split_ifs at hr with hgateway
    · obtain ⟨d, -, rfl⟩ := List.mem_map.mp hr
      rw [if_pos hgateway]
      exact List.mem_cons_of_mem _ (List.mem_append_right _ List.mem_cons_self)
    · cases hr

theorem deleteRoutes_due {default : Default n}
    (hroutes : route.routes.Perm (dueRoutes netIf i default gatewayAddress ++ rest))
    (hfirst : ∀ k ∈ deletedKeys netIf gatewayAddress,
      ((route.routes.filter fun r => r.key = k).take
      ((deletedKeys netIf gatewayAddress).count k)).Perm
      ((dueRoutes netIf i default gatewayAddress).filter fun r => r.key = k)) :
    (deleteRoutes route netIf gatewayAddress).routes.Perm rest := by
  rw [(deleteRoutes_deletes route netIf gatewayAddress).routes]
  exact (Lib.Slots.eraseKeys_perm_iff hroutes fun r hr => due_keys hr).mpr hfirst

/-- The routes of a configuration are added where there is room for them. -/
theorem addRoutes_routes (hcounted : route.Counted) (hroom : route.routes.length + 2 ≤ c)
    (hroom' : gatewayAddress ≠ 0#32 → route.routes.length + 3 ≤ c)
    (haddress : netIf.ipv4Address ≠ 0#32) :
    (addRoutes route netIf i gatewayAddress).1 = .success ∧
      (addRoutes route netIf i gatewayAddress).2.Counted ∧
      (addRoutes route netIf i gatewayAddress).2.routes.Perm (netIf.routes i ++
        ((if gatewayAddress ≠ 0#32 then Default.routes (some (i, gatewayAddress)) else []) ++
          route.routes)) := by
  obtain ⟨-, hcounted₁, hperm₁⟩ := Route.add_routes hcounted (by omega) netIf.ipv4Address
    hostNetmask 0#32 (localhost n)
  have hlength₁ := hperm₁.length_eq
  rw [List.length_cons] at hlength₁
  obtain ⟨hret₂, hcounted₂, hperm₂⟩ := Route.add_routes hcounted₁ (by omega) netIf.ipv4Address
    netIf.ipv4Netmask 0#32 i
  have hlength₂ := hperm₂.length_eq
  rw [List.length_cons] at hlength₂
  have hboth := (hperm₂.trans (hperm₁.cons _)).trans (List.Perm.swap _ _ _)
  rw [NetIf.routes, if_neg haddress]
  by_cases hgateway : gatewayAddress ≠ 0#32
  · have hroom₃ := hroom' hgateway
    obtain ⟨hret₃, hcounted₃, hperm₃⟩ :=
      Route.add_routes hcounted₂ (by omega) 0#32 0#32 gatewayAddress i
    have hadd : addRoutes route netIf i gatewayAddress =
      Route.add (Route.add (Route.add route netIf.ipv4Address
        hostNetmask 0#32 (localhost n)).2 netIf.ipv4Address netIf.ipv4Netmask 0#32 i).2 0#32 0#32
          gatewayAddress i := by
      simp only [addRoutes, hret₂, hgateway, ne_eq, not_false_eq_true, and_self, if_true]
    rw [hadd, if_pos hgateway]
    refine ⟨hret₃, hcounted₃, (hperm₃.trans (hboth.cons _)).trans ?_⟩
    exact (@List.perm_middle _ _ [_, _] _).symm
  · have hadd : addRoutes route netIf i gatewayAddress =
      Route.add (Route.add route netIf.ipv4Address
        hostNetmask 0#32 (localhost n)).2 netIf.ipv4Address netIf.ipv4Netmask 0#32 i := by
      simp only [addRoutes, hgateway, and_false, if_false]
    rw [hadd, if_neg hgateway]
    exact ⟨hret₂, hcounted₂, hboth⟩

end Routes

section Statics

variable {netIfs : Fin (n + 1) → NetIf} {arp : Arp.Table a} {i : Fin (n + 1)}
  {address : Ipv4Address}

/-- The only static entry of an address is removed. -/
theorem removeEntry_due (due : Option (Ipv4Address × MacAddress))
    {rest : List (Ipv4Address × MacAddress)}
    (hstatics : (Arp.statics arp).Perm (due.toList ++ rest)) (hdue : ∀ e ∈ due, e.1 = address)
    (hrest : ∀ e ∈ rest, e.1 ≠ address) :
    (Arp.statics (Arp.removeEntry arp address).2).Perm rest := by
  have herase : Arp.statics (Arp.removeEntry arp address).2 =
      Lib.Slots.eraseKeys Prod.fst [address] (Arp.statics arp) :=
        Arp.removeEntry_statics arp address
  rw [herase]
  refine (Lib.Slots.eraseKeys_perm_iff hstatics fun e he => ?_).mpr fun k hk => ?_
  · exact List.mem_singleton.mpr (hdue e (Option.mem_toList.mp he))
  · obtain rfl := List.mem_singleton.mp hk
    have hfilter := hstatics.filter fun e => e.1 = k
    have hnone : (rest.filter fun e => e.1 = k) = [] :=
      List.filter_eq_nil_iff.mpr fun e he => by simpa using hrest e he
    rw [List.filter_append, hnone, List.append_nil] at hfilter
    have hshort : ((Arp.statics arp).filter fun e => e.1 = k).length ≤ 1 := by
      rw [hfilter.length_eq]
      refine (List.length_filter_le _ _).trans ?_
      cases due <;> simp
    rw [List.count_singleton_self, List.take_of_length_le hshort]
    exact hfilter

theorem otherStatics_ne (hown : ∀ j, j ≠ i → (netIfs j).ipv4Address ≠ address)
    (hunicast : address ≠ broadcastAddress) :
    ∀ e ∈ otherStatics netIfs i, e.1 ≠ address := by
  intro e he
  rcases List.mem_cons.mp he with rfl | he
  · exact hunicast.symm
  · obtain ⟨j, hj, hstatic⟩ := List.mem_filterMap.mp he
    rw [NetIf.static] at hstatic
    split_ifs at hstatic
    obtain rfl := Option.some.inj hstatic
    exact hown j (ne_of_mem_others hj)

/-- The entry of an interface is replaced by that of its new configuration. -/
theorem statics_replaced (hstatics : (Arp.statics arp).Perm (expectedStatics netIfs))
    (netIf : NetIf) (haddress : netIf.ipv4Address ≠ 0#32)
    (hunicast : netIf.ipv4Address ≠ broadcastAddress)
    (hown : ∀ j, j ≠ i → (netIfs j).ipv4Address ≠ netIf.ipv4Address)
    (hold : (netIfs i).ipv4Address = 0#32 ∨ (netIfs i).ipv4Address = netIf.ipv4Address)
    (hroom : n + 2 ≤ a) (now : BitVec 32) :
    (Arp.statics (Arp.addEntry (Arp.removeEntry arp netIf.ipv4Address).2 .static netIf.macAddress
      netIf.ipv4Address
      now).2).Perm (expectedStatics (Function.update netIfs i netIf)) := by
  have hne := otherStatics_ne hown hunicast
  have hrest := removeEntry_due (netIfs i).static
    (hstatics.trans (expectedStatics_separate netIfs i))
    (fun e he => ?_) hne
  · have hlength := hrest.length_eq
    have hle := otherStatics_length netIfs i
    have hadd := Arp.addEntry_static netIf.macAddress now haddress
      (fun e he => hne e (hrest.mem_iff.mp he)) (by omega)
    refine (hadd.trans (hrest.cons _)).trans ?_
    have hsplit := expectedStatics_separate (Function.update netIfs i netIf) i
    rw [otherStatics_update, Function.update_self, NetIf.static, if_neg haddress] at hsplit
    exact hsplit.symm
  · rw [NetIf.static] at he
    split_ifs at he with hzero
    · cases he
    · obtain rfl := Option.some.inj he
      exact hold.resolve_left hzero

end Statics

/-- Beside the tables: the counter of the routes is right, and the addresses that are set are
different unicast addresses. -/
structure Kept (z : Module n c a × Default n) : Prop extends Consistent z where
  counted : z.1.route.Counted
  distinct : ∀ i j, j ≠ i → (z.1.netIfs i).ipv4Address ≠ 0#32 → (z.1.netIfs j).ipv4Address ≠
    (z.1.netIfs i).ipv4Address
  unicast : ∀ i, (z.1.netIfs i).ipv4Address ≠ broadcastAddress

section Steps

variable {x : Module n c a} {default : Default n} {i : Fin (n + 1)}

theorem default_see {address gatewayAddress : Ipv4Address}
    (ho : Orderly (x, default) i address gatewayAddress) (netmask : Ipv4Address) (now : BitVec 32)
    (y : Module n c a) :
    (default.see x (.setIpv4Address i address netmask gatewayAddress now) y).routes =
      (if gatewayAddress ≠ 0#32 then Default.routes (some (i, gatewayAddress)) else []) ++
        if gatewayAddress ≠ 0#32 then [] else default.routes := by
  unfold Default.see
  by_cases hgateway : gatewayAddress ≠ 0#32
  · simp [if_pos hgateway]
  · simp only [if_neg hgateway, List.nil_append]
    cases default with
    | none => rfl
    | some d =>
      have hne := ho.replaced (not_not.mp hgateway) d rfl
      simp [Option.filter, hne]

theorem expectedRoutes_due (netIfs : Fin (n + 1) → NetIf) (default : Default n) (i : Fin (n + 1))
    (gatewayAddress : Ipv4Address) : (expectedRoutes netIfs default).Perm
      (dueRoutes (netIfs i) i default gatewayAddress ++
        ((if gatewayAddress ≠ 0#32 then [] else default.routes) ++ otherRoutes netIfs i)) := by
  refine (expectedRoutes_separate netIfs default i).trans ?_
  rw [dueRoutes, List.append_assoc]
  refine List.Perm.append_left _ (List.perm_append_comm.trans ?_)
  split_ifs <;> simp

/-- The route table behind a call in order, whose new configuration is `netIf`. -/
theorem Kept.changeRoutes (hroomy : Roomy n c a) (h : Kept (x, default)) (netIf : NetIf)
    {gatewayAddress : Ipv4Address} (ho : Orderly (x, default) i netIf.ipv4Address gatewayAddress)
    (now : BitVec 32) :
    let added := addRoutes (deleteRoutes x.route (x.netIfs i) gatewayAddress) netIf i gatewayAddress
    added.1 = .success ∧ added.2.Counted ∧
      added.2.routes.Perm (expectedRoutes (Function.update x.netIfs i netIf)
      (default.see x (.setIpv4Address i netIf.ipv4Address netIf.ipv4Netmask gatewayAddress now)
        x)) := by
  have hdeleted : (deleteRoutes x.route (x.netIfs i) gatewayAddress).routes.Perm
      ((if gatewayAddress ≠ 0#32 then [] else default.routes) ++ otherRoutes x.netIfs i) :=
    deleteRoutes_due (h.routes.trans (expectedRoutes_due x.netIfs default i gatewayAddress))
      ho.first
  have hcounted := (deleteRoutes_deletes x.route (x.netIfs i) gatewayAddress).counted h.counted
  have hroom : (deleteRoutes x.route (x.netIfs i) gatewayAddress).routes.length + 2 ≤ c ∧
      (gatewayAddress ≠ 0#32 → (deleteRoutes x.route (x.netIfs i) gatewayAddress).routes.length +
        3 ≤ c) := by
    have hlength := hdeleted.length_eq
    have hothers := otherRoutes_length x.netIfs i
    have hdefault : default.routes.length ≤ 1 := by
      cases default <;> simp [Default.routes]
    have hc := hroomy.routes
    rw [List.length_append] at hlength
    by_cases hgateway : gatewayAddress ≠ 0#32
    · rw [if_pos hgateway, List.length_nil] at hlength
      exact ⟨by omega, fun _ => by omega⟩
    · rw [if_neg hgateway] at hlength
      exact ⟨by omega, fun hg => absurd hg hgateway⟩
  obtain ⟨hret, hcounted', hadded⟩ := addRoutes_routes (i := i) hcounted hroom.1 hroom.2 ho.nonzero
  refine ⟨hret, hcounted', ?_⟩
  have hexpected := expectedRoutes_separate (Function.update x.netIfs i netIf)
    (default.see x (.setIpv4Address i netIf.ipv4Address netIf.ipv4Netmask gatewayAddress now) x) i
  rw [otherRoutes_update, Function.update_self, default_see ho netIf.ipv4Netmask now x] at hexpected
  refine (hadded.trans (List.Perm.append_left _ ?_)).trans hexpected.symm
  refine (List.Perm.append_left _ hdeleted).trans ?_
  rw [← List.append_assoc]
  exact List.perm_append_comm

/-- The addresses behind a call in order. -/
theorem Kept.changeAddress (h : Kept (x, default)) (netIf : NetIf)
    (hunicast : netIf.ipv4Address ≠ broadcastAddress)
    (hown : ∀ j, j ≠ i → (x.netIfs j).ipv4Address ≠ netIf.ipv4Address) :
    (∀ k j, j ≠ k → (Function.update x.netIfs i netIf k).ipv4Address ≠ 0#32 →
        (Function.update x.netIfs i netIf j).ipv4Address ≠
          (Function.update x.netIfs i netIf k).ipv4Address) ∧
      ∀ k, (Function.update x.netIfs i netIf k).ipv4Address ≠ broadcastAddress := by
  refine ⟨fun k j hjk => ?_, fun k => ?_⟩
  · by_cases hk : k = i
    · rw [hk, Function.update_self, Function.update_of_ne (hk ▸ hjk)]
      exact fun _ => hown j (hk ▸ hjk)
    · rw [Function.update_of_ne hk]
      by_cases hj : j = i
      · rw [hj, Function.update_self]
        exact fun _ => (hown k hk).symm
      · rw [Function.update_of_ne hj]
        exact h.distinct k j hjk
  · by_cases hk : k = i
    · rw [hk, Function.update_self]
      exact hunicast
    · rw [Function.update_of_ne hk]
      exact h.unicast k

theorem Kept.setIpv4Address (hroomy : Roomy n c a) (h : Kept (x, default))
    {address gatewayAddress : Ipv4Address} (ho : Orderly (x, default) i address gatewayAddress)
    (netmask : Ipv4Address) (now : BitVec 32) :
    (Ifaces.setIpv4Address x i address netmask gatewayAddress now).1 = .success ∧
      Kept ((Ifaces.setIpv4Address x i address netmask gatewayAddress now).2,
        default.see x (.setIpv4Address i address netmask gatewayAddress now) x) := by
  let netIf : NetIf := { x.netIfs i with ipv4Address := address, ipv4Netmask := netmask }
  obtain ⟨hret, hcounted, hroutes⟩ := h.changeRoutes hroomy netIf ho now
  obtain ⟨hdistinct, hunicast⟩ := h.changeAddress netIf ho.unicast ho.own
  have hstatics := statics_replaced h.statics netIf ho.nonzero ho.unicast ho.own ho.unchanged
    hroomy.entries now
  exact ⟨hret, ⟨hroutes, hstatics⟩, hcounted, hdistinct, hunicast⟩

theorem expectedStatics_nonzero (netIfs : Fin (n + 1) → NetIf) :
    ∀ e ∈ expectedStatics netIfs, e.1 ≠ 0#32 := by
  intro e he
  rcases List.mem_cons.mp he with rfl | he
  · decide
  · obtain ⟨j, -, hstatic⟩ := List.mem_filterMap.mp he
    rw [NetIf.static] at hstatic
    split_ifs at hstatic with hzero
    obtain rfl := Option.some.inj hstatic
    exact hzero

/-- Another MAC address replaces the entry of an interface that has one. -/
theorem Kept.setMacAddress (hroomy : Roomy n c a) (h : Kept (x, default)) (i : Fin (n + 1))
    (mac : MacAddress) (now : BitVec 32) : Kept (Ifaces.setMacAddress x i mac now, default) := by
  let netIf : NetIf := { x.netIfs i with macAddress := mac }
  have hsame : ∀ j, (Function.update x.netIfs i netIf j).ipv4Address = (x.netIfs j).ipv4Address ∧
      (Function.update x.netIfs i netIf j).ipv4Netmask = (x.netIfs j).ipv4Netmask := by
    intro j
    by_cases hj : j = i
    · rw [hj, Function.update_self]
      exact ⟨rfl, rfl⟩
    · rw [Function.update_of_ne hj]
      exact ⟨rfl, rfl⟩
  have hroutes : expectedRoutes (Function.update x.netIfs i netIf) default =
      expectedRoutes x.netIfs default := by
    unfold expectedRoutes NetIf.routes
    simp only [hsame]
  have hstatics : (Arp.statics (Ifaces.setMacAddress x i mac now).arp).Perm
      (expectedStatics (Function.update x.netIfs i netIf)) := by
    by_cases hzero : (x.netIfs i).ipv4Address = 0#32
    · have hremoved : (Arp.statics (Arp.removeEntry x.arp (x.netIfs i).ipv4Address).2).Perm
          (expectedStatics x.netIfs) :=
        removeEntry_due none h.statics nofun (hzero ▸ expectedStatics_nonzero x.netIfs)
      have hadd : (Ifaces.setMacAddress x i mac now).arp =
          (Arp.removeEntry x.arp (x.netIfs i).ipv4Address).2 := by
        simp [Ifaces.setMacAddress, Arp.addEntry, hzero]
      rw [hadd]
      refine hremoved.trans (List.Perm.of_eq
        (congrArg (List.cons _) (List.filterMap_congr fun j _ => ?_)))
      by_cases hj : j = i
      · rw [hj, Function.update_self, NetIf.static, NetIf.static, if_pos hzero, if_pos hzero]
      · rw [Function.update_of_ne hj]
    · exact statics_replaced h.statics netIf hzero (h.unicast i)
        (fun j hj => h.distinct i j hj hzero)
        (.inr rfl) hroomy.entries now
  refine ⟨⟨?_, hstatics⟩, h.counted, fun k j hjk => ?_, fun k => ?_⟩
  · change x.route.routes.Perm (expectedRoutes (Function.update x.netIfs i netIf) default)
    rw [hroutes]
    exact h.routes
  · change (Function.update x.netIfs i netIf k).ipv4Address ≠ 0#32 →
      (Function.update x.netIfs i netIf j).ipv4Address ≠
        (Function.update x.netIfs i netIf k).ipv4Address
    rw [(hsame k).1, (hsame j).1]
    exact h.distinct k j hjk
  · change (Function.update x.netIfs i netIf k).ipv4Address ≠ broadcastAddress
    rw [(hsame k).1]
    exact h.unicast k

theorem Kept.learn (h : Kept (x, default)) (mac : MacAddress) (ipv4Address : Ipv4Address)
    (now : BitVec 32) :
    Kept ({ x with arp := (Arp.addEntry x.arp .dynamic mac ipv4Address now).2 }, default) := by
  refine ⟨⟨h.routes, ?_⟩, h.counted, h.distinct, h.unicast⟩
  change (Arp.statics (Arp.addEntry x.arp .dynamic mac ipv4Address now).2).Perm _
  rw [Arp.addEntry_dynamic]
  exact h.statics

/-- The tables after start-up. -/
theorem kept_init (hroomy : Roomy n c a) (now : BitVec 32) :
    Kept (Module.init n c a now, none) := by
  have hunset : expectedRoutes (Module.init n c a now).netIfs none = [] ∧
      expectedStatics (Module.init n c a now).netIfs =
        [(broadcastAddress, Arp.broadcastMacAddress)] := by
    have hstatic : ∀ i, ((Module.init n c a now).netIfs i).static = none := fun i => rfl
    refine ⟨?_, ?_⟩
    · simp [expectedRoutes, Module.init, NetIf.routes, Default.routes]
    · simp only [expectedStatics, hstatic, List.filterMap_none]
  have hempty : Arp.statics (Arp.Table.empty a) = [] := List.filterMap_eq_nil_iff.mpr fun _ _ => rfl
  have hroom : (Arp.statics (Arp.Table.empty a)).length < a := by
    rw [hempty]
    exact Nat.lt_of_lt_of_le (Nat.succ_pos _) hroomy.entries
  have hadd : (Arp.statics (Arp.addEntry (Arp.Table.empty a) .static Arp.broadcastMacAddress
    broadcastAddress
      now).2).Perm ((broadcastAddress, Arp.broadcastMacAddress) ::
        Arp.statics (Arp.Table.empty a)) :=
    Arp.addEntry_static Arp.broadcastMacAddress now (by decide) (by simp [hempty]) hroom
  refine ⟨⟨?_, ?_⟩, Route.init_counted _ _, fun i j _ hi => absurd rfl hi, fun i hi => ?_⟩
  · rw [hunset.1]
    exact List.Perm.of_eq (List.filterMap_eq_nil_iff.mpr fun _ _ => rfl)
  · rw [hunset.2]
    rw [hempty] at hadd
    exact hadd
  · have hne : (0#32 : Ipv4Address) ≠ broadcastAddress := by decide
    exact hne hi

/-- Each step in order keeps the tables. -/
theorem kept_step (hroomy : Roomy n c a) {z z' : Module n c a × Default n} {input : Input n}
    (h : Kept z) (ho : input.Orderly z) (hs : Lib.observe step Default.see z input = some z') :
    Kept z' := by
  obtain ⟨x, default⟩ := z
  obtain ⟨y, default'⟩ := z'
  obtain ⟨hstep, hsee⟩ := Lib.observe_some.mp hs
  dsimp only at hstep hsee
  subst hsee
  cases input with
  | setIpv4Address i address netmask gatewayAddress now =>
    obtain rfl := Option.some.inj hstep
    exact (h.setIpv4Address hroomy ho netmask now).2
  | setMacAddress i mac now =>
    obtain rfl := Option.some.inj hstep
    exact h.setMacAddress hroomy i mac now
  | learn mac ipv4Address now =>
    obtain rfl := Option.some.inj hstep
    exact h.learn mac ipv4Address now

end Steps

/-- In every run whose calls are in order the tables hold exactly what the configurations ask for,
and no call in order finds a table full. -/
theorem reconfigured_consistent (hroomy : Roomy n c a) (start : BitVec 32)
    {z : Module n c a × Default n}
    (hreach : Lib.Reach (Lib.observe step Default.see) (fun z input => input.Orderly z)
      (Module.init n c a start, none) z) :
    Consistent z ∧ ∀ i address netmask gatewayAddress now, Orderly z i address gatewayAddress →
      (setIpv4Address z.1 i address netmask gatewayAddress now).1 = .success := by
  have hkept := hreach.invariant (kept_init hroomy start) fun _ _ _ h ho hs =>
    kept_step hroomy h ho hs
  exact ⟨hkept.toConsistent, fun i address netmask gatewayAddress now ho =>
    (hkept.setIpv4Address hroomy ho netmask now).1⟩

/-- Localhost and one more interface, that is given a MAC address, an address by DHCP, and the same
address with another gateway. -/
def renewing : List (Input 1) :=
  [.setIpv4Address ⟨0, Nat.zero_lt_two⟩ 0x7F000001#32 0xFF000000#32 0#32 0#32,
    .setMacAddress ⟨1, Nat.one_lt_two⟩ (Vector.replicate 6 2#8) 0#32,
    .setIpv4Address ⟨1, Nat.one_lt_two⟩ 0x0A000001#32 0xFF000000#32 0x0A0000FE#32 0#32,
    .setIpv4Address ⟨1, Nat.one_lt_two⟩ 0x0A000001#32 0xFF000000#32 0x0A0000FD#32 0#32]

theorem reconfigured_consistent_renewed : ∃ z : Module 1 5 3 × Default 1,
    Consistent z ∧ z.2 = some (⟨1, Nat.one_lt_two⟩, 0x0A0000FD#32) := by
  obtain ⟨z, hr, hz⟩ := Lib.exists_of_runInputs (Lib.observe step Default.see)
    (fun z input => input.Orderly z)
    (Module.init 1 5 3 0#32, none) renewing
    (fun z => z.2 = some (⟨1, Nat.one_lt_two⟩, 0x0A0000FD#32)) (by decide +kernel)
  exact ⟨z, (reconfigured_consistent ⟨by decide, by decide⟩ 0#32 hr).1, of_decide_eq_true hz⟩

/-- A change of the address leaves the static entry of the address there was. -/
theorem stale_entry_left : ¬∀ z : Module 1 5 3 × Default 1,
    Lib.Reach (Lib.observe step Default.see) Lib.anyStep (Module.init 1 5 3 0#32, none) z →
      Consistent z := by
  intro hall
  obtain ⟨z, hr, hz⟩ := Lib.exists_of_runInputs (Lib.observe step Default.see) Lib.anyStep
    (Module.init 1 5 3 0#32, none)
    [.setIpv4Address ⟨1, Nat.one_lt_two⟩ 0x0A000001#32 0xFF000000#32 0#32 0#32,
      .setIpv4Address ⟨1, Nat.one_lt_two⟩ 0x0A000002#32 0xFF000000#32 0#32 0#32]
    (fun z => ¬(Arp.statics z.1.arp).Perm (expectedStatics z.1.netIfs)) (by decide +kernel)
  exact of_decide_eq_true hz (hall z hr).statics

end NanoIp.Ifaces
