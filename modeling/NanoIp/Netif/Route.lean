import NanoIp.Core.Types
import NanoIp.Lib.Slots

/-!
# The route table

`nano_ip_route.c`. A route is deleted by its destination and netmask alone; of several with the
same the first in the table goes, whichever interface it belongs to. A search takes the first
route in the table that leads to the address.
-/
namespace NanoIp.Route

/-- `nano_ip_net_route_t`, for interfaces numbered below `n`. -/
structure Entry (n : Nat) where
  destAddr : Ipv4Address
  netmask : Ipv4Address
  gatewayAddr : Ipv4Address
  netIf : Option (Fin n)
  used : Bool
  deriving DecidableEq

/-- The entry `MEMSET` leaves. -/
def Entry.zero (n : Nat) : Entry n := ⟨0#32, 0#32, 0#32, none, false⟩

/-- `nano_ip_route_module_data_t`, with `NANO_IP_MAX_NET_ROUTE_COUNT = c`. -/
structure Module (n c : Nat) where
  routeTable : Fin c → Entry n
  routeUsedEntriesCount : Nat

variable {n c : Nat}

/-- `NANO_IP_ROUTE_Init`. -/
def Module.init (n c : Nat) : Module n c := ⟨fun _ => Entry.zero n, 0⟩

/-- `NANO_IP_ROUTE_Add`; no caller gives it a `NULL` interface. -/
def add (m : Module n c) (destAddr netmask gatewayAddr : Ipv4Address) (netIf : Fin n) :
    Err × Module n c :=
  if m.routeUsedEntriesCount < c then
    match (List.finRange c).find? fun i => !(m.routeTable i).used with
    | some i =>
      (.success,
        ⟨Function.update m.routeTable i
          ⟨destAddr &&& netmask, netmask, gatewayAddr, some netIf, true⟩,
          m.routeUsedEntriesCount + 1⟩)
    | none => (.resource, m)
  else (.resource, m)

/-- `NANO_IP_ROUTE_Delete`. -/
def delete (m : Module n c) (destAddr netmask : Ipv4Address) : Err × Module n c :=
  match (List.finRange c).find? fun i =>
      (m.routeTable i).used && (m.routeTable i).destAddr = destAddr &&& netmask &&
        (m.routeTable i).netmask = netmask with
  | some i => (.success, ⟨Function.update m.routeTable i (Entry.zero n),
      m.routeUsedEntriesCount - 1⟩)
  | none => (.routeNotFound, m)

/-- `NANO_IP_ROUTE_Search`: gateway and interface of the first entry that fits. -/
def search (m : Module n c) (destAddr : Ipv4Address) : Except Err (Ipv4Address × Option (Fin n)) :=
  match (List.finRange c).find? fun i =>
      (m.routeTable i).used && (m.routeTable i).destAddr =
        destAddr &&& (m.routeTable i).netmask with
  | some i => .ok ((m.routeTable i).gatewayAddr, (m.routeTable i).netIf)
  | none => .error .routeNotFound

/-- What is in an entry in use. -/
structure NetRoute (n : Nat) where
  destAddr : Ipv4Address
  netmask : Ipv4Address
  gatewayAddr : Ipv4Address
  netIf : Option (Fin n)
  deriving DecidableEq

def Entry.route (e : Entry n) : Option (NetRoute n) :=
  if e.used then some ⟨e.destAddr, e.netmask, e.gatewayAddr, e.netIf⟩ else none

def NetRoute.key (r : NetRoute n) : Ipv4Address × Ipv4Address := (r.destAddr, r.netmask)

def Module.routes (m : Module n c) : List (NetRoute n) := Lib.Slots.values Entry.route m.routeTable

/-- The counter of the module counts its routes. -/
def Module.Counted (m : Module n c) : Prop := m.routeUsedEntriesCount = m.routes.length

theorem init_counted (n c : Nat) : (Module.init n c).Counted := by
  have hnone : (Module.init n c).routes = [] := List.filterMap_eq_nil_iff.mpr fun _ _ => rfl
  rw [Module.Counted, hnone]
  rfl

section Operations

variable {m : Module n c} {destAddr netmask gatewayAddr : Ipv4Address} {netIf : Fin n}

theorem delete_routes (m : Module n c) (destAddr netmask : Ipv4Address) :
    (delete m destAddr netmask).2.routes =
      (m.routes.eraseP fun r => r.key = (destAddr &&& netmask, netmask)) ∧
      (m.Counted → (delete m destAddr netmask).2.Counted) := by
  have hfind : (List.finRange c).find? (fun i => (m.routeTable i).used &&
        (m.routeTable i).destAddr = destAddr &&& netmask && (m.routeTable i).netmask = netmask) =
      (List.finRange c).find? fun i => (m.routeTable i).route.any fun r =>
        r.key = (destAddr &&& netmask, netmask) := by
    refine congrArg (List.find? · _) (funext fun i => ?_)
    rw [Entry.route]
    cases (m.routeTable i).used <;> simp [NetRoute.key]
  rw [delete, hfind]
  cases hi : (List.finRange c).find? fun i => (m.routeTable i).route.any fun r =>
      r.key = (destAddr &&& netmask, netmask) with
  | none => exact ⟨(Lib.Slots.values_remove_none hi).symm, id⟩
  | some i =>
    have herase := Lib.Slots.values_remove (e := Entry.zero n) rfl hi
    refine ⟨herase, fun h => ?_⟩
    have hany := List.find?_some hi
    obtain ⟨r, hr, hkey⟩ := (Option.any_eq_true _ _).mp hany
    have hmem : r ∈ m.routes := List.mem_filterMap.mpr ⟨i, List.mem_finRange i, hr⟩
    rw [Module.Counted, Module.routes, herase]
    exact (congrArg (· - 1) h).trans (List.length_eraseP_of_mem hmem hkey).symm

/-- A route is added when there is room for it. -/
theorem add_routes (h : m.Counted) (hroom : m.routes.length < c)
    (destAddr netmask gatewayAddr : Ipv4Address) (netIf : Fin n) :
    (add m destAddr netmask gatewayAddr netIf).1 = .success ∧
      (add m destAddr netmask gatewayAddr netIf).2.Counted ∧
      (add m destAddr netmask gatewayAddr netIf).2.routes.Perm
        (⟨destAddr &&& netmask, netmask, gatewayAddr, some netIf⟩ :: m.routes) := by
  obtain ⟨i₀, hfree⟩ := Lib.Slots.exists_free hroom
  rw [add, if_pos (by rw [h]; exact hroom)]
  cases hi : (List.finRange c).find? fun i => !(m.routeTable i).used with
  | none =>
    have hused := List.find?_eq_none.mp hi i₀ (List.mem_finRange i₀)
    rw [Entry.route, if_pos (by simpa using hused)] at hfree
    cases hfree
  | some i =>
    have hnone : (m.routeTable i).route = none := by
      have hunused := List.find?_some hi
      rw [Entry.route, if_neg (by simpa using hunused)]
    have hperm := Lib.Slots.values_store
      (a := ⟨destAddr &&& netmask, netmask, gatewayAddr, some netIf⟩)
      (e := ⟨destAddr &&& netmask, netmask, gatewayAddr, some netIf, true⟩) hnone rfl
    refine ⟨rfl, ?_, hperm⟩
    rw [Module.Counted, Module.routes, hperm.length_eq, List.length_cons]
    exact congrArg (· + 1) h

theorem add_full (h : m.Counted) (hfull : c ≤ m.routes.length)
    (destAddr netmask gatewayAddr : Ipv4Address) (netIf : Fin n) :
    add m destAddr netmask gatewayAddr netIf = (.resource, m) := by
  rw [add, if_neg]
  rw [h]
  exact Nat.not_lt.mpr hfull

def NetRoute.covers (r : NetRoute n) (destAddr : Ipv4Address) : Bool :=
  r.destAddr = destAddr &&& r.netmask

/-- The search goes through the routes in the order of the table. -/
theorem search_eq (m : Module n c) (destAddr : Ipv4Address) :
    search m destAddr = match m.routes.find? fun r => r.covers destAddr with
      | some r => .ok (r.gatewayAddr, r.netIf)
      | none => .error .routeNotFound := by
  have hfind : (List.finRange c).find? (fun i => (m.routeTable i).used &&
        (m.routeTable i).destAddr = destAddr &&& (m.routeTable i).netmask) =
      (List.finRange c).find? fun i => (m.routeTable i).route.any fun r => r.covers destAddr := by
    refine congrArg (List.find? · _) (funext fun i => ?_)
    rw [Entry.route]
    cases (m.routeTable i).used <;> simp [NetRoute.covers]
  rw [search, hfind, Module.routes, Lib.Slots.find?_values]
  cases hi : (List.finRange c).find? fun i => (m.routeTable i).route.any fun r =>
    r.covers destAddr with
  | none => rfl
  | some i =>
    have hany := List.find?_some hi
    have hused : (m.routeTable i).used = true := by
      cases hu : (m.routeTable i).used with
      | true => rfl
      | false => simp [Entry.route, hu] at hany
    rw [Option.bind_some, Entry.route, if_pos hused]

end Operations

end NanoIp.Route
