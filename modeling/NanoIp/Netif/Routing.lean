import NanoIp.Netif.Route
import Mathlib.Data.List.Induction

/-!
# Which route a search takes

Over every sequence of additions and deletions: what the table holds is what was added and not
deleted, its counter counts it, and a search takes the first route in the order of the slots.
That is a route with the longest netmask if the routes stand in the order of their netmasks, as
they do when they are added in that order; nothing in the code puts them in it.
-/
namespace NanoIp.Route

variable {n c : Nat}

/-- A call that changes the table. -/
inductive Op (n : Nat) where
  | add (destAddr netmask gatewayAddr : Ipv4Address) (netIf : Fin n)
  | delete (destAddr netmask : Ipv4Address)

def Op.netmask : Op n → Ipv4Address
  | .add _ netmask _ _ => netmask
  | .delete _ netmask => netmask

def Op.isAdd : Op n → Bool
  | .add .. => true
  | .delete .. => false

def Op.apply (m : Module n c) : Op n → Module n c
  | .add destAddr netmask gatewayAddr netIf =>
      (NanoIp.Route.add m destAddr netmask gatewayAddr netIf).2
  | .delete destAddr netmask => (NanoIp.Route.delete m destAddr netmask).2

def run (c : Nat) (ops : List (Op n)) : Module n c := ops.foldl Op.apply (Module.init n c)

theorem run_snoc (ops : List (Op n)) (op : Op n) : run c (ops ++ [op]) = op.apply (run c ops) := by
  rw [run, List.foldl_append]
  rfl

/-- The routes that are added and not deleted after a sequence of calls, in whatever order, for a
table of `c` slots. -/
inductive Current (c : Nat) : List (Op n) → List (NetRoute n) → Prop
  | none : Current c [] []
  | added {ops : List (Op n)} {rs : List (NetRoute n)} {destAddr netmask gatewayAddr : Ipv4Address}
      {netIf : Fin n}
      (h : Current c ops rs) (hroom : rs.length < c) :
      Current c (ops ++ [.add destAddr netmask gatewayAddr netIf])
        (⟨destAddr &&& netmask, netmask, gatewayAddr, some netIf⟩ :: rs)
  | full {ops : List (Op n)} {rs : List (NetRoute n)} {destAddr netmask gatewayAddr : Ipv4Address}
      {netIf : Fin n}
      (h : Current c ops rs) (hfull : c ≤ rs.length) :
      Current c (ops ++ [.add destAddr netmask gatewayAddr netIf]) rs
  | deleted {ops : List (Op n)} {before after : List (NetRoute n)} {r : NetRoute n}
      {destAddr netmask : Ipv4Address}
      (h : Current c ops (before ++ r :: after)) (hkey : r.key = (destAddr &&& netmask, netmask)) :
      Current c (ops ++ [.delete destAddr netmask]) (before ++ after)
  | missing {ops : List (Op n)} {rs : List (NetRoute n)} {destAddr netmask : Ipv4Address}
      (h : Current c ops rs) (hno : ∀ r ∈ rs, r.key ≠ (destAddr &&& netmask, netmask)) :
      Current c (ops ++ [.delete destAddr netmask]) rs
  | perm {ops : List (Op n)} {rs rs' : List (NetRoute n)} (h : Current c ops rs)
      (hp : rs.Perm rs') :
      Current c ops rs'

/-- After every sequence of calls the counter counts the routes, and these are the current ones. -/
theorem run_current (ops : List (Op n)) :
    (run c ops).Counted ∧ Current c ops (run c ops).routes := by
  induction ops using List.reverseRecOn with
  | nil =>
    have hnone : (Module.init n c).routes = [] := List.filterMap_eq_nil_iff.mpr fun _ _ => rfl
    refine ⟨init_counted n c, ?_⟩
    change Current c [] (Module.init n c).routes
    rw [hnone]
    exact .none
  | append_singleton ops op ih =>
    obtain ⟨hcounted, hcurrent⟩ := ih
    rw [run_snoc]
    cases op with
    | add destAddr netmask gatewayAddr netIf =>
      rw [Op.apply]
      by_cases hroom : (run c ops).routes.length < c
      · obtain ⟨-, hcounted', hperm⟩ := add_routes hcounted hroom destAddr netmask gatewayAddr netIf
        exact ⟨hcounted', .perm (.added hcurrent hroom) hperm.symm⟩
      · rw [add_full hcounted (Nat.not_lt.mp hroom)]
        exact ⟨hcounted, .full hcurrent (Nat.not_lt.mp hroom)⟩
    | delete destAddr netmask =>
      obtain ⟨hroutes, hcounted'⟩ := delete_routes (run c ops) destAddr netmask
      refine ⟨hcounted' hcounted, ?_⟩
      rw [Op.apply, hroutes]
      by_cases hsome : ∃ r ∈ (run c ops).routes, r.key = (destAddr &&& netmask, netmask)
      · obtain ⟨r, hr, hkey⟩ := hsome
        obtain ⟨r, before, after, -, hkey, hsplit, herase⟩ :=
          List.exists_of_eraseP (p := fun r => decide (r.key = (destAddr &&& netmask, netmask))) hr
            (decide_eq_true hkey)
        rw [herase]
        rw [hsplit] at hcurrent
        exact .deleted hcurrent (of_decide_eq_true hkey)
      · have hno : ∀ r ∈ (run c ops).routes, r.key ≠ (destAddr &&& netmask, netmask) :=
          fun r hr hkey => hsome ⟨r, hr, hkey⟩
        rw [List.eraseP_of_forall_not fun r hr => by simpa using hno r hr]
        exact .missing hcurrent hno

def prefixLength (netmask : Ipv4Address) : Nat := (List.range 32).countP netmask.getLsbD

/-- Every search finds a route with the longest netmask of those that lead to the address, and
fails only if none does. -/
def LongestPrefix (m : Module n c) : Prop :=
  ∀ destAddr, match search m destAddr with
    | .ok (gatewayAddr, netIf) => ∃ r ∈ m.routes, r.covers destAddr = true ∧
        r.gatewayAddr = gatewayAddr ∧
        r.netIf = netIf ∧ ∀ r' ∈ m.routes, r'.covers destAddr = true → prefixLength r'.netmask ≤
          prefixLength r.netmask
    | .error _ => ∀ r ∈ m.routes, r.covers destAddr = false

/-- No route stands behind one with a shorter netmask. -/
def Descending (m : Module n c) : Prop :=
  m.routes.Pairwise fun r r' => prefixLength r'.netmask ≤ prefixLength r.netmask

/-- In the order of their netmasks the first route that leads to an address is a longest one. -/
theorem Descending.longestPrefix {m : Module n c} (h : Descending m) : LongestPrefix m := by
  intro destAddr
  rw [search_eq]
  cases hr : m.routes.find? fun r => r.covers destAddr with
  | none => exact fun r hmem => by simpa using List.find?_eq_none.mp hr r hmem
  | some r =>
    obtain ⟨hcovers, before, after, hsplit, hbefore⟩ := List.find?_eq_some_iff_append.mp hr
    refine ⟨r, List.mem_of_find?_eq_some hr, hcovers, rfl, rfl, fun r' hmem hcovers' => ?_⟩
    rw [Descending, hsplit, List.pairwise_append, List.pairwise_cons] at h
    rw [hsplit] at hmem
    rcases List.mem_append.mp hmem with hmem | hmem
    · have hno := hbefore r' hmem
      rw [hcovers'] at hno
      cases hno
    · rcases List.mem_cons.mp hmem with rfl | hmem
      · exact Nat.le_refl _
      · exact h.2.1.1 r' hmem

/-- The slots in use come before those that are free. -/
def Packed (m : Module n c) : Prop :=
  ∀ i j : Fin c, i ≤ j → (m.routeTable j).used = true → (m.routeTable i).used = true

/-- Without free slots in between a route is added behind the others. -/
theorem add_packed {m : Module n c} (hpacked : Packed m)
    (destAddr netmask gatewayAddr : Ipv4Address) (netIf : Fin n) :
    Packed (add m destAddr netmask gatewayAddr netIf).2 ∧
      ((add m destAddr netmask gatewayAddr netIf).2.routes = m.routes ∨
        (add m destAddr netmask gatewayAddr netIf).2.routes =
          m.routes ++ [⟨destAddr &&& netmask, netmask, gatewayAddr, some netIf⟩]) := by
  rw [add]
  split_ifs with hcount
  · cases hi : (List.finRange c).find? fun i => !(m.routeTable i).used with
    | none => exact ⟨hpacked, .inl rfl⟩
    | some i =>
      have hunused : (m.routeTable i).used = false := by simpa using List.find?_some hi
      have hafter : ∀ j, i ≤ j → (m.routeTable j).used = false := by
        intro j hj
        by_contra hused
        rw [hpacked i j hj (by simpa using hused)] at hunused
        cases hunused
      have hbefore : ∀ j < i, (m.routeTable j).used = true := by
        intro j hj
        by_contra hused
        obtain ⟨-, as, bs, hsplit, has⟩ := List.find?_eq_some_iff_append.mp hi
        have hsorted := List.pairwise_lt_finRange c
        have hmem := List.mem_finRange j
        rw [hsplit] at hmem hsorted
        rw [List.pairwise_append, List.pairwise_cons] at hsorted
        rcases List.mem_append.mp hmem with hmem | hmem
        · have hused' := has j hmem
          simp [hused] at hused'
        · rcases List.mem_cons.mp hmem with rfl | hmem
          · exact lt_irrefl _ hj
          · exact lt_asymm hj (hsorted.2.1.1 j hmem)
      refine ⟨fun k l hkl hl => ?_, .inr ?_⟩
      · change (Function.update m.routeTable i _ l).used = true at hl
        change (Function.update m.routeTable i _ k).used = true
        by_cases hk : k = i
        · subst hk
          rw [Function.update_self]
        · rw [Function.update_of_ne hk]
          by_cases hli : l = i
          · subst hli
            exact hbefore k (lt_of_le_of_ne hkl hk)
          · rw [Function.update_of_ne hli] at hl
            exact hpacked k l hkl hl
      · refine Lib.Slots.values_append (fun j hj => ?_) rfl
        rw [Entry.route, if_neg (by simpa using hafter j hj)]
  · exact ⟨hpacked, .inl rfl⟩

/-- Routes that are only added, and in the order of their netmasks, stand in that order. -/
theorem run_descending (ops : List (Op n)) (hadd : ∀ op ∈ ops, op.isAdd = true)
    (hops : ops.Pairwise fun op op' => prefixLength op'.netmask ≤ prefixLength op.netmask) :
    Packed (run c ops) ∧ Descending (run c ops) ∧ ∀ r ∈ (run c ops).routes, ∃ op ∈ ops, op.netmask =
      r.netmask := by
  induction ops using List.reverseRecOn with
  | nil =>
    have hnone : (run c ([] : List (Op n))).routes = [] :=
      List.filterMap_eq_nil_iff.mpr fun _ _ => rfl
    refine ⟨fun i j _ hused => (by cases hused), ?_, ?_⟩
    · rw [Descending, hnone]
      exact .nil
    · rw [hnone]
      nofun
  | append_singleton ops op ih =>
    rw [List.pairwise_append] at hops
    obtain ⟨hpacked, hdescending, hfrom⟩ := ih
      (fun o ho => hadd o (List.mem_append_left _ ho)) hops.1
    have hold : ∀ r ∈ (run c ops).routes, ∃ o ∈ ops ++ [op], o.netmask = r.netmask := by
      intro r hr
      obtain ⟨o, ho, hmask⟩ := hfrom r hr
      exact ⟨o, List.mem_append_left _ ho, hmask⟩
    rw [run_snoc]
    cases op with
    | delete destAddr netmask =>
        exact absurd (hadd _ (List.mem_append_right _ List.mem_cons_self)) Bool.false_ne_true
    | add destAddr netmask gatewayAddr netIf =>
      obtain ⟨hpacked', hroutes⟩ := add_packed hpacked destAddr netmask gatewayAddr netIf
      refine ⟨hpacked', ?_⟩
      rw [Op.apply, Descending]
      rcases hroutes with hroutes | hroutes
      · rw [hroutes]
        exact ⟨hdescending, hold⟩
      · rw [hroutes]
        constructor
        · refine List.pairwise_append.mpr
            ⟨hdescending, List.pairwise_singleton _ _, fun r hr r' hr' => ?_⟩
          obtain rfl := List.mem_singleton.mp hr'
          obtain ⟨o, ho, hmask⟩ := hfrom r hr
          rw [← hmask]
          exact hops.2.2 o ho _ List.mem_cons_self
        · intro r hr
          rcases List.mem_append.mp hr with hr | hr
          · exact hold r hr
          · obtain rfl := List.mem_singleton.mp hr
            exact ⟨_, List.mem_append_right _ List.mem_cons_self, rfl⟩

def Module.usedCount (m : Module n c) : Nat :=
  (List.finRange c).countP fun i => (m.routeTable i).used

theorem usedCount_eq (m : Module n c) : m.usedCount = m.routes.length := by
  rw [Module.routes, Lib.Slots.length_values]
  refine List.countP_congr fun i _ => ?_
  rw [Entry.route]
  cases (m.routeTable i).used <;> simp

/-- After every sequence of calls: the table holds the routes that are added and not deleted, the
counter is the number of slots in use, an addition fails only without a free slot, and a search
takes the first route in the order of the slots that leads to the address. It takes a longest one
when the routes stand in the order of their netmasks, so in every table they are only added to in
that order. -/
theorem search_first (ops : List (Op n)) :
    Current c ops (run c ops).routes ∧ (run c ops).routeUsedEntriesCount = (run c ops).usedCount ∧
    (∀ destAddr netmask gatewayAddr netIf, (add (run c ops) destAddr netmask gatewayAddr netIf).1 =
      if (run c ops).usedCount < c then .success else .resource) ∧
    (∀ destAddr, search (run c ops) destAddr =
      match (run c ops).routes.find? fun r => r.covers destAddr with
      | some r => .ok (r.gatewayAddr, r.netIf)
      | none => .error .routeNotFound) ∧
    (Descending (run c ops) → LongestPrefix (run c ops)) ∧
    ((∀ op ∈ ops, op.isAdd = true) →
      (ops.Pairwise fun op op' => prefixLength op'.netmask ≤ prefixLength op.netmask) →
        LongestPrefix (run c ops)) := by
  obtain ⟨hcounted, hcurrent⟩ := run_current (c := c) ops
  refine ⟨hcurrent, hcounted.trans (usedCount_eq _).symm,
    fun destAddr netmask gatewayAddr netIf => ?_,
    search_eq _, Descending.longestPrefix, fun hadd hops =>
      (run_descending ops hadd hops).2.1.longestPrefix⟩
  rw [usedCount_eq]
  split_ifs with hroom
  · exact (add_routes hcounted hroom destAddr netmask gatewayAddr netIf).1
  · rw [add_full hcounted (Nat.not_lt.mp hroom)]

def defaultRoute : Op 2 := .add 0#32 0#32 0xC0A80001#32 ⟨0, Nat.zero_lt_two⟩
def network : Op 2 := .add 0x0A000000#32 0xFF000000#32 0#32 ⟨1, Nat.one_lt_two⟩

theorem search_first_network : LongestPrefix (run 2 [network, defaultRoute]) :=
  (search_first (c := 2) [network, defaultRoute]).2.2.2.2.2 (by decide) (by decide)

/-- The default route is added before the network, and a search for an address of the network
takes it. -/
theorem default_before_network :
    search (run 4 [defaultRoute, network]) 0x0A010203#32 =
      .ok (0xC0A80001#32, some ⟨0, Nat.zero_lt_two⟩) ∧
    ¬ LongestPrefix (run 4 [defaultRoute, network]) := by
  refine ⟨by rfl, fun hlongest => ?_⟩
  obtain ⟨r, hr, -, hgateway, -, hmax⟩ := hlongest 0x0A010203#32
  have hlonger := hmax ⟨0x0A000000#32, 0xFF000000#32, 0#32, some ⟨1, Nat.one_lt_two⟩⟩
    (by decide) (by decide)
  clear hmax
  revert r
  decide

end NanoIp.Route
