import NanoIp.Arp.Exchange
import NanoIp.Lib.Hearsay
import NanoIp.Netif.Configured

/-!
# Address resolution among many nodes

Any number of nodes with several interfaces each share networks that lose, repeat, delay and
reorder frames. Interfaces are configured and requests are made at any time, also while others are
pending, and users add and remove entries. What a node believes, says and reports of an IPv4
address is never made up on the way: some interface was configured so before, or some user has
added it.
-/
namespace NanoIp.Arp.Lan

/-- A node: its interfaces, what their drivers can do, the routes, the ARP module, and the
milliseconds since start. -/
structure Host (n c a m : Nat) where
  netIfs : Fin (n + 1) → Ifaces.NetIf
  capabilities : Fin (n + 1) → BitVec 32
  route : Route.Module (n + 1) c
  arp : Module a m
  time : Nat

variable {n c a m : Nat}

namespace Host

def msCounter (x : Host n c a m) : BitVec 32 := BitVec.ofNat 32 x.time

def netIf (x : Host n c a m) (i : Fin (n + 1)) : NetIf :=
  ⟨(x.netIfs i).macAddress, (x.netIfs i).ipv4Address, x.capabilities i⟩

def ifaces (x : Host n c a m) : Ifaces.Module n c a := ⟨x.netIfs, x.route, x.arp.entries⟩

def configured (x : Host n c a m) (y : Ifaces.Module n c a) : Host n c a m :=
  { x with netIfs := y.netIfs, route := y.route, arp := { x.arp with entries := y.arp } }

/-- After start-up. -/
def init (n c a m : Nat) (capabilities : Fin (n + 1) → BitVec 32) : Host n c a m :=
  configured ⟨fun _ => ⟨nullMacAddress, 0#32, 0#32⟩, capabilities, Route.Module.init (n + 1) c,
    Module.init a m, 0⟩
    (Ifaces.Module.init n c a 0#32)

end Host

/-- What happens at a node. -/
inductive Input (n m : Nat) where
  | setIpv4Address (i : Fin (n + 1)) (address netmask gatewayAddress : Ipv4Address)
  | setMacAddress (i : Fin (n + 1)) (mac : MacAddress)
  | addEntry (type : EntryType) (mac : MacAddress) (ip : Ipv4Address)
  | removeEntry (ip : Ipv4Address)
  | request (i : Fin (n + 1)) (r : Fin m) (ip : Ipv4Address) (link : Link)
  | cancelRequest (r : Fin m)
  | receive (i : Fin (n + 1)) (q : Packet) (link : Link)
  | periodicTask
  | elapse (ms : Nat)

/-- What is seen of it: a configuration or an entry by hand, a frame given to a driver, and an
address that is reported to a request. -/
inductive Said where
  | named (ip : Ipv4Address) (mac : MacAddress)
  | frame (bytes : List Byte)
  | found (ip : Ipv4Address) (mac : MacAddress)
  deriving DecidableEq

def Host.naming (x : Host n c a m) (i : Fin (n + 1)) : Said :=
  .named (x.netIfs i).ipv4Address (x.netIfs i).macAddress

def framesOf (netIf : NetIf) (handed : Option Packet) : List Said :=
  handed.toList.map fun p => .frame (Ethernet.transmit netIf p.frame)

def foundBy (m : Module c n) (r : Fin n) : Said := .found (m.mem r).ipv4Address (m.mem r).macAddress

/-- What a request is answered at once. -/
def foundAtOnce (ip : Ipv4Address) : ArpAnswer → List Said
  | .resolved mac => [.found ip mac]
  | .pending | .failed _ => []

/-- What a received frame leaves of the node, and what is seen of it. -/
def Host.receive (x : Host n c a m) (i : Fin (n + 1)) (q : Packet) (link : Link) :
    Host n c a m × List Said :=
  match Ethernet.rxFrame [ethernetProtocol x.arp link x.msCounter] (x.netIf i) q with
  | .ok received =>
    ({ x with arp := received.module, time := x.time + link.elapsed },
      framesOf (x.netIf i) received.handed ++ received.calls.map (foundBy received.module))
  | .error _ => (x, [])

def Host.act (x : Host n c a m) : Input n m → Option (Host n c a m × List Said)
  | .setIpv4Address i address netmask gatewayAddress =>
    let x := x.configured (Ifaces.setIpv4Address x.ifaces i address netmask gatewayAddress
      x.msCounter).2
    some (x, [x.naming i])
  | .setMacAddress i mac =>
    let x := x.configured (Ifaces.setMacAddress x.ifaces i mac x.msCounter)
    some (x, [x.naming i])
  | .addEntry type mac ip =>
    if type = .unused then none
    else some ({ x with arp := x.arp.addEntry type mac ip x.msCounter }, [.named ip mac])
  | .removeEntry ip => some
      ({ x with arp := { x.arp with entries := (removeEntry x.arp.entries ip).2 } }, [])
  | .request i r ip link =>
    let requested := Arp.request x.arp (x.netIf i) r ip link x.msCounter
    some ({ x with arp := requested.module, time := x.time + link.elapsed },
      framesOf (x.netIf i) requested.handed ++ foundAtOnce ip requested.answer)
  | .cancelRequest r => some ({ x with arp := (cancelRequest x.arp r).1 }, [])
  | .receive i q link => some (x.receive i q link)
  | .periodicTask => some ({ x with arp := (periodicTask x.arp x.msCounter).1 }, [])
  | .elapse ms => some ({ x with time := x.time + ms }, [])

/-- The nodes, and all that was said. -/
abbrev Network (κ : Type) (n c a m : Nat) := Lib.Hearsay κ (Host n c a m) Said

/-- An interface hears a frame that was sent at any time, or one of another protocol, or one damaged
so that the check sequence shows it. -/
def Hears (said : List Said) (netIf : NetIf) (q : Packet) : Prop :=
  (∃ bytes, .frame bytes ∈ said ∧ Ethernet.Received bytes q) ∨
    (Ethernet.headerOf q).etherType ≠ arpProtocol ∨ Ethernet.crcPasses netIf q = false

def Hearing {κ : Type} (x : Network κ n c a m) : κ × Input n m → Prop
  | (k, .receive i q _) => Hears x.said ((x.party k).netIf i) q
  | _ => True

section Table

variable {entries : Table a} {N : Ipv4Address → MacAddress → Prop} {now : BitVec 32}

/-- The entries in use all are of a kind. -/
def Names (N : Ipv4Address → MacAddress → Prop) (entries : Table a) : Prop :=
  ∀ i, (entries i).entryType ≠ .unused → N (entries i).ipv4Address (entries i).macAddress

theorem Names.addEntry (h : Names N entries) {type : EntryType} {mac : MacAddress}
    {ip : Ipv4Address} (hn : ip ≠ 0#32 → N ip mac) :
    Names N (Arp.addEntry entries type mac ip now).2 := by
  unfold Arp.addEntry
  split_ifs with hip
  · split
    · next i _ =>
      intro j hj
      by_cases hji : j = i
      · subst hji
        simp only [Function.update_self]
        exact hn hip
      · simp only [Function.update_of_ne hji] at hj ⊢
        exact h j hj
    · exact h
  · exact h

theorem Names.removeEntry (h : Names N entries) (ip : Ipv4Address) :
    Names N (Arp.removeEntry entries ip).2 := by
  unfold Arp.removeEntry
  split
  · next i _ =>
    intro j hj
    by_cases hji : j = i
    · subst hji
      simp only [Function.update_self] at hj
      exact absurd rfl hj
    · simp only [Function.update_of_ne hji] at hj ⊢
      exact h j hj
  · exact h

theorem Names.search (h : Names N entries) (ip : Ipv4Address) :
    Names N (Arp.search entries ip now).2 := by
  intro j hj
  rcases search_entries entries ip now j with hsame | hunused
  · rw [hsame] at hj ⊢
    exact h j hj
  · exact absurd hunused hj

theorem Names.found (h : Names N entries) {ip : Ipv4Address} {mac : MacAddress}
    (hs : (Arp.search entries ip now).1 = some mac) : N ip mac := by
  unfold Arp.search at hs
  split at hs
  · next i hi =>
    have hfor : (entries i).isFor ip = true := by simpa using List.find?_some hi
    simp only [Entry.isFor, ne_eq, Bool.and_eq_true, decide_eq_true_eq, decide_not,
      Bool.not_eq_true',
      decide_eq_false_iff_not] at hfor
    split_ifs at hs
    obtain rfl := Option.some.inj hs
    have hi := h i hfor.1
    rwa [hfor.2] at hi
  · cases hs

end Table

section Module

variable {x : Module c n} {N : Ipv4Address → MacAddress → Prop} {netIf : NetIf} {link : Link}
  {now : BitVec 32}

theorem request_found {r : Fin n} {ip : Ipv4Address} {mac : MacAddress} (h : Names N x.entries)
    (hanswer : (request x netIf r ip link now).answer = .resolved mac) : N ip mac := by
  unfold request at hanswer
  split at hanswer
  · next hs =>
    obtain rfl := ArpAnswer.resolved.inj hanswer
    exact h.found (congrArg Prod.fst hs)
  · split at hanswer
    · cases hanswer
    · dsimp only at hanswer
      split at hanswer <;> cases hanswer

theorem request_handed {r : Fin n} {ip : Ipv4Address} {p : Packet}
    (h : (request x netIf r ip link now).handed = some p) :
    ∃ p', p = sentPacket netIf (requestHeader netIf) (requestFrame netIf ip) p' := by
  unfold request at h
  split at h
  · cases h
  · split at h
    · cases h
    · dsimp only at h
      split at h
      · exact ⟨_, (Option.some.inj h).symm⟩
      · exact ⟨_, (Option.some.inj h).symm⟩

/-- Every request that a response calls back has been given its sender. -/
theorem handleResponse_found (response : Frame) : ∀ r ∈ (handleResponse x netIf response now).calls,
    foundBy (handleResponse x netIf response now).module r =
      .found response.senderProtoAddress response.senderHwAddress := by
  unfold handleResponse
  split_ifs
  · refine Lib.sweep_selected (fun (m : Module c n) r => (m.mem r).next)
      (fun m r => (m.mem r).ipv4Address = response.senderProtoAddress) (takeAnswered response now)
      (P := fun taken (s : Module c n) => ∀ r ∈ taken, foundBy s r =
        .found response.senderProtoAddress response.senderHwAddress) ?_ n none x.requests x [] ?_
    · intro taken s prev r hr hs k hk
      have hip : (s.mem r).ipv4Address = response.senderProtoAddress := of_decide_eq_true hr
      obtain ⟨h₁, h₂, -⟩ := Request.fields_of_unlinked (unlinkBehind_unlinked
        ((s.addEntry .dynamic response.senderHwAddress response.senderProtoAddress now).saveMac r
          response.senderHwAddress) prev r k)
      rw [foundBy, takeAnswered, h₁, h₂, saveMac_ipv4Address]
      by_cases hkr : k = r
      · subst hkr
        simp [Module.saveMac, Module.addEntry, hip]
      · have hbefore := hs k ((List.mem_append.mp hk).resolve_right (by simpa using hkr))
        simpa [Module.saveMac, Module.addEntry, hkr, foundBy] using hbefore
    · exact fun r hr => absurd hr List.not_mem_nil
  · exact fun r hr => absurd hr List.not_mem_nil

/-- What a frame tells of its sender. -/
def Tells (N : Ipv4Address → MacAddress → Prop) (frame : Frame) : Prop :=
  frame.senderProtoAddress ≠ 0#32 → N frame.senderProtoAddress frame.senderHwAddress

/-- What the reception of a frame comes to. -/
structure Heard (N : Ipv4Address → MacAddress → Prop) (netIf : NetIf) (frame : Frame)
    (received : Received c n) :
    Prop where
  names : Names N received.module.entries
  found : ∀ r ∈ received.calls,
    foundBy received.module r = .found frame.senderProtoAddress frame.senderHwAddress
  handed : ∀ p, received.handed = some p →
    ∃ p', p = sentPacket netIf (responseHeader netIf frame) (responseFrame netIf frame) p'

theorem Heard.nothing (h : Names N x.entries) (frame : Frame) (ret : Err) :
    Heard N netIf frame ⟨x, [], none, ret⟩ where
  names := h
  found r hr := absurd hr List.not_mem_nil
  handed p hp := by cases hp

theorem Heard.request (h : Names N x.entries) {frame : Frame} (ht : Tells N frame) :
    Heard N netIf frame (handleRequest x netIf frame link now) := by
  unfold handleRequest
  split_ifs
  · split
    · exact .nothing h frame _
    · dsimp only
      split
      · exact ⟨h.addEntry ht, fun r hr => absurd hr List.not_mem_nil, fun p hp =>
          ⟨_, (Option.some.inj hp).symm⟩⟩
      · exact ⟨h.addEntry ht, fun r hr => absurd hr List.not_mem_nil, fun p hp =>
          ⟨_, (Option.some.inj hp).symm⟩⟩
  · exact .nothing h frame _

theorem Heard.response (h : Names N x.entries) {frame : Frame} (ht : Tells N frame) :
    Heard N netIf frame (handleResponse x netIf frame now) where
  names := by
    rw [handleResponse_entries]
    split_ifs
    · exact h.addEntry ht
    · exact h
  found := handleResponse_found frame
  handed p hp := by
    unfold handleResponse at hp
    split_ifs at hp

theorem Heard.rxFrame (h : Names N x.entries) {q : Packet} (ht : Tells N (decode q)) :
    Heard N netIf (decode q) (Arp.rxFrame x netIf q link now) := by
  unfold Arp.rxFrame
  split_ifs
  · exact .nothing h _ _
  · dsimp only
    split_ifs
    · exact .request h ht
    · exact .response h ht
    · exact .nothing h _ _
    · exact .nothing h _ _

end Module

section Wire

variable {N : Ipv4Address → MacAddress → Prop} {netIf : NetIf}

/-- What every receiver of a frame of the protocol decodes. -/
def Says (N : Ipv4Address → MacAddress → Prop) (bytes : List Byte) : Prop :=
  ∀ q, Ethernet.Received bytes q → Tells N (decode (Ethernet.behindHeader q))

theorem says_sent (hn : netIf.ipv4Address ≠ 0#32 → N netIf.ipv4Address netIf.macAddress)
    {header : Ethernet.Header} {frame : Frame}
    (hproto : frame.senderProtoAddress = netIf.ipv4Address)
    (hhw : frame.senderHwAddress = netIf.macAddress) (p : Packet) :
    Says N (Ethernet.transmit netIf (sentPacket netIf header frame p).frame) := by
  intro q hq
  obtain ⟨hdecode, -⟩ := Came.behind hq
  rw [hdecode, Tells, hproto, hhw]
  exact hn

/-- The module is given only frames that were sent. -/
theorem rxFrame_hears {x : Module c n} {link : Link} {now : BitVec 32} {said : List Said}
    {q : Packet} {received : Received c n} (hhears : Hears said netIf q)
    (h : Ethernet.rxFrame [ethernetProtocol x link now] netIf q = .ok received) :
    received = rxFrame x netIf (Ethernet.behindHeader q) link now ∧
      ∃ bytes, .frame bytes ∈ said ∧ Ethernet.Received bytes q := by
  rw [Ethernet.rxFrame_eq] at h
  split_ifs at h with hlong hcrc hours
  unfold Ethernet.dispatch at h
  split at h
  · next protocol hfound =>
    rw [List.find?_singleton] at hfound
    split_ifs at hfound with htype
    obtain rfl := Option.some.inj hfound
    have htype : arpProtocol = (Ethernet.headerOf q).etherType := of_decide_eq_true htype
    refine ⟨(Except.ok.inj h).symm, ?_⟩
    rcases hhears with hsent | hother | hdamaged
    · exact hsent
    · exact absurd htype.symm hother
    · rw [hdamaged] at hcrc
      cases hcrc
  · cases h

end Wire

section Network

/-- Some interface was configured so, or some user has added it. -/
def Named (said : List Said) (ip : Ipv4Address) (mac : MacAddress) : Prop := .named ip mac ∈ said

theorem Named.append {said : List Said} {ip : Ipv4Address} {mac : MacAddress}
    (h : Named said ip mac) (more : List Said) :
    Named (said ++ more) ip mac := List.mem_append_left more h

/-- All that a node goes by was named. -/
structure Grounded (said : List Said) (x : Host n c a m) : Prop where
  entries : Names (Named said) x.arp.entries
  netIfs : ∀ i, (x.netIfs i).ipv4Address ≠ 0#32 →
    Named said (x.netIfs i).ipv4Address (x.netIfs i).macAddress

theorem Grounded.append {said : List Said} {x : Host n c a m} (h : Grounded said x)
    (more : List Said) :
    Grounded (said ++ more) x :=
  ⟨fun i hi => (h.entries i hi).append more, fun i hi => (h.netIfs i hi).append more⟩

/-- What is said was named: by a frame, and to a request. -/
def Vouched (said : List Said) : Said → Prop
  | .named _ _ => True
  | .frame bytes => Says (Named said) bytes
  | .found ip mac => ip ≠ 0#32 → Named said ip mac

theorem Vouched.append {said : List Said} {s : Said} (h : Vouched said s) (more : List Said) :
    Vouched (said ++ more) s := by
  cases s with
  | named ip mac => trivial
  | frame bytes => exact fun q hq hne => (h q hq hne).append more
  | found ip mac => exact fun hne => (h hne).append more

def judgement : Lib.Hearsay.Judgement (Host n c a m) Said where
  party := Grounded
  said := Vouched
  party_append more _ h := h.append more
  said_append more _ h := h.append more

variable {said : List Said} {x : Host n c a m}

theorem Grounded.same (h : Grounded said x) {y : Host n c a m} (hnetIfs : y.netIfs = x.netIfs)
    (hentries : Names (Named said) y.arp.entries) : Grounded (said ++ []) y := by
  rw [List.append_nil]
  exact ⟨hentries, by rw [hnetIfs]; exact h.netIfs⟩

/-- A configuration of an interface, with the static entry for it. -/
theorem Grounded.configured (h : Grounded said x) {i : Fin (n + 1)} {y : Ifaces.Module n c a}
    {netIf : Ifaces.NetIf} {entries : Table a} {now : BitVec 32}
    (hentries : Names (Named said) entries) (hnetIfs : y.netIfs = Function.update x.netIfs i netIf)
    (harp : y.arp = (addEntry entries .static netIf.macAddress netIf.ipv4Address now).2) :
    Grounded (said ++ [(x.configured y).naming i]) (x.configured y) := by
  have hi : (x.configured y).naming i = .named netIf.ipv4Address netIf.macAddress := by
    simp only [Host.naming, Host.configured, hnetIfs, Function.update_self]
  have hnew : Named (said ++ [.named netIf.ipv4Address netIf.macAddress]) netIf.ipv4Address
    netIf.macAddress :=
    List.mem_append_right said List.mem_cons_self
  rw [hi]
  constructor
  · change Names _ y.arp
    rw [harp]
    exact Names.addEntry (fun j hj => (hentries j hj).append _) fun _ => hnew
  · intro j
    change (y.netIfs j).ipv4Address ≠ 0#32 →
      Named _ (y.netIfs j).ipv4Address (y.netIfs j).macAddress
    rw [hnetIfs]
    by_cases hj : j = i
    · subst hj
      rw [Function.update_self]
      exact fun _ => hnew
    · rw [Function.update_of_ne hj]
      exact fun hne => (h.netIfs j hne).append _

theorem vouched_frames (h : Grounded said x) {i : Fin (n + 1)} {handed : Option Packet}
    (hsent : ∀ p, handed = some p → ∃ header frame p', p = sentPacket (x.netIf i) header frame p' ∧
      frame.senderProtoAddress = (x.netIf i).ipv4Address ∧ frame.senderHwAddress =
      (x.netIf i).macAddress) :
    ∀ s ∈ framesOf (x.netIf i) handed, Vouched said s := by
  intro s hs
  obtain ⟨p, hp, rfl⟩ := List.mem_map.mp hs
  obtain ⟨header, frame, p', rfl, hproto, hhw⟩ := hsent p (Option.mem_toList.mp hp)
  exact says_sent (h.netIfs i) hproto hhw p'

/-- What a request leaves and what is said of it. -/
theorem Grounded.request (h : Grounded said x) (i : Fin (n + 1)) (r : Fin m) (ip : Ipv4Address)
    (link : Link) :
    let requested := Arp.request x.arp (x.netIf i) r ip link x.msCounter
    Names (Named said) requested.module.entries ∧
      ∀ s ∈ framesOf (x.netIf i) requested.handed ++ foundAtOnce ip requested.answer,
        Vouched said s := by
  intro requested
  constructor
  · change Names (Named said) (Arp.request x.arp (x.netIf i) r ip link x.msCounter).module.entries
    rw [request_entries]
    exact h.entries.search ip
  · intro s hs
    rcases List.mem_append.mp hs with hs | hs
    · refine vouched_frames h (fun p hp => ?_) s hs
      obtain ⟨p', hp'⟩ := request_handed hp
      exact ⟨_, _, p', hp', rfl, rfl⟩
    · cases hanswer : requested.answer with
      | resolved mac =>
        rw [hanswer] at hs
        obtain rfl := List.mem_singleton.mp hs
        exact fun _ => request_found h.entries hanswer
      | pending =>
        rw [hanswer] at hs
        cases hs
      | failed e =>
        rw [hanswer] at hs
        cases hs

/-- What the reception of a frame that was sent leaves and what is said of it. -/
theorem Grounded.receive (h : Grounded said x) (hsaid : ∀ s ∈ said, Vouched said s)
    {i : Fin (n + 1)} {q : Packet} {link : Link} {received : Received a m}
    (hhears : Hears said (x.netIf i) q)
    (hr : Ethernet.rxFrame [ethernetProtocol x.arp link x.msCounter] (x.netIf i) q = .ok received) :
    Names (Named said) received.module.entries ∧
      ∀ s ∈ framesOf (x.netIf i) received.handed ++ received.calls.map (foundBy received.module),
        Vouched said s := by
  obtain ⟨rfl, bytes, hbytes, hq⟩ := rxFrame_hears hhears hr
  have htells : Tells (Named said) (decode (Ethernet.behindHeader q)) := hsaid _ hbytes q hq
  have hheard := @Heard.rxFrame _ _ _ _ (x.netIf i) link x.msCounter h.entries _ htells
  refine ⟨hheard.names, fun s hs => ?_⟩
  rcases List.mem_append.mp hs with hs | hs
  · refine vouched_frames h (fun p hp => ?_) s hs
    obtain ⟨p', hp'⟩ := hheard.handed p hp
    exact ⟨_, _, p', hp', rfl, rfl⟩
  · obtain ⟨r, hr, rfl⟩ := List.mem_map.mp hs
    rw [hheard.found r hr]
    exact htells

variable {κ : Type} {z : Network κ n c a m} {k : κ} {input : Input n m}
  {y : Host n c a m × List Said}

theorem sound_unnamed (hz : Lib.Hearsay.Sound judgement z)
    (hnetIfs : y.1.netIfs = (z.party k).netIfs)
    (h : Names (Named z.said) y.1.arp.entries ∧ ∀ s ∈ y.2, Vouched z.said s) :
    Grounded (z.said ++ y.2) y.1 ∧ ∀ s ∈ y.2, Vouched (z.said ++ y.2) s := by
  have hgrounded : Grounded z.said y.1 := ⟨h.1, by rw [hnetIfs]; exact (hz.party k).netIfs⟩
  exact ⟨hgrounded.append y.2, fun s hs => (h.2 s hs).append y.2⟩

theorem act_sound (hz : Lib.Hearsay.Sound judgement z) (hok : Hearing z (k, input))
    (hs : (z.party k).act input = some y) :
    Grounded (z.said ++ y.2) y.1 ∧ ∀ s ∈ y.2, Vouched (z.said ++ y.2) s := by
  have hk : Grounded z.said (z.party k) := hz.party k
  have hnothing : ∀ s ∈ ([] : List Said), Vouched z.said s := fun s hs => absurd hs List.not_mem_nil
  cases input with
  | setIpv4Address i address netmask gatewayAddress =>
    obtain rfl := Option.some.inj hs
    refine ⟨hk.configured (hk.entries.removeEntry address) rfl rfl, fun s hs => ?_⟩
    obtain rfl := List.mem_singleton.mp hs
    trivial
  | setMacAddress i mac =>
    obtain rfl := Option.some.inj hs
    refine ⟨hk.configured (hk.entries.removeEntry ((z.party k).netIfs i).ipv4Address) rfl rfl,
      fun s hs => ?_⟩
    obtain rfl := List.mem_singleton.mp hs
    trivial
  | addEntry type mac ip =>
    simp only [Host.act] at hs
    split_ifs at hs
    obtain rfl := Option.some.inj hs
    have hentries : Names (Named (z.said ++ [.named ip mac])) (z.party k).arp.entries :=
      (hk.append _).entries
    refine ⟨⟨hentries.addEntry fun _ => List.mem_append_right _ List.mem_cons_self,
      (hk.append _).netIfs⟩,
      fun s hs => ?_⟩
    obtain rfl := List.mem_singleton.mp hs
    trivial
  | removeEntry ip =>
    obtain rfl := Option.some.inj hs
    exact sound_unnamed hz rfl ⟨hk.entries.removeEntry ip, hnothing⟩
  | request i r ip link =>
    obtain rfl := Option.some.inj hs
    exact sound_unnamed hz rfl (hk.request i r ip link)
  | cancelRequest r =>
    obtain rfl := Option.some.inj hs
    refine sound_unnamed hz rfl ⟨?_, hnothing⟩
    change Names (Named z.said) (cancelRequest (z.party k).arp r).1.entries
    rw [cancelRequest_entries]
    exact hk.entries
  | receive i q link =>
    obtain rfl := Option.some.inj hs
    unfold Host.receive
    split
    · next received hreceived => exact sound_unnamed hz rfl (hk.receive hz.said hok hreceived)
    · exact sound_unnamed hz rfl ⟨hk.entries, hnothing⟩
  | periodicTask =>
    obtain rfl := Option.some.inj hs
    refine sound_unnamed hz rfl ⟨?_, hnothing⟩
    change Names (Named z.said) (periodicTask (z.party k).arp (z.party k).msCounter).1.entries
    rw [periodicTask_entries]
    exact hk.entries
  | elapse ms =>
    obtain rfl := Option.some.inj hs
    exact sound_unnamed hz rfl ⟨hk.entries, hnothing⟩

def start (capabilities : κ → Fin (n + 1) → BitVec 32) : Network κ n c a m :=
  ⟨fun k => .init n c a m (capabilities k), [.named Ifaces.broadcastAddress broadcastMacAddress]⟩

/-- Every entry of every table, every sender that a frame on the way tells of, and every address
reported to a request was named. -/
structure Truthful (z : Network κ n c a m) : Prop where
  entries : ∀ k i, ((z.party k).arp.entries i).entryType ≠ .unused →
    .named ((z.party k).arp.entries i).ipv4Address ((z.party k).arp.entries i).macAddress ∈ z.said
  frames : ∀ bytes q, .frame bytes ∈ z.said → Ethernet.Received bytes q →
    (decode (Ethernet.behindHeader q)).senderProtoAddress ≠ 0#32 →
      .named (decode (Ethernet.behindHeader q)).senderProtoAddress
        (decode (Ethernet.behindHeader q)).senderHwAddress ∈ z.said
  found : ∀ ip mac, .found ip mac ∈ z.said → ip ≠ 0#32 → .named ip mac ∈ z.said

theorem start_sound (capabilities : κ → Fin (n + 1) → BitVec 32) :
    Lib.Hearsay.Sound judgement (start (c := c) (a := a) (m := m) capabilities) := by
  constructor
  · intro k
    refine ⟨Names.addEntry (fun i hi => absurd rfl hi) fun _ => List.mem_cons_self, fun i hi =>
      absurd rfl hi⟩
  · intro s hs
    obtain rfl := List.mem_singleton.mp hs
    trivial

/-- No node makes up an address: whatever the nodes do and the network does to their frames, what is
believed, sent and reported was configured or added by hand before. -/
theorem addresses_named [DecidableEq κ] (capabilities : κ → Fin (n + 1) → BitVec 32)
    (h : Lib.Reach (Lib.Hearsay.step Host.act) Hearing (start capabilities) z) : Truthful z := by
  have hz := Lib.Hearsay.sound h (start_sound capabilities) fun z k input y hz hok hs =>
    act_sound hz hok hs
  exact ⟨fun k i hi => (hz.party k).entries i hi, fun bytes q hb hq => hz.said _ hb q hq,
    fun ip mac hf => hz.said _ hf⟩

/-- The frame of an exchange between the nodes 192.168.1.1 and 192.168.1.2. -/
def sampleFrame (netIf : NetIf) (header : Ethernet.Header) (frame : Frame) : List Byte :=
  Ethernet.transmit netIf (sentPacket netIf header frame
    ⟨fun _ => 0#8, 0, 0#16, 0#16, 0#32, none⟩).frame

def sampleQuestion : List Byte :=
  sampleFrame (firstNetIf 0#32) (requestHeader (firstNetIf 0#32))
    (requestFrame (firstNetIf 0#32) 0xC0A80102#32)

def sampleAnswer : List Byte :=
  sampleFrame (secondNetIf 0#32)
    (responseHeader (secondNetIf 0#32) (requestFrame (firstNetIf 0#32) 0xC0A80102#32))
    (responseFrame (secondNetIf 0#32) (requestFrame (firstNetIf 0#32) 0xC0A80102#32))

/-- The first node asks for the second one and is told its address. -/
theorem addresses_named_two : ∃ z : Network Bool 1 2 3 1,
    Lib.Reach (Lib.Hearsay.step Host.act) Hearing (start fun _ _ => 0#32) z ∧
      .found 0xC0A80102#32 (sampleMac 2) ∈ z.said ∧ Truthful z := by
  have hstart : Lib.Reach (Lib.Hearsay.step Host.act) Hearing (start fun _ _ => 0#32)
      (start (c := 2) (a := 3) (m := 1) fun (_ : Bool) (_ : Fin (1 + 1)) => 0#32) := .refl
  let one : Fin (1 + 1) := ⟨1, Nat.one_lt_two⟩
  have h₁ := hstart.tail (i := (false, Input.setMacAddress one (sampleMac 1))) trivial rfl
  have h₂ := h₁.tail (i := (false, Input.setIpv4Address one 0xC0A80101#32 0xFFFFFF00#32 0#32))
    trivial rfl
  have h₃ := h₂.tail (i := (true, Input.setMacAddress one (sampleMac 2))) trivial rfl
  have h₄ := h₃.tail (i := (true, Input.setIpv4Address one 0xC0A80102#32 0xFFFFFF00#32 0#32))
    trivial rfl
  have hasked := h₄.tail (i := (false, Input.request one ⟨0, Nat.one_pos⟩ 0xC0A80102#32 sampleLink))
    trivial rfl
  have hanswered := hasked.tail (i :=
    (true, Input.receive one (Ethernet.filled sampleQuestion) sampleLink))
    (.inl ⟨sampleQuestion, by decide +kernel, Ethernet.filled_received (by decide) (by decide)⟩) rfl
  have htold := hanswered.tail (i :=
    (false, Input.receive one (Ethernet.filled sampleAnswer) sampleLink))
    (.inl ⟨sampleAnswer, by decide +kernel, Ethernet.filled_received (by decide) (by decide)⟩) rfl
  exact ⟨_, htold, by decide +kernel, addresses_named _ htold⟩

end Network

end NanoIp.Arp.Lan
