import NanoIp.Arp.Frame
import NanoIp.Arp.Table
import NanoIp.Core.Ipv4
import NanoIp.Lib.Sweep
import Mathlib.Data.Fintype.Card

/-!
# The ARP module

The table together with the intrusive list of pending requests. Request objects are
the objects `Fin n` of a program with `n` of them. The callbacks of requests do not
re-enter the module here: an operation reports which requests it called back, in
order, and what they do comes afterwards.
-/
namespace NanoIp.Arp

variable {c n : Nat}

/-- `NANO_IP_ARP_REQUEST_TIMEOUT`. -/
def requestTimeout : BitVec 32 := 500#32

/-- `nano_ip_arp_request_t`; callback and user data are the identity of the request. -/
structure Request (n : Nat) where
  ipv4Address : Ipv4Address
  macAddress : MacAddress
  timeout : BitVec 32
  next : Option (Fin n)
  deriving DecidableEq

def Request.zero (n : Nat) : Request n := ⟨0#32, nullMacAddress, 0#32, none⟩

/-- `nano_ip_arp_module_data_t` and the request objects. -/
structure Module (c n : Nat) where
  entries : Table c
  requests : Option (Fin n)
  mem : Fin n → Request n

def Module.init (c n : Nat) : Module c n := ⟨Table.empty c, none, fun _ => Request.zero n⟩

namespace Module

/-- The requests of `arp_module.requests`, in list order. -/
def pending (m : Module c n) : List (Fin n) := Lib.chain (fun r => (m.mem r).next) n m.requests

/-- `NANO_IP_ARP_AddEntry` on the module. -/
def addEntry (m : Module c n) (type : EntryType) (mac : MacAddress) (ipv4Address : Ipv4Address)
    (now : BitVec 32) : Module c n :=
  { m with entries := (Arp.addEntry m.entries type mac ipv4Address now).2 }

/-- `MEMCPY(request->mac_address, …)`. -/
def saveMac (m : Module c n) (r : Fin n) (mac : MacAddress) : Module c n :=
  { m with mem := Function.update m.mem r { m.mem r with macAddress := mac } }

/-- `Remove request from the list`, through the request before it. -/
def unlinkBehind (m : Module c n) (prev : Option (Fin n)) (r : Fin n) : Module c n :=
  match prev with
  | none => { m with requests := (m.mem r).next }
  | some p => { m with mem := Function.update m.mem p { m.mem p with next := (m.mem r).next } }

end Module

/-- What the layers below answer when an ARP frame is sent, and how long it takes. No
driver answers `NIP_ERR_IN_PROGRESS`. -/
structure Link where
  alloc : Except Failure Packet
  driver : Except Failure Unit
  elapsed : Nat

/-- What `NANO_IP_ARP_Request` leaves: its answer, and the packet given to the driver. -/
structure Requested (c n : Nat) where
  module : Module c n
  answer : ArpAnswer
  handed : Option Packet

/-- `NANO_IP_ARP_Request` at the counter value `now`. -/
def request (m : Module c n) (netIf : NetIf) (r : Fin n) (ipv4Address : Ipv4Address) (link : Link)
    (now : BitVec 32) : Requested c n :=
  match search m.entries ipv4Address now with
  | (some mac, entries) => ⟨{ m with entries := entries }.saveMac r mac, .resolved mac, none⟩
  | (none, entries) =>
    let m := { m with entries := entries }
    match link.alloc with
    | .error e => ⟨m, .failed e, none⟩
    | .ok p =>
      let packet := sentPacket netIf (requestHeader netIf) (requestFrame netIf ipv4Address) p
      match link.driver with
      | .ok () =>
        let request := { m.mem r with
          ipv4Address := ipv4Address
          timeout := now + BitVec.ofNat 32 link.elapsed + requestTimeout
          next := m.requests }
        ⟨{ m with requests := some r, mem := Function.update m.mem r request }, .pending,
          some packet⟩
      | .error e => ⟨m, .failed e, some packet⟩ -- the packet is released

/-- `NANO_IP_ARP_CancelRequest`, and whether it called the request back. Taking out the
first request of the list empties the list. -/
def cancelRequest (m : Module c n) (r : Fin n) : Module c n × Bool :=
  match Lib.findPrev r none m.pending with
  | none => (m, false)
  | some none => ({ m with requests := none }, true)
  | some (some p) => (m.unlinkBehind (some p) r, true)

/-- The requests of a module as a pass goes through them. -/
def sweepRequests (selects : Module c n → Fin n → Bool)
    (take : Module c n → Option (Fin n) → Fin n → Module c n) (m : Module c n) :
    Module c n × List (Fin n) :=
  Lib.sweep (fun m r => (m.mem r).next) selects take n none m.requests m

/-- What the code does with a request that the response answers, before its callback. -/
def takeAnswered (response : Frame) (now : BitVec 32) (m : Module c n) (prev : Option (Fin n))
    (r : Fin n) :
    Module c n :=
  ((m.addEntry .dynamic response.senderHwAddress response.senderProtoAddress now).saveMac r
    response.senderHwAddress).unlinkBehind prev r

/-- What the reception of a frame leaves: the requests called back with success, in
order, and the packet given to the driver. -/
structure Received (c n : Nat) where
  module : Module c n
  calls : List (Fin n)
  handed : Option Packet
  ret : Err

/-- `NANO_IP_ARP_HandleRequest`. -/
def handleRequest (m : Module c n) (netIf : NetIf) (request : Frame) (link : Link)
    (now : BitVec 32) :
    Received c n :=
  if netIf.ipv4Address = request.targetProtoAddress then
    match link.alloc with
    | .error e => ⟨m, [], none, e⟩
    | .ok p =>
      let m := m.addEntry .dynamic request.senderHwAddress request.senderProtoAddress now
      let packet := sentPacket netIf (responseHeader netIf request) (responseFrame netIf request) p
      match link.driver with
      | .ok () => ⟨m, [], some packet, .success⟩
      | .error e => ⟨m, [], some packet, e⟩ -- the packet is released
  else ⟨m, [], none, .ignorePacket⟩

/-- `NANO_IP_ARP_HandleResponse`. -/
def handleResponse (m : Module c n) (netIf : NetIf) (response : Frame) (now : BitVec 32) :
    Received c n :=
  if netIf.ipv4Address = response.targetProtoAddress then
    let swept := sweepRequests (fun m r => (m.mem r).ipv4Address = response.senderProtoAddress)
      (takeAnswered response now) m
    ⟨swept.1, swept.2, none, .ignorePacket⟩
  else ⟨m, [], none, .ignorePacket⟩

/-- `NANO_IP_ARP_RxFrame`. -/
def rxFrame (m : Module c n) (netIf : NetIf) (p : Packet) (link : Link) (now : BitVec 32) :
    Received c n :=
  if p.count < packetSizeIpv4 then ⟨m, [], none, .invalidPacketSize⟩
  else
    let frame := decode p
    if frame.isValid then
      if frame.operation = opRequest then handleRequest m netIf frame link now
      else if frame.operation = opResponse then handleResponse m netIf frame now
      else ⟨m, [], none, .invalidArpFrame⟩
    else ⟨m, [], none, .invalidArpFrame⟩

/-- `NANO_IP_ARP_PeriodicTask`, and the requests it called back without success. -/
def periodicTask (m : Module c n) (timestamp : BitVec 32) : Module c n × List (Fin n) :=
  sweepRequests (fun m r => (m.mem r).timeout < timestamp) Module.unlinkBehind m

def Request.unlinked (r : Request n) : Request n := { r with next := none }

theorem Request.fields_of_unlinked {r r' : Request n} (h : r.unlinked = r'.unlinked) :
    r.ipv4Address = r'.ipv4Address ∧ r.macAddress = r'.macAddress ∧ r.timeout = r'.timeout := by
  simp only [Request.unlinked, Request.mk.injEq] at h
  exact ⟨h.1, h.2.1, h.2.2.1⟩

section Unlink

variable (m : Module c n) (prev : Option (Fin n)) (r : Fin n)

@[simp] theorem unlinkBehind_entries : (m.unlinkBehind prev r).entries = m.entries := by
  cases prev <;> rfl

theorem unlinkBehind_requests : (m.unlinkBehind prev r).requests =
    (Lib.bypassed (fun k => (m.mem k).next) m.requests prev r).1 := by cases prev <;> rfl

theorem unlinkBehind_next : (fun k => ((m.unlinkBehind prev r).mem k).next) =
    (Lib.bypassed (fun k => (m.mem k).next) m.requests prev r).2 := by
  cases prev with
  | none => rfl
  | some p =>
    funext k
    by_cases hk : k = p
    · subst hk
      simp [Module.unlinkBehind, Lib.bypassed]
    · simp [Module.unlinkBehind, Lib.bypassed, hk]

theorem unlinkBehind_unlinked (k : Fin n) :
    ((m.unlinkBehind prev r).mem k).unlinked = (m.mem k).unlinked := by
  cases prev with
  | none => rfl
  | some p =>
    by_cases hk : k = p
    · subst hk
      simp [Module.unlinkBehind, Request.unlinked]
    · simp [Module.unlinkBehind, hk]

theorem unlinkBehind_ipv4Address (k : Fin n) :
    ((m.unlinkBehind prev r).mem k).ipv4Address = (m.mem k).ipv4Address :=
  (Request.fields_of_unlinked (unlinkBehind_unlinked m prev r k)).1

theorem unlinkBehind_timeout (k : Fin n) :
    ((m.unlinkBehind prev r).mem k).timeout = (m.mem k).timeout :=
  (Request.fields_of_unlinked (unlinkBehind_unlinked m prev r k)).2.2

theorem saveMac_next (mac : MacAddress) (k : Fin n) :
    ((m.saveMac r mac).mem k).next = (m.mem k).next := by
  by_cases hk : k = r
  · subst hk
    simp [Module.saveMac]
  · simp [Module.saveMac, hk]

theorem saveMac_ipv4Address (mac : MacAddress) (k : Fin n) :
    ((m.saveMac r mac).mem k).ipv4Address = (m.mem k).ipv4Address := by
  by_cases hk : k = r
  · subst hk
    simp [Module.saveMac]
  · simp [Module.saveMac, hk]

end Unlink

theorem takes_timeout (timestamp : BitVec 32) :
    Lib.Takes (fun m : Module c n => m.requests) (fun m r => (m.mem r).next)
      (fun m r => decide ((m.mem r).timeout < timestamp)) Module.unlinkBehind where
  first := unlinkBehind_requests
  pointers := unlinkBehind_next
  others m prev a b _ := by rw [unlinkBehind_timeout]

theorem takes_answered (response : Frame) (now : BitVec 32) :
    Lib.Takes (fun m : Module c n => m.requests) (fun m r => (m.mem r).next)
      (fun m r => decide ((m.mem r).ipv4Address = response.senderProtoAddress))
        (takeAnswered response now) where
  first m prev a := by
    rw [takeAnswered, unlinkBehind_requests]
    simp only [saveMac_next]
    rfl
  pointers m prev a := by
    rw [takeAnswered, unlinkBehind_next]
    simp only [saveMac_next]
    rfl
  others m prev a b _ := by
    rw [takeAnswered, unlinkBehind_ipv4Address, saveMac_ipv4Address]
    rfl

theorem request_resolved {m : Module c n} {netIf : NetIf} {r : Fin n} {ipv4Address : Ipv4Address}
    {link : Link} {now : BitVec 32} {mac : MacAddress}
    (h : (search m.entries ipv4Address now).1 = some mac) :
    (request m netIf r ipv4Address link now).answer = .resolved mac := by
  unfold request
  split
  · next hs =>
    rw [hs] at h
    rw [Option.some.inj h]
  · next hs =>
    rw [hs] at h
    cases h

section Entries

variable (m : Module c n) (netIf : NetIf) (now : BitVec 32)

theorem request_entries (r : Fin n) (ipv4Address : Ipv4Address) (link : Link) :
    (request m netIf r ipv4Address link now).module.entries =
      (search m.entries ipv4Address now).2 := by
  unfold request
  split
  · next h => rw [h]; rfl
  · next h =>
    rw [h]
    split
    · rfl
    · dsimp only
      split <;> rfl

theorem cancelRequest_entries (r : Fin n) : (cancelRequest m r).1.entries = m.entries := by
  unfold cancelRequest
  split
  · rfl
  · rfl
  · exact unlinkBehind_entries m _ r

theorem periodicTask_entries (timestamp : BitVec 32) :
    (periodicTask m timestamp).1.entries = m.entries :=
  Lib.sweep_taken _ _ _ (P := fun _ (s : Module c n) => s.entries = m.entries)
    (fun _ s prev r h => (unlinkBehind_entries s prev r).trans h) n none m.requests m [] rfl

/-- A response is learned once if it answers any request. -/
theorem handleResponse_entries (response : Frame) :
    (handleResponse m netIf response now).module.entries =
      if (handleResponse m netIf response now).calls ≠ [] then
        (Arp.addEntry m.entries .dynamic response.senderHwAddress response.senderProtoAddress now).2
      else m.entries := by
  by_cases ht : netIf.ipv4Address = response.targetProtoAddress
  · simp only [handleResponse, if_pos ht]
    exact Lib.sweep_taken (fun (m : Module c n) r => (m.mem r).next)
      (fun m r => (m.mem r).ipv4Address = response.senderProtoAddress) (takeAnswered response now)
      (P := fun taken (s : Module c n) => s.entries = if taken ≠ [] then
        (Arp.addEntry m.entries .dynamic response.senderHwAddress response.senderProtoAddress now).2
        else m.entries) (fun taken s prev r hs => by
          rw [if_pos (by simp), takeAnswered, unlinkBehind_entries]
          change (Arp.addEntry s.entries _ _ _ _).2 = _
          rw [hs]
          split_ifs
          · exact addEntry_again m.entries (by exact nofun) _ _ _
          · rfl) n none m.requests m [] rfl
  · simp only [handleResponse, if_neg ht]
    rfl

end Entries

section Lists

variable {m m' : Module c n} {l : List (Fin n)}

/-- The requests from the head on are exactly `l`, each once. -/
structure Listed (m : Module c n) (l : List (Fin n)) : Prop where
  linked : Lib.Linked (fun r => (m.mem r).next) m.requests l
  nodup : l.Nodup

theorem Listed.length_le (hl : Listed m l) : l.length ≤ n := by
  have h := List.Nodup.length_le_card hl.nodup
  rwa [Fintype.card_fin] at h

theorem Listed.pending (hl : Listed m l) : m.pending = l := hl.linked.chain_eq hl.length_le

theorem listed_init : Listed (Module.init c n) [] := ⟨rfl, List.nodup_nil⟩

theorem Listed.congr (hl : Listed m l) (hhead : m'.requests = m.requests)
    (hnext : ∀ r ∈ l, (m'.mem r).next = (m.mem r).next) : Listed m' l := by
  refine ⟨?_, hl.nodup⟩
  rw [hhead]
  exact hl.linked.congr hnext

theorem Listed.periodicTask (hl : Listed m l) (timestamp : BitVec 32) :
    Listed (periodicTask m timestamp).1
      (l.filter fun r => !decide ((m.mem r).timeout < timestamp)) ∧
      (periodicTask m timestamp).2 = l.filter (fun r => (m.mem r).timeout < timestamp) ∧
      (periodicTask m timestamp).1.entries = m.entries ∧
      ∀ k, ((periodicTask m timestamp).1.mem k).unlinked = (m.mem k).unlinked := by
  obtain ⟨hlinked, htaken, ⟨hentries, hmem⟩, -⟩ := Lib.sweep_whole (takes_timeout timestamp)
    (fun _ s => s.entries = m.entries ∧ ∀ k, (s.mem k).unlinked = (m.mem k).unlinked)
    hl.linked hl.nodup hl.length_le ⟨rfl, fun _ => rfl⟩ fun taken s prev a _ _ hi _ => by
      refine ⟨(unlinkBehind_entries s prev a).trans hi.1, fun k => ?_⟩
      rw [unlinkBehind_unlinked, hi.2]
  exact ⟨⟨hlinked, hl.nodup.filter _⟩, htaken, hentries, hmem⟩

/-- A request that is queued stands in front of the list; otherwise the list is as before. -/
theorem request_cases (m : Module c n) (netIf : NetIf) (r : Fin n) (ipv4Address : Ipv4Address)
    (link : Link) (now : BitVec 32) :
    ((request m netIf r ipv4Address link now).answer ≠ .pending ∧
      (request m netIf r ipv4Address link now).module.requests = m.requests ∧
      ∀ k, ((request m netIf r ipv4Address link now).module.mem k).next = (m.mem k).next ∧
        ((request m netIf r ipv4Address link now).module.mem k).timeout = (m.mem k).timeout) ∨
    ((request m netIf r ipv4Address link now).answer = .pending ∧
      (request m netIf r ipv4Address link now).module.requests = some r ∧
      (request m netIf r ipv4Address link now).module.mem = Function.update m.mem r { m.mem r with
        ipv4Address := ipv4Address
        timeout := now + BitVec.ofNat 32 link.elapsed + requestTimeout
        next := m.requests }) := by
  unfold request
  split
  · left
    refine ⟨nofun, rfl, fun k => ⟨saveMac_next _ _ _ _, ?_⟩⟩
    by_cases hk : k = r
    · subst hk
      simp [Module.saveMac]
    · simp [Module.saveMac, hk]
  · dsimp only
    cases link.alloc with
    | error e => exact .inl ⟨nofun, rfl, fun _ => ⟨rfl, rfl⟩⟩
    | ok p =>
      dsimp only
      cases link.driver with
      | ok u => exact .inr ⟨rfl, rfl, rfl⟩
      | error e => exact .inl ⟨nofun, rfl, fun _ => ⟨rfl, rfl⟩⟩

theorem Listed.push (hl : Listed m l) {r : Fin n} (hr : r ∉ l) {request : Request n}
    (hnext : request.next = m.requests) (hhead : m'.requests = some r)
    (hmem : m'.mem = Function.update m.mem r request) : Listed m' (r :: l) := by
  refine ⟨?_, List.nodup_cons.mpr ⟨hr, hl.nodup⟩⟩
  have hnexts : (fun k => (m'.mem k).next) = Function.update (fun k => (m.mem k).next) r
      m.requests := by
    funext k
    rw [hmem]
    by_cases hk : k = r
    · subst hk
      rw [Function.update_self, Function.update_self, hnext]
    · rw [Function.update_of_ne hk, Function.update_of_ne hk]
  rw [hnexts, hhead]
  exact hl.linked.push hr

/-- Cancelling takes out the request alone, unless it stands in front of others. -/
theorem Listed.cancelRequest (hl : Listed m l) {r : Fin n} (hr : r ∈ l)
    (hfirst : m.requests = some r → l = [r]) :
    Listed (cancelRequest m r).1 (l.erase r) ∧ (cancelRequest m r).2 = true ∧
      ∀ k, ((cancelRequest m r).1.mem k).unlinked = (m.mem k).unlinked := by
  unfold Arp.cancelRequest
  rw [hl.pending]
  cases hf : Lib.findPrev r none l with
  | none => exact absurd hr (Lib.findPrev_none.mp hf)
  | some prev =>
    rcases Lib.findPrev_some hf with ⟨post, rfl, rfl⟩ | ⟨pre, p, post, rfl, rfl, hno⟩
    · have hone := hfirst hl.linked.1
      rw [hone, List.erase_cons_head]
      exact ⟨⟨rfl, List.nodup_nil⟩, rfl, fun _ => rfl⟩
    · refine ⟨⟨?_, hl.nodup.erase r⟩, rfl, fun k => unlinkBehind_unlinked m (some p) r k⟩
      rw [show pre ++ p :: r :: post = (pre ++ [p]) ++ r :: post from by simp,
        List.erase_append_right _ hno, List.erase_cons_head, List.append_assoc]
      dsimp only
      rw [unlinkBehind_next, unlinkBehind_requests]
      exact hl.linked.bypass hl.nodup

/-- A response calls back the requests it answers and keeps the others. -/
theorem Listed.handleResponse (hl : Listed m l) (netIf : NetIf) (response : Frame) (now : BitVec 32)
    (ht : netIf.ipv4Address = response.targetProtoAddress) :
    Listed (handleResponse m netIf response now).module
        (l.filter fun r => !decide ((m.mem r).ipv4Address = response.senderProtoAddress)) ∧
      (handleResponse m netIf response now).calls =
        l.filter (fun r => (m.mem r).ipv4Address = response.senderProtoAddress) ∧
      ∀ k, ((handleResponse m netIf response now).module.mem k).unlinked =
        if k ∈ (handleResponse m netIf response now).calls then
          { m.mem k with macAddress := response.senderHwAddress, next := none }
        else (m.mem k).unlinked := by
  obtain ⟨hlinked, htaken, hmem, -⟩ := Lib.sweep_whole (takes_answered response now)
    (fun taken s => ∀ k, (s.mem k).unlinked = if k ∈ taken then
      { m.mem k with macAddress := response.senderHwAddress, next := none } else (m.mem k).unlinked)
    hl.linked hl.nodup hl.length_le (fun k => by simp) fun taken s prev a _ hno hi _ k => by
      rw [takeAnswered, unlinkBehind_unlinked]
      by_cases hk : k = a
      · subst hk
        have hk' := hi k
        rw [if_neg hno] at hk'
        obtain ⟨h₁, -, h₃⟩ := Request.fields_of_unlinked hk'
        rw [if_pos (by simp)]
        simp [Module.saveMac, Module.addEntry, Request.unlinked, h₁, h₃]
      · have hk' := hi k
        simpa [Module.saveMac, Module.addEntry, hk] using hk'
  simp only [Arp.handleResponse, if_pos ht]
  exact ⟨⟨hlinked, hl.nodup.filter _⟩, htaken, hmem⟩

/-- The frame is a response to the interface that answers the request. -/
def answers (m : Module c n) (netIf : NetIf) (p : Packet) (r : Fin n) : Bool :=
  packetSizeIpv4 ≤ p.count && (decode p).isValid && (decode p).operation = opResponse &&
    netIf.ipv4Address = (decode p).targetProtoAddress && (m.mem r).ipv4Address =
      (decode p).senderProtoAddress

/-- A received frame calls back the requests it answers and keeps the others. -/
theorem Listed.rxFrame (hl : Listed m l) (netIf : NetIf) (p : Packet) (link : Link)
    (now : BitVec 32) :
    Listed (rxFrame m netIf p link now).module (l.filter fun r => !answers m netIf p r) ∧
      (rxFrame m netIf p link now).calls = l.filter (answers m netIf p) ∧
      ∀ k, ((rxFrame m netIf p link now).module.mem k).unlinked =
        if k ∈ (rxFrame m netIf p link now).calls then
          { m.mem k with macAddress := (decode p).senderHwAddress, next := none }
        else (m.mem k).unlinked := by
  -- a frame that answers nothing leaves the requests alone
  have hnone : ∀ {received : Received c n}, (∀ r, answers m netIf p r = false) →
      received.module.requests = m.requests → received.module.mem = m.mem → received.calls = [] →
      Listed received.module (l.filter fun r => !answers m netIf p r) ∧
        received.calls = l.filter (answers m netIf p) ∧
        ∀ k, (received.module.mem k).unlinked = if k ∈ received.calls then
          { m.mem k with macAddress := (decode p).senderHwAddress, next := none } else
            (m.mem k).unlinked := by
    intro received hno hhead hmem hcalls
    refine ⟨?_, ?_, fun k => ?_⟩
    · rw [List.filter_eq_self.mpr fun r _ => by rw [hno r]; rfl]
      exact hl.congr hhead fun r _ => by rw [hmem]
    · rw [hcalls, eq_comm]
      exact List.filter_eq_nil_iff.mpr fun r _ => by rw [hno r]; exact Bool.false_ne_true
    · rw [hcalls, hmem, if_neg List.not_mem_nil]
  unfold Arp.rxFrame
  by_cases hc : p.count < packetSizeIpv4
  · rw [if_pos hc]
    exact hnone (fun r => by simp [answers, BitVec.not_le.mpr hc]) rfl rfl rfl
  rw [if_neg hc]
  dsimp only
  by_cases hv : (decode p).isValid = true
  · rw [if_pos hv]
    by_cases hreq : (decode p).operation = opRequest
    · rw [if_pos hreq]
      have hno : ∀ r, answers m netIf p r = false := by
        intro r
        have hop : ¬ (decode p).operation = opResponse := by rw [hreq]; decide
        simp [answers, hop]
      unfold handleRequest
      split_ifs
      · split
        · exact hnone hno rfl rfl rfl
        · dsimp only
          split
          · exact hnone hno rfl rfl rfl
          · exact hnone hno rfl rfl rfl
      · exact hnone hno rfl rfl rfl
    · rw [if_neg hreq]
      by_cases hresp : (decode p).operation = opResponse
      · rw [if_pos hresp]
        by_cases ht : netIf.ipv4Address = (decode p).targetProtoAddress
        · have hanswers : answers m netIf p =
              fun r => decide ((m.mem r).ipv4Address = (decode p).senderProtoAddress) := by
            funext r
            simp [answers, BitVec.not_lt.mp hc, hv, hresp, ht]
          rw [hanswers]
          exact hl.handleResponse netIf (decode p) now ht
        · refine hnone (fun r => by simp [answers, ht]) ?_ ?_ ?_ <;>
            rw [Arp.handleResponse, if_neg ht]
      · rw [if_neg hresp]
        exact hnone (fun r => by simp [answers, hresp]) rfl rfl rfl
  · rw [if_neg hv]
    exact hnone (fun r => by simp [answers, hv]) rfl rfl rfl

end Lists

end NanoIp.Arp
