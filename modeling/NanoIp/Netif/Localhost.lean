import NanoIp.Core.EthernetInput
import NanoIp.Core.Ipv4
import NanoIp.Lib.Queue
import NanoIp.Lib.Run

/-!
# The localhost interface

`NANO_IP_LOCALHOST_DrvSendPacket` queues the transmitted packet object itself for
reception. The driver's `received_packets` is a pointer to a queue, which nothing sets;
what an access through `NULL` does is not defined, and the model stops there.
-/
namespace NanoIp.Localhost

variable {protocols : List (Ethernet.Protocol Bool)} {netIf : NetIf}

/-- Where the network task of the interface stands. -/
inductive Task where
  | waiting
  /-- about to call `get_next_rx_packet` -/
  | receiving
  deriving DecidableEq

/-- The queue that `received_packets` points to, if any, the packet objects with their
`next` pointers, `NETIF_PACKET_RECEIVED` of the interface and its network task; then the
packets sent and decoded so far, and what became of the decoded ones. -/
structure State where
  receivedPackets : Option (Lib.Queue PacketId)
  next : PacketId → Option PacketId
  packets : PacketId → Packet
  packetReceived : Bool
  task : Task
  fault : Bool
  sent : List (PacketId × Packet)
  decoded : List (PacketId × Packet)
  released : List PacketId
  kept : List PacketId

/-- An access through `NULL`. -/
def State.nullPointer (s : State) : State := { s with fault := true }

/-- `NANO_IP_LOCALHOST_DrvSendPacket`. -/
def drvSendPacket (s : State) (pid : PacketId) : State :=
  match s.receivedPackets with
  | none => s.nullPointer
  | some q =>
    { s with
      next := (q.add s.next pid).1
      receivedPackets := some (q.add s.next pid).2
      packetReceived := true }

/-- An IPv4 packet leaves through the interface: `NANO_IP_ETHERNET_SendPacket`. -/
def sendPacket (netIf : NetIf) (s : State) (pid : PacketId) (header : Ethernet.Header)
    (p : Packet) : State :=
  let frame := Ethernet.sendPacket netIf header p
  drvSendPacket { s with packets := Function.update s.packets pid frame,
                         sent := s.sent ++ [(pid, frame)] } pid

/-- `NANO_IP_ETHERNET_RxFrame` on a received packet, recorded: the handler that is found
answers whether it keeps the packet. -/
def decode (protocols : List (Ethernet.Protocol Bool)) (netIf : NetIf) (s : State)
    (pid : PacketId) : State × Bool :=
  if (s.packets pid).flags &&& packetFlagError = 0#32 then
    ({ s with decoded := s.decoded ++ [(pid, s.packets pid)] },
      match Ethernet.rxFrame protocols netIf (s.packets pid) with
      | .ok keep => keep
      | .error _ => false)
  else (s, false)

/-- The received packet in `NANO_IP_NET_IF_RxTask`: unless its KEEP flag is set it is released
if it is a transmit packet; `NANO_IP_LOCALHOST_DrvAddRxPacket` takes no other one. -/
def handlePacket (protocols : List (Ethernet.Protocol Bool)) (netIf : NetIf) (s : State)
    (pid : PacketId) : State :=
  match decode protocols netIf s pid with
  | (s, keep) =>
    if keep ∨ (s.packets pid).flags &&& packetFlagKeepPacket ≠ 0#32 then
      { s with kept := s.kept ++ [pid] }
    else if (s.packets pid).flags &&& packetFlagTx = 0#32 then s
    else { s with released := s.released ++ [pid] }

/-- `NETIF_PACKET_RECEIVED` in `NANO_IP_NET_IF_RxTask`, with `NANO_IP_LOCALHOST_GetNextRxPacket`. -/
def rxTask (protocols : List (Ethernet.Protocol Bool)) (netIf : NetIf) (s : State) : Option State :=
  match s.task with
  | .waiting =>
    if s.packetReceived then some { s with packetReceived := false, task := .receiving } else none
  | .receiving =>
    match s.receivedPackets with
    | none => some s.nullPointer
    | some q =>
      match q.pop s.next with
      | some (pid, next, q) =>
        some (handlePacket protocols netIf { s with next := next, receivedPackets := some q } pid)
      | none => some { s with task := .waiting }

/-- What happens next: an IPv4 packet is sent, or the network task goes on. -/
inductive Input where
  | sendPacket (pid : PacketId) (header : Ethernet.Header) (p : Packet)
  | rxTask

def Input.sends : Input → Bool
  | .sendPacket _ _ _ => true
  | .rxTask => false

def step (protocols : List (Ethernet.Protocol Bool)) (netIf : NetIf) (s : State) :
    Input → Option State
  | .sendPacket pid header p => if s.fault then none else some (sendPacket netIf s pid header p)
  | .rxTask => if s.fault then none else rxTask protocols netIf s

/-- The driver's data, zero at start, and the interface behind `NANO_IP_LOCALHOST_Init`,
which sets the mutex and the callbacks. -/
def init (packets : PacketId → Packet) (next : PacketId → Option PacketId) : State where
  receivedPackets := none
  next := next
  packets := packets
  packetReceived := false
  task := .waiting
  fault := false
  sent := []
  decoded := []
  released := []
  kept := []

/-- Every packet that was sent is decoded once, in the order of sending, from the first
byte of its Ethernet header on, at the latest when the network task waits again; and each
decoded packet is released or kept once. -/
structure Delivered (s : State) : Prop where
  runs : s.fault = false
  decoded : s.decoded <+: s.sent.map fun r => (r.1, { r.2 with current := 0 })
  all : s.task = .waiting → s.packetReceived = false → s.decoded.length = s.sent.length
  handled : (s.released ++ s.kept).Perm (s.decoded.map Prod.fst)

/-- The send path leaves `current` behind the Ethernet header. -/
theorem sendPacket_current (header : Ethernet.Header) (p : Packet) :
    (Ethernet.sendPacket netIf header p).current = Ethernet.headerSize := by
  have hd : header.destAddress.toList.length = 6 := header.destAddress.length_toList
  have hs : header.srcAddress.toList.length = 6 := header.srcAddress.length_toList
  have hheader : ∀ q, (Ethernet.writeHeader header q).current = Ethernet.headerSize := by
    intro q
    change 0 + header.destAddress.toList.length + header.srcAddress.toList.length + 2 = _
    rw [hd, hs]
    rfl
  unfold Ethernet.sendPacket Ethernet.appendFcs
  split
  · exact hheader _
  · exact hheader _

/-- A packet object has been sent. -/
def State.hasSent (s : State) (pid : PacketId) : Prop := ∃ p, (pid, p) ∈ s.sent

/-- With a queue in place, its packets are packets that have been sent, and these and the
decoded ones stand behind their Ethernet header. -/
structure Behind (s : State) : Prop where
  queue : ∃ q, s.receivedPackets = some q ∧ ∀ pid, q.head = some pid ∨ q.tail = some pid →
    s.hasSent pid
  next : ∀ pid pid', s.hasSent pid → s.next pid = some pid' → s.hasSent pid'
  packets : ∀ pid, s.hasSent pid → (s.packets pid).current = Ethernet.headerSize
  decoded : ∀ r ∈ s.decoded, r.2.current = Ethernet.headerSize

theorem behind_sendPacket {s : State} (h : Behind s) (pid : PacketId) (header : Ethernet.Header)
    (p : Packet) :
    Behind (sendPacket netIf s pid header p) := by
  obtain ⟨q, hq, hqueue⟩ := h.queue
  have hsent : ∀ k, (sendPacket netIf s pid header p).hasSent k ↔ s.hasSent k ∨ k = pid := by
    intro k
    unfold State.hasSent sendPacket drvSendPacket
    dsimp only
    rw [hq]
    simp only [List.mem_append, List.mem_singleton, Prod.mk.injEq, exists_or, exists_and_left,
      exists_eq, and_true]
  have hstate : sendPacket netIf s pid header p = { s with
      packets := Function.update s.packets pid (Ethernet.sendPacket netIf header p)
      sent := s.sent ++ [(pid, Ethernet.sendPacket netIf header p)]
      next := (q.add s.next pid).1
      receivedPackets := some (q.add s.next pid).2
      packetReceived := true } := by
    unfold sendPacket drvSendPacket
    dsimp only
    rw [hq]
  refine ⟨⟨(q.add s.next pid).2, by rw [hstate], fun k hk => (hsent k).mpr ?_⟩, fun k k' hk hn =>
    (hsent k').mpr ?_,
    fun k hk => ?_, fun r hr => h.decoded r (by rwa [hstate] at hr)⟩
  · exact (Lib.Queue.add_ends hk).imp_left fun hhead => hqueue k (.inl hhead)
  · rw [hstate] at hn
    dsimp only at hn
    rcases (hsent k).mp hk with hk | rfl
    · exact (Lib.Queue.add_next hn).imp_left (h.next k k' hk)
    · rw [Lib.Queue.add_self] at hn
      cases hn
  · rw [hstate]
    dsimp only
    by_cases hkp : k = pid
    · rw [hkp, Function.update_self]
      exact sendPacket_current header p
    · rw [Function.update_of_ne hkp]
      exact h.packets k (((hsent k).mp hk).resolve_right hkp)

/-- Handling a packet adds it to the decoded ones at most, as it stands. -/
theorem behind_handlePacket {s : State} (h : Behind s) {pid : PacketId} (hp : s.hasSent pid) :
    Behind (handlePacket protocols netIf s pid) := by
  have hdecode : Behind (decode protocols netIf s pid).1 := by
    unfold decode
    split_ifs
    · refine ⟨h.queue, h.next, h.packets, fun r hr => ?_⟩
      rcases List.mem_append.mp hr with hr | hr
      · exact h.decoded r hr
      · rw [List.mem_singleton.mp hr]
        exact h.packets pid hp
    · exact h
  unfold handlePacket
  dsimp only
  split_ifs
  · exact ⟨hdecode.queue, hdecode.next, hdecode.packets, hdecode.decoded⟩
  · exact hdecode
  · exact ⟨hdecode.queue, hdecode.next, hdecode.packets, hdecode.decoded⟩

theorem behind_rxTask {s s' : State} (h : Behind s) (hs : rxTask protocols netIf s = some s') :
    Behind s' := by
  obtain ⟨q, hq, hqueue⟩ := h.queue
  unfold rxTask at hs
  split at hs
  · split at hs
    · obtain rfl := Option.some.inj hs
      exact ⟨⟨q, hq, hqueue⟩, h.next, h.packets, h.decoded⟩
    · cases hs
  · rw [hq] at hs
    dsimp only at hs
    unfold Lib.Queue.pop at hs
    cases hhead : q.head with
    | none =>
      rw [hhead] at hs
      obtain rfl := Option.some.inj hs
      exact ⟨⟨q, rfl, hqueue⟩, h.next, h.packets, h.decoded⟩
    | some pid =>
      rw [hhead] at hs
      dsimp only at hs
      obtain rfl := Option.some.inj hs
      have hp : s.hasSent pid := hqueue pid (.inl hhead)
      refine behind_handlePacket ?_ ?_
      rotate_left
      · exact hp
      refine ⟨⟨_, rfl, fun k hk => ?_⟩, fun k k' hk hn => ?_, h.packets, h.decoded⟩
      · rcases hk with hk | hk
        · exact h.next pid k hp hk
        · split at hk
          · cases hk
          · exact hqueue k (.inr hk)
      · dsimp only at hn
        by_cases hkp : k = pid
        · rw [hkp, Function.update_self] at hn
          cases hn
        · rw [Function.update_of_ne hkp] at hn
          exact h.next k k' hk hn

/-- A queue in place of the `NULL` pointer does not help: every packet is decoded from
behind its Ethernet header. -/
theorem decoded_behind_header (packets : PacketId → Packet) (next : PacketId → Option PacketId) {s : State}
    (h : Lib.Reach (step protocols netIf) Lib.anyStep
      { init packets next with receivedPackets := some Lib.Queue.empty } s) :
    ∀ r ∈ s.decoded, r.2.current = Ethernet.headerSize := by
  have hnone : ∀ pid, ¬ (init packets next).hasSent pid := by
    rintro pid ⟨p, hp⟩
    exact List.not_mem_nil hp
  refine (h.invariant (I := Behind) ⟨⟨_, rfl, fun pid hp => ?_⟩, fun pid _ hp =>
    absurd hp (hnone pid),
    fun pid hp => absurd hp (hnone pid), fun r hr => absurd hr List.not_mem_nil⟩
      fun s i s' hs _ hstep => ?_).decoded
  · rcases hp with hp | hp <;> cases hp
  · unfold step at hstep
    cases i with
    | sendPacket pid header p =>
      dsimp only at hstep
      split at hstep
      · cases hstep
      · obtain rfl := Option.some.inj hstep
        exact behind_sendPacket hs pid header p
    | rxTask =>
      dsimp only at hstep
      split at hstep
      · cases hstep
      · exact behind_rxTask hs hstep

theorem nothing_sent (packets : PacketId → Packet) (next : PacketId → Option PacketId) :
    Delivered (init packets next) :=
  ⟨rfl, List.prefix_refl _, fun _ _ => rfl, List.Perm.refl _⟩

/-- In every run the localhost interface delivers what is sent exactly when nothing is:
the first packet faults. -/
theorem delivered_iff (packets : PacketId → Packet) (next : PacketId → Option PacketId)
    {is : List Input} {s : State}
    (h : Lib.runInputs (step protocols netIf) Lib.anyStep (init packets next) is = some s) :
    Delivered s ↔ ∀ i ∈ is, i.sends = false := by
  cases is with
  | nil =>
    obtain rfl := Option.some.inj h
    exact iff_of_true (nothing_sent packets next) (List.forall_mem_nil _)
  | cons i is =>
    have hany : ∀ (s : State) (i : Input), Lib.anyStep s i := fun _ _ => trivial
    rw [Lib.runInputs, if_pos (hany _ i)] at h
    obtain ⟨t, ht, hrest⟩ := Option.bind_eq_some_iff.mp h
    cases i with
    | rxTask => cases ht
    | sendPacket pid header p =>
      obtain rfl := Option.some.inj ht
      have hfault : s.fault = true := by
        cases is with
        | nil =>
          obtain rfl := Option.some.inj hrest
          rfl
        | cons j is =>
          -- nothing happens after the fault
          rw [Lib.runInputs, if_pos (hany _ j)] at hrest
          cases j <;> cases hrest
      refine iff_of_false (fun hd => ?_) fun hall => ?_
      · rw [hd.runs] at hfault
        cases hfault
      · cases hall _ List.mem_cons_self

def unused : State := init (fun _ => ⟨fun _ => 0#8, 0, 0#16, 0#16, 0#32, none⟩) fun _ => none

def anyNetIf : NetIf := ⟨Vector.replicate 6 0#8, 0#32, 0xFFFFFFFF#32⟩

def firstSend : Input :=
  .sendPacket 0 ⟨Vector.replicate 6 0#8, Vector.replicate 6 0#8, 0x0800#16⟩
    ⟨fun _ => 0#8, 42, 64#16, 42#16, 2#32, none⟩

/-- Without a send all is delivered, and a single send is lost. -/
theorem delivered_iff_first : Delivered unused ∧
    ∃ s, Lib.runInputs (step [] anyNetIf) Lib.anyStep unused [firstSend] = some s ∧
      ¬ Delivered s := by
  have hempty := @delivered_iff [] anyNetIf (fun _ => ⟨fun _ => 0#8, 0, 0#16, 0#16, 0#32, none⟩)
    (fun _ => none) [] _ rfl
  have hfirst := @delivered_iff [] anyNetIf (fun _ => ⟨fun _ => 0#8, 0, 0#16, 0#16, 0#32, none⟩)
    (fun _ => none)
    [firstSend] _ rfl
  exact ⟨hempty.mpr (List.forall_mem_nil _), _, rfl, fun hd =>
    Bool.noConfusion (hfirst.mp hd firstSend List.mem_cons_self)⟩

/-- The first packet sent through the interface. -/
theorem first_packet_faults : ¬ ∀ (protocols : List (Ethernet.Protocol Bool)) (netIf : NetIf)
    (packets : PacketId → Packet) (next : PacketId → Option PacketId) (is : List Input) (s : State),
    Lib.runInputs (step protocols netIf) Lib.anyStep (init packets next) is = some s →
      Delivered s := by
  intro hall
  have hd := hall [] anyNetIf (fun _ => ⟨fun _ => 0#8, 0, 0#16, 0#16, 0#32, none⟩)
    (fun _ => none) [firstSend] _ rfl
  exact absurd hd.runs (by decide)

end NanoIp.Localhost
