import NanoIp.Lib.Run
import NanoIp.Oal.FlagsLinux
import Mathlib.Data.List.Nodup

/-!
# The network task and the pcap driver

`NANO_IP_NET_IF_RxTask` waits for the flags of its interface and takes all of them at once. The
handler of the pcap driver, which runs in a task of its own, copies a captured frame into the
first packet that is queued for reception, and sets `NETIF_PACKET_RECEIVED` when it has left the
mutex of the driver; a module that sends does the same for `NETIF_PACKET_SENT`. The queues are
given as lists.

Whether a consumer keeps a packet is a flag of the packet, which the task reads when it has left the
mutex of the stack.
-/
namespace NanoIp.NetTask

open Oal (flagsSet flagsTaken)

/-- `nano_ip_net_if_event_flags_t`. -/
def netifPacketReceived : BitVec 32 := 1#32
def netifPacketSent : BitVec 32 := 2#32
def netifDrvError : BitVec 32 := 4#32
def netifLinkStateChanged : BitVec 32 := 8#32
def netifPeriodicTimer : BitVec 32 := 16#32

/-- `NANO_IP_OAL_FLAGS_ALL`. -/
def flagsAll : BitVec 32 := 0xFFFFFFFF#32

/-- A packet for reception: its buffer, and how long that is. -/
structure Packet where
  data : Nat
  size : BitVec 16
  deriving DecidableEq

/-- A received packet, with its `count`. -/
structure Received where
  packet : Packet
  count : BitVec 16
  deriving DecidableEq

/-- A callback of the driver that is about to set its flag. -/
inductive Callback where
  | packetReceived | packetSent | netDrvError | linkStateChanged
  deriving DecidableEq

def Callback.flag : Callback → BitVec 32
  | .packetReceived => netifPacketReceived
  | .packetSent => netifPacketSent
  | .netDrvError => netifDrvError
  | .linkStateChanged => netifLinkStateChanged

/-- Where the network task stands, with the flags that it has taken. -/
inductive Task where
  | waiting
  /-- about to call `get_next_rx_packet` -/
  | receiving (flags : BitVec 32)
  /-- about to decode a packet -/
  | decoding (flags : BitVec 32) (r : Received)
  /-- under the mutex of the stack, behind the callback of a consumer that keeps the packet -/
  | called (flags : BitVec 32) (r : Received)
  /-- about to test whether the packet is still in use -/
  | testing (flags : BitVec 32) (r : Received)
  /-- about to call `get_next_tx_packet` -/
  | sending (flags : BitVec 32)
  /-- with a sent packet -/
  | holding (flags : BitVec 32) (p : Nat)
  /-- behind the queues -/
  | ending (flags : BitVec 32)
  deriving DecidableEq

/-- The queues of the driver, the buffers, the packets by their buffers for which
`NET_IF_PACKET_FLAG_KEEP_PACKET` is set, the synchronization flags of the interface, the callbacks
under way, the network task, and the packets that a consumer has kept; `link` is what the driver
says, `linkState` what the interface has. -/
structure State where
  rxPackets : List Packet
  receivedPackets : List Received
  transmittedPackets : List Nat
  buffers : Nat → List Byte
  keeps : Nat → Bool
  syncFlags : BitVec 32
  callbacks : List Callback
  task : Task
  kept : List Packet
  link : Nat
  linkState : Nat

def Received.frame (r : Received) (buffers : Nat → List Byte) : List Byte :=
  (buffers r.packet.data).take r.count.toNat

/-- `NANO_IP_PCAP_DrvPcapHandler` up to its callback. -/
def drvPcapHandler (s : State) (pktData : List Byte) : State :=
  match s.rxPackets with
  | packet :: rest =>
    if pktData.length ≤ packet.size.toNat then
      { s with
        buffers := Function.update s.buffers packet.data
          (pktData ++ (s.buffers packet.data).drop pktData.length)
        rxPackets := rest
        receivedPackets := s.receivedPackets ++ [⟨packet, BitVec.ofNat 16 pktData.length⟩]
        callbacks := s.callbacks ++ [.packetReceived] }
    else { s with callbacks := s.callbacks ++ [.netDrvError] }
  | [] => { s with callbacks := s.callbacks ++ [.netDrvError] }

/-- `NANO_IP_PCAP_DrvSendPacket` up to its callback. -/
def drvSendPacket (s : State) (p : Nat) : State :=
  { s with transmittedPackets := s.transmittedPackets ++ [p],
           callbacks := s.callbacks ++ [.packetSent] }

/-- `Requeue packet for reception`, in the network task and in `NANO_IP_ETHERNET_ReleasePacket`: the
flags are reset, and the packet goes to `NANO_IP_PCAP_DrvAddRxPacket`. -/
def drvAddRxPacket (s : State) (packet : Packet) : State :=
  { s with keeps := Function.update s.keeps packet.data false,
           rxPackets := s.rxPackets ++ [packet] }

/-- The callbacks of the interface, from `NANO_IP_NET_IF_PacketReceivedCallback` on. -/
def callback (s : State) (c : Callback) : State :=
  { s with syncFlags := flagsSet s.syncFlags c.flag, callbacks := s.callbacks.erase c }

/-- `NANO_IP_NET_IF_PeriodicTimerCallback`. -/
def periodicTimerCallback (s : State) : State :=
  { s with syncFlags := flagsSet s.syncFlags netifPeriodicTimer }

/-- The task behind `NETIF_PACKET_RECEIVED`. -/
def Task.behindReceived (flags : BitVec 32) : Task :=
  if flags &&& netifPacketSent ≠ 0#32 then .sending flags else .ending flags

def Task.behindWait (flags : BitVec 32) : Task :=
  if flags &&& netifPacketReceived ≠ 0#32 then .receiving flags else .behindReceived flags

/-- `NANO_IP_NET_IF_RxTask`, one action at a time: `keep` is what the consumer of a frame says, or
the KEEP flag of a sent packet, and `ret` the result of a release. -/
def rxTask (s : State) (keep : Bool) (ret : Err) : Option State :=
  match s.task with
  | .waiting =>
    (flagsTaken s.syncFlags flagsAll).map fun taken =>
      { s with syncFlags := taken.2, task := .behindWait taken.1 }
  | .receiving flags =>
    match s.receivedPackets with
    | r :: rest => some { s with receivedPackets := rest, task := .decoding flags r }
    | [] => some { s with task := .behindReceived flags }
  | .decoding flags r =>
    if keep then some { s with kept := s.kept ++ [r.packet], task := .called flags r }
    else some { s with task := .testing flags r }
  | .called flags r => some { s with keeps := Function.update s.keeps r.packet.data true, task := .testing flags r }
  | .testing flags r =>
    if s.keeps r.packet.data then some { s with task := .receiving flags }
    else some { drvAddRxPacket s r.packet with task := .receiving flags }
  | .sending flags =>
    match s.transmittedPackets with
    | p :: rest => some { s with transmittedPackets := rest, task := .holding flags p }
    | [] => some { s with task := .ending flags }
  | .holding flags _ => some { s with
      task := if keep ∨ ret = .success then .sending flags else .ending flags }
  | .ending flags =>
    if flags &&& (netifLinkStateChanged ||| netifPeriodicTimer) ≠ 0#32 then
      some { s with linkState := s.link, task := .waiting }
    else some { s with task := .waiting }

/-- What happens next. -/
inductive Event where
  | capture (pktData : List Byte)
  | send (p : Nat)
  | callback (c : Callback)
  | timer
  | setLink (link : Nat)
  /-- a consumer releases a packet -/
  | giveBack (packet : Packet)
  | rxTask (keep : Bool) (ret : Err)

/-- A driver calls back what it has to, and a consumer gives back a packet that it has, which may be
one that the network task has not tested yet. -/
def step (s : State) : Event → Option State
  | .capture pktData => some (drvPcapHandler s pktData)
  | .send p => some (drvSendPacket s p)
  | .callback c => if s.callbacks.contains c then some (callback s c) else none
  | .timer => some (periodicTimerCallback s)
  | .setLink link => some { s with link := link }
  | .giveBack packet =>
    if s.kept.contains packet then some
      { drvAddRxPacket s packet with kept := s.kept.erase packet } else none
  | .rxTask keep ret => rxTask s keep ret

/-- The interface that `NANO_IP_NET_IF_Init` leaves. -/
def State.init (packets : List Packet) : State where
  rxPackets := packets
  receivedPackets := []
  transmittedPackets := []
  buffers := fun _ => []
  keeps := fun _ => false
  syncFlags := 0#32
  callbacks := []
  task := .waiting
  kept := []
  link := 0
  linkState := 0

/-- The frames that the driver took, those that were decoded, the packets that were sent, and those
that the task is done with. -/
structure Log where
  captured : List (List Byte)
  decoded : List (List Byte)
  sent : List Nat
  done : List Nat

def Log.init : Log := ⟨[], [], [], []⟩

def State.takes (s : State) (pktData : List Byte) : Bool :=
  s.rxPackets.head?.any fun packet => pktData.length ≤ packet.size.toNat

def log (w : Log) (s : State) (e : Event) (_ : State) : Log :=
  match e, s.task with
  | .capture pktData, _ => if s.takes pktData then
      { w with captured := w.captured ++ [pktData] } else w
  | .send p, _ => { w with sent := w.sent ++ [p] }
  | .rxTask _ _, .decoding _ r => { w with decoded := w.decoded ++ [r.frame s.buffers] }
  | .rxTask _ _, .holding _ p => { w with done := w.done ++ [p] }
  | _, _ => w

/-- The packet that the network task has not decoded yet. -/
def Task.undecoded : Task → List Received
  | .decoding _ r => [r]
  | _ => []

/-- The sent packet that it has. -/
def Task.held : Task → List Nat
  | .holding _ p => [p]
  | _ => []

/-- The decoded packet whose KEEP flag it has not tested yet. -/
def Task.untested : Task → Option Packet
  | .called _ r | .testing _ r => some r.packet
  | _ => none

/-- What a run is asked for: a packet is sent only when the driver has sent it and given it back, a
consumer releases a packet only when the network task has tested it, and every release succeeds. -/
def Orderly (x : State × Log) : Event → Prop
  | .send p => p ∉ x.1.transmittedPackets
  | .giveBack packet => x.1.task.untested ≠ some packet
  | .rxTask _ ret => ret = .success
  | _ => True

instance (x : State × Log) (e : Event) : Decidable (Orderly x e) := by
  cases e <;> unfold Orderly <;> infer_instance

/-- What the network task can do, by where it stands. -/
inductive Turn (s : State) (keep : Bool) (ret : Err) : State → Prop
  | wake (taken : BitVec 32 × BitVec 32) (htask : s.task = .waiting)
      (htaken : flagsTaken s.syncFlags flagsAll = some taken) :
      Turn s keep ret { s with syncFlags := taken.2, task := .behindWait taken.1 }
  | receive (flags : BitVec 32) (r : Received) (rest : List Received)
      (htask : s.task = .receiving flags)
      (hq : s.receivedPackets = r :: rest) :
      Turn s keep ret { s with receivedPackets := rest, task := .decoding flags r }
  | received (flags : BitVec 32) (htask : s.task = .receiving flags) (hq : s.receivedPackets = []) :
      Turn s keep ret { s with task := .behindReceived flags }
  | called (flags : BitVec 32) (r : Received) (htask : s.task = .decoding flags r) :
      Turn s keep ret { s with kept := s.kept ++ [r.packet], task := .called flags r }
  | decoded (flags : BitVec 32) (r : Received) (htask : s.task = .decoding flags r) :
      Turn s keep ret { s with task := .testing flags r }
  | keep (flags : BitVec 32) (r : Received) (htask : s.task = .called flags r) :
      Turn s keep ret { s with keeps := Function.update s.keeps r.packet.data true, task := .testing flags r }
  | kept (flags : BitVec 32) (r : Received) (htask : s.task = .testing flags r)
      (hkeep : s.keeps r.packet.data = true) : Turn s keep ret { s with task := .receiving flags }
  | requeue (flags : BitVec 32) (r : Received) (htask : s.task = .testing flags r)
      (hkeep : s.keeps r.packet.data = false) :
      Turn s keep ret { drvAddRxPacket s r.packet with task := .receiving flags }
  | take (flags : BitVec 32) (p : Nat) (rest : List Nat) (htask : s.task = .sending flags)
      (hq : s.transmittedPackets = p :: rest) :
      Turn s keep ret { s with transmittedPackets := rest, task := .holding flags p }
  | taken (flags : BitVec 32) (htask : s.task = .sending flags) (hq : s.transmittedPackets = []) :
      Turn s keep ret { s with task := .ending flags }
  | release (flags : BitVec 32) (p : Nat) (htask : s.task = .holding flags p)
      (hret : keep = true ∨ ret = .success) :
      Turn s keep ret { s with task := .sending flags }
  | refused (flags : BitVec 32) (p : Nat) (htask : s.task = .holding flags p)
      (hret : ret ≠ .success) :
      Turn s keep ret { s with task := .ending flags }
  | sleep (flags : BitVec 32) (linkState : Nat) (htask : s.task = .ending flags) :
      Turn s keep ret { s with linkState := linkState, task := .waiting }

theorem rxTask_turn {s s' : State} {keep : Bool} {ret : Err} (hs : rxTask s keep ret = some s') :
    Turn s keep ret s' := by
  unfold rxTask at hs
  cases htask : s.task with
  | waiting =>
    simp only [htask] at hs
    obtain ⟨taken, htaken, rfl⟩ := Option.map_eq_some_iff.mp hs
    exact .wake taken htask htaken
  | receiving flags =>
    simp only [htask] at hs
    split at hs
    · next r rest hq =>
      obtain rfl := Option.some.inj hs
      exact .receive flags r rest htask hq
    · next hq =>
      obtain rfl := Option.some.inj hs
      exact .received flags htask hq
  | decoding flags r =>
    simp only [htask] at hs
    split_ifs at hs
    · obtain rfl := Option.some.inj hs
      exact .called flags r htask
    · obtain rfl := Option.some.inj hs
      exact .decoded flags r htask
  | called flags r =>
    simp only [htask] at hs
    obtain rfl := Option.some.inj hs
    exact .keep flags r htask
  | testing flags r =>
    simp only [htask] at hs
    split_ifs at hs with hkeep
    · obtain rfl := Option.some.inj hs
      exact .kept flags r htask hkeep
    · obtain rfl := Option.some.inj hs
      exact .requeue flags r htask (Bool.not_eq_true _ ▸ hkeep)
  | sending flags =>
    simp only [htask] at hs
    split at hs
    · next p rest hq =>
      obtain rfl := Option.some.inj hs
      exact .take flags p rest htask hq
    · next hq =>
      obtain rfl := Option.some.inj hs
      exact .taken flags htask hq
  | holding flags p =>
    simp only [htask] at hs
    obtain rfl := Option.some.inj hs
    split_ifs with hret
    · exact .release flags p htask hret
    · exact .refused flags p htask fun hsuccess => hret (.inr hsuccess)
  | ending flags =>
    simp only [htask] at hs
    split_ifs at hs
    · obtain rfl := Option.some.inj hs
      exact .sleep flags _ htask
    · obtain rfl := Option.some.inj hs
      exact .sleep flags _ htask

/-- The packet for reception that the network task has to itself. -/
def State.mine (s : State) : List Packet :=
  match s.task with
  | .decoding _ r => [r.packet]
  | .testing _ r => bif s.keeps r.packet.data then [] else [r.packet]
  | _ => []

/-- The packet that a consumer keeps and that the network task has still to look at. -/
def State.shared (s : State) : List Packet :=
  match s.task with
  | .called _ r => [r.packet]
  | .testing _ r => bif s.keeps r.packet.data then [r.packet] else []
  | _ => []

def State.packets (s : State) : List Packet :=
  s.rxPackets ++ s.kept ++ (s.mine ++ s.receivedPackets.map Received.packet)

/-- Behind the wait and behind the received packets the task has no packet. -/
structure Task.Empty (task : Task) : Prop where
  undecoded : task.undecoded = []
  held : task.held = []
  mine : ∀ s : State, { s with task := task }.mine = []
  shared : ∀ s : State, { s with task := task }.shared = []

theorem behindReceived_empty (flags : BitVec 32) : (Task.behindReceived flags).Empty := by
  unfold Task.behindReceived
  split_ifs <;> exact ⟨rfl, rfl, fun _ => rfl, fun _ => rfl⟩

theorem behindWait_empty (flags : BitVec 32) : (Task.behindWait flags).Empty := by
  unfold Task.behindWait
  split_ifs
  · exact ⟨rfl, rfl, fun _ => rfl, fun _ => rfl⟩
  · exact behindReceived_empty flags

/-- Every packet for reception is in one place, no KEEP flag is set that is not to be, and the
captured frames and the sent packets are where they should be. -/
structure Inv (s : State) (w : Log) : Prop where
  apart : (s.packets.map Packet.data).Nodup
  shared : ∀ packet ∈ s.shared, packet ∈ s.kept
  clear : ∀ packet ∈ s.rxPackets ++ (s.task.undecoded ++ s.receivedPackets).map Received.packet,
    s.keeps packet.data = false
  received : w.captured =
    w.decoded ++ (s.task.undecoded ++ s.receivedPackets).map fun r => r.frame s.buffers
  sent : w.sent = w.done ++ (s.task.held ++ s.transmittedPackets)

section Steps

variable {s s' : State} {w : Log} {e : Event}

theorem Inv.inj (h : Inv s w) {a b : Packet} (ha : a ∈ s.packets) (hb : b ∈ s.packets)
    (hdata : a.data = b.data) :
    a = b :=
  List.inj_on_of_nodup_map h.apart ha hb hdata

theorem mem_kept {packet : Packet} (h : packet ∈ s.kept) : packet ∈ s.packets :=
  List.mem_append_left _ (List.mem_append_right _ h)

theorem mem_mine {packet : Packet} (h : packet ∈ s.mine) : packet ∈ s.packets :=
  List.mem_append_right _ (List.mem_append_left _ h)

theorem undecoded_sublist (s : State) : (s.task.undecoded.map Received.packet).Sublist s.mine := by
  unfold State.mine
  cases s.task <;> first | exact List.Sublist.refl _ | exact List.nil_sublist _

/-- What the handler of the driver does with a frame. -/
theorem drvPcapHandler_eq (s : State) (pktData : List Byte) :
    (s.takes pktData = false ∧ drvPcapHandler s pktData =
      { s with callbacks := s.callbacks ++ [.netDrvError] }) ∨
    ∃ packet rest, s.takes pktData = true ∧ s.rxPackets = packet :: rest ∧ pktData.length ≤
      packet.size.toNat ∧
      drvPcapHandler s pktData =
        { s with
          buffers := Function.update s.buffers packet.data
            (pktData ++ (s.buffers packet.data).drop pktData.length)
          rxPackets := rest
          receivedPackets := s.receivedPackets ++ [⟨packet, BitVec.ofNat 16 pktData.length⟩]
          callbacks := s.callbacks ++ [.packetReceived] } := by
  rw [drvPcapHandler, State.takes]
  cases hrx : s.rxPackets with
  | nil => exact .inl ⟨rfl, rfl⟩
  | cons packet rest =>
    simp only [List.head?_cons, Option.any_some, decide_eq_true_eq, decide_eq_false_iff_not]
    by_cases hle : pktData.length ≤ packet.size.toNat
    · exact .inr ⟨packet, rest, hle, rfl, hle, if_pos hle⟩
    · refine .inl ⟨hle, ?_⟩
      rw [if_neg hle]

theorem Inv.apart_head (h : Inv s w) {packet : Packet} {rest : List Packet}
    (hrx : s.rxPackets = packet :: rest) {r : Received}
    (hr : r ∈ s.task.undecoded ++ s.receivedPackets) : r.packet.data ≠ packet.data := by
  intro hdata
  have hapart := h.apart
  rw [State.packets, hrx, List.cons_append, List.cons_append, List.map_cons,
    List.nodup_cons] at hapart
  apply hapart.1
  rw [← hdata]
  apply List.mem_map_of_mem
  apply List.mem_append_right
  have hmem := List.mem_map_of_mem (f := Received.packet) hr
  rw [List.map_append] at hmem
  exact ((undecoded_sublist s).append_right _).subset hmem

/-- A frame that is taken stands behind those that wait, which keep their buffers. -/
theorem capture_inv (h : Inv s w) (pktData : List Byte) :
    Inv (drvPcapHandler s pktData) (log w s (.capture pktData) (drvPcapHandler s pktData)) := by
  rw [log]
  rcases drvPcapHandler_eq s pktData with ⟨htakes, heq⟩ | ⟨packet, rest, htakes, hrx, hle, heq⟩
  · rw [heq, htakes]
    exact ⟨h.apart, h.shared, h.clear, h.received, h.sent⟩
  · have hcount : (BitVec.ofNat 16 pktData.length).toNat = pktData.length :=
      Nat.mod_eq_of_lt (hle.trans_lt packet.size.isLt)
    have hperm : ((rest ++ s.kept ++ (s.mine ++ (s.receivedPackets ++
        [(⟨packet, BitVec.ofNat 16 pktData.length⟩ : Received)]).map Received.packet)).map
          Packet.data).Perm
          (s.packets.map Packet.data) := by
      have hlist : rest ++ s.kept ++ (s.mine ++ (s.receivedPackets ++
          [(⟨packet, BitVec.ofNat 16 pktData.length⟩ : Received)]).map Received.packet) =
            rest ++ s.kept ++ (s.mine ++ s.receivedPackets.map Received.packet) ++ [packet] := by
        simp only [List.map_append, List.map_cons, List.map_nil, List.append_assoc]
      rw [hlist, State.packets, hrx]
      exact (List.perm_append_singleton packet _).map _
    rw [heq, if_pos htakes]
    refine ⟨hperm.nodup_iff.mpr h.apart, h.shared, fun p hp => ?_, ?_, h.sent⟩
    · apply h.clear p
      rw [hrx]
      simp only [List.map_append, List.map_cons, List.map_nil, List.mem_append, List.mem_cons,
        List.not_mem_nil,
        or_false] at hp ⊢
      tauto
    · have hkeep : (s.task.undecoded ++ s.receivedPackets).map (fun r => r.frame
          (Function.update s.buffers packet.data
            (pktData ++ (s.buffers packet.data).drop pktData.length))) =
          (s.task.undecoded ++ s.receivedPackets).map fun r => r.frame s.buffers := by
        apply List.map_congr_left
        intro r hr
        rw [Received.frame, Received.frame, Function.update_of_ne (h.apart_head hrx hr)]
      have hnew : Received.frame ⟨packet, BitVec.ofNat 16 pktData.length⟩
          (Function.update s.buffers packet.data
            (pktData ++ (s.buffers packet.data).drop pktData.length)) =
          pktData := by
        rw [Received.frame, Function.update_self, hcount, List.take_left]
      show w.captured ++ [pktData] =
        w.decoded ++ (s.task.undecoded ++ (s.receivedPackets ++ [_])).map _
      rw [← List.append_assoc s.task.undecoded, List.map_append, hkeep, h.received,
        List.append_assoc,
        List.map_singleton, hnew]

/-- The task goes on without a packet for reception of its own or of a consumer. -/
theorem Inv.retask (h : Inv s w) {task : Task} (syncFlags : BitVec 32) (linkState : Nat)
    (hmine : { s with task := task }.mine = s.mine) (hshared : { s with task := task }.shared = [])
    (hundecoded : task.undecoded = s.task.undecoded) (hheld : task.held = s.task.held) :
    Inv { s with syncFlags := syncFlags, linkState := linkState, task := task } w := by
  refine ⟨?_, fun p hp => ?_, ?_, ?_, ?_⟩
  · show ((s.rxPackets ++ s.kept ++ ({ s with task := task }.mine ++ _)).map Packet.data).Nodup
    rw [hmine]
    exact h.apart
  · have hp' : p ∈ { s with task := task }.shared := hp
    rw [hshared] at hp'
    cases hp'
  · show ∀ p ∈ s.rxPackets ++ (task.undecoded ++ s.receivedPackets).map Received.packet,
      s.keeps p.data = false
    rw [hundecoded]
    exact h.clear
  · show w.captured = w.decoded ++ (task.undecoded ++ s.receivedPackets).map _
    rw [hundecoded]
    exact h.received
  · show w.sent = w.done ++ (task.held ++ s.transmittedPackets)
    rw [hheld]
    exact h.sent

theorem Inv.apart_of (h : Inv s w) {l : List Packet} (hperm : l.Perm s.packets) :
    (l.map Packet.data).Nodup :=
  (hperm.map Packet.data).nodup_iff.mpr h.apart

theorem receive_inv (h : Inv s w) {flags : BitVec 32} {r : Received} {rest : List Received}
    (htask : s.task = .receiving flags) (hq : s.receivedPackets = r :: rest) :
    Inv { s with receivedPackets := rest, task := .decoding flags r } w := by
  obtain ⟨hapart, -, hclear, hreceived, hsent⟩ := h
  rw [State.packets, State.mine, htask, hq] at hapart
  rw [htask, hq] at hclear hreceived
  rw [htask] at hsent
  exact ⟨hapart, fun p hp => (List.not_mem_nil hp).elim, hclear, hreceived, hsent⟩

/-- A consumer has taken the packet. -/
theorem called_inv (h : Inv s w) {flags : BitVec 32} {r : Received}
    (htask : s.task = .decoding flags r) :
    Inv { s with kept := s.kept ++ [r.packet], task := .called flags r }
      { w with decoded := w.decoded ++ [r.frame s.buffers] } := by
  refine ⟨h.apart_of ?_, fun p hp => List.mem_append_right _ hp, fun p hp => h.clear p ?_, ?_, ?_⟩
  · rw [State.packets, State.packets, State.mine, State.mine, htask]
    simp only [List.append_assoc]
    exact List.Perm.refl _
  · rw [htask]
    exact ((List.Sublist.refl _).append ((List.sublist_cons_self r _).map _)).subset hp
  · have hreceived := h.received
    rw [htask] at hreceived
    show w.captured = w.decoded ++ [r.frame s.buffers] ++ s.receivedPackets.map _
    rw [hreceived, List.append_assoc]
    rfl
  · have hsent := h.sent
    rw [htask] at hsent
    exact hsent

/-- No consumer has taken the packet, whose KEEP flag is not set. -/
theorem decoded_inv (h : Inv s w) {flags : BitVec 32} {r : Received}
    (htask : s.task = .decoding flags r) :
    Inv { s with task := .testing flags r }
      { w with decoded := w.decoded ++ [r.frame s.buffers] } := by
  have hkeep : s.keeps r.packet.data = false := by
    apply h.clear
    rw [htask]
    exact List.mem_append_right _ List.mem_cons_self
  have hmine : ({ s with task := .testing flags r } : State).mine = s.mine := by
    simp only [State.mine, htask, hkeep]
    rfl
  have hshared : ({ s with task := .testing flags r } : State).shared = [] := by
    simp only [State.shared, hkeep]
    rfl
  refine ⟨?_, fun p hp => ?_, fun p hp => h.clear p ?_, ?_, ?_⟩
  · rw [State.packets, hmine]
    exact h.apart
  · rw [hshared] at hp
    cases hp
  · rw [htask]
    exact ((List.Sublist.refl _).append ((List.sublist_cons_self r _).map _)).subset hp
  · have hreceived := h.received
    rw [htask] at hreceived
    show w.captured = w.decoded ++ [r.frame s.buffers] ++ s.receivedPackets.map _
    rw [hreceived, List.append_assoc]
    rfl
  · have hsent := h.sent
    rw [htask] at hsent
    exact hsent

theorem Inv.clear_ne (h : Inv s w) {packet p : Packet} (hkept : packet ∈ s.kept)
    (hp : p ∈ s.rxPackets ++ (s.task.undecoded ++ s.receivedPackets).map Received.packet) :
    p.data ≠ packet.data := by
  intro hdata
  have hapart := h.apart
  rw [List.nodup_iff_count_le_one] at hapart
  have hone := hapart packet.data
  have hk := List.count_pos_iff.mpr (List.mem_map_of_mem (f := Packet.data) hkept)
  have hsub := ((undecoded_sublist s).map Packet.data).count_le packet.data
  have hpos := List.count_pos_iff.mpr (List.mem_map_of_mem (f := Packet.data) hp)
  rw [hdata] at hpos
  simp only [State.packets, List.map_append, List.count_append] at hone hk hsub hpos
  omega

/-- The KEEP flag of a packet that a consumer has. -/
theorem keep_inv (h : Inv s w) {flags : BitVec 32} {r : Received}
    (htask : s.task = .called flags r) :
    Inv { s with keeps := Function.update s.keeps r.packet.data true, task := .testing flags r }
      w := by
  have hkept : r.packet ∈ s.kept := by
    apply h.shared
    rw [State.shared, htask]
    exact List.mem_cons_self
  have hflag : Function.update s.keeps r.packet.data true r.packet.data = true :=
    Function.update_self _ _ _
  refine ⟨h.apart_of ?_, fun p hp => ?_, fun p hp => ?_, ?_, ?_⟩
  · rw [State.packets, State.packets, State.mine, State.mine, htask]
    dsimp only
    rw [hflag]
    exact List.Perm.refl _
  · rw [State.shared] at hp
    dsimp only at hp
    rw [hflag] at hp
    exact List.mem_singleton.mp hp ▸ hkept
  · have hp' : p ∈ s.rxPackets ++ (s.task.undecoded ++ s.receivedPackets).map Received.packet := by
      rw [htask]
      exact hp
    exact (Function.update_of_ne (h.clear_ne hkept hp') _ _).trans (h.clear p hp')
  · have hreceived := h.received
    rw [htask] at hreceived
    exact hreceived
  · have hsent := h.sent
    rw [htask] at hsent
    exact hsent

/-- A packet goes back to the pool, its flags reset. -/
theorem requeue_inv (h : Inv s w) {flags : BitVec 32} {r : Received}
    (htask : s.task = .testing flags r) (hkeep : s.keeps r.packet.data = false) :
    Inv { drvAddRxPacket s r.packet with task := .receiving flags } w := by
  have hmine : s.mine = [r.packet] := by
    simp only [State.mine, htask, hkeep]
    rfl
  refine ⟨h.apart_of ?_, fun p hp => (List.not_mem_nil hp).elim, fun p hp => ?_, ?_, ?_⟩
  · rw [State.packets, State.packets, hmine]
    show (s.rxPackets ++ [r.packet] ++ s.kept ++ ([] ++ _)).Perm _
    rw [List.append_assoc s.rxPackets, List.append_assoc s.rxPackets, List.append_assoc s.rxPackets,
      List.nil_append,
      ← List.append_assoc s.kept]
    exact (List.perm_append_comm.append_right _).append_left _
  · show Function.update s.keeps r.packet.data false p.data = false
    rw [Function.update_apply]
    split_ifs with hdata
    · rfl
    · apply h.clear p
      rw [htask]
      have hp' : p ∈ s.rxPackets ++ [r.packet] ++ s.receivedPackets.map Received.packet := hp
      rw [List.append_assoc, List.mem_append, List.mem_append, List.mem_singleton] at hp'
      rcases hp' with hrx | rfl | hreceived
      · exact List.mem_append_left _ hrx
      · exact absurd rfl hdata
      · exact List.mem_append_right _ hreceived
  · have hreceived := h.received
    rw [htask] at hreceived
    exact hreceived
  · have hsent := h.sent
    rw [htask] at hsent
    exact hsent

theorem take_inv (h : Inv s w) {flags : BitVec 32} {p : Nat} {rest : List Nat}
    (htask : s.task = .sending flags) (hq : s.transmittedPackets = p :: rest) :
    Inv { s with transmittedPackets := rest, task := .holding flags p } w := by
  obtain ⟨hapart, -, hclear, hreceived, hsent⟩ := h
  rw [State.packets, State.mine, htask] at hapart
  rw [htask] at hclear hreceived
  rw [htask, hq] at hsent
  exact ⟨hapart, fun p hp => (List.not_mem_nil hp).elim, hclear, hreceived, hsent⟩

/-- The task is done with a sent packet. -/
theorem done_inv (h : Inv s w) {flags : BitVec 32} {p : Nat} {task : Task}
    (htask : s.task = .holding flags p) (hempty : task.Empty) :
    Inv { s with task := task } { w with done := w.done ++ [p] } := by
  obtain ⟨hapart, -, hclear, hreceived, hsent⟩ := h
  rw [State.packets, State.mine, htask] at hapart
  rw [htask] at hclear hreceived hsent
  refine ⟨?_, fun p hp => ?_, ?_, ?_, ?_⟩
  · rw [State.packets, hempty.mine s]
    exact hapart
  · rw [hempty.shared s] at hp
    cases hp
  · show ∀ p ∈ s.rxPackets ++ (task.undecoded ++ s.receivedPackets).map Received.packet,
      s.keeps p.data = false
    rw [hempty.undecoded]
    exact hclear
  · show w.captured = w.decoded ++ (task.undecoded ++ s.receivedPackets).map _
    rw [hempty.undecoded]
    exact hreceived
  · show w.sent = w.done ++ [p] ++ (task.held ++ s.transmittedPackets)
    rw [hempty.held, hsent, List.append_assoc]
    rfl

/-- What the network task does next. -/
theorem rxTask_inv (h : Inv s w) {keep : Bool} {ret : Err} (hs : rxTask s keep ret = some s') :
    Inv s' (log w s (.rxTask keep ret) s') := by
  have hempty (task : Task) (hs : s.task = task) (hmine : s.mine = []) (hu : task.undecoded = [])
      (hh : task.held = []) {task' : Task} (he : task'.Empty)
        (syncFlags : BitVec 32) (linkState : Nat) :
      Inv { s with syncFlags := syncFlags, linkState := linkState, task := task' } w :=
    h.retask syncFlags linkState ((he.mine s).trans hmine.symm) (he.shared s)
      (by rw [he.undecoded, hs, hu]) (by rw [he.held, hs, hh])
  cases rxTask_turn hs with
  | wake taken htask htaken =>
    simp only [log, htask]
    exact hempty _ htask (by rw [State.mine, htask]) rfl rfl (behindWait_empty _) _ _
  | receive flags r rest htask hq =>
    simp only [log, htask]
    exact receive_inv h htask hq
  | received flags htask hq =>
    simp only [log, htask]
    exact hempty _ htask (by rw [State.mine, htask]) rfl rfl (behindReceived_empty _) _ _
  | called flags r htask =>
    simp only [log, htask]
    exact called_inv h htask
  | decoded flags r htask =>
    simp only [log, htask]
    exact decoded_inv h htask
  | keep flags r htask =>
    simp only [log, htask]
    exact keep_inv h htask
  | kept flags r htask hkeep =>
    simp only [log, htask]
    exact hempty _ htask (by simp only [State.mine, htask, hkeep]; rfl) rfl rfl
      ⟨rfl, rfl, fun _ => rfl, fun _ => rfl⟩ _ _
  | requeue flags r htask hkeep =>
    simp only [log, htask]
    exact requeue_inv h htask hkeep
  | take flags p rest htask hq =>
    simp only [log, htask]
    exact take_inv h htask hq
  | taken flags htask hq =>
    simp only [log, htask]
    exact hempty _ htask (by rw [State.mine, htask]) rfl rfl
      ⟨rfl, rfl, fun _ => rfl, fun _ => rfl⟩ _ _
  | release flags p htask hret | refused flags p htask hret =>
    simp only [log, htask]
    exact done_inv h htask ⟨rfl, rfl, fun _ => rfl, fun _ => rfl⟩
  | sleep flags linkState htask =>
    simp only [log, htask]
    exact hempty _ htask (by rw [State.mine, htask]) rfl rfl
      ⟨rfl, rfl, fun _ => rfl, fun _ => rfl⟩ _ _

/-- A packet that the task has tested, or not taken, and that a consumer has is not the one the task
tests. -/
theorem Inv.testing_ne (h : Inv s w) {packet : Packet} (hmem : packet ∈ s.kept)
    (huntested : s.task.untested ≠ some packet) {flags : BitVec 32} {r : Received}
    (htask : s.task = .testing flags r) : r.packet.data ≠ packet.data := by
  intro hdata
  have hr : r.packet ∈ s.packets := by
    cases hkeep : s.keeps r.packet.data with
    | true =>
      refine mem_kept (h.shared _ ?_)
      simp only [State.shared, htask, hkeep]
      exact List.mem_cons_self
    | false =>
      apply mem_mine
      simp only [State.mine, htask, hkeep]
      exact List.mem_cons_self
  apply huntested
  rw [htask, ← h.inj hr (mem_kept hmem) hdata]
  rfl

/-- A consumer gives back a packet that the task has tested. -/
theorem giveBack_inv (h : Inv s w) {packet : Packet} (hmem : packet ∈ s.kept)
    (huntested : s.task.untested ≠ some packet) :
    Inv { drvAddRxPacket s packet with kept := s.kept.erase packet } w := by
  have hkeeps : ∀ flags r, s.task = .testing flags r →
      Function.update s.keeps packet.data false r.packet.data = s.keeps r.packet.data :=
    fun flags r htask => Function.update_of_ne (h.testing_ne hmem huntested htask) _ _
  have hmine : ({ drvAddRxPacket s packet with kept := s.kept.erase packet } : State).mine =
      s.mine := by
    unfold State.mine drvAddRxPacket
    cases htask : s.task with
    | testing flags r =>
      exact congrArg (fun keep => bif keep then _ else _) (hkeeps flags r htask)
    | _ => rfl
  have hshared : ({ drvAddRxPacket s packet with kept := s.kept.erase packet } : State).shared =
      s.shared := by
    unfold State.shared drvAddRxPacket
    cases htask : s.task with
    | testing flags r =>
      exact congrArg (fun keep => bif keep then _ else _) (hkeeps flags r htask)
    | _ => rfl
  refine ⟨h.apart_of ?_, fun p hp => ?_, fun p hp => ?_, h.received, h.sent⟩
  · rw [State.packets, State.packets, hmine]
    refine List.Perm.append_right _ ?_
    show (s.rxPackets ++ [packet] ++ s.kept.erase packet).Perm _
    rw [List.append_assoc]
    exact List.Perm.append_left _ (List.perm_cons_erase hmem).symm
  · rw [hshared] at hp
    refine (List.mem_erase_of_ne fun heq => huntested ?_).mpr (h.shared p hp)
    unfold State.shared at hp
    cases htask : s.task with
    | called flags r =>
      simp only [htask] at hp
      rw [← heq, List.mem_singleton.mp hp]
      rfl
    | testing flags r =>
      simp only [htask] at hp
      cases hkeep : s.keeps r.packet.data with
      | true =>
        rw [hkeep] at hp
        rw [← heq, List.mem_singleton.mp hp]
        rfl
      | false =>
        rw [hkeep] at hp
        cases hp
    | _ =>
      simp only [htask] at hp
      cases hp
  · show Function.update s.keeps packet.data false p.data = false
    rw [Function.update_apply]
    split_ifs with hdata
    · rfl
    · apply h.clear p
      have hp' : p ∈ s.rxPackets ++ [packet] ++ (s.task.undecoded ++ s.receivedPackets).map
        Received.packet := hp
      rw [List.append_assoc, List.mem_append, List.mem_append, List.mem_singleton] at hp'
      rcases hp' with hrx | rfl | hreceived
      · exact List.mem_append_left _ hrx
      · exact absurd rfl hdata
      · exact List.mem_append_right _ hreceived

theorem step_inv (h : Inv s w) (hok : Orderly (s, w) e) (hs : step s e = some s') : Inv s' (log w s e s') := by
  cases e with
  | capture pktData =>
    obtain rfl := Option.some.inj hs
    exact capture_inv h pktData
  | send p =>
    obtain rfl := Option.some.inj hs
    refine ⟨h.apart, h.shared, h.clear, h.received, ?_⟩
    show w.sent ++ [p] = w.done ++ (s.task.held ++ (s.transmittedPackets ++ [p]))
    rw [h.sent]
    simp only [List.append_assoc]
  | callback c =>
    rw [step] at hs
    split_ifs at hs
    obtain rfl := Option.some.inj hs
    exact ⟨h.apart, h.shared, h.clear, h.received, h.sent⟩
  | timer =>
    obtain rfl := Option.some.inj hs
    exact ⟨h.apart, h.shared, h.clear, h.received, h.sent⟩
  | setLink link =>
    obtain rfl := Option.some.inj hs
    exact ⟨h.apart, h.shared, h.clear, h.received, h.sent⟩
  | giveBack packet =>
    rw [step] at hs
    split_ifs at hs with hmem
    obtain rfl := Option.some.inj hs
    exact giveBack_inv h (List.contains_iff_mem.mp hmem) hok
  | rxTask keep ret => exact rxTask_inv h hs

end Steps

end NanoIp.NetTask
