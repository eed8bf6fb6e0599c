import NanoIp.Core.Packet
import NanoIp.Lib.Queue
import NanoIp.Packets.Allocator

/-!
# Sending through the pcap driver

A packet goes from the module that allocated it through `NANO_IP_PCAP_DrvSendPacket` into
the driver's transmitted packets, and from there through the network task back to the
allocator, unless the module keeps it. The modules, the calls of the driver and the
network task run interleaved; the driver's queue and the allocator each have a mutex.
-/
namespace NanoIp.Pcap

open Allocator (Config Desc)

variable {g : Config}

/-- Where the network task stands in its handling of `NETIF_PACKET_SENT`. -/
inductive Task (g : Config) where
  | waiting
  /-- about to call `get_next_tx_packet` -/
  | looking
  /-- with a sent packet, about to test its KEEP flag -/
  | holding (d : Desc g)
  deriving DecidableEq

/-- A call of `NANO_IP_PCAP_DrvSendPacket` behind its mutex: its packet, whether the module
keeps it, and the result. -/
structure Call (g : Config) where
  packet : Desc g
  keep : Bool
  ret : Err
  deriving DecidableEq

/-- The allocator with the packets, their `next` pointers, the driver's
`transmitted_packets`, `NETIF_PACKET_SENT` of the interface, the network task, the calls
under way and the packets the modules have. -/
structure State (g : Config) where
  allocator : Allocator.State g
  next : Desc g → Option (Desc g)
  transmittedPackets : Lib.Queue (Desc g)
  packetSent : Bool
  task : Task g
  calls : List (Call g)
  held : List (Desc g)

def State.flags (s : State g) (d : Desc g) : BitVec 32 := (s.allocator.mem d).packet.flags

/-- `NET_IF_PACKET_FLAG_KEEP_PACKET` is set. -/
def State.kept (s : State g) (d : Desc g) : Bool := s.flags d &&& packetFlagKeepPacket ≠ 0#32

/-- `packet->flags |= NET_IF_PACKET_FLAG_KEEP_PACKET`. -/
def State.keep (s : State g) (d : Desc g) : State g :=
  { s with allocator := s.allocator.setFlags d (s.flags d ||| packetFlagKeepPacket) }

/-- The packets of `transmitted_packets`, from the first on. -/
def State.queued (s : State g) : List (Desc g) :=
  Lib.chain s.next (g.bigBuffersCount.toNat + g.smallBuffersCount.toNat) s.transmittedPackets.head

/-- `NANO_IP_PACKET_AddToQueue` on `transmitted_packets`. -/
def State.addToQueue (s : State g) (d : Desc g) : State g :=
  { s with
    next := (s.transmittedPackets.add s.next d).1
    transmittedPackets := (s.transmittedPackets.add s.next d).2 }

/-- `NANO_IP_PCAP_DrvSendPacket` up to its notification; `pcapRet` is what `pcap_sendpacket`
returned. -/
def drvSendPacket (s : State g) (d : Desc g) (pcapRet : Int) : State g × Err :=
  let ret := if pcapRet = 0 then .success else .failure
  (s.addToQueue d, ret)

/-- `NANO_IP_PCAP_DrvGetNextTxPacket`. -/
def drvGetNextTxPacket (s : State g) : Except Err (State g × Desc g) :=
  match s.transmittedPackets.pop s.next with
  | some (d, next, q) => .ok ({ s with next := next, transmittedPackets := q }, d)
  | none => .error .packetNotFound

/-- A module allocates a packet for transmission. -/
def allocatePacket (s : State g) (size : BitVec 16) : State g :=
  match Allocator.allocate s.allocator size with
  | (allocator, .ok d) => { s with allocator := allocator.setFlags d packetFlagTx,
                                   held := d :: s.held }
  | (allocator, .error _) => { s with allocator := allocator }

/-- A module sends a packet it has, and may want to keep it. -/
def sendPacket (s : State g) (d : Desc g) (keep : Bool) (pcapRet : Int) : State g :=
  let s := if keep then s.keep d else s
  let sent := drvSendPacket s d pcapRet
  { sent.1 with held := sent.1.held.erase d, calls := ⟨d, s.kept d, sent.2⟩ :: sent.1.calls }

/-- The driver notifies the interface and returns. The module has its packet again if the
driver refused it, or if it keeps it. -/
def sendReturns (s : State g) (c : Call g) : State g :=
  { s with
    packetSent := true
    calls := s.calls.erase c
    held := if c.ret = .success ∧ c.keep = false then s.held else c.packet :: s.held }

def releasePacket (s : State g) (d : Desc g) : State g :=
  { s with allocator := (Allocator.release s.allocator d).1, held := s.held.erase d }

/-- `NETIF_PACKET_SENT` in `NANO_IP_NET_IF_RxTask`: the wait, the call of the driver, and
what is done with its packet. The loop ends when the release fails. -/
def rxTask (s : State g) : Option (State g) :=
  match s.task with
  | .waiting => if s.packetSent then some { s with packetSent := false, task := .looking } else none
  | .looking =>
    match drvGetNextTxPacket s with
    | .ok (s, d) => some { s with task := .holding d }
    | .error _ => some { s with task := .waiting }
  | .holding d =>
    if s.kept d = false then
      match Allocator.release s.allocator d with
      | (allocator, ret) =>
        some { s with allocator := allocator,
                      task := if ret = .success then .looking else .waiting }
    else some { s with task := .looking }

/-- What happens next. -/
inductive Input (g : Config) where
  | allocatePacket (size : BitVec 16)
  | sendPacket (d : Desc g) (keep : Bool) (pcapRet : Int)
  | sendReturns (c : Call g)
  | releasePacket (d : Desc g)
  | rxTask

def step (s : State g) : Input g → Option (State g)
  | .allocatePacket size => some (allocatePacket s size)
  | .sendPacket d keep pcapRet => if d ∈ s.held then some (sendPacket s d keep pcapRet) else none
  | .sendReturns c => if c ∈ s.calls then some (sendReturns s c) else none
  | .releasePacket d => if d ∈ s.held then some (releasePacket s d) else none
  | .rxTask => rxTask s

/-- The network task is about to release this packet. -/
def State.releases (s : State g) (d : Desc g) : Prop := s.task = .holding d ∧ s.kept d = false

instance (s : State g) (d : Desc g) : Decidable (s.releases d) :=
  inferInstanceAs (Decidable (_ ∧ _))

/-- The packets allocated so far, and the results of the releases. -/
structure Trace (g : Config) where
  ledger : Allocator.Ledger g
  releases : List (Desc g × Err)

/-- A release is seen. -/
def Trace.release (t : Trace g) (s : State g) (d : Desc g) : Trace g where
  ledger := Allocator.see t.ledger s.allocator (.release d) (Allocator.release s.allocator d).1
  releases := t.releases ++ [(d, (Allocator.release s.allocator d).2)]

def see (t : Trace g) (s : State g) (i : Input g) (_ : State g) : Trace g :=
  match i, s.task with
  | .allocatePacket size, _ =>
    { t with
      ledger := Allocator.see t.ledger s.allocator (.allocate size)
        (Allocator.allocate s.allocator size).1 }
  | .releasePacket d, _ => t.release s d
  | .rxTask, .holding d => if s.kept d = false then t.release s d else t
  | _, _ => t

/-- The driver is done with a packet. -/
def State.Completed (s : State g) (d : Desc g) : Prop := d ∉ s.queued ∧ s.task ≠ .holding d

instance (s : State g) (d : Desc g) : Decidable (s.Completed d) :=
  inferInstanceAs (Decidable (_ ∧ _))

/-- A module sends or releases a packet it keeps only when the driver is done with it. -/
def Patient (s : State g) : Input g → Prop
  | .sendPacket d _ _ => s.Completed d
  | .releasePacket d => s.kept d = true → s.Completed d
  | _ => True

instance (s : State g) (i : Input g) : Decidable (Patient s i) := by
  cases i <;> unfold Patient <;> infer_instance

/-- `pcap_sendpacket` does not fail. -/
def Sends : Input g → Prop
  | .sendPacket _ _ pcapRet => pcapRet = 0
  | _ => True

instance (i : Input g) : Decidable (Sends i) := by
  cases i <;> unfold Sends <;> infer_instance

/-- A packet the driver refused is not in its queue, every release finds its packet
allocated, the network task releases no packet that a module has, and when it waits with
nothing signalled and no call under way the queue is empty. -/
structure Sound (x : State g × Trace g) : Prop where
  refused : ∀ c ∈ x.1.calls, c.ret ≠ .success → c.packet ∉ x.1.queued
  once : ∀ r ∈ x.2.releases, r.2 = .success
  other : ∀ d, x.1.releases d → d ∉ x.1.held
  drained : x.1.task = .waiting → x.1.packetSent = false → x.1.calls = [] → x.1.queued = []

/-- Nothing allocated, queued or under way. -/
def initial (mem : Desc g → Allocator.Buffer g) (next : Desc g → Option (Desc g)) :
    State g × Trace g :=
  ({ allocator := Allocator.init mem
     next := next
     transmittedPackets := Lib.Queue.empty
     packetSent := false
     task := .waiting
     calls := []
     held := [] }, ⟨⟨[], []⟩, []⟩)

end NanoIp.Pcap
