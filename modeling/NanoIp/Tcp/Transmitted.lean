import NanoIp.Lib.Queue
import NanoIp.Tcp.Machine
import NanoIp.Tcp.Ownership

/-!
# The driver beside the TCP module

A driver queues the packets it accepts for transmission, moves each to its transmitted
packets when it has left, in order, and the network task takes them from there and releases
those whose KEEP flag is not set. The other modules allocate and send packets too. Nothing
orders the driver and the network task against the steps of the TCP module.
-/
namespace NanoIp.Tcp

variable {n : Nat}

/-- A driver: the packets to transmit, those transmitted, the packets' `next` pointers and
how many packets it took so far. -/
structure Driver where
  next : PacketId → Option PacketId
  transmitting : Lib.Queue PacketId
  transmitted : Lib.Queue PacketId
  count : Nat

namespace Driver

/-- `send_packet`: `NANO_IP_PACKET_AddToQueue` on the packets to transmit. -/
def sendPacket (d : Driver) (pid : PacketId) : Driver where
  next := (d.transmitting.add d.next pid).1
  transmitting := (d.transmitting.add d.next pid).2
  transmitted := d.transmitted
  count := d.count + 1

/-- The first packet to transmit has left. -/
def transmit (d : Driver) : Option Driver :=
  match d.transmitting.pop d.next with
  | some (pid, next, q) =>
    some { d with
      next := (d.transmitted.add next pid).1
      transmitting := q
      transmitted := (d.transmitted.add next pid).2 }
  | none => none

/-- `get_next_tx_packet`. -/
def getNextTxPacket (d : Driver) : Option (PacketId × Driver) :=
  match d.transmitted.pop d.next with
  | some (pid, next, q) => some (pid, { d with next := next, transmitted := q })
  | none => none

def packets (d : Driver) : List PacketId :=
  Lib.chain d.next d.count d.transmitted.head ++ Lib.chain d.next d.count d.transmitting.head

end Driver

/-- A packet that reached the driver and was accepted. -/
def Obs.accepted : Obs n → Option PacketId
  | .handed _ pid .success => some pid
  | _ => none

/-- The module, the driver, and the packet that the network task is about to test. -/
structure World (n : Nat) where
  module : Stack n × Pc n
  driver : Driver
  sent : Option PacketId

/-- What happens next: a step of the TCP module, an allocation or a transmission of another
one, the end of a transmission, and the two halves of the loop over the sent packets in
`NANO_IP_NET_IF_RxTask`. -/
inductive World.Input (n : Nat) where
  | module (i : Tcp.Input n)
  | allocatePacket (pid : PacketId) (packetSize : BitVec 16)
  | sendPacket (pid : PacketId) (ret : Err)
  | transmit
  | getNextTxPacket
  | testPacket

namespace World

/-- The driver queues what the step handed over. -/
def moduleStep (w : World n) (i : Tcp.Input n) : Option (World n) :=
  (step w.module i).map fun y =>
    { w with
      module := y,
      driver := ((newEntries w.module y).filterMap Obs.accepted).foldl Driver.sendPacket w.driver }

/-- Another module allocates a packet of the allocator's choice. -/
def allocatePacket (w : World n) (pid : PacketId) (packetSize : BitVec 16) : Option (World n) :=
  if pid ∈ w.module.1.allocated then none
  else
    some { w with module := ({ w.module.1 with
      allocated := pid :: w.module.1.allocated
      packets := Function.update w.module.1.packets pid
        (Ethernet.allocatePacket packetSize (w.module.1.packets pid)) }, w.module.2) }

/-- Another module sends a packet; `ret` is the driver's answer. -/
def sendPacket (w : World n) (pid : PacketId) (ret : Err) : World n :=
  if ret = .success then { w with driver := w.driver.sendPacket pid } else w

/-- `Get sent packet`. -/
def getNextTxPacket (w : World n) : Option (World n) :=
  match w.sent, w.driver.getNextTxPacket with
  | none, some (pid, d) => some { w with driver := d, sent := some pid }
  | _, _ => none

/-- `Release packet`, unless its KEEP flag is set. -/
def testPacket (w : World n) : Option (World n) :=
  match w.sent with
  | some pid =>
    if (w.module.1.packets pid).flags &&& packetFlagKeepPacket = 0#32 then
      some { w with module := (w.module.1.releasePacket pid, w.module.2), sent := none }
    else some { w with sent := none }
  | none => none

def step (w : World n) : World.Input n → Option (World n)
  | .module i => moduleStep w i
  | .allocatePacket pid packetSize => allocatePacket w pid packetSize
  | .sendPacket pid ret => some (sendPacket w pid ret)
  | .transmit => w.driver.transmit.map fun d => { w with driver := d }
  | .getNextTxPacket => getNextTxPacket w
  | .testPacket => testPacket w

end World

/-- A stack without connections and a driver without packets. -/
def World.initial (n : Nat) (packets : PacketId → Packet) (nextFreeLocalPort : BitVec 16)
    (time : Nat) : World n where
  module := NanoIp.Tcp.initial n packets nextFreeLocalPort time
  driver := ⟨fun _ => none, .empty, .empty, 0⟩
  sent := none

def World.inDriver (w : World n) : List PacketId := w.sent.toList ++ w.driver.packets

/-- No packet is in the driver twice, and none that is there is free. -/
def World.OneOwner (w : World n) : Prop :=
  w.inDriver.Nodup ∧ ∀ pid ∈ w.inDriver, pid ∈ w.module.1.allocated

instance (w : World n) : Decidable w.OneOwner := inferInstanceAs (Decidable (_ ∧ _))

/-- The entry does not release a packet of `D`, nor hand it to the driver. -/
def Obs.Spares (D : List PacketId) : Obs n → Prop
  | .released pid | .handed _ pid .success => pid ∉ D
  | _ => True

/-- None of the entries releases or hands over a packet that the driver has by then: it
had `D` before them. -/
def Spared : List PacketId → List (Obs n) → Prop
  | _, [] => True
  | D, o :: new => o.Spares D ∧ Spared (D ++ o.accepted.toList) new

/-- The packets that stay with the driver and the network task during a step: they are
done with the packet that is tested. -/
def World.remaining (w : World n) : World.Input n → List PacketId
  | .testPacket => w.driver.packets
  | _ => w.inDriver

/-- The IPv4 handle of `h` keeps a packet until an ARP request completes. -/
def Waits (m : Stack n) (h : Fin n) (pid : PacketId) : Prop :=
  (m.mem h).ipv4Handle.busy = true ∧ (m.mem h).ipv4Handle.packet = some pid

instance (m : Stack n) (h : Fin n) (pid : PacketId) : Decidable (Waits m h pid) :=
  inferInstanceAs (Decidable (_ ∧ _))

/-- Neither the driver nor an ARP request has the packet. -/
def World.AtRest (w : World n) (pid : PacketId) : Prop :=
  pid ∉ w.inDriver ∧ ∀ h, ¬ Waits w.module.1 h pid

instance (w : World n) (pid : PacketId) : Decidable (w.AtRest pid) :=
  inferInstanceAs (Decidable (_ ∧ _))

/-- The modules send and release packets of their own: allocated, not sent so far, and not
left to a handle. -/
def World.Rightful (w : World n) : World.Input n → Prop
  | .module (.sendPacket h pid _) => (w.module.1.mem h).lastTxPacket = none →
      (w.module.1.mem h).state = .established →
      pid ∈ w.module.1.allocated ∧ ¬ Pending w.module.1 pid ∧ w.AtRest pid
  | .module (.releasePacket pid) | .sendPacket pid _ =>
    pid ∈ w.module.1.allocated ∧ ¬ Pending w.module.1 pid ∧ w.AtRest pid
  | _ => True

instance (w : World n) (i : World.Input n) : Decidable (w.Rightful i) := by
  unfold World.Rightful
  split <;> infer_instance

/-- The step releases the pending packet of `h`: it is acknowledged, or given up. -/
def GivesBack (h : Fin n) (x : Stack n × Pc n) (i : Input n) : Prop :=
  match i, x.2 with
  | .rxFrame seg _, .ready => lookup x.1 seg = some h ∧ (x.1.mem h).state = .established ∧
      seg.ackNumber = (x.1.mem h).seqNumber ∧ seg.flags = flagAck
  | .visit _, .tick current timestamp => current = some h ∧ (x.1.mem h).state = .established ∧
      (x.1.mem h).stateTimeout ≤ timestamp ∧ (x.1.mem h).txRetryCount + 1#8 = maxRetryCount
  | _, _ => False

instance (h : Fin n) (x : Stack n × Pc n) (i : Input n) : Decidable (GivesBack h x i) := by
  rcases x with ⟨m, ⟨⟩⟩ <;> rcases i with ⟨⟩ <;> unfold GivesBack <;> infer_instance

/-- The step sends the pending packet of `h` again. -/
def Resends (h : Fin n) (x : Stack n × Pc n) (i : Input n) : Prop :=
  match i, x.2 with
  | .visit _, .tick current timestamp => current = some h ∧ (x.1.mem h).state = .established ∧
      (x.1.mem h).stateTimeout ≤ timestamp ∧ (x.1.mem h).txRetryCount + 1#8 ≠ maxRetryCount ∧
      (x.1.mem h).ipv4Handle.busy = false
  | _, _ => False

instance (h : Fin n) (x : Stack n × Pc n) (i : Input n) : Decidable (Resends h x i) := by
  rcases x with ⟨m, ⟨⟩⟩ <;> rcases i with ⟨⟩ <;> unfold Resends <;> infer_instance

/-- A pending packet is released or sent again only when it has left the driver, and no ARP
request fails that waits with it. -/
def World.Completed (w : World n) : World.Input n → Prop
  | .module i => (∀ h, ∀ pid ∈ (w.module.1.mem h).lastTxPacket,
      GivesBack h w.module i ∨ Resends h w.module i → w.AtRest pid) ∧ ArpSpares w.module i
  | _ => True

instance (w : World n) (i : World.Input n) : Decidable (w.Completed i) := by
  unfold World.Completed
  split <;> infer_instance

/-- The condition on a step. -/
def World.Careful (w : World n) (i : World.Input n) : Prop := w.Rightful i ∧ w.Completed i

instance (w : World n) (i : World.Input n) : Decidable (w.Careful i) :=
  inferInstanceAs (Decidable (_ ∧ _))

end NanoIp.Tcp
