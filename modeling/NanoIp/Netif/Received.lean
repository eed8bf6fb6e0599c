import NanoIp.Core.Ipv4
import NanoIp.Lib.Run

/-!
# The way of a received packet

A packet goes from the driver's receive pool through its received packets to the network
task, which decodes it and gives it back unless a consumer keeps it: a socket, read under
the stack mutex, or a task with a list of its own. The KEEP flag says which, and the network
task tests it after it has left the mutex.

The queues are the lists of their packets. A packet in two of them at once would corrupt
both, and is what is excluded here.
-/
namespace NanoIp.Received

variable {κ : Type}

/-- The two ways of consuming: `NANO_IP_SOCKET_ReceiveFrom`, and the tasks of the TFTP client
and server. -/
inductive Kind where
  | socket | task
  deriving DecidableEq

/-- Where the network task stands in its handling of `NETIF_PACKET_RECEIVED`. -/
inductive NetTask where
  | idle
  /-- with the next received packet, which is not decoded yet -/
  | decoding (pid : PacketId)
  /-- under the stack mutex, behind the callback of a consumer that keeps the packet -/
  | called (pid : PacketId)
  /-- about to test the KEEP flag -/
  | testing (pid : PacketId)
  deriving DecidableEq

/-- The driver's receive pool and received packets, the flags of the packets, the network
task, the packets that wait for each consumer and the one a consumer task holds; then, in
order, the packets the driver filled and those given back to it. -/
structure State (κ : Type) where
  rxPackets : List PacketId
  receivedPackets : List PacketId
  flags : PacketId → BitVec 32
  task : NetTask
  queue : κ → List PacketId
  hand : κ → Option PacketId
  receptions : List PacketId
  returns : List PacketId

section Steps

variable [DecidableEq κ]

def State.setFlags (s : State κ) (pid : PacketId) (flags : BitVec 32) : State κ :=
  { s with flags := Function.update s.flags pid flags }

def State.setQueue (s : State κ) (k : κ) (l : List PacketId) : State κ :=
  { s with queue := Function.update s.queue k l }

/-- `Requeue packet for reception`: the flags are reset and the driver has the packet again. -/
def State.addRxPacket (s : State κ) (pid : PacketId) : State κ :=
  { s with
    flags := Function.update s.flags pid packetFlagRx
    rxPackets := s.rxPackets ++ [pid]
    returns := s.returns ++ [pid] }

/-- `NANO_IP_ETHERNET_ReleasePacket`; a transmit packet goes to the allocator. -/
def State.releasePacket (s : State κ) (pid : PacketId) : State κ :=
  if s.flags pid &&& packetFlagTx = 0#32 then s.addRxPacket pid else s

/-- The driver fills the next packet of its pool, perhaps with a damaged frame. -/
def receive (s : State κ) (error : Bool) : Option (State κ) :=
  match s.rxPackets with
  | [] => none
  | pid :: rest =>
    let s := { s with
      rxPackets := rest
      receivedPackets := s.receivedPackets ++ [pid]
      receptions := s.receptions ++ [pid] }
    some (if error then s.setFlags pid (s.flags pid ||| packetFlagError) else s)

/-- `get_next_rx_packet`. -/
def getNextRxPacket (s : State κ) : Option (State κ) :=
  match s.task, s.receivedPackets with
  | .idle, pid :: rest => some { s with receivedPackets := rest, task := .decoding pid }
  | _, _ => none

/-- `NANO_IP_ETHERNET_RxFrame` of a sound frame, up to the callback of the consumer it is
for; a frame no consumer keeps is done with. -/
def rxFrame (s : State κ) (consumer : Option κ) : Option (State κ) :=
  match s.task with
  | .decoding pid =>
    if s.flags pid &&& packetFlagError = 0#32 then
      match consumer with
      | some k => some { s.setQueue k (s.queue k ++ [pid]) with task := .called pid }
      | none => some { s with task := .testing pid }
    else some { s with task := .testing pid }
  | _ => none

/-- The rest of `NANO_IP_UDP_RxFrame` and the end of the stack mutex. -/
def keepPacket (s : State κ) : Option (State κ) :=
  match s.task with
  | .called pid => some { s.setFlags pid
      (s.flags pid ||| packetFlagKeepPacket) with task := .testing pid }
  | _ => none

/-- `Check if packet is still in use`. -/
def testPacket (s : State κ) : Option (State κ) :=
  match s.task with
  | .testing pid =>
    if s.flags pid &&& packetFlagKeepPacket = 0#32 then
      some { s.releasePacket pid with task := .idle }
    else some { s with task := .idle }
  | _ => none

/-- The stack mutex is free. -/
def State.unlocked (s : State κ) : Bool :=
  match s.task with
  | .called _ => false
  | _ => true

/-- `NANO_IP_SOCKET_ReceiveFrom` of a whole packet. -/
def receiveFrom (s : State κ) (k : κ) : Option (State κ) :=
  match s.queue k with
  | [] => none
  | pid :: rest => if s.unlocked then some ((s.setQueue k rest).releasePacket pid) else none

/-- A consumer task takes a packet from its list. -/
def take (s : State κ) (k : κ) : Option (State κ) :=
  match s.hand k, s.queue k with
  | none, pid :: rest => some { s.setQueue k rest with hand := Function.update s.hand k (some pid) }
  | _, _ => none

/-- It has processed the packet and releases it. -/
def releaseTaken (s : State κ) (k : κ) : Option (State κ) :=
  match s.hand k with
  | some pid => some ({ s with hand := Function.update s.hand k none }.releasePacket pid)
  | none => none

/-- What happens next. -/
inductive Input (κ : Type) where
  | receive (error : Bool)
  | getNextRxPacket
  | rxFrame (consumer : Option κ)
  | keepPacket
  | testPacket
  | receiveFrom (k : κ)
  | take (k : κ)
  | releaseTaken (k : κ)

def step (kind : κ → Kind) (s : State κ) : Input κ → Option (State κ)
  | .receive error => receive s error
  | .getNextRxPacket => getNextRxPacket s
  | .rxFrame consumer => rxFrame s consumer
  | .keepPacket => keepPacket s
  | .testPacket => testPacket s
  | .receiveFrom k => if kind k = .socket then receiveFrom s k else none
  | .take k => if kind k = .task then take s k else none
  | .releaseTaken k => if kind k = .task then releaseTaken s k else none

end Steps

/-- The network task will not look at the packet again. -/
def State.Tested (s : State κ) (pid : PacketId) : Prop :=
  s.task ≠ .called pid ∧ s.task ≠ .testing pid

instance (s : State κ) (pid : PacketId) : Decidable (s.Tested pid) :=
  inferInstanceAs (Decidable (_ ∧ _))

/-- A consumer releases a packet only when the network task has tested it. -/
def Late (s : State κ) : Input κ → Prop
  | .receiveFrom k => ∀ pid ∈ (s.queue k).head?, s.Tested pid
  | .releaseTaken k => ∀ pid ∈ s.hand k, s.Tested pid
  | _ => True

instance (s : State κ) (i : Input κ) : Decidable (Late s i) := by
  cases i <;> unfold Late <;> infer_instance

/-- The queues a packet can stand in. -/
inductive Place (κ : Type) where
  | pool | received | queue (k : κ)
  deriving DecidableEq

def State.list (s : State κ) : Place κ → List PacketId
  | .pool => s.rxPackets
  | .received => s.receivedPackets
  | .queue k => s.queue k

/-- The network task has the packet to itself. -/
def State.mine (s : State κ) (pid : PacketId) : Prop :=
  s.task = .decoding pid ∨ s.task = .testing pid ∧ s.flags pid &&& packetFlagKeepPacket = 0#32

/-- No packet stands in two queues or in one of them twice, or in any while a consumer
task or the network task has it, which at most one has; a packet is in some place; and it
has been given back once for each reception, but for the one that is under way. -/
structure Sound (packets : List PacketId) (s : State κ) : Prop where
  nodup : ∀ p, (s.list p).Nodup
  apart : ∀ p q pid, pid ∈ s.list p → pid ∈ s.list q → p = q
  held : ∀ k pid, s.hand k = some pid → (∀ p, pid ∉ s.list p) ∧ ∀ j, s.hand j = some pid → j = k
  mine : ∀ pid, s.mine pid → (∀ p, pid ∉ s.list p) ∧ ∀ k, s.hand k ≠ some pid
  somewhere : ∀ pid ∈ packets, (∃ p, pid ∈ s.list p) ∨ (∃ k, s.hand k = some pid) ∨ s.mine pid
  once : ∀ pid ∈ packets, s.receptions.count pid = s.returns.count pid + if pid ∈
    s.rxPackets then 0 else 1

/-- The packets of the interface are in the pool, as `NANO_IP_NET_IF_Init` puts them there. -/
def initial (packets : List PacketId) (flags : PacketId → BitVec 32) : State κ where
  rxPackets := packets
  receivedPackets := []
  flags pid := if pid ∈ packets then packetFlagRx else flags pid
  task := .idle
  queue _ := []
  hand _ := none
  receptions := []
  returns := []

end NanoIp.Received
