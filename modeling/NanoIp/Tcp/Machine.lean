import NanoIp.Tcp.Periodic
import NanoIp.Lib.Run

/-!
# The TCP module as a transition system

The inputs are the calls of the application, received segments, completions of
ARP requests, iterations of the periodic task, returns from callbacks and the
passage of time. The application may call the interface outside the stack and
inside any of its callbacks; everything else waits for the stack mutex. Releasing
a handle may itself call back, and is taken outside callbacks only.
-/
namespace NanoIp.Tcp

variable {n : Nat}

/-- What can happen next. -/
inductive Input (n : Nat) where
  | open_ (h : Fin n) (localPort : BitVec 16) (readings : List Nat)
  | bind (h : Fin n) (address : Ipv4Address) (port : BitVec 16)
  | connect (h : Fin n) (address : Ipv4Address) (port : BitVec 16) (lower : Lower)
  | listen (h : Fin n)
  | close (h : Fin n) (lower : Lower)
  | allocatePacket (answer : Except Failure PacketId) (packetSize : BitVec 16)
  | writePacket (pid : PacketId) (bs : List Byte)
  | sendPacket (h : Fin n) (pid : PacketId) (lower : Lower)
  | releasePacket (pid : PacketId)
  /-- `NANO_IP_TCP_ReleaseHandle`; `pending` says that ARP finds the request it cancels -/
  | releaseHandle (h : Fin n) (pending : Bool)
  | elapse (ms : Nat)
  | rxFrame (seg : Segment) (lower : Lower)
  /-- the ARP request of a busy handle completes -/
  | arpResponse (h : Fin n) (mac : Option MacAddress) (driver : Err)
  | periodicTask
  /-- one iteration of the loop of the periodic task -/
  | visit (lower : Lower)
  /-- the application returns from a callback -/
  | ret (release : Bool) (acceptHandle : Option (Fin n)) (lower : Lower)

/-- The application runs outside the stack and in its callbacks. -/
def Pc.callable : Pc n → Bool
  | .tick _ _ => false
  | _ => true

/-- What follows the return of a callback. -/
def resume (m : Stack n) (release : Bool) (acceptHandle : Option (Fin n)) (lower : Lower) :
    Pc n → Option (Stack n × Pc n)
  | .inReset h seg => some (rxAcknowledge m h seg.1 lower)
  | .inAccepting h seg => some (rxAccept m h seg acceptHandle lower)
  | .inRx seg => some (if release then m else m.record (.kept seg), .ready)
  | .inCallback => some (m, .ready)
  | .inTick h timestamp => some (m, .tick (m.mem h).next timestamp)
  | .inTxFailed h timestamp => some (m.raise h .closed .timeout none, .inTick h timestamp)
  | .ready | .tick _ _ => none

/-- `NANO_IP_TCP_ReleaseHandle`: a pending request is cancelled through its callback. -/
def releaseHandle (m : Stack n) (h : Fin n) (pending : Bool) : Stack n × Pc n :=
  if (m.mem h).state = .closed ∧ (m.mem h).ipv4Handle.busy ∧
    pending then arpResponse m h none .success
  else (m, .ready)

/-- A call of the interface: the state it leaves. -/
def call (m : Stack n) : Input n → Option (Stack n)
  | .open_ h localPort readings => (open_ m h localPort readings).map Prod.fst
  | .bind h address port => some (bind m h address port).1
  | .connect h address port lower => some (connect m h address port lower).1
  | .listen h => some (listen m h).1
  | .close h lower => some (close m h lower).1
  | .allocatePacket answer packetSize => some (allocatePacket m answer packetSize).1
  | .writePacket pid bs => some (writePacket m pid bs)
  | .sendPacket h pid lower => some (sendPacket m h pid lower).1
  | .releasePacket pid => some (m.releasePacket pid)
  | .elapse ms => some (m.wait ms)
  | _ => none

/-- One step of the module. -/
def step (x : Stack n × Pc n) (i : Input n) : Option (Stack n × Pc n) :=
  match i, x.2 with
  | .rxFrame seg lower, .ready => some (rxFrame x.1 seg lower)
  | .arpResponse h mac driver, .ready =>
    if (x.1.mem h).ipv4Handle.busy then some (arpResponse x.1 h mac driver) else none
  | .periodicTask, .ready => some (x.1, .tick x.1.handles x.1.msCounter)
  | .visit lower, .tick (some h) timestamp => some (visit x.1 h timestamp lower)
  | .visit _, .tick none _ => some (x.1, .ready)
  | .ret release acceptHandle lower, pc => resume x.1 release acceptHandle lower pc
  | .releaseHandle h pending, .ready => some (releaseHandle x.1 h pending)
  | i, pc => if pc.callable then (call x.1 i).map fun m => (m, pc) else none

/-- The ways a step can be taken. -/
inductive Move (x : Stack n × Pc n) : Input n → Stack n × Pc n → Prop
  | rxFrame (seg : Segment) (lower : Lower) (hpc : x.2 = .ready) :
      Move x (.rxFrame seg lower) (rxFrame x.1 seg lower)
  | arpResponse (h : Fin n) (mac : Option MacAddress) (driver : Err) (hpc : x.2 = .ready)
      (hb : (x.1.mem h).ipv4Handle.busy = true) :
      Move x (.arpResponse h mac driver) (arpResponse x.1 h mac driver)
  | periodicTask (hpc : x.2 = .ready) : Move x .periodicTask (x.1, .tick x.1.handles x.1.msCounter)
  | visit (lower : Lower) (h : Fin n) (timestamp : BitVec 32)
      (hpc : x.2 = .tick (some h) timestamp) :
      Move x (.visit lower) (visit x.1 h timestamp lower)
  | visited (lower : Lower) (timestamp : BitVec 32) (hpc : x.2 = .tick none timestamp) :
      Move x (.visit lower) (x.1, .ready)
  | ret (release : Bool) (acceptHandle : Option (Fin n)) (lower : Lower) (y : Stack n × Pc n)
      (hr : resume x.1 release acceptHandle lower x.2 = some y) :
      Move x (.ret release acceptHandle lower) y
  | releaseHandle (h : Fin n) (pending : Bool) (hpc : x.2 = .ready) :
      Move x (.releaseHandle h pending) (releaseHandle x.1 h pending)
  | call (i : Input n) (m : Stack n) (hpc : x.2.callable = true) (hc : call x.1 i = some m) :
      Move x i (m, x.2)

theorem step_move {x y : Stack n × Pc n} {i : Input n} (hs : step x i = some y) : Move x i y := by
  obtain ⟨m, pc⟩ := x
  have hcall (hc : (if pc.callable then (call m i).map fun m => (m, pc) else none) = some y) :
      Move (m, pc) i y := by
    by_cases hpc : pc.callable = true
    · rw [if_pos hpc] at hc
      obtain ⟨m', hm, rfl⟩ := Option.map_eq_some_iff.mp hc
      exact .call i m' hpc hm
    · rw [if_neg hpc] at hc
      cases hc
  have hrefused (hn : call m i = none) (hc : (if pc.callable then (call m i).map fun m => (m, pc)
      else none) = some y) : Move (m, pc) i y := by
    rw [hn] at hc
    simp at hc
  cases i with
  | rxFrame seg lower =>
    cases pc with
    | ready => obtain rfl := Option.some.inj hs; exact .rxFrame seg lower rfl
    | _ => exact hrefused rfl hs
  | arpResponse h mac driver =>
    cases pc with
    | ready =>
      by_cases hb : (m.mem h).ipv4Handle.busy = true
      · obtain rfl := Option.some.inj ((if_pos hb).symm.trans hs)
        exact .arpResponse h mac driver rfl hb
      · cases (if_neg hb).symm.trans hs
    | _ => exact hrefused rfl hs
  | periodicTask =>
    cases pc with
    | ready => obtain rfl := Option.some.inj hs; exact .periodicTask rfl
    | _ => exact hrefused rfl hs
  | visit lower =>
    cases pc with
    | tick current timestamp =>
      cases current with
      | none => obtain rfl := Option.some.inj hs; exact .visited lower timestamp rfl
      | some h => obtain rfl := Option.some.inj hs; exact .visit lower h timestamp rfl
    | _ => exact hrefused rfl hs
  | ret release acceptHandle lower => exact .ret release acceptHandle lower y hs
  | releaseHandle h pending =>
    cases pc with
    | ready => obtain rfl := Option.some.inj hs; exact .releaseHandle h pending rfl
    | _ => exact hrefused rfl hs
  | _ => exact hcall hs

/-- All handles initialised, none registered. -/
def initial (n : Nat) (packets : PacketId → Packet) (nextFreeLocalPort : BitVec 16) (time : Nat) :
    Stack n × Pc n :=
  ({ handles := none
     mem := fun _ => Handle.init n
     nextFreeLocalPort := nextFreeLocalPort
     packets := packets
     allocated := []
     time := time
     log := [] }, .ready)

def blankPacket : Packet := ⟨fun _ => 0#8, 0, 0#16, 0#16, 0#32, none⟩

/-- Layers below that transmit at once: packet `pid` is free, the interface is known
and the address resolved. -/
def transmitting (pid : PacketId) : Lower where
  alloc := .ok pid
  route _ := .ok (0#32, ⟨Vector.replicate 6 1#8, 0x0A000001#32, 0#32⟩)
  arp _ := .resolved (Vector.replicate 6 2#8)
  driver := .success
  elapsed := 0

/-- The peer's segment with the given numbers, flags and payload. -/
def peerSegment (seqNumber ackNumber : BitVec 32) (flags : Byte) (payload : List Byte) :
    Segment where
  srcAddress := 0x0A000002#32
  destAddress := 0x0A000001#32
  srcPort := 80#16
  destPort := 5000#16
  seqNumber := seqNumber
  ackNumber := ackNumber
  flags := flags
  payload := payload.take 65535
  payload_lt := Nat.lt_of_le_of_lt (List.length_take_le _ _) (by decide)

/-- Handle `h` connects to the peer, which answers with sequence number `isn`. -/
def handshake (h : Fin n) (time : Nat) (isn : BitVec 32) : List (Input n) :=
  [.open_ h 5000#16 [], .connect h 0x0A000002#32 80#16 (transmitting 0),
    .rxFrame (peerSegment isn (BitVec.ofNat 32 time + 1#32) (flagSyn ||| flagAck) [])
      (transmitting 1),
    .ret true none (transmitting 0)]

/-- The application allocates packet `pid` for a payload and writes it. -/
def compose (pid : PacketId) (payload : List Byte) : List (Input n) :=
  [.allocatePacket (.ok pid) (BitVec.ofNat 16 payload.length), .writePacket pid payload]

end NanoIp.Tcp
