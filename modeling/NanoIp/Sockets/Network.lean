import NanoIp.Lib.Lossy
import NanoIp.Sockets.Datagrams
import NanoIp.Sockets.SendOnce

/-!
# Datagrams from socket to socket

What is given to a UDP socket of one node goes through UDP, IPv4 and Ethernet, over a wire that
may lose frames, and up to the socket of another node that is bound to the port. Other nodes send
to this socket as well. The calls that read from it return the data of the first socket, but for
what was lost, each whole, once and in the order of the calls that sent it.
-/
namespace NanoIp.Sockets

open Ethernet (Received)
open Udp (Misplaced Reaches readDatagram sourceAddress)

variable {n k n' k' l m c a : Nat}

/-- A UDP socket of a node, with its handle as it is at first and the interface it sends by. -/
structure Sender (n k m : Nat) where
  module : Module n k
  socketId : BitVec 32
  socket : Fin n
  handle : Udp.Handle m
  netIf : NetIf
  get : module.get socketId = some socket
  type : (module.sockets socket).type = .udp

/-- A node with a UDP socket whose handle is the only one bound to the port. -/
structure Recipient (l n : Nat) where
  receiver : Udp.Receiver l
  netIf : NetIf
  handle : Fin l
  port : BitVec 16
  socketId : BitVec 32
  socket : Fin n
  listens : Udp.Listens receiver.module handle port netIf.ipv4Address

/-- What a call of `NANO_IP_SOCKET_SendTo` finds below it. -/
structure Underneath (c a : Nat) where
  id : PacketId
  packet : Packet
  below : Ipv4.Below
  arp : Arp.Module c a
  request : Fin a
  now : BitVec 32
  wait : Wait

namespace Sender

def source (x : Sender n k m) : Endpoint := ⟨sourceAddress x.handle x.netIf, x.handle.port⟩

/-- What `NANO_IP_UDP_SendPacket` makes of a call. -/
def udpSent (x : Sender n k m) (handle : Udp.Handle m) (dest : Endpoint) (data : List Byte)
    (u : Underneath c a) :
    Ipv4.Sent :=
  Udp.sendPacket (Udp.through u.below u.arp x.netIf u.request u.now) handle dest.address
    dest.port u.id
    (fill data (Udp.allocatedPacket (packetSize data) u.packet))

/-- `NANO_IP_SOCKET_SendTo`, if it returns behind one turn of its loop. -/
def sendTo (x : Sender n k m) (handle : Udp.Handle m) (dest : Endpoint) (data : List Byte)
    (u : Underneath c a) :
    Option (Err × Sending) :=
  Sockets.sendTo x.module x.socketId data (some dest)
    [⟨if handle.ipv4Handle.busy then .busy else .success, .ok (u.id, u.packet),
      (x.udpSent handle dest data u).ret,
      u.wait⟩] []

end Sender

namespace Recipient

def endpoint (y : Recipient l n) : Endpoint := ⟨y.netIf.ipv4Address, y.port⟩

/-- The packet that a frame brings to the socket, if any. -/
def delivery (y : Recipient l n) (q : Packet) : Option Packet :=
  match y.receiver.rxFrame y.netIf q with
  | some d => if d.handle = y.handle then some d.packet else none
  | none => none

def rxFrame (y : Recipient l n) (s : Module n k) (id : PacketId) (q : Packet) : Module n k :=
  match y.delivery q with
  | some p => udpCallback s y.socket .rx (some ⟨id, p⟩)
  | none => s

end Recipient

/-- A frame on the wire, and the data it was sent for. -/
structure Frame where
  data : List Byte
  bytes : List Byte

/-- The sender's handle, the frames on their way, and the sockets of the recipient's node. -/
structure Network (n k m : Nat) where
  handle : Udp.Handle m
  wire : List Frame
  sockets : Module n k

/-- What happens next: the sender's call, the loss of a frame or the arrival of the first; a frame
of another node; another event of UDP; or the recipient's call, which begins or goes on behind a
wait. -/
inductive NetworkInput (c a : Nat) where
  | send (data : List Byte) (u : Underneath c a)
  | lose (i : Nat)
  | arrive (id : PacketId) (q : Packet)
  | other (id : PacketId) (q : Packet)
  | event (event : UdpEvent)
  | receive (size : Nat)
  | wake (size : Nat) (ret : Err) (active : BitVec 32)

def networkStep (x : Sender n k m) (y : Recipient l n') (s : Network n' k' m) :
    NetworkInput c a → Option (Network n' k' m)
  | .send data u =>
    let sent := x.udpSent s.handle y.endpoint data u
    some
      { s with
        handle := { s.handle with ipv4Handle := sent.handle }
        wire :=
          if sent.handed ∧ sent.ret = .success then
            s.wire ++ [⟨data, Ethernet.transmit x.netIf sent.packet.frame⟩]
          else s.wire }
  | .lose i => if i < s.wire.length then some { s with wire := s.wire.eraseIdx i } else none
  | .arrive id q =>
    match s.wire with
    | [] => none
    | _ :: wire => some { s with wire := wire, sockets := y.rxFrame s.sockets id q }
  | .other id q => some { s with sockets := y.rxFrame s.sockets id q }
  | .event event => some { s with sockets := udpCallback s.sockets y.socket event none }
  | .receive size => some { s with sockets := (receiveFrom s.sockets y.socketId size).1 }
  | .wake size ret active =>
      some { s with sockets := (receiveWake s.sockets y.socket size ret active).1 }

/-- The data of the calls that sent it with success, what the recipient has seen, and how many
frames were lost. -/
structure Traffic where
  sent : List (List Byte)
  seen : Seen
  lost : Nat

def Traffic.init : Traffic := ⟨[], ⟨[], []⟩, 0⟩

/-- A frame comes to the recipient. -/
def Traffic.arrive (w : Traffic) (y : Recipient l n') (id : PacketId) (q : Packet) : Traffic :=
  match y.delivery q with
  | some p => { w with seen := { w.seen with arrived := w.seen.arrived ++ [⟨id, readDatagram p⟩] } }
  | none => w

def Traffic.return (w : Traffic) (out : Pass RxResult) : Traffic :=
  { w with seen := { w.seen with returned := w.seen.returned ++ out.successes } }

def traffic (x : Sender n k m) (y : Recipient l n') (w : Traffic) (s : Network n' k' m)
    (input : NetworkInput c a) (_ : Network n' k' m) : Traffic :=
  match input with
  | .send data u =>
    if (x.sendTo s.handle y.endpoint data u).any fun result => result.1 = .success then
      { w with sent := w.sent ++ [data] }
    else w
  | .lose _ => { w with lost := w.lost + 1 }
  | .arrive id q | .other id q => w.arrive y id q
  | .event _ => w
  | .receive size => w.return (receiveFrom s.sockets y.socketId size).2
  | .wake size ret active => w.return (receiveWake s.sockets y.socket size ret active).2

def Arrival.source (r : Arrival) : Endpoint := ⟨r.datagram.address, r.datagram.port⟩

/-- The data of the sender among what has arrived, and among what was returned. -/
def Sender.arrivals (x : Sender n k m) (rs : List Arrival) : List (List Byte) :=
  (rs.filter fun r => r.source = x.source).map fun r => r.datagram.payload
def Sender.results (x : Sender n k m) (rs : List RxResult) : List (List Byte) :=
  (rs.filter fun r => r.endPoint = some x.source).map RxResult.bytes

/-- The sender knows the way to the recipient, its data fits into a frame, and the drivers agree
on the check sequence; a frame arrives as it was sent; and the others are not the sender. -/
def Neighbours (x : Sender n k m) (y : Recipient l n') (z : Network n' k' m × Traffic) :
    NetworkInput c a → Prop
  | .send data u =>
    data.length + 46 < 2 ^ 16 ∧ ¬ Misplaced x.netIf y.netIf data.length ∧
      Reaches z.1.handle u.below u.arp u.now y.netIf.ipv4Address x.netIf y.netIf.macAddress
  | .arrive _ q => ∀ f ∈ z.1.wire.head?, Received f.bytes q
  | .other id q => ∀ p, y.delivery q = some p → (Arrival.mk id (readDatagram p)).source ≠ x.source
  | _ => True

section Send

variable {x : Sender n k m} {handle : Udp.Handle m} {dest : Endpoint} {data : List Byte}
  {u : Underneath c a}

theorem fill_composed (hd : data.length < 2 ^ 16) (p : Packet) :
    fill data (Udp.allocatedPacket (packetSize data) p) = Udp.composed (packetSize data) p [data] :=
      fill_eq hd _

theorem Sender.sendTo_ret (hfree : handle.ipv4Handle.busy = false)
    (hret : (x.udpSent handle dest data u).ret ≠ .inProgress) :
    ∃ s, x.sendTo handle dest data u = some ((x.udpSent handle dest data u).ret, s) := by
  rw [Sender.sendTo, Sockets.sendTo, x.get, hfree]
  dsimp only
  rw [x.type]
  by_cases haccepted : (x.udpSent handle dest data u).ret.accepted = true
  · exact ⟨_, by simp [udpSend, udpTurn, udpAttempt, haccepted, hret]; rfl⟩
  · exact ⟨_, by simp [udpSend, udpTurn, udpAttempt, haccepted, hret]; rfl⟩

theorem sendPacket_driver {lower : NanoIp.Lower} {handle : Ipv4.Handle} {header : Ipv4Header}
    {p : Packet} {netIf : NetIf} {mac : MacAddress}
    (hp : Ipv4.Passes lower handle header.destAddress p netIf mac)
    (hsize : ¬ p.count < Ipv4.minPacketSize) (pid : PacketId) :
    (Ipv4.sendPacket lower handle header pid p).ret = lower.driver ∧
      (Ipv4.sendPacket lower handle header pid p).handle.busy = false := by
  obtain ⟨gateway, hroute, harp⟩ := hp.known
  constructor
  · rw [Ipv4.sendPacket_ret _ _ _ _ hsize]
    simp only [Ipv4.sendResult, hp.free, Bool.false_eq_true, if_false, hroute, harp]
  · obtain ⟨q, hfill⟩ := Ipv4.fillHeader_ok (handle.prepare header netIf pid).header hsize
    rw [Ipv4.sendPacket, hp.free, if_neg Bool.false_ne_true]
    simp only [hroute, harp, Ipv4.finalizeSendPacket, hfill]
    exact hp.free

theorem udp_driver {lower : NanoIp.Lower} {address : Ipv4Address} {p : Packet} {netIf : NetIf}
    {mac : MacAddress} {payload : List Byte}
    (hp : Ipv4.Passes lower handle.ipv4Handle address p netIf mac) (h : p.Composed 42 payload)
    (hfit : payload.length + 46 < 2 ^ 16) (port : BitVec 16) (pid : PacketId) :
    (Udp.sendPacket lower handle address port pid p).ret = lower.driver ∧
      (Udp.sendPacket lower handle address port pid p).handle.busy = false := by
  have hcount := (Udp.completePacket_framed handle port (Udp.outputHeader handle lower address p)
    h hfit).count
  rw [List.length_append, Packet.bytes_length, Udp.datagram_length, Ethernet.headerSize] at hcount
  have hpasses : Ipv4.Passes lower handle.ipv4Handle
    (Udp.outputHeader handle lower address p).destAddress
      (Udp.completePacket handle port (Udp.outputHeader handle lower address p) p) netIf mac :=
        ⟨hp.free, hp.known⟩
  refine sendPacket_driver hpasses ?_ pid
  rw [BitVec.lt_def, hcount]
  change ¬ _ < 34
  omega

/-- A call that finds the way to the recipient is over at once, and brings its data there if the
driver takes the frame. -/
theorem Sender.udpSent_reaches {y : Recipient l n'} (hfit : data.length + 46 < 2 ^ 16)
    (hgood : ¬ Misplaced x.netIf y.netIf data.length)
    (hr : Reaches handle u.below u.arp u.now y.netIf.ipv4Address x.netIf y.netIf.macAddress) :
    (x.udpSent handle y.endpoint data u).handed = true ∧
      (x.udpSent handle y.endpoint data u).ret ≠ .inProgress ∧
      (x.udpSent handle y.endpoint data u).handle.busy = false ∧
      ∀ q, Received (Ethernet.transmit x.netIf (x.udpSent handle y.endpoint data u).packet.frame)
        q →
        ∃ p, y.delivery q = some p ∧ readDatagram p =
          ⟨data, sourceAddress handle x.netIf, handle.port⟩ := by
  have hsent : x.udpSent handle y.endpoint data u =
      Udp.sentDatagram handle u.below u.arp u.now x.netIf y.netIf u.request y.port (packetSize data)
        u.packet [data]
        u.id := by
    rw [Sender.udpSent, fill_composed (by omega)]
    rfl
  have hdata : [data].flatten = data := by rw [List.flatten_cons, List.flatten_nil, List.append_nil]
  obtain ⟨hcomposed, hnetIf⟩ := Udp.composed_composed (packetSize data) u.packet [data]
    (by rw [hdata]; omega)
  obtain ⟨hret, hbusy⟩ := udp_driver (hr.passes u.request hnetIf) hcomposed
    (by rw [hdata]; exact hfit) y.port u.id
  obtain ⟨hhanded, hreceived⟩ := Udp.sentDatagram_received hr u.request y.receiver y.listens
    (packetSize data) u.packet
    [data] (by rw [hdata]; exact hfit) u.id
  rw [hdata] at hreceived
  rw [hsent]
  refine ⟨hhanded, ?_, hbusy, fun q hq => ?_⟩
  · rw [Udp.sentDatagram, hret]
    change Ipv4.driverErr u.below.driver ≠ .inProgress
    cases u.below.driver with
    | ok _ => exact fun he => by cases he
    | error e => exact fun he => Bool.noConfusion ((congrArg Err.accepted he).symm.trans e.2)
  · have hcame := hreceived q hq
    rw [if_neg hgood] at hcame
    obtain ⟨d, hd, hdelivers⟩ := hcame
    refine ⟨d.packet, ?_, ?_⟩
    · rw [Recipient.delivery, hd]
      exact if_pos hdelivers.called
    · have hbytes := hdelivers.bytes
      rw [Packet.Holds, Nat.add_zero, ← hdelivers.count] at hbytes
      rw [readDatagram, hbytes, hdelivers.read]

end Send

section Receive

variable {released : List PacketId} {socketId : BitVec 32} {i : Fin n} {z : Module n k × Seen}

theorem InOrder.queued (hi : InOrder released socketId i z) (id : PacketId) (p : Packet) :
    InOrder released socketId i (udpCallback z.1 i .rx (some ⟨id, p⟩),
      { z.2 with arrived := z.2.arrived ++ [⟨id, readDatagram p⟩] }) := by
  obtain ⟨hbound, hreleased, hqueue⟩ := udpCallback_bound hi.bound .rx (some ⟨id, p⟩)
  obtain ⟨taken, harrived, hreturned, hbefore⟩ := hi.order
  refine ⟨hbound, taken, ?_, hreturned, hreleased.trans hbefore⟩
  dsimp only at hqueue ⊢
  rw [hqueue, harrived, List.map_append, List.append_assoc]
  rfl

theorem InOrder.arrive {y : Recipient l n} {w : Traffic} {s : Module n k}
    (hi : InOrder released y.socketId y.socket (s, w.seen)) (id : PacketId) (q : Packet) :
    InOrder released y.socketId y.socket (y.rxFrame s id q, (w.arrive y id q).seen) := by
  unfold Recipient.rxFrame Traffic.arrive
  cases y.delivery q with
  | none => exact hi
  | some p => exact hi.queued id p

end Receive

/-- What a run keeps. -/
structure Conveys (released : List PacketId) (x : Sender n k m) (y : Recipient l n')
    (z : Network n' k' m × Traffic) :
    Prop where
  inOrder : InOrder released y.socketId y.socket (z.1.sockets, z.2.seen)
  handle : z.1.handle.ipv4Handle.busy = false ∧ sourceAddress z.1.handle x.netIf =
    x.source.address ∧
    z.1.handle.port = x.source.port
  frames : ∀ f ∈ z.1.wire, ∀ q, Received f.bytes q →
    ∃ p, y.delivery q = some p ∧ readDatagram p = ⟨f.data, x.source.address, x.source.port⟩
  conveyed : Lib.Conveyed z.2.sent (x.arrivals z.2.seen.arrived) (z.1.wire.map Frame.data) z.2.lost

section Step

variable {released : List PacketId} {x : Sender n k m} {y : Recipient l n'}
  {z : Network n' k' m × Traffic}

theorem Sender.arrivals_snoc (x : Sender n k m) (rs : List Arrival) (r : Arrival) :
    x.arrivals (rs ++ [r]) =
      if r.source = x.source then x.arrivals rs ++ [r.datagram.payload] else x.arrivals rs := by
  rw [Sender.arrivals, List.filter_append, List.map_append]
  by_cases hsource : r.source = x.source
  · rw [if_pos hsource, List.filter_cons_of_pos (by rw [hsource]; exact decide_eq_true rfl)]
    rfl
  · rw [if_neg hsource, List.filter_cons_of_neg (by rw [decide_eq_true_eq]; exact hsource)]
    exact List.append_nil _

theorem Conveys.send (h : Conveys released x y z) (data : List Byte) (u : Underneath c a)
    (hok : Neighbours x y z (.send data u)) {s : Network n' k' m}
    (hs : networkStep x y z.1 (.send data u) = some s) :
    Conveys released x y (s, traffic x y z.2 z.1 (.send data u) s) := by
  obtain ⟨hfit, hgood, hreaches⟩ := hok
  obtain ⟨hhanded, hret, hbusy, hframe⟩ := Sender.udpSent_reaches (x := x) hfit hgood hreaches
  obtain ⟨s', hcall⟩ := Sender.sendTo_ret h.handle.1 hret
  obtain rfl := Option.some.inj hs
  have hsource := h.handle.2
  rw [hsource.1, hsource.2] at hframe
  by_cases hsuccess : (x.udpSent z.1.handle y.endpoint data u).ret = .success
  · have hlog (s) : traffic x y z.2 z.1 (.send data u) s =
      { z.2 with sent := z.2.sent ++ [data] } :=
      if_pos (by rw [hcall]; exact decide_eq_true hsuccess)
    rw [if_pos ⟨hhanded, hsuccess⟩, hlog]
    refine ⟨h.inOrder, ⟨hbusy, hsource⟩, fun f hf => ?_, ?_⟩
    · rcases List.mem_append.mp hf with hf | hf
      · exact h.frames f hf
      · obtain rfl := List.mem_singleton.mp hf
        exact hframe
    · rw [List.map_append]
      exact h.conveyed.send data
  · have hlog (s) : traffic x y z.2 z.1 (.send data u) s = z.2 :=
      if_neg (by rw [hcall]; exact fun hany => hsuccess (of_decide_eq_true hany))
    rw [if_neg fun hsent => hsuccess hsent.2, hlog]
    exact ⟨h.inOrder, ⟨hbusy, hsource⟩, h.frames, h.conveyed⟩

theorem Conveys.arrive (h : Conveys released x y z) {f : Frame} {wire : List Frame}
    (hw : z.1.wire = f :: wire) (id : PacketId) {q : Packet} (hq : Received f.bytes q) :
    Conveys released x y ({ z.1 with wire := wire, sockets := y.rxFrame z.1.sockets id q },
      z.2.arrive y id q) := by
  obtain ⟨p, hdelivery, hread⟩ := h.frames f (hw ▸ List.mem_cons_self) q hq
  have hlog : z.2.arrive y id q =
      { z.2 with seen := { z.2.seen with
        arrived := z.2.seen.arrived ++ [⟨id, readDatagram p⟩] } } := by
    rw [Traffic.arrive, hdelivery]
  refine ⟨h.inOrder.arrive id q, h.handle, fun g hg =>
    h.frames g (hw ▸ List.mem_cons_of_mem _ hg), ?_⟩
  have hconveyed := h.conveyed
  rw [hw, List.map_cons] at hconveyed
  rw [hlog]
  dsimp only
  rw [Sender.arrivals_snoc, if_pos (by rw [Arrival.source, hread]), hread]
  exact hconveyed.arrive

theorem Conveys.other (h : Conveys released x y z) (id : PacketId) {q : Packet}
    (hq : ∀ p, y.delivery q = some p → (Arrival.mk id (readDatagram p)).source ≠ x.source) :
    Conveys released x y ({ z.1 with sockets := y.rxFrame z.1.sockets id q },
      z.2.arrive y id q) := by
  refine ⟨h.inOrder.arrive id q, h.handle, h.frames, ?_⟩
  unfold Traffic.arrive
  cases hdelivery : y.delivery q with
  | none => exact h.conveyed
  | some p =>
    dsimp only
    rw [Sender.arrivals_snoc, if_neg (hq p hdelivery)]
    exact h.conveyed

theorem Conveys.step (h : Conveys released x y z) {input : NetworkInput c a}
    (hok : Neighbours x y z input) {s : Network n' k' m} (hs : networkStep x y z.1 input = some s) :
    Conveys released x y (s, traffic x y z.2 z.1 input s) := by
  cases input with
  | send data u => exact h.send data u hok hs
  | lose i =>
    rw [networkStep] at hs
    split_ifs at hs with hi
    obtain rfl := Option.some.inj hs
    refine ⟨h.inOrder, h.handle, fun f hf => h.frames f (List.mem_of_mem_eraseIdx hf), ?_⟩
    dsimp only
    rw [← List.eraseIdx_map]
    exact h.conveyed.lose (by rw [List.length_map]; exact hi)
  | arrive id q =>
    rw [networkStep] at hs
    cases hw : z.1.wire with
    | nil =>
      rw [hw] at hs
      cases hs
    | cons f wire =>
      rw [hw] at hs
      obtain rfl := Option.some.inj hs
      exact h.arrive hw id (hok f (by rw [hw]; rfl))
  | other id q =>
    obtain rfl := Option.some.inj hs
    exact h.other id hok
  | event event =>
    obtain rfl := Option.some.inj hs
    exact ⟨h.inOrder.event event, h.handle, h.frames, h.conveyed⟩
  | receive size =>
    obtain rfl := Option.some.inj hs
    refine ⟨?_, h.handle, h.frames, h.conveyed⟩
    rw [traffic, Traffic.return, receiveFrom_bound h.inOrder.bound]
    exact h.inOrder.pass size
  | wake size ret active =>
    obtain rfl := Option.some.inj hs
    exact ⟨h.inOrder.wake size ret active, h.handle, h.frames, h.conveyed⟩

end Step

theorem Sender.results_taken (x : Sender n k m) (taken : List Arrival) :
    x.results (taken.map Arrival.result) = x.arrivals taken := by
  induction taken with
  | nil => rfl
  | cons r taken ih =>
    have hend : r.result.endPoint = some r.source := rfl
    rw [Sender.results, Sender.arrivals, List.map_cons] at *
    by_cases hsource : r.source = x.source
    · rw [List.filter_cons_of_pos (by rw [hend, hsource]; exact decide_eq_true rfl),
        List.filter_cons_of_pos (by rw [hsource]; exact decide_eq_true rfl), List.map_cons,
          List.map_cons, ih]
      rfl
    · rw [List.filter_cons_of_neg
        (by rw [hend, decide_eq_true_eq]; exact fun he => hsource (Option.some.inj he)),
        List.filter_cons_of_neg (by rw [decide_eq_true_eq]; exact hsource), ih]

/-- Whatever other nodes send and however the calls of both sides are mixed, what the recipient's
calls return of the sender's, what is queued for them and what is on the wire is what the sender's
calls have sent with success, whole, once and in order, but for the frames that the wire has lost.
-/
theorem network_carries (x : Sender n k m) (y : Recipient l n') {s : Module n' k'}
    (hfree : x.handle.ipv4Handle.busy = false) (hbound : IsBoundUdp s y.socketId y.socket)
    (hempty : (s.sockets y.socket).rxPackets = []) {z : Network n' k' m × Traffic}
    (h : Lib.Reach (Lib.observe (networkStep (c := c) (a := a) x y) (traffic x y)) (Neighbours x y)
      (⟨x.handle, [], s⟩, .init) z) :
    let queued := x.arrivals ((z.1.sockets.sockets y.socket).rxPackets.map RxPacket.arrival)
    Lib.Conveyed z.2.sent (x.results z.2.seen.returned)
      (queued ++ z.1.wire.map Frame.data) z.2.lost ∧
      (z.2.lost = 0 → z.2.sent = x.results z.2.seen.returned ++
        (queued ++ z.1.wire.map Frame.data)) := by
  have hconveys : Conveys s.released x y z := by
    refine h.invariant (I := Conveys s.released x y)
      ⟨⟨hbound, [], ?_, rfl, ?_⟩, ⟨hfree, rfl, rfl⟩, ?_, .init⟩ ?_
    · rw [hempty]
      rfl
    · exact (List.append_nil _).symm
    · exact fun f hf => absurd hf List.not_mem_nil
    · intro z input ⟨s', w'⟩ hz hok hs
      obtain ⟨hstep, hlog⟩ := Lib.observe_some.mp hs
      dsimp only at hstep hlog
      rw [hlog]
      exact hz.step hok hstep
  obtain ⟨taken, harrived, hreturned, -⟩ := hconveys.inOrder.order
  intro queued
  have hconveyed : Lib.Conveyed z.2.sent (x.results z.2.seen.returned)
    (queued ++ z.1.wire.map Frame.data)
      z.2.lost := by
    refine Lib.Conveyed.assoc ?_
    have hall : x.arrivals z.2.seen.arrived = x.results z.2.seen.returned ++ queued := by
      rw [harrived, hreturned, x.results_taken, Sender.arrivals, List.filter_append,
        List.map_append]
      rfl
    rw [← hall]
    exact hconveys.conveyed
  exact ⟨hconveyed, fun hlost => (hlost ▸ hconveyed).whole⟩

/-- A socket of 192.168.1.2 and one of 192.168.1.1, which the first knows the way to. -/
def sampleSender : Sender 1 1 1 :=
  ⟨sending .udp, 0#32, ⟨0, Nat.one_pos⟩, Udp.sender, Udp.neighbour 0#32, rfl, rfl⟩
def sampleRecipient : Recipient 1 1 :=
  ⟨Udp.receiver, Ipv4.sampleNetIf, ⟨0, Nat.one_pos⟩, 7#16, 0#32, ⟨0, Nat.one_pos⟩,
    Udp.receiver_listens⟩
def sampleUnderneath : Underneath 1 1 :=
  ⟨0, Udp.blank, Udp.direct 0#32, Udp.knowing, ⟨0, Nat.one_pos⟩, 0#32, .success, eventTx, false⟩
def sampleFrame : List Byte :=
  Ethernet.transmit (Udp.neighbour 0#32)
    (sampleSender.udpSent Udp.sender sampleRecipient.endpoint [1, 2] sampleUnderneath).packet.frame

/-- Two bytes are sent and read, and a second call's frame is lost. -/
theorem network_carries_two : ∃ z : Network 1 1 1 × Traffic,
    Lib.Reach (Lib.observe (networkStep (c := 1) (a := 1) sampleSender sampleRecipient)
      (traffic sampleSender sampleRecipient)) (Neighbours sampleSender sampleRecipient)
      (⟨Udp.sender, [], boundSocket⟩, .init) z ∧
    (z.2.sent = [[1, 2], [3]] ∧ z.2.lost = 1) ∧ z.2.seen.returned.length = 1 ∧
    Lib.Conveyed z.2.sent (sampleSender.results z.2.seen.returned)
      (sampleSender.arrivals ((z.1.sockets.sockets ⟨0, Nat.one_pos⟩).rxPackets.map
        RxPacket.arrival) ++
        z.1.wire.map Frame.data) z.2.lost := by
  have hreaches : Reaches Udp.sender sampleUnderneath.below sampleUnderneath.arp
    sampleUnderneath.now
      sampleRecipient.netIf.ipv4Address sampleSender.netIf sampleRecipient.netIf.macAddress :=
    Udp.neighbour_reaches 0#32
  have hframe : Received sampleFrame (Ethernet.filled sampleFrame) :=
    Ethernet.filled_received (by decide) (by decide)
  have hstart : Lib.Reach (Lib.observe (networkStep (c := 1) (a := 1) sampleSender sampleRecipient)
      (traffic sampleSender sampleRecipient)) (Neighbours sampleSender sampleRecipient)
      (⟨Udp.sender, [], boundSocket⟩, .init) (⟨Udp.sender, [], boundSocket⟩, .init) := .refl
  have hsent := hstart.tail (i := NetworkInput.send [1, 2] sampleUnderneath)
    ⟨by decide, by decide, hreaches⟩ rfl
  have harrived := hsent.tail (i := NetworkInput.arrive 0 (Ethernet.filled sampleFrame)) (by
    intro f hf
    dsimp only at hf
    rw [if_pos (by decide +kernel)] at hf
    obtain rfl := Option.some.inj hf
    exact hframe) rfl
  have hagain := harrived.tail (i := NetworkInput.send [3] sampleUnderneath)
    ⟨by decide, by decide, rfl, hreaches.known⟩ rfl
  have hlost := hagain.tail (i := NetworkInput.lose 0) trivial rfl
  have hread := hlost.tail (i := NetworkInput.receive 2) trivial rfl
  obtain ⟨z, hreach, htwo, hone⟩ : ∃ z : Network 1 1 1 × Traffic,
      Lib.Reach (Lib.observe (networkStep (c := 1) (a := 1) sampleSender sampleRecipient)
        (traffic sampleSender sampleRecipient)) (Neighbours sampleSender sampleRecipient)
        (⟨Udp.sender, [], boundSocket⟩, .init) z ∧
      (z.2.sent = [[1, 2], [3]] ∧ z.2.lost = 1) ∧ z.2.seen.returned.length = 1 :=
    ⟨_, hread, by decide +kernel, by decide +kernel⟩
  exact ⟨z, hreach, htwo, hone,
    (network_carries sampleSender sampleRecipient rfl boundSocket_bound rfl hreach).1⟩

end NanoIp.Sockets
