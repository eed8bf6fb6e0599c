import NanoIp.Sockets.Stream
import NanoIp.Udp.Frames

/-!
# The datagrams of a UDP socket

Datagrams arrive at a bound socket and are read by calls with buffers of any sizes. What
has arrived is what was returned, in order, and then what is queued; a packet keeps the
frame it came in, so the sender is found in it however long it waited.
-/
namespace NanoIp.Sockets

open Udp (Datagram datagramOf readDatagram)

variable {n k l : Nat}

/-- `socketId` is the bound UDP socket `i`. -/
structure IsBoundUdp (m : Module n k) (socketId : BitVec 32) (i : Fin n) : Prop where
  get : m.get socketId = some i
  type : (m.sockets i).type = .udp
  bound : (m.sockets i).udpBound = true

/-- A datagram and the object it came in. -/
structure Arrival where
  id : PacketId
  datagram : Datagram
  deriving DecidableEq

def Arrival.result (a : Arrival) : RxResult :=
  ⟨.success, a.datagram.payload.length, a.datagram.payload,
    some ⟨a.datagram.address, a.datagram.port⟩⟩

def RxPacket.arrival (p : RxPacket) : Arrival := ⟨p.id, readDatagram p.packet⟩

/-- What a call answers when `waiting` has arrived and was not returned yet. -/
def Answers (m : Module n k) (i : Fin n) (size : Nat) (waiting : List Arrival)
    (out : Module n k × Pass RxResult) :
    Prop :=
  match waiting with
  | [] => out = (m, if (m.sockets i).nonBlocking then .returns (.empty .inProgress) else .waits)
  | a :: _ =>
    if a.datagram.payload.length ≤ size then ∃ m', out = (m', .returns a.result)
    else out = (m, .returns (.empty .bufferTooSmall))

/-- What happens to the socket: a frame with a datagram for it arrives, UDP raises another
event, or a call begins, or goes on behind a wait that returned `ret` and the flags `active`. -/
inductive DatagramInput where
  | frame (netIf : NetIf) (id : PacketId) (q : Packet)
  | event (event : UdpEvent)
  | receive (size : Nat)
  | wake (size : Nat) (ret : Err) (active : BitVec 32)

/-- The socket's UDP handle is `h`, and its callback is given what `r` delivers to it. -/
def datagramStep (r : Udp.Receiver l) (h : Fin l) (socketId : BitVec 32) (i : Fin n)
    (m : Module n k) :
    DatagramInput → Option (Module n k)
  | .frame netIf id q =>
    match r.rxFrame netIf q with
    | some d =>
      if Udp.CarriesUdp q ∧ d.handle = h then some (udpCallback m i .rx (some ⟨id, d.packet⟩))
      else none
    | none => none
  | .event event => some (udpCallback m i event none)
  | .receive size => some (receiveFrom m socketId size).1
  | .wake size ret active => some (receiveWake m i size ret active).1

/-- The datagrams that arrived, as their frames have them, and the results of the calls
that succeeded. -/
structure Seen where
  arrived : List Arrival
  returned : List RxResult

/-- The result of a section that ends a call with success. -/
def Pass.successes : Pass RxResult → List RxResult
  | .returns r => if r.ret = .success then [r] else []
  | .waits => []

def seeDatagrams (socketId : BitVec 32) (i : Fin n) (seen : Seen) (m : Module n k)
    (input : DatagramInput) (_ : Module n k) : Seen :=
  match input with
  | .frame _ id q => { seen with arrived := seen.arrived ++ [⟨id, datagramOf q⟩] }
  | .event _ => seen
  | .receive size => { seen with
      returned := seen.returned ++ (receiveFrom m socketId size).2.successes }
  | .wake size ret active =>
    { seen with returned := seen.returned ++ (receiveWake m i size ret active).2.successes }

section

variable {m m' : Module n k} {socketId : BitVec 32} {i : Fin n}

theorem IsBoundUdp.congr (hb : IsBoundUdp m socketId i)
    (hf : (m'.sockets i).isFree = (m.sockets i).isFree)
    (ht : (m'.sockets i).type = (m.sockets i).type)
    (hu : (m'.sockets i).udpBound = (m.sockets i).udpBound) :
    IsBoundUdp m' socketId i := ⟨Module.get_congr hb.get hf, ht.trans hb.type, hu.trans hb.bound⟩

theorem IsBoundUdp.isFree (hb : IsBoundUdp m socketId i) : (m.sockets i).isFree = false :=
  (Module.get_some hb.get).2

theorem receiveFrom_bound (hb : IsBoundUdp m socketId i) (size : Nat) :
    receiveFrom m socketId size = receivePass m i size := by
  have hready : receiveReady (m.sockets i) = .success := by
    rw [receiveReady, hb.type]
    exact if_pos hb.bound
  simp only [receiveFrom, hb.get, hready]

theorem receiveWake_turns (hb : IsBoundUdp m socketId i) (size : Nat) {active : BitVec 32}
    (hactive : active &&& eventError = 0#32) :
    receiveWake m i size .success active = receivePass m i size := by
  rw [receiveWake, if_neg (by rw [hb.isFree]; exact Bool.false_ne_true), if_neg (not_not_intro rfl),
    if_neg (not_not_intro hactive)]

theorem receiveWake_fails (hb : IsBoundUdp m socketId i) (size : Nat) {ret : Err}
    {active : BitVec 32} (h : ret ≠ .success ∨ active &&& eventError ≠ 0#32) :
    ∃ e, e ≠ .success ∧ receiveWake m i size ret active = (m, .returns (.empty e)) := by
  rw [receiveWake, if_neg (by rw [hb.isFree]; exact Bool.false_ne_true)]
  by_cases hret : ret = .success
  · rw [if_neg (not_not_intro hret), if_pos (h.resolve_left (not_not_intro hret))]
    exact ⟨.failure, by decide, rfl⟩
  · rw [if_pos hret]
    exact ⟨ret, hret, rfl⟩

theorem receiveWake_bound (hb : IsBoundUdp m socketId i) (size : Nat) (ret : Err)
    (active : BitVec 32) :
    receiveWake m i size ret active = receivePass m i size ∨
      ∃ e, e ≠ .success ∧ receiveWake m i size ret active = (m, .returns (.empty e)) := by
  by_cases h : ret ≠ .success ∨ active &&& eventError ≠ 0#32
  · exact .inr (receiveWake_fails hb size h)
  · obtain ⟨hret, hactive⟩ := not_or.mp h
    rw [not_not.mp hret]
    exact .inl (receiveWake_turns hb size (not_not.mp hactive))

theorem receivePass_fits {p : RxPacket} {q : List RxPacket} {size : Nat}
    (ht : (m.sockets i).type = .udp) (hq : (m.sockets i).rxPackets = p :: q)
    (hsize : p.arrival.datagram.payload.length ≤ size) :
    receivePass m i size = (m.takePackets i q [p.id], .returns p.arrival.result) := by
  have hlen : p.arrival.datagram.payload.length = p.packet.count.toNat := Packet.bytes_length ..
  rw [hlen] at hsize
  simp only [receivePass, hq, ht, if_pos hsize]
  rw [Arrival.result, hlen]
  rfl

theorem receivePass_small {p : RxPacket} {q : List RxPacket} {size : Nat}
    (ht : (m.sockets i).type = .udp) (hq : (m.sockets i).rxPackets = p :: q)
    (hsize : ¬ p.arrival.datagram.payload.length ≤ size) :
    receivePass m i size = (m, .returns (.empty .bufferTooSmall)) := by
  have hlen : p.arrival.datagram.payload.length = p.packet.count.toNat := Packet.bytes_length ..
  rw [hlen] at hsize
  simp only [receivePass, hq, ht, if_neg hsize]

theorem receivePass_empty {size : Nat} (hq : (m.sockets i).rxPackets = []) :
    receivePass m i size =
      (m, if (m.sockets i).nonBlocking then .returns (.empty .inProgress) else .waits) := by
  simp only [receivePass, hq]

theorem receivePass_answers (ht : (m.sockets i).type = .udp) (size : Nat) :
    Answers m i size ((m.sockets i).rxPackets.map RxPacket.arrival) (receivePass m i size) := by
  cases hq : (m.sockets i).rxPackets with
  | nil => exact receivePass_empty hq
  | cons p q =>
    rw [List.map_cons, Answers]
    by_cases hsize : p.arrival.datagram.payload.length ≤ size
    · rw [if_pos hsize]
      exact ⟨_, receivePass_fits ht hq hsize⟩
    · rw [if_neg hsize]
      exact receivePass_small ht hq hsize

/-- Nothing is written behind the buffer. -/
theorem Answers.bounded {size : Nat} {waiting : List Arrival} {out : Module n k × Pass RxResult}
    (ha : Answers m i size waiting out) {r : RxResult} (hr : out.2 = .returns r) :
    r.bytes.length ≤ size := by
  cases waiting with
  | nil =>
    rw [Answers] at ha
    rw [ha] at hr
    dsimp only at hr
    split_ifs at hr
    obtain rfl := Pass.returns.inj hr
    exact Nat.zero_le _
  | cons a waiting =>
    rw [Answers] at ha
    split_ifs at ha with hsize
    · obtain ⟨m', rfl⟩ := ha
      obtain rfl := Pass.returns.inj hr
      exact hsize
    · rw [ha] at hr
      obtain rfl := Pass.returns.inj hr
      exact Nat.zero_le _

end

/-- What the run keeps, `released` being what had been given back before. -/
structure InOrder (released : List PacketId) (socketId : BitVec 32) (i : Fin n)
    (z : Module n k × Seen) : Prop where
  bound : IsBoundUdp z.1 socketId i
  order : ∃ taken : List Arrival, z.2.arrived = taken ++ (z.1.sockets i).rxPackets.map
    RxPacket.arrival ∧
    z.2.returned = taken.map Arrival.result ∧ z.1.released = released ++ taken.map Arrival.id

section

variable {released : List PacketId} {socketId : BitVec 32} {i : Fin n} {z : Module n k × Seen}

theorem takePackets_socket (m : Module n k) (i : Fin n) (q : List RxPacket) (ids : List PacketId) :
    (m.takePackets i q ids).sockets i = { m.sockets i with rxPackets := q } := by
  rw [Module.takePackets, Module.modify_self]

/-- A turn of the loop returns the oldest datagram that waits, or none. -/
theorem InOrder.pass (hi : InOrder released socketId i z) (size : Nat) :
    InOrder released socketId i ((receivePass z.1 i size).1,
      ⟨z.2.arrived, z.2.returned ++ (receivePass z.1 i size).2.successes⟩) := by
  obtain ⟨taken, harrived, hreturned, hreleased⟩ := hi.order
  have hnone : ∀ out : Pass RxResult, out.successes = [] →
      InOrder released socketId i (z.1, ⟨z.2.arrived, z.2.returned ++ out.successes⟩) := by
    intro out hout
    refine ⟨hi.bound, taken, harrived, ?_, hreleased⟩
    rw [hout, List.append_nil]
    exact hreturned
  cases hq : (z.1.sockets i).rxPackets with
  | nil =>
    rw [receivePass_empty hq]
    refine hnone _ ?_
    dsimp only
    split <;> rfl
  | cons p q =>
    by_cases hsize : p.arrival.datagram.payload.length ≤ size
    · rw [receivePass_fits hi.bound.type hq hsize]
      have hsocket := takePackets_socket z.1 i q [p.id]
      refine ⟨hi.bound.congr ?_ ?_ ?_, taken ++ [p.arrival], ?_, ?_, ?_⟩
      · rw [hsocket]
      · rw [hsocket]
      · rw [hsocket]
      · dsimp only
        rw [hsocket, harrived, hq, List.map_cons, List.append_assoc]
        rfl
      · dsimp only
        rw [hreturned, List.map_append]
        rfl
      · change z.1.released ++ [p.id] = _
        rw [hreleased, List.map_append, List.append_assoc]
        rfl
    · rw [receivePass_small hi.bound.type hq hsize]
      exact hnone _ rfl

theorem InOrder.wake (hi : InOrder released socketId i z) (size : Nat) (ret : Err)
    (active : BitVec 32) :
    InOrder released socketId i ((receiveWake z.1 i size ret active).1,
      ⟨z.2.arrived, z.2.returned ++ (receiveWake z.1 i size ret active).2.successes⟩) := by
  rcases receiveWake_bound hi.bound size ret active with hpass | ⟨e, he, hfails⟩
  · rw [hpass]
    exact hi.pass size
  · rw [hfails]
    have hnone : (Pass.returns (RxResult.empty e)).successes = [] := if_neg he
    dsimp only
    rw [hnone, List.append_nil]
    exact hi

/-- Whatever UDP reports, the fields of the socket that say what it is stay. -/
theorem udpCallback_bound (hb : IsBoundUdp z.1 socketId i) (event : UdpEvent)
    (packet : Option RxPacket) :
    IsBoundUdp (udpCallback z.1 i event packet) socketId i ∧
      (udpCallback z.1 i event packet).released = z.1.released ∧
      ((udpCallback z.1 i event packet).sockets i).rxPackets =
        match event, packet with
        | .rx, some p => (z.1.sockets i).rxPackets ++ [p]
        | _, _ => (z.1.sockets i).rxPackets := by
  have hreleased (m : Module n k) : (notifyPoll m i).released = m.released := by
    unfold notifyPoll
    split <;> rfl
  have hfree := hb.isFree
  cases event with
  | rx =>
    cases packet with
    | none =>
      simp only [udpCallback, hfree, Bool.false_eq_true, ↓reduceIte, hreleased]
      exact ⟨hb.congr (by simp) (by simp) (by simp), trivial, by simp⟩
    | some p =>
      simp only [udpCallback, hfree, Bool.false_eq_true, ↓reduceIte, hreleased]
      refine ⟨hb.congr ?_ ?_ ?_, rfl, ?_⟩
      all_goals simp [queuePacket, Module.setFlags]
  | tx =>
    simp only [udpCallback, hfree, Bool.false_eq_true, ↓reduceIte, hreleased, hb.type, true_or]
    refine ⟨hb.congr ?_ ?_ ?_, rfl, ?_⟩
    all_goals simp [Module.setFlags]
  | txFailed =>
    simp only [udpCallback, hfree, Bool.false_eq_true, ↓reduceIte, hreleased]
    refine ⟨hb.congr ?_ ?_ ?_, rfl, ?_⟩
    all_goals simp [Module.setFlags]
  | error =>
    simp only [udpCallback, hfree, Bool.false_eq_true, ↓reduceIte, hreleased]
    refine ⟨hb.congr ?_ ?_ ?_, rfl, ?_⟩
    all_goals simp [Module.setFlags]

theorem InOrder.frame (hi : InOrder released socketId i z) {r : Udp.Receiver l} {netIf : NetIf}
    (id : PacketId) {q : Packet} {d : Udp.Delivery l} (hq : Udp.CarriesUdp q)
    (hd : r.rxFrame netIf q = some d) :
    InOrder released socketId i (udpCallback z.1 i .rx (some ⟨id, d.packet⟩),
      { z.2 with arrived := z.2.arrived ++ [⟨id, datagramOf q⟩] }) := by
  obtain ⟨hbound, hreleased, hqueue⟩ := udpCallback_bound hi.bound .rx (some ⟨id, d.packet⟩)
  obtain ⟨taken, harrived, hreturned, hbefore⟩ := hi.order
  refine ⟨hbound, taken, ?_, hreturned, hreleased.trans hbefore⟩
  dsimp only at hqueue ⊢
  rw [hqueue, harrived, List.map_append, ← Udp.readDatagram_carried r hq hd, List.append_assoc]
  rfl

theorem InOrder.event (hi : InOrder released socketId i z) (event : UdpEvent) :
    InOrder released socketId i (udpCallback z.1 i event none, z.2) := by
  obtain ⟨hbound, hreleased, hqueue⟩ := udpCallback_bound hi.bound event none
  obtain ⟨taken, harrived, hreturned, hbefore⟩ := hi.order
  have hsame : ((udpCallback z.1 i event none).sockets i).rxPackets =
      (z.1.sockets i).rxPackets := by
    rw [hqueue]
    cases event <;> rfl
  refine ⟨hbound, taken, ?_, hreturned, hreleased.trans hbefore⟩
  dsimp only
  rw [hsame]
  exact harrived

end

/-- In every run of arrivals and calls the `i`-th call that succeeds returns the `i`-th
datagram of the frames, whole and with its sender, and gives its object back; what waits
is answered whole to the first buffer it fits, and kept from smaller ones. -/
theorem datagrams_inOrder (r : Udp.Receiver l) (h : Fin l) {m : Module n k} {socketId : BitVec 32}
    {i : Fin n} (hb : IsBoundUdp m socketId i) (hempty : (m.sockets i).rxPackets = [])
    {z : Module n k × Seen}
    (hr : Lib.Reach (Lib.observe (datagramStep r h socketId i) (seeDatagrams socketId i))
      Lib.anyStep (m, ⟨[], []⟩) z) :
    z.2.returned = (z.2.arrived.take z.2.returned.length).map Arrival.result ∧
    z.1.released = m.released ++ (z.2.arrived.take z.2.returned.length).map Arrival.id ∧
    ∀ size, Answers z.1 i size (z.2.arrived.drop z.2.returned.length)
      (receiveFrom z.1 socketId size) ∧
      (∀ active, active &&& eventError = 0#32 →
        Answers z.1 i size (z.2.arrived.drop z.2.returned.length)
          (receiveWake z.1 i size .success active)) ∧
      (∀ ret active, ret ≠ .success ∨ active &&& eventError ≠ 0#32 →
        ∃ e, e ≠ .success ∧ receiveWake z.1 i size ret active = (z.1, .returns (.empty e))) ∧
      ∀ out r, out = receiveFrom z.1 socketId size ∨
        (∃ ret active, out = receiveWake z.1 i size ret active) →
        out.2 = .returns r → r.bytes.length ≤ size := by
  have hi : InOrder m.released socketId i z := by
    refine hr.invariant (I := InOrder m.released socketId i) ⟨hb, [], ?_, rfl, ?_⟩ ?_
    · rw [hempty]
      rfl
    · exact (List.append_nil _).symm
    intro z input ⟨m', seen'⟩ hi _ hobserved
    obtain ⟨hs, hseen⟩ := Lib.observe_some.mp hobserved
    dsimp only at hs hseen
    subst hseen
    cases input with
    | frame netIf id q =>
      rw [datagramStep] at hs
      cases hd : r.rxFrame netIf q with
      | none => rw [hd] at hs; cases hs
      | some d =>
        rw [hd] at hs
        dsimp only at hs
        split_ifs at hs with hq
        obtain rfl := Option.some.inj hs
        exact hi.frame id hq.1 hd
    | event event =>
      obtain rfl := Option.some.inj hs
      exact hi.event event
    | receive size =>
      obtain rfl := Option.some.inj hs
      rw [seeDatagrams, receiveFrom_bound hi.bound]
      exact hi.pass size
    | wake size ret active =>
      obtain rfl := Option.some.inj hs
      exact hi.wake size ret active
  obtain ⟨taken, harrived, hreturned, hreleased⟩ := hi.order
  have hlen : z.2.returned.length = taken.length := by rw [hreturned, List.length_map]
  have htake : z.2.arrived.take z.2.returned.length = taken := by
    rw [harrived, hlen, List.take_left]
  have hdrop : z.2.arrived.drop z.2.returned.length =
      (z.1.sockets i).rxPackets.map RxPacket.arrival := by
    rw [harrived, hlen, List.drop_left]
  rw [htake, hdrop]
  refine ⟨hreturned, hreleased, fun size => ?_⟩
  have hpass := receivePass_answers hi.bound.type size
  refine ⟨?_, fun active hactive => ?_, fun ret active hfails => ?_, fun out r hout hr => ?_⟩
  · rw [receiveFrom_bound hi.bound]
    exact hpass
  · rw [receiveWake_turns hi.bound size hactive]
    exact hpass
  · exact receiveWake_fails hi.bound size hfails
  · rcases hout with rfl | ⟨ret, active, rfl⟩
    · rw [receiveFrom_bound hi.bound] at hr
      exact hpass.bounded hr
    · rcases receiveWake_bound hi.bound size ret active with hsame | ⟨e, he, hfailed⟩
      · rw [hsame] at hr
        exact hpass.bounded hr
      · rw [hfailed] at hr
        obtain rfl := Pass.returns.inj hr
        exact Nat.zero_le _

/-- Two bytes from port 9 of 192.168.1.2 to port 7, behind an IPv4 header with four bytes of
options. -/
def optionsFrame : Packet :=
  let bs : List Byte := List.replicate 12 2#8 ++ [0x08, 0x00] ++
    [0x46, 0, 0, 34, 0, 0, 0, 0, 0x40, 17, 0, 0, 0xC0, 0xA8, 1, 2, 0xC0, 0xA8, 1, 1, 1, 1, 1, 0] ++
    [0, 9, 0, 7, 0, 10, 0, 0, 1, 2]
  ⟨fun i => bs.getD i 0#8, 0, 60#16, 60#16, 0#32, none⟩

/-- Three bytes from port 11, behind a header without options. -/
def plainDatagram : Packet :=
  let bs : List Byte := List.replicate 12 2#8 ++ [0x08, 0x00] ++
    [0x45, 0, 0, 31, 0, 0, 0, 0, 0x40, 17, 0, 0, 0xC0, 0xA8, 1, 2, 0xC0, 0xA8, 1, 1] ++
    [0, 11, 0, 7, 0, 11, 0, 0, 3, 4, 5]
  ⟨fun i => bs.getD i 0#8, 0, 60#16, 60#16, 0#32, none⟩

/-- One bound UDP socket, and an interface whose driver makes all the checks. -/
def boundSocket : Module 1 1 :=
  (Module.init : Module 1 1).modify ⟨0, Nat.one_pos⟩ fun s =>
    { s with isFree := false, udpBound := true }
def checkingNetIf : NetIf := ⟨Vector.replicate 6 2#8, 0xC0A80101#32, 0x8CD#32⟩

theorem boundSocket_bound : IsBoundUdp boundSocket 0#32 ⟨0, Nat.one_pos⟩ := ⟨rfl, rfl, rfl⟩

/-- Two datagrams are returned in order. A buffer of one byte is too small for the first. -/
theorem datagrams_inOrder_options : ∃ z : Module 1 1 × Seen,
    z.2.arrived = [⟨0, ⟨[1, 2], 0xC0A80102#32, 9#16⟩⟩, ⟨1, ⟨[3, 4, 5], 0xC0A80102#32, 11#16⟩⟩] ∧
    z.2.returned = z.2.arrived.map Arrival.result ∧ z.1.released = [0, 1] := by
  obtain ⟨z, hr, hz⟩ := Lib.exists_of_runInputs
    (Lib.observe (datagramStep Udp.receiver ⟨0, Nat.one_pos⟩ 0#32 ⟨0, Nat.one_pos⟩)
      (seeDatagrams 0#32 ⟨0, Nat.one_pos⟩)) Lib.anyStep (boundSocket, ⟨[], []⟩)
    [.frame checkingNetIf 0 optionsFrame, .frame checkingNetIf 1 plainDatagram, .receive 1,
      .receive 2, .receive 5]
    (fun z => z.2.returned.length = 2 ∧
      z.2.arrived = [⟨0, ⟨[1, 2], 0xC0A80102#32, 9#16⟩⟩, ⟨1, ⟨[3, 4, 5], 0xC0A80102#32, 11#16⟩⟩])
    (by decide +kernel)
  obtain ⟨hlen, harrived⟩ := of_decide_eq_true hz
  obtain ⟨hreturned, hreleased, -⟩ :=
    datagrams_inOrder Udp.receiver ⟨0, Nat.one_pos⟩ boundSocket_bound rfl hr
  rw [hlen, harrived] at hreturned hreleased
  refine ⟨z, harrived, ?_, hreleased⟩
  rw [hreturned, harrived]
  rfl

end NanoIp.Sockets
