import NanoIp.Lib.Duplex
import NanoIp.Lib.Run
import NanoIp.Tcp.Exchange

/-!
# Two established endpoints over reliable channels

Both ends of a connection run the module, and every segment one of them transmits
reaches the other, in order. Data is delivered and acknowledged as long as the two
applications do not send at the same time.
-/
namespace NanoIp.Tcp

open Lib (Side Duplex)

variable {n : Nat}

/-- The state of both endpoints, and the segments on their way. -/
abbrev Pair (n : Nat) := Duplex (Stack n × Pc n) Segment

def emits (x y : Stack n × Pc n) : List Segment := y.1.outputs.drop x.1.outputs.length

/-- One step of the two endpoints; `Lower` is what answers the frames of a reception. -/
def exchange (d : Pair n) (i : Duplex.Input (Input n) Lower) : Option (Pair n) :=
  d.step step Input.rxFrame emits i

/-- The connection at one side. -/
abbrev Pair.conn (d : Pair n) (h : Side → Fin n) (s : Side) :
    Handle n := ((d.node s).1.mem (h s)).conn

def Handle.firstUnacked (k : Handle n) : BitVec 32 :=
  if k.lastTxPacket.isSome then k.seqNumber - k.lastTxPacketCount.zeroExtend 32 else k.seqNumber

/-- `ack` lies between the first unacknowledged byte and the sequence number. -/
def Handle.Acceptable (k : Handle n) (ack : BitVec 32) : Prop :=
  ack - k.firstUnacked ≤ k.seqNumber - k.firstUnacked

instance (k : Handle n) (ack : BitVec 32) : Decidable (k.Acceptable ack) :=
  inferInstanceAs (Decidable (_ ≤ _))

/-- Both handles are established with each other, everything sent so far is acknowledged
and nothing is on its way. -/
structure Connected (h : Side → Fin n) (d : Pair n) : Prop where
  open_ : ∀ s, (d.conn h s).state = .established
  serves : ∀ s, Serves (d.node s).1 (h s)
  ports : ∀ s, (d.conn h s).port = (d.conn h s.other).destPort
  idle : ∀ s, (d.conn h s).lastTxPacket = none
  numbers : ∀ s, (d.conn h s).seqNumber = (d.conn h s.other).ackNumber
  quiet : ∀ s, d.inbox s = []
  pc : ∀ s, (d.node s).2 = .ready ∨ (d.node s).2 = .inCallback

instance (h : Side → Fin n) (d : Pair n) : Decidable (Connected h d) :=
  decidable_of_iff ((∀ s, (d.conn h s).state = .established) ∧ (∀ s, Serves (d.node s).1 (h s)) ∧
      (∀ s, (d.conn h s).port = (d.conn h s.other).destPort) ∧
        (∀ s, (d.conn h s).lastTxPacket = none) ∧
      (∀ s, (d.conn h s).seqNumber = (d.conn h s.other).ackNumber) ∧ (∀ s, d.inbox s = []) ∧
      ∀ s, (d.node s).2 = .ready ∨ (d.node s).2 = .inCallback)
    ⟨fun ⟨h₁, h₂, h₃, h₄, h₅, h₆, h₇⟩ => ⟨h₁, h₂, h₃, h₄, h₅, h₆, h₇⟩,
      fun hc => ⟨hc.open_, hc.serves, hc.ports, hc.idle, hc.numbers, hc.quiet, hc.pc⟩⟩

/-- The input prepares a packet, returns from a callback or lets time go by. -/
def Input.quiet : Input n → Bool
  | .allocatePacket _ _ | .writePacket _ _ | .releasePacket _ | .elapse _ | .ret _ _ _ => true
  | _ => false

/-- The applications prepare packets and send them on the connection, return from their
callbacks, segments arrive and time goes by; every frame is handed off successfully. -/
def Exchanges (h : Side → Fin n) (d : Pair n) : Duplex.Input (Input n) Lower → Prop
  | .act s (.sendPacket k pid lower) =>
    k = h s ∧ ((d.conn h s).lastTxPacket = none →
      (sendPacket (d.node s).1 k pid lower).2 = .success)
  | .act _ i => i.quiet = true
  | .deliver s lower => controlResult (d.node s).1 (h s) lower = .success

/-- The condition on a step: the application sends a packet with data, and only while no
data of its peer is on the way to it. -/
def InTurn (h : Side → Fin n) (d : Pair n) : Duplex.Input (Input n) Lower → Prop
  | .act s (.sendPacket _ pid _) => (d.conn h s).lastTxPacket = none →
    ((d.node s).1.packets pid).count ≠ 0#16 ∧ ∀ seg ∈ d.inbox s, seg.payload = []
  | _ => True

instance (h : Side → Fin n) (d : Pair n) (i : Duplex.Input (Input n) Lower) :
    Decidable (Exchanges h d i) := by
  rcases i with ⟨s, ⟨⟩⟩ | ⟨s, lower⟩ <;> unfold Exchanges <;> infer_instance

instance (h : Side → Fin n) (d : Pair n) (i : Duplex.Input (Input n) Lower) :
    Decidable (InTurn h d i) := by
  rcases i with ⟨s, ⟨⟩⟩ | ⟨s, lower⟩ <;> unfold InTurn <;> infer_instance

/-- The bytes transmitted since `m₀`. -/
def sentSince (m₀ m : Stack n) : List Byte := bytesOf (m.outputs.drop m₀.outputs.length)

/-- The bytes that the application of `h` was given since `m₀`. -/
def takenSince (h : Fin n) (m₀ m : Stack n) : List Byte :=
  bytesOf (received ((m.eventsOf h).drop (m₀.eventsOf h).length))

/-- The reception of the next segment delivers it and answers with an acknowledgement if
it carries data in sequence and acknowledges what it may. -/
def Takes (h : Side → Fin n) (s : Side) (d d' : Pair n) : Prop :=
  ∀ seg rest, d.inbox s = seg :: rest → seg.payload ≠ [] → seg.seqNumber = (d.conn h s).ackNumber →
    (d.conn h s).Acceptable seg.ackNumber →
    (d'.node s).1.eventsOf (h s) = (d.node s).1.eventsOf (h s) ++ [(.rx, .success, some seg)] ∧
    ∃ ack, d'.inbox s.other = d.inbox s.other ++ [ack] ∧ ack.flags = flagAck ∧
      ack.ackNumber = seg.nextSeq

/-- No data is lost: what arrives in sequence is taken, and once nothing is on its way both
applications have been given all that was sent to them. -/
structure Delivers (h : Side → Fin n) (d₀ d : Pair n) : Prop where
  takes : ∀ s lower d', Exchanges h d (.deliver s lower) → exchange d (.deliver s lower) = some d' →
    Takes h s d d'
  quiet : (∀ s, d.inbox s = []) → ∀ s, (d.conn h s).lastTxPacket = none ∧
    takenSince (h s.other) (d₀.node s.other).1 (d.node s.other).1 =
      sentSince (d₀.node s).1 (d.node s).1

/-- Where the data of handle `k` stands: nothing is pending, or its data is on the way to
the peer, or the acknowledgement is on the way back. -/
inductive Flow (k peer : Handle n) : List Segment → List Segment → Prop
  | idle : k.lastTxPacket = none → k.seqNumber = peer.ackNumber → Flow k peer [] []
  | flying (seg : Segment) (pid : PacketId) : k.lastTxPacket = some pid → seg.payload ≠ [] →
      seg.From { k with seqNumber := peer.ackNumber, ackNumber := peer.seqNumber }
        (flagPsh ||| flagAck) →
      seg.nextSeq = k.seqNumber → Flow k peer [seg] []
  | acked (ack : Segment) (pid : PacketId) : k.lastTxPacket = some pid → ack.payload = [] →
      ack.From { peer with seqNumber := ack.seqNumber } flagAck → k.seqNumber = peer.ackNumber →
      Flow k peer [] [ack]

namespace Flow

variable {k peer : Handle n} {data acks : List Segment}

theorem of_idle (hf : Flow k peer data acks) (hl : k.lastTxPacket = none) :
    data = [] ∧ acks = [] ∧ k.seqNumber = peer.ackNumber := by
  cases hf with
  | idle _ hn => exact ⟨rfl, rfl, hn⟩
  | flying seg pid hp => cases hl.symm.trans hp
  | acked ack pid hp => cases hl.symm.trans hp

theorem of_acked {ack : Segment} {rest : List Segment} (hf : Flow k peer data (ack :: rest)) :
    rest = [] ∧ data = [] ∧ ∃ pid, k.lastTxPacket = some pid ∧ ack.payload = [] ∧
    ack.From { peer with seqNumber := ack.seqNumber } flagAck ∧ k.seqNumber = peer.ackNumber := by
  cases hf with
  | acked _ pid hl he hfrom hn => exact ⟨rfl, rfl, pid, hl, he, hfrom, hn⟩

theorem of_flying {seg : Segment} {rest : List Segment} (hf : Flow k peer (seg :: rest) acks) :
    rest = [] ∧ acks = [] ∧ ∃ pid, k.lastTxPacket = some pid ∧ seg.payload ≠ [] ∧
    seg.From { k with seqNumber := peer.ackNumber, ackNumber := peer.seqNumber }
      (flagPsh ||| flagAck) ∧
    seg.nextSeq = k.seqNumber := by
  cases hf with
  | flying _ pid hl he hfrom hn => exact ⟨rfl, rfl, pid, hl, he, hfrom, hn⟩

theorem number (hf : Flow k peer data acks) (hd : data = []) : k.seqNumber = peer.ackNumber := by
  cases hf with
  | idle _ hn => exact hn
  | flying => cases hd
  | acked _ _ _ _ _ hn => exact hn

theorem congr {peer' : Handle n} (hf : Flow k peer data acks)
    (hd : data = [] ∨ peer'.seqNumber = peer.seqNumber) (hp : peer'.port = peer.port)
    (hdp : peer'.destPort = peer.destPort) (ha : peer'.ackNumber = peer.ackNumber) :
    Flow k peer' data acks := by
  cases hf with
  | idle hl hn => exact .idle hl (hn.trans ha.symm)
  | flying seg pid hl he hfrom hn =>
    have hseq := hd.resolve_left nofun
    refine .flying seg pid hl he ⟨hfrom.srcPort, hfrom.destPort, ?_, ?_, hfrom.flags⟩ hn
    · exact hfrom.seqNumber.trans ha.symm
    · exact hfrom.ackNumber.trans hseq.symm
  | acked ack pid hl he hfrom hn =>
    refine .acked ack pid hl he ⟨?_, ?_, rfl, ?_, hfrom.flags⟩ (hn.trans ha.symm)
    · exact hfrom.srcPort.trans hp.symm
    · exact hfrom.destPort.trans hdp.symm
    · exact hfrom.ackNumber.trans ha.symm

end Flow

/-- The data that side `s` has on its way, and the acknowledgements on their way to it. -/
def Pair.data (d : Pair n) (s : Side) : List Segment :=
  (d.inbox s.other).filter fun seg => seg.payload ≠ []
def Pair.acks (d : Pair n) (s : Side) : List Segment :=
  (d.inbox s).filter fun seg => seg.payload = []

/-- What no step of the exchange changes. -/
structure Bound (h : Side → Fin n) (d₀ d : Pair n) : Prop where
  open_ : ∀ s, (d.conn h s).state = .established
  serves : ∀ s, Serves (d.node s).1 (h s)
  ports : ∀ s, (d.conn h s).port = (d.conn h s.other).destPort
  pc : ∀ s, (d.node s).2 = .ready ∨ (d.node s).2 = .inCallback ∨ ∃ seg, (d.node s).2 = .inRx seg
  grown : ∀ s, (d₀.node s).1.outputs <+: (d.node s).1.outputs ∧
    (d₀.node s).1.eventsOf (h s) <+: (d.node s).1.eventsOf (h s)

/-- What the run lemma carries: both flows, at most one of them with data on its way, and
in each inbox the acknowledgement before the data. -/
structure Agrees (h : Side → Fin n) (d₀ d : Pair n) : Prop extends Bound h d₀ d where
  flow : ∀ s, Flow (d.conn h s) (d.conn h s.other) (d.data s) (d.acks s)
  order : ∀ s, d.inbox s = d.acks s ++ d.data s.other
  turn : ∀ s, d.data s = [] ∨ d.data s.other = []
  streams : ∀ s, takenSince (h s.other) (d₀.node s.other).1 (d.node s.other).1 ++
    bytesOf (d.data s) =
    sentSince (d₀.node s).1 (d.node s).1

section Step

variable {h : Side → Fin n} {d₀ d d' : Pair n} {s : Side} {y : Stack n × Pc n} {k : Handle n}
  {out rest : List Segment} {events : List Raised}

theorem emits_eq {x y : Stack n × Pc n} (ho : y.1.outputs = x.1.outputs ++ out) :
    emits x y = out := by
  rw [emits, ho, List.drop_left]

theorem conn_after (rest : List Segment) (ho : Outcome (d.node s).1 y.1 (h s) k out events) :
    Pair.conn (d.after s y rest out) h s = k ∧
      Pair.conn (d.after s y rest out) h s.other = d.conn h s.other := by
  constructor
  · rw [Pair.conn, Duplex.after_node, ho.only.conn]
  · rw [Pair.conn, Duplex.after_node_other]

theorem data_after (d : Pair n) (s : Side) (y : Stack n × Pc n) (rest out : List Segment) :
    Pair.data (d.after s y rest out) s = d.data s ++ out.filter (fun seg => seg.payload ≠ []) ∧
    Pair.data (d.after s y rest out) s.other = rest.filter fun seg => seg.payload ≠ [] := by
  constructor
  · rw [Pair.data, Duplex.after_inbox_other, List.filter_append]
    rfl
  · rw [Pair.data, Side.other_other, Duplex.after_inbox]

theorem acks_after (d : Pair n) (s : Side) (y : Stack n × Pc n) (rest out : List Segment) :
    Pair.acks (d.after s y rest out) s = rest.filter (fun seg => seg.payload = []) ∧
    Pair.acks (d.after s y rest out) s.other = d.acks s.other ++ out.filter fun seg =>
      seg.payload = [] := by
  constructor
  · rw [Pair.acks, Duplex.after_inbox]
  · rw [Pair.acks, Duplex.after_inbox_other, List.filter_append]
    rfl

theorem Bound.after (hb : Bound h d₀ d) (ho : Outcome (d.node s).1 y.1 (h s) k out events)
    (hs : k.state = .established) (hp : k.port = (d.conn h s).port)
    (hd : k.destPort = (d.conn h s).destPort)
    (hpc : y.2 = .ready ∨ y.2 = .inCallback ∨ ∃ seg, y.2 = .inRx seg) :
    Bound h d₀ (d.after s y rest out) := by
  obtain ⟨hk, hpeer⟩ := conn_after rest ho
  refine ⟨Side.forall_of s ?_ ?_, Side.forall_of s ?_ ?_, Side.forall_of s ?_ ?_,
    Side.forall_of s ?_ ?_,
    Side.forall_of s ?_ ?_⟩
  · rw [hk, hs]
  · rw [hpeer]
    exact hb.open_ _
  · rw [Duplex.after_node]
    exact (hb.serves s).frame ho.only hp hd
  · rw [Duplex.after_node_other]
    exact hb.serves _
  · rw [hk, hpeer, hp]
    exact hb.ports s
  · rw [Side.other_other, hk, hpeer, hd]
    have hports := hb.ports s.other
    rwa [Side.other_other] at hports
  · rw [Duplex.after_node]
    exact hpc
  · rw [Duplex.after_node_other]
    exact hb.pc _
  · rw [Duplex.after_node, ho.outputs, ho.events]
    exact ⟨(hb.grown s).1.trans (List.prefix_append _ _),
      (hb.grown s).2.trans (List.prefix_append _ _)⟩
  · rw [Duplex.after_node_other]
    exact hb.grown _

theorem Bound.sentSince (hb : Bound h d₀ d) (ho : Outcome (d.node s).1 y.1 (h s) k out events) :
    sentSince (d₀.node s).1 y.1 = sentSince (d₀.node s).1 (d.node s).1 ++ bytesOf out := by
  unfold NanoIp.Tcp.sentSince
  rw [ho.outputs, List.drop_append_of_le_length (hb.grown s).1.length_le]
  exact List.flatMap_append

theorem Bound.takenSince (hb : Bound h d₀ d) (ho : Outcome (d.node s).1 y.1 (h s) k out events) :
    takenSince (h s) (d₀.node s).1 y.1 = takenSince (h s) (d₀.node s).1 (d.node s).1 ++
      bytesOf (received events) := by
  unfold NanoIp.Tcp.takenSince received
  rw [ho.events, List.drop_append_of_le_length (hb.grown s).2.length_le, List.filterMap_append]
  exact List.flatMap_append

theorem bytesOf_filter (segs : List Segment) :
    bytesOf (segs.filter fun seg => seg.payload ≠ []) = bytesOf segs := by
  induction segs with
  | nil => rfl
  | cons seg segs ih =>
    by_cases hp : seg.payload = []
    · rw [List.filter_cons_of_neg (by simpa using hp), ih, bytesOf, bytesOf, List.flatMap_cons, hp]
      rfl
    · rw [List.filter_cons_of_pos (by simpa using hp), bytesOf, List.flatMap_cons, ← bytesOf, ih]
      rfl

/-- The invariant behind a step of side `s`, from what the step did to both flows. -/
theorem Agrees.after (ha : Agrees h d₀ d) (ho : Outcome (d.node s).1 y.1 (h s) k out events)
    (hb : Bound h d₀ (d.after s y rest out))
    (hs : Flow k (d.conn h s.other) (d.data s ++ out.filter fun seg => seg.payload ≠ [])
      (rest.filter fun seg => seg.payload = []))
    (hp : Flow (d.conn h s.other) k (rest.filter fun seg => seg.payload ≠ [])
      (d.acks s.other ++ out.filter fun seg => seg.payload = []))
    (horder : rest = (rest.filter fun seg => seg.payload = []) ++ rest.filter fun seg =>
      seg.payload ≠ [])
    (hother : d.inbox s.other ++ out = (d.acks s.other ++ out.filter fun seg => seg.payload = []) ++
      (d.data s ++ out.filter fun seg => seg.payload ≠ []))
    (hturn : (d.data s ++ out.filter fun seg => seg.payload ≠ []) = [] ∨
      (rest.filter fun seg => seg.payload ≠ []) = [])
    (htaken : bytesOf (received events) ++ bytesOf (rest.filter fun seg => seg.payload ≠ []) =
      bytesOf (d.data s.other)) : Agrees h d₀ (d.after s y rest out) := by
  obtain ⟨hk, hpeer⟩ := conn_after rest ho
  obtain ⟨hdata, hdata'⟩ := data_after d s y rest out
  obtain ⟨hacks, hacks'⟩ := acks_after d s y rest out
  refine ⟨hb, Side.forall_of s ?_ ?_, Side.forall_of s ?_ ?_, Side.forall_of s ?_ ?_,
    Side.forall_of s ?_ ?_⟩
  · rw [hk, hpeer, hdata, hacks]
    exact hs
  · rw [Side.other_other, hk, hpeer, hdata', hacks']
    exact hp
  · rw [Duplex.after_inbox, hacks, hdata']
    exact horder
  · rw [Side.other_other, Duplex.after_inbox_other, hacks', hdata]
    exact hother
  · rw [hdata, hdata']
    exact hturn
  · rw [Side.other_other, hdata, hdata']
    exact hturn.symm
  · rw [Duplex.after_node, Duplex.after_node_other, ha.sentSince ho, hdata, ← ha.streams s, bytesOf,
      List.flatMap_append, ← bytesOf, ← bytesOf, bytesOf_filter, List.append_assoc]
  · have hstream := ha.streams s.other
    rw [Side.other_other] at hstream
    rw [Side.other_other, Duplex.after_node, Duplex.after_node_other, ha.takenSince ho,
      hdata', ← hstream,
      List.append_assoc, htaken]

/-- A step that sends, raises and changes nothing of the connection. -/
theorem Agrees.quiet (ha : Agrees h d₀ d) (ho : Outcome (d.node s).1 y.1 (h s) (d.conn h s) [] [])
    (hpc : y.2 = .ready ∨ y.2 = .inCallback ∨ ∃ seg, y.2 = .inRx seg) :
    Agrees h d₀ (d.after s y (d.inbox s) []) := by
  have hfilter (P : Segment → Bool) : ([] : List Segment).filter P = [] := List.filter_nil
  have hdata : (d.inbox s).filter (fun seg => seg.payload ≠ []) = d.data s.other := by
    rw [Pair.data, Side.other_other]
  refine ha.after ho (ha.toBound.after ho (ha.open_ s) rfl rfl hpc) ?_ ?_ ?_ ?_ ?_ ?_
  · rw [hfilter, List.append_nil]
    exact ha.flow s
  · have hflow := ha.flow s.other
    rw [Side.other_other] at hflow
    rw [hfilter, List.append_nil, hdata]
    exact hflow
  · rw [hdata]
    exact ha.order s
  · have horder := ha.order s.other
    rw [Side.other_other] at horder
    rw [hfilter, hfilter, List.append_nil, List.append_nil, List.append_nil]
    exact horder
  · rw [hfilter, List.append_nil, hdata]
    exact ha.turn s
  · rw [hdata]
    rfl

theorem Agrees.send {pid : PacketId} {lower : Lower} (ha : Agrees h d₀ d)
    (hl : (d.conn h s).lastTxPacket = none)
    (hr : (sendPacket (d.node s).1 (h s) pid lower).2 = .success)
    (hcount : ((d.node s).1.packets pid).count ≠ 0#16)
    (hfree : ∀ seg ∈ d.inbox s, seg.payload = []) :
    Agrees h d₀ (d.after s ((sendPacket (d.node s).1 (h s) pid lower).1, (d.node s).2) (d.inbox s)
      (emits (d.node s) ((sendPacket (d.node s).1 (h s) pid lower).1, (d.node s).2))) := by
  obtain ⟨seg, hfrom, hlen, ho⟩ := send_outcome hl (ha.open_ s) hr
  have hpay : seg.payload ≠ [] := by
    intro hnil
    rw [hnil] at hlen
    exact hcount (BitVec.eq_of_toNat_eq hlen.symm)
  have hpeerData : d.data s.other = [] := by
    rw [Pair.data, Side.other_other, List.filter_eq_nil_iff]
    intro seg' hin
    simpa using hfree seg' hin
  obtain ⟨hnone, hnoack, hnum⟩ := (ha.flow s).of_idle hl
  have hpeer := ha.flow s.other
  rw [Side.other_other] at hpeer
  have hpnum := hpeer.number hpeerData
  have hout : [seg].filter (fun seg => seg.payload ≠ []) = [seg] ∧
      [seg].filter (fun seg => seg.payload = []) = [] := by simp [hpay]
  have hdata : (d.inbox s).filter (fun seg => seg.payload ≠ []) = [] := by
    rw [← hpeerData, Pair.data, Side.other_other]
  have hacks : (d.inbox s).filter (fun seg => seg.payload = []) = [] := hnoack
  have hport := ha.ports s
  have horder := ha.order s
  have horder' := ha.order s.other
  rw [hnoack, hpeerData] at horder
  rw [Side.other_other, hnone, List.append_nil] at horder'
  rw [emits_eq ho.outputs]
  refine ha.after ho (ha.toBound.after ho (ha.open_ s) rfl rfl (ha.pc s)) ?_ ?_ ?_ ?_ ?_ ?_
  · rw [hnone, hout.1, hacks]
    refine .flying seg pid rfl hpay ⟨hfrom.srcPort, hfrom.destPort, ?_, ?_, hfrom.flags⟩ rfl
    · exact hfrom.seqNumber.trans hnum
    · exact hfrom.ackNumber.trans hpnum.symm
  · rw [hout.2, hdata, List.append_nil]
    rw [hpeerData] at hpeer
    exact hpeer.congr (.inl rfl) rfl rfl rfl
  · rw [hdata, hacks]
    exact horder
  · rw [hout.1, hout.2, horder', hnone, List.append_nil]
    rfl
  · exact .inr hdata
  · rw [hdata, hpeerData]
    rfl

theorem Bound.lookup {seg : Segment} {flags : Byte} {k : Handle n} (hb : Bound h d₀ d)
    (hf : seg.From k flags) (hp : k.port = (d.conn h s.other).port)
    (hd : k.destPort = (d.conn h s.other).destPort) :
    lookup (d.node s).1 seg = some (h s) := by
  apply (hb.serves s).lookup
  · rw [hf.destPort, hd]
    exact (hb.ports s).symm
  · have hports := hb.ports s.other
    rw [Side.other_other] at hports
    rw [hf.srcPort, hp, hports]
    rfl

theorem Agrees.deliver_ack {ack : Segment} {lower : Lower} (ha : Agrees h d₀ d)
    (hin : d.inbox s = ack :: rest) (hack : d.acks s = [ack]) :
    Agrees h d₀ (d.after s (rxFrame (d.node s).1 ack lower) rest
      (emits (d.node s) (rxFrame (d.node s).1 ack lower))) := by
  have hflow := ha.flow s
  have hpeer := ha.flow s.other
  rw [Side.other_other] at hpeer
  rw [hack] at hflow
  obtain ⟨-, hnone, pid, hl, hempty, hfrom, hnum⟩ := hflow.of_acked
  have horder := ha.order s
  rw [hin, hack] at horder
  have hrest : rest = d.data s.other := (List.cons.inj horder).2
  have hacks : rest.filter (fun seg => seg.payload = []) = [] := by
    rw [hrest, Pair.data, List.filter_filter, List.filter_eq_nil_iff]
    simp
  have hdata : rest.filter (fun seg => seg.payload ≠ []) = rest := by
    rw [hrest, Pair.data, List.filter_filter]
    simp
  have hlook := ha.toBound.lookup hfrom rfl rfl
  have ho : Outcome (d.node s).1 (rxFrame (d.node s).1 ack lower).1 (h s)
      { d.conn h s with lastTxPacket := none } [] [(.tx, .success, none)] :=
    ack_outcome hlook (ha.open_ s) (hfrom.ackNumber.trans hnum.symm) hfrom.flags hempty hl
  have hpc := rxFrame_ack lower hlook (ha.open_ s) (hfrom.ackNumber.trans hnum.symm)
    hfrom.flags hempty hl
  have hfilter (P : Segment → Bool) : ([] : List Segment).filter P = [] := List.filter_nil
  rw [emits_eq ho.outputs]
  refine ha.after ho
    (ha.toBound.after ho (ha.open_ s) rfl rfl (.inr (.inl (by rw [hpc])))) ?_ ?_ ?_ ?_ ?_ ?_
  · rw [hfilter, List.append_nil, hacks, hnone]
    exact .idle rfl hnum
  · rw [hdata, hrest, hfilter, List.append_nil]
    exact hpeer.congr (.inr rfl) rfl rfl rfl
  · rw [hacks, hdata]
    rfl
  · have horder' := ha.order s.other
    rw [Side.other_other] at horder'
    rw [hfilter, hfilter, List.append_nil, List.append_nil, List.append_nil]
    exact horder'
  · rw [hfilter, List.append_nil]
    exact .inl hnone
  · rw [hdata, hrest]
    rfl

theorem Agrees.arriving {seg : Segment} (ha : Agrees h d₀ d) (hin : d.inbox s = seg :: rest)
    (hack : d.acks s = []) :
    rest = [] ∧ d.data s = [] ∧ d.acks s.other = [] ∧ d.data s.other = [seg] ∧
      ∃ pid, (d.conn h s.other).lastTxPacket = some pid ∧ seg.payload ≠ [] ∧
      seg.From { d.conn h s.other with
        seqNumber := (d.conn h s).ackNumber, ackNumber := (d.conn h s).seqNumber }
          (flagPsh ||| flagAck) ∧
      seg.nextSeq = (d.conn h s.other).seqNumber := by
  have hpeer := ha.flow s.other
  have horder := ha.order s
  rw [hin, hack, List.nil_append] at horder
  rw [Side.other_other, ← horder] at hpeer
  obtain ⟨rfl, hnoack, hflying⟩ := hpeer.of_flying
  have hnone : d.data s = [] :=
    (ha.turn s).resolve_right (by rw [← horder]; exact List.cons_ne_nil _ _)
  exact ⟨rfl, hnone, hnoack, horder.symm, hflying⟩

theorem Agrees.deliver_data {seg : Segment} {lower : Lower} (ha : Agrees h d₀ d)
    (hin : d.inbox s = seg :: rest) (hack : d.acks s = [])
    (hr : controlResult (d.node s).1 (h s) lower = .success) :
    Agrees h d₀ (d.after s (rxFrame (d.node s).1 seg lower) rest
      (emits (d.node s) (rxFrame (d.node s).1 seg lower))) := by
  obtain ⟨rfl, hnone, hnoack, hseg, pid, hl, hpay, hfrom, hnum⟩ := ha.arriving hin hack
  have hinbox := ha.order s.other
  rw [Side.other_other, hnoack, hnone, List.append_nil] at hinbox
  have hflow := ha.flow s
  rw [hnone, hack] at hflow
  have hlook := ha.toBound.lookup hfrom rfl rfl
  obtain ⟨ack, hackfrom, hempty, ho⟩ := data_outcome lower hlook (ha.open_ s) hfrom.ackNumber
    hfrom.flags hpay
    hfrom.seqNumber hr
  have hpc := rxFrame_data hlook (ha.open_ s) hfrom.ackNumber hfrom.flags hpay hfrom.seqNumber hr
  have hfilter (P : Segment → Bool) : ([] : List Segment).filter P = [] := List.filter_nil
  have hout : [ack].filter (fun seg => seg.payload ≠ []) = [] ∧
      [ack].filter (fun seg => seg.payload = []) = [ack] := by simp [hempty]
  rw [emits_eq ho.outputs]
  refine ha.after ho (ha.toBound.after ho (ha.open_ s) rfl rfl
    (.inr (.inr ⟨seg, by rw [hpc]⟩))) ?_ ?_ ?_ ?_ ?_ ?_
  · rw [hout.1, hfilter, List.append_nil, hnone]
    cases hflow with
    | idle hidle hn => exact .idle hidle hn
  · rw [hfilter, hnoack, hout.2]
    refine .acked ack pid hl hempty
      ⟨hackfrom.srcPort, hackfrom.destPort, rfl, ?_, hackfrom.flags⟩ hnum.symm
    exact hackfrom.ackNumber
  · rfl
  · rw [hout.1, hout.2, hinbox, hnoack, hnone]
    rfl
  · exact .inr rfl
  · rw [hseg]
    simp [received, bytesOf]

theorem quiet_outcome {x : Stack n × Pc n} {i : Input n} (a : Fin n) (hi : i.quiet = true)
    (hpc : x.2 = .ready ∨ x.2 = .inCallback ∨ ∃ seg, x.2 = .inRx seg) (hs : step x i = some y) :
    Outcome x.1 y.1 a (x.1.mem a).conn [] [] ∧
      (y.2 = .ready ∨ y.2 = .inCallback ∨ ∃ seg, y.2 = .inRx seg) := by
  have hnone : Outcome x.1 x.1 a (x.1.mem a).conn [] [] := .silent rfl rfl rfl rfl
  cases step_move hs with
  | rxFrame | arpResponse | periodicTask | visit | visited | releaseHandle => cases hi
  | ret release accept lower _ hr =>
    rcases hpc with hx | hx | ⟨seg, hx⟩
    · rw [hx] at hr
      cases hr
    · rw [hx] at hr
      obtain rfl := Option.some.inj hr
      exact ⟨hnone, .inl rfl⟩
    · rw [hx] at hr
      obtain rfl := Option.some.inj hr
      refine ⟨?_, .inl rfl⟩
      dsimp only
      split_ifs
      · exact hnone
      · refine .silent rfl rfl ((outputs_record _ _).trans (List.append_nil _)) ?_
        simp [Stack.eventsOf]
  | call i m _ hc =>
    refine ⟨?_, hpc⟩
    cases i with
    | allocatePacket answer size =>
      obtain rfl := Option.some.inj hc
      exact .silent (allocatePacket_mem _ _ _) (allocatePacket_handles _ _ _)
        (outputs_congr (allocatePacket_log _ _ _))
          (Stack.eventsOf_congr (allocatePacket_log _ _ _) a)
    | writePacket | elapse =>
      obtain rfl := Option.some.inj hc
      exact .silent rfl rfl rfl rfl
    | releasePacket pid =>
      obtain rfl := Option.some.inj hc
      exact .silent rfl rfl (outputs_releasePacket _ _)
        (by simp [Stack.eventsOf, Stack.releasePacket])
    | ret => cases hc
    | _ => cases hi

theorem agrees_step {i : Duplex.Input (Input n) Lower} (ha : Agrees h d₀ d)
    (hok : Exchanges h d i ∧ InTurn h d i) (hs : exchange d i = some d') : Agrees h d₀ d' := by
  obtain ⟨hok, hturn⟩ := hok
  cases i with
  | act s i =>
    obtain ⟨y, hy, rfl⟩ := Duplex.step_act hs
    by_cases hq : i.quiet = true
    · obtain ⟨ho, hpc⟩ := quiet_outcome (h s) hq (ha.pc s) hy
      rw [emits_eq ho.outputs]
      exact ha.quiet ho hpc
    · cases i with
      | sendPacket k pid lower =>
        obtain ⟨rfl, hr⟩ := hok
        cases step_move hy with
        | call _ m _ hc =>
          obtain rfl := Option.some.inj hc
          by_cases hl : (d.conn h s).lastTxPacket = none
          · exact ha.send hl (hr hl) (hturn hl).1 (hturn hl).2
          · have hsome := Option.isSome_iff_ne_none.mpr hl
            have hbusy : sendPacket (d.node s).1 (h s) pid lower = ((d.node s).1, .busy) :=
              if_pos hsome
            rw [hbusy]
            have ho : Outcome (d.node s).1 (d.node s).1 (h s) (d.conn h s) [] [] :=
              .silent rfl rfl rfl rfl
            rw [emits_eq ho.outputs]
            exact ha.quiet ho (ha.pc s)
      | _ => exact absurd hok hq
  | deliver s lower =>
    obtain ⟨seg, rest, y, hin, hy, rfl⟩ := Duplex.step_deliver hs
    cases step_move hy with
    | call _ m _ hc => cases hc
    | rxFrame =>
      cases hacks : d.acks s with
      | nil => exact ha.deliver_data hin hacks hok
      | cons ack acks =>
        have hflow := ha.flow s
        have horder := ha.order s
        rw [hacks] at hflow
        obtain ⟨rfl, -⟩ := hflow.of_acked
        rw [hin, hacks] at horder
        obtain ⟨rfl, -⟩ := List.cons.inj horder
        exact ha.deliver_ack hin hacks

theorem Connected.agrees (hc : Connected h d) : Agrees h d d := by
  have hdata (s : Side) : d.data s = [] := by rw [Pair.data, hc.quiet, List.filter_nil]
  have hacks (s : Side) : d.acks s = [] := by rw [Pair.acks, hc.quiet, List.filter_nil]
  refine ⟨⟨hc.open_, hc.serves, hc.ports, fun s => ?_, fun s =>
    ⟨List.prefix_refl _, List.prefix_refl _⟩⟩,
    fun s => ?_, fun s => ?_, fun s => .inl (hdata s), fun s => ?_⟩
  · exact (hc.pc s).elim .inl fun hcb => .inr (.inl hcb)
  · rw [hdata, hacks]
    exact .idle (hc.idle s) (hc.numbers s)
  · rw [hacks, hdata, hc.quiet]
    rfl
  · rw [hdata, takenSince, sentSince, List.drop_length, List.drop_length]
    rfl

theorem Agrees.delivers (ha : Agrees h d₀ d) : Delivers h d₀ d := by
  refine ⟨fun s lower d' hok hs seg rest hin hpay _ _ => ?_, fun hq s => ?_⟩
  · obtain ⟨m, rest', y, hin', hy, rfl⟩ := Duplex.step_deliver hs
    obtain ⟨rfl, rfl⟩ := List.cons.inj (hin.symm.trans hin')
    have hacks : d.acks s = [] := by
      cases hacks : d.acks s with
      | nil => rfl
      | cons ack acks =>
        have hflow := ha.flow s
        have horder := ha.order s
        rw [hacks] at hflow
        obtain ⟨-, -, _, -, hempty, -⟩ := hflow.of_acked
        rw [hin, hacks] at horder
        obtain ⟨rfl, -⟩ := List.cons.inj horder
        exact absurd hempty hpay
    obtain ⟨-, -, -, -, pid, -, -, hfrom, -⟩ := ha.arriving hin hacks
    obtain ⟨ack, hack, -, ho⟩ := data_outcome lower (ha.toBound.lookup hfrom rfl rfl) (ha.open_ s)
      hfrom.ackNumber
      hfrom.flags hpay hfrom.seqNumber hok
    cases step_move hy with
    | call _ m _ hc => cases hc
    | rxFrame =>
      refine ⟨?_, ack, ?_, hack.flags, hack.ackNumber⟩
      · rw [Duplex.after_node, ho.events]
      · rw [Duplex.after_inbox_other, emits_eq ho.outputs]
  · have hdata : d.data s = [] := by rw [Pair.data, hq, List.filter_nil]
    have hacks : d.acks s = [] := by rw [Pair.acks, hq, List.filter_nil]
    have hflow := ha.flow s
    have hstream := ha.streams s
    rw [hdata, hacks] at hflow
    rw [hdata, show bytesOf [] = [] from rfl, List.append_nil] at hstream
    refine ⟨?_, hstream⟩
    cases hflow with
    | idle hl => exact hl

end Step

/-- A client with handle 0 and a server that accepts with handle 1. -/
def clientServer (s : Side) : Fin 2 := match s with
  | .left => 0
  | .right => 1

/-- Two modules that have not been used. -/
def freshPair : Pair 2 where
  node s := initial 2 (fun _ => blankPacket) portPoolStart (match s with
    | .left => 7
    | .right => 3)
  inbox _ := []

/-- The client connects to the server. -/
def pairHandshake : List (Duplex.Input (Input 2) Lower) :=
  [.act .left (.open_ 0 5000#16 []), .act .right (.open_ 0 80#16 []), .act .right (.listen 0),
    .act .right (.open_ 1 81#16 []), .act .left (.connect 0 0x0A000002#32 80#16 (transmitting 0)),
    .deliver .right (transmitting 0), .act .right (.ret true (some 1) (transmitting 0)),
    .deliver .left (transmitting 1), .act .left (.ret true none (transmitting 1)),
    .deliver .right (transmitting 1), .act .right (.ret true none (transmitting 1))]

/-- In every run in which the applications send in turn, no data is lost. -/
theorem exchanged_in_turn {h : Side → Fin n} {d₀ d : Pair n} (hc : Connected h d₀)
    (hr : Lib.Reach exchange (fun d i => Exchanges h d i ∧ InTurn h d i) d₀ d) : Delivers h d₀ d :=
  (hr.invariant hc.agrees fun _ _ _ ha hok hs => agrees_step ha hok hs).delivers

/-- The application of side `s` sends a payload in packet `pid`. -/
def sends (s : Side) (pid : PacketId) (payload : List Byte) (lower : Lower) :
    List (Duplex.Input (Input 2) Lower) :=
  (compose pid payload).map (Duplex.Input.act s) ++
    [.act s (.sendPacket (clientServer s) pid lower)]

/-- Two bytes to the server, then one to the client. -/
theorem exchanged_in_turn_both :
    ∃ d₀ d : Pair 2, Connected clientServer d₀ ∧ (∀ s, d.inbox s = []) ∧
    (sentSince (d₀.node .left).1 (d.node .left).1).length = 2 ∧
    (sentSince (d₀.node .right).1 (d.node .right).1).length = 1 ∧ Delivers clientServer d₀ d := by
  obtain ⟨d₀, -, hd₀⟩ := Lib.exists_of_runInputs exchange Lib.anyStep freshPair pairHandshake
    (fun d₀ => Connected clientServer d₀ ∧
      (Lib.runInputs exchange (fun d i => Exchanges clientServer d i ∧ InTurn clientServer d i) d₀
        (sends .left 7 [1, 2] (transmitting 8) ++
          [.deliver .right (transmitting 9), .act .right (.ret true none (transmitting 9)),
            .deliver .left (transmitting 9), .act .left (.ret true none (transmitting 9))] ++
          sends .right 7 [3] (transmitting 8) ++
          [.deliver .left (transmitting 10), .act .left (.ret true none (transmitting 10)),
            .deliver .right (transmitting 10)])).any fun d =>
        (∀ s, d.inbox s = []) ∧ (sentSince (d₀.node .left).1 (d.node .left).1).length = 2 ∧
        (sentSince (d₀.node .right).1 (d.node .right).1).length = 1) (by decide)
  obtain ⟨hc, hrun⟩ := of_decide_eq_true hd₀
  obtain ⟨d, hr, hd⟩ := Lib.exists_of_runInputs _ _ _ _ _ hrun
  obtain ⟨hq, hl, hright⟩ := of_decide_eq_true hd
  exact ⟨d₀, d, hc, hq, hl, hright, exchanged_in_turn hc hr⟩

/-- Both sides send before either receives: neither segment is taken. -/
theorem crossing_is_lost : ¬ ∀ (n : Nat) (h : Side → Fin n) (d₀ d : Pair n), Connected h d₀ →
    Lib.Reach exchange (Exchanges h) d₀ d → Delivers h d₀ d := by
  intro hall
  obtain ⟨d₀, -, hd₀⟩ := Lib.exists_of_runInputs exchange Lib.anyStep freshPair pairHandshake
    (fun d₀ => Connected clientServer d₀ ∧
      (Lib.runInputs exchange (Exchanges clientServer) d₀
        (sends .left 7 [1, 2] (transmitting 8) ++ sends .right 7 [3] (transmitting 8) ++
          [Duplex.Input.deliver .right (transmitting 9), .deliver .left (transmitting 9)])).any
            fun d =>
        (∀ s, d.inbox s = []) ∧ (d.conn clientServer .left).lastTxPacket ≠ none) (by decide)
  obtain ⟨hc, hrun⟩ := of_decide_eq_true hd₀
  obtain ⟨d, hr, hd⟩ := Lib.exists_of_runInputs _ _ _ _ _ hrun
  obtain ⟨hq, hpending⟩ := of_decide_eq_true hd
  exact hpending ((hall 2 clientServer d₀ d hc hr).quiet hq .left).1

end NanoIp.Tcp
