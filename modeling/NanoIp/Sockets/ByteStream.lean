import NanoIp.Sockets.Datagrams
import NanoIp.Sockets.Undisturbed
import NanoIp.Tcp.Agreement

/-!
# The byte stream from one node to the socket of another

Two nodes have a TCP connection over a network that loses, repeats, delays and reorders
frames. What the connection delivers at one node is queued by the callback of a socket,
and read by calls of any sizes while tasks use the other sockets and other events arrive.
-/
namespace NanoIp.Sockets

open Lib (Side)
open Tcp (Exchanged Raised initialEnds received)

variable {n l k : Nat} {T : Type}

/-- The TCP modules of two nodes, and the sockets of the one that reads. -/
structure Connected (n l k : Nat) (T : Type) where
  ends : Side → Tcp.Stack n × Tcp.Pc n
  node : System l k T

/-- The node that reads, the handles of the connection, and the socket of the reading one. -/
structure Reading (n l : Nat) where
  side : Side
  handle : Side → Fin n
  socket : Fin l

def raised (h : Fin n) (x y : Tcp.Stack n) : List Raised :=
  (y.eventsOf h).drop (x.eventsOf h).length

/-- The callbacks of a connection in `state`; received data is in packet `p`. -/
def System.hear (x : System l k T) (i : Fin l) (state : Tcp.State) (es : List Raised)
    (p : RxPacket) :
    Option (System l k T) :=
  (if received es = [] then some x else x.takePacket p).map fun y =>
    y.put (callbacks i (es.map fun e => (e.1, e.2.2.map fun _ => p)) (y.module.setState i state))

/-- One of the TCP modules takes a step, or the sockets of the reading node do. A call that uses the
connection is a step of each. -/
inductive ConnectedInput (n l : Nat) (T : Type) where
  | stack (s : Side) (i : Tcp.Input n) (p : RxPacket)
  | node (input : Input l T)

def connectedStep [DecidableEq T] (r : Reading n l) (c : Connected n l k T) :
    ConnectedInput n l T → Option (Connected n l k T)
  | .stack s i p =>
    (Lib.Parties.step Tcp.step c.ends (s, i)).bind fun ends =>
      let h := r.handle r.side
      let node :=
        if s = r.side then
          c.node.hear r.socket ((ends s).1.mem h).state (raised h (c.ends s).1 (ends s).1) p
        else some c.node
      node.map fun node => ⟨ends, node⟩
  | .node input => (step c.node input).map fun node => { c with node := node }

/-- The bytes that an input reads from socket `i`. -/
def System.reads (x : System l k T) (i : Fin l) : Input l T → List Byte
  | .receiveFrom socketId size =>
    if x.module.get socketId = some i then (receiveFrom x.module socketId size).2.bytes else []
  | .receiveWake j size ret active =>
      if j = i then (receiveWake x.module j size ret active).2.bytes else []
  | _ => []

/-- The bytes read so far. -/
def readBytes (r : Reading n l) (read : List Byte) (c : Connected n l k T)
    (input : ConnectedInput n l T) (_ : Connected n l k T) : List Byte :=
  match input with
  | .stack _ _ _ => read
  | .node input => read ++ c.node.reads r.socket input

/-- The buffer of a read. -/
def Input.size : Input l T → Option Nat
  | .receiveFrom _ size | .receiveWake _ size _ _ => some size
  | _ => none

/-- TCP is used as its agreement asks; the packet of a data segment holds its payload, and the
handshake of the socket is not given up. The socket is not released, and no request cuts a packet
behind the first. -/
def Streaming (r : Reading n l) (z : Connected n l k T × List Byte) : ConnectedInput n l T → Prop
  | .stack s i p => Exchanged r.handle z.1.ends (s, i) ∧
      (s = r.side → ∀ y ∈ Tcp.step (z.1.ends s) i,
        (∀ seg ∈ received (raised (r.handle r.side) (z.1.ends s).1 y.1), p.content = seg.payload) ∧
        ∀ e ∈ raised (r.handle r.side) (z.1.ends s).1 y.1, e.1 ≠ .acceptFailed)
  | .node input => input.touches z.1.node.module r.socket →
      ∃ size ∈ input.size, ¬ CutsLater size (z.1.node.module.sockets r.socket).rxPackets

instance (r : Reading n l) (z : Connected n l k T × List Byte) (input : ConnectedInput n l T) :
    Decidable (Streaming r z input) := by
  rcases input with ⟨⟩ <;> unfold Streaming <;> infer_instance

section Read

variable {m : Module l k} {i : Fin l} {size : Nat}

/-- A call has read part of the queue, or nothing. -/
structure ReadsOn (i : Fin l) (m : Module l k) (out : Module l k × Pass RxResult) : Prop where
  isFree : (out.1.sockets i).isFree = (m.sockets i).isFree
  type : (out.1.sockets i).type = (m.sockets i).type
  unread : Unread (m.sockets i).rxPackets → Unread (out.1.sockets i).rxPackets
  stream : out.2.bytes ++ contents (out.1.sockets i).rxPackets = contents (m.sockets i).rxPackets

theorem ReadsOn.error (e : Err) : ReadsOn i m (m, .returns (.empty e)) := ⟨rfl, rfl, id, rfl⟩

theorem receivePass_readsOn (ht : (m.sockets i).type = .tcp) (hu : Unread (m.sockets i).rxPackets)
    (hcut : ¬ CutsLater size (m.sockets i).rxPackets) : ReadsOn i m (receivePass m i size) := by
  by_cases hq : (m.sockets i).rxPackets = []
  · rw [receivePass_empty hq]
    refine ⟨rfl, rfl, id, ?_⟩
    dsimp only
    split <;> rfl
  · obtain ⟨c, hc, htakes⟩ := copyAll_takes hq hu hcut
    have hsocket := takePackets_socket m i c.queue c.released
    have hstream : c.bytes ++ contents c.queue = contents (m.sockets i).rxPackets := by
      rw [htakes.bytes, htakes.rest, List.nil_append, List.take_append_drop]
    rw [receivePass_tcp ht hq hc]
    constructor
    · rw [hsocket]
    · rw [hsocket]
    · intro _
      rw [hsocket]
      exact htakes.unread
    · rw [hsocket]
      exact hstream

theorem receiveFrom_readsOn {socketId : BitVec 32} (hi : m.get socketId = some i)
    (ht : (m.sockets i).type = .tcp) (hu : Unread (m.sockets i).rxPackets)
    (hcut : ¬ CutsLater size (m.sockets i).rxPackets) :
    ReadsOn i m (receiveFrom m socketId size) := by
  unfold receiveFrom
  rw [hi]
  dsimp only
  split
  · exact receivePass_readsOn ht hu hcut
  · exact ReadsOn.error _

theorem receiveWake_readsOn (ht : (m.sockets i).type = .tcp) (hu : Unread (m.sockets i).rxPackets)
    (hcut : ¬ CutsLater size (m.sockets i).rxPackets) (ret : Err) (active : BitVec 32) :
    ReadsOn i m (receiveWake m i size ret active) := by
  unfold receiveWake
  split_ifs
  · exact ReadsOn.error _
  · exact ReadsOn.error _
  · exact ReadsOn.error _
  · exact receivePass_readsOn ht hu hcut

end Read

section Hear

variable {x y : System l k T} {i : Fin l} {es : List Raised} {p : RxPacket}

theorem System.hear_some {state : Tcp.State} (hy : x.hear i state es p = some y) :
    y.module.sockets =
      (callbacks i (es.map fun e => (e.1, e.2.2.map fun _ => p))
        (x.module.setState i state)).sockets := by
  obtain ⟨y', hy', rfl⟩ := Option.map_eq_some_iff.mp hy
  have hmodule : y'.module = x.module := by
    split_ifs at hy' with hnone
    · rw [← Option.some.inj hy']
    · unfold System.takePacket at hy'
      split_ifs at hy'
      rw [← Option.some.inj hy']
  rw [← hmodule]
  rfl

theorem queuedBy_raised (es : List Raised) (p : RxPacket) :
    ((es.map fun e => (e.1, e.2.2.map fun _ => p)).flatMap fun e => queuedBy e.1 e.2) =
      (received es).map fun _ => p := by
  induction es with
  | nil => rfl
  | cons e es ih =>
    obtain ⟨event, error, packet⟩ := e
    rw [List.map_cons, List.flatMap_cons, ih]
    cases event with
    | rx =>
      cases packet with
      | none => rfl
      | some seg => rfl
    | _ => rfl

theorem System.hear_queues {state : Tcp.State} (hfree : (x.module.sockets i).isFree = false)
    (hes : ∀ e ∈ es, e.1 ≠ .acceptFailed) (hy : x.hear i state es p = some y) :
    (y.module.sockets i).line = (false, (x.module.sockets i).type,
      (x.module.sockets i).rxPackets ++ (received es).map fun _ => p) := by
  have hset : Same Socket.line x.module (x.module.setState i state) :=
    setState_same (fun _ _ => rfl) x.module i state
  have hline := callbacks_line (i := i) i (es.map fun e => (e.1, e.2.2.map fun _ => p))
    (x.module.setState i state)
    ((hset.undisturbed i).isFree.trans hfree) fun _ e he => by
      obtain ⟨e', he', rfl⟩ := List.mem_map.mp he
      exact hes e' he'
  rw [if_pos rfl, queuedBy_raised, (hset.undisturbed i).type,
    (hset.undisturbed i).rxPackets] at hline
  rw [System.hear_some hy]
  exact hline

theorem contents_received {segs : List Tcp.Segment} (hp : ∀ seg ∈ segs, p.content = seg.payload) :
    contents (segs.map fun _ => p) = (segs.map Tcp.Segment.payload).flatten := by
  induction segs with
  | nil => rfl
  | cons seg segs ih =>
    rw [List.map_cons, contents_cons, ih fun seg' hin => hp seg' (List.mem_cons_of_mem seg hin),
      hp seg List.mem_cons_self, List.map_cons, List.flatten_cons]

end Hear

theorem raised_eq {h : Fin n} {x y : Tcp.Stack n} {new : List Raised}
    (he : y.eventsOf h = x.eventsOf h ++ new) :
    raised h x y = new := by rw [raised, he, List.drop_left]

theorem System.reads_untouched {x : System l k T} {i : Fin l} {input : Input l T}
    (ht : ¬ input.touches x.module i) : x.reads i input = [] := by
  cases input with
  | receiveFrom socketId size => exact if_neg ht
  | receiveWake j size ret active => exact if_neg ht
  | _ => rfl

/-- A step of the sockets reads from the queue of socket `i` what it returns, or nothing. -/
theorem step_readsOn [DecidableEq T] {x y : System l k T} {i : Fin l} {input : Input l T}
    (hfree : (x.module.sockets i).isFree = false) (ht : (x.module.sockets i).type = .tcp)
    (hu : Unread (x.module.sockets i).rxPackets)
    (hok : input.touches x.module i → ∃ size ∈ input.size,
      ¬ CutsLater size (x.module.sockets i).rxPackets) (hs : step x input = some y) :
    ∃ out, ReadsOn i x.module out ∧ y.module.sockets = out.1.sockets ∧
      x.reads i input = out.2.bytes := by
  by_cases htouches : input.touches x.module i
  · obtain ⟨size, hsize, hcut⟩ := hok htouches
    cases step_move hs with
    | receiveFrom socketId size' =>
      obtain rfl := Option.some.inj hsize
      have hi : x.module.get socketId = some i := htouches
      exact ⟨_, receiveFrom_readsOn hi ht hu hcut, rfl, if_pos hi⟩
    | receiveWake j size' ret active =>
      obtain rfl := Option.some.inj hsize
      obtain rfl : j = i := htouches
      exact ⟨_, receiveWake_readsOn ht hu hcut ret active, rfl, if_pos rfl⟩
    | _ => cases hsize
  · have hkeep := step_undisturbed hfree htouches hs
    refine ⟨(y.module, .waits), ⟨hkeep.isFree, hkeep.type, fun hu => ?_, ?_⟩, rfl,
      x.reads_untouched htouches⟩
    · rw [hkeep.rxPackets]
      exact hu
    · rw [hkeep.rxPackets]
      rfl

section Runs

variable {r : Reading n l} {packets : Side → PacketId → Packet} {port : Side → BitVec 16}
  {time : Side → Nat}

/-- What a run keeps: the network is one of TCP, and what it delivered was read or is queued. -/
structure Conveyed (r : Reading n l) (packets : Side → PacketId → Packet) (port : Side → BitVec 16)
    (time : Side → Nat) (z : Connected n l k T × List Byte) : Prop where
  ends : Lib.Reach (Lib.Parties.step Tcp.step) (Exchanged r.handle)
    (initialEnds n packets port time) z.1.ends
  isFree : (z.1.node.module.sockets r.socket).isFree = false
  type : (z.1.node.module.sockets r.socket).type = .tcp
  unread : Unread (z.1.node.module.sockets r.socket).rxPackets
  stream : z.2 ++ contents (z.1.node.module.sockets r.socket).rxPackets =
    ((z.1.ends r.side).1.delivered (r.handle r.side)).flatten

namespace Conveyed

variable {z : Connected n l k T × List Byte} {y : System l k T}

/-- The sockets take a step. -/
theorem node [DecidableEq T] (h : Conveyed r packets port time z) {input : Input l T}
    (hok : Streaming r z (.node input)) (hs : step z.1.node input = some y) :
    Conveyed r packets port time (⟨z.1.ends, y⟩, z.2 ++ z.1.node.reads r.socket input) := by
  obtain ⟨out, hout, hsockets, hreads⟩ := step_readsOn h.isFree h.type h.unread hok hs
  rw [hreads]
  refine ⟨h.ends, ?_, ?_, ?_, ?_⟩
  · dsimp only
    rw [hsockets, hout.isFree]
    exact h.isFree
  · dsimp only
    rw [hsockets, hout.type]
    exact h.type
  · dsimp only
    rw [hsockets]
    exact hout.unread h.unread
  · dsimp only
    rw [hsockets, List.append_assoc, hout.stream]
    exact h.stream

theorem sender (h : Conveyed r packets port time z) {s : Side} {i : Tcp.Input n}
    {ends : Side → Tcp.Stack n × Tcp.Pc n} (hne : s ≠ r.side)
    (hok : Exchanged r.handle z.1.ends (s, i))
    (hs : Lib.Parties.step Tcp.step z.1.ends (s, i) = some ends) :
    Conveyed r packets port time (⟨ends, z.1.node⟩, z.2) := by
  refine ⟨h.ends.tail hok hs, h.isFree, h.type, h.unread, ?_⟩
  obtain ⟨x, -, rfl⟩ := Lib.Parties.step_some hs
  dsimp only
  rw [Function.update_of_ne (Ne.symm hne)]
  exact h.stream

/-- The TCP module of the reading node takes a step, and calls back. -/
theorem reader (h : Conveyed r packets port time z) {i : Tcp.Input n} {p : RxPacket}
    {ends : Side → Tcp.Stack n × Tcp.Pc n} {state : Tcp.State}
    (hok : Streaming r z (.stack r.side i p))
    (hs : Lib.Parties.step Tcp.step z.1.ends (r.side, i) = some ends)
    (hy : z.1.node.hear r.socket state
      (raised (r.handle r.side) (z.1.ends r.side).1 (ends r.side).1) p = some y) :
    Conveyed r packets port time (⟨ends, y⟩, z.2) := by
  have hends := h.ends.tail hok.1 hs
  obtain ⟨x, hx, rfl⟩ := Lib.Parties.step_some hs
  obtain ⟨_, new, -, -, hevents⟩ := Tcp.step_effect hx (r.handle r.side)
  obtain ⟨hcontent, hkept⟩ := hok.2 rfl x hx
  rw [raised_eq hevents] at hcontent hkept
  dsimp only at hy
  rw [Function.update_self, raised_eq hevents] at hy
  have hline := System.hear_queues h.isFree hkept hy
  have hfree : (y.module.sockets r.socket).isFree = _ := congrArg Prod.fst hline
  have htype : (y.module.sockets r.socket).type = _ := congrArg (fun l => l.2.1) hline
  have hqueue : (y.module.sockets r.socket).rxPackets = _ := congrArg (fun l => l.2.2) hline
  have hdelivered : x.1.delivered (r.handle r.side) =
    (z.1.ends r.side).1.delivered (r.handle r.side) ++
      (received new).map Tcp.Segment.payload := by
    rw [Tcp.Stack.delivered, hevents, Tcp.Stack.delivered, received, List.filterMap_append,
      List.map_append]
    rfl
  -- what was delivered had been accepted, so that it is not empty
  have hpos : ∀ seg ∈ received new, seg.payload ≠ [] := by
    intro seg hin hnil
    obtain ⟨-, -, base, hd⟩ := Tcp.exchanged_direction hends r.side.other
    rw [Side.other_other, Function.update_self] at hd
    have hagreed := hd.agreed
    have hin' : seg.payload ∈ x.1.delivered (r.handle r.side) := by
      rw [hdelivered]
      exact List.mem_append.mpr (.inr (List.mem_map.mpr ⟨seg, hin, rfl⟩))
    have hlt := hagreed.positive seg.payload (hagreed.ordered.subset hin')
    rw [hnil] at hlt
    exact absurd hlt (Nat.lt_irrefl 0)
  refine ⟨hends, hfree, htype.trans h.type, ?_, ?_⟩
  · intro q hq
    dsimp only at hq
    rw [hqueue] at hq
    rcases List.mem_append.mp hq with hq | hq
    · exact h.unread q hq
    · obtain ⟨seg, hin, rfl⟩ := List.mem_map.mp hq
      intro hzero
      apply hpos seg hin
      rw [← hcontent seg hin, ← List.length_eq_zero_iff, content_length, hzero]
      rfl
  · dsimp only
    rw [hqueue, Function.update_self, hdelivered, contents_append, ← List.append_assoc, h.stream,
      contents_received hcontent, List.flatten_append]

theorem step [DecidableEq T] (h : Conveyed r packets port time z) {input : ConnectedInput n l T}
    {z' : Connected n l k T × List Byte} (hok : Streaming r z input)
    (hs : Lib.observe (connectedStep r) (readBytes r) z input = some z') :
    Conveyed r packets port time z' := by
  obtain ⟨hs, hread⟩ := Lib.observe_some.mp hs
  obtain ⟨c, read⟩ := z'
  cases input with
  | node input =>
    obtain ⟨y, hy, rfl⟩ := Option.map_eq_some_iff.mp hs
    rw [show read = _ from hread]
    exact h.node hok hy
  | stack s i p =>
    obtain ⟨ends, hends, hs⟩ := Option.bind_eq_some_iff.mp hs
    obtain ⟨y, hy, rfl⟩ := Option.map_eq_some_iff.mp hs
    rw [show read = z.2 from hread]
    by_cases hside : s = r.side
    · subst hside
      rw [if_pos rfl] at hy
      exact h.reader hok hends hy
    · rw [if_neg hside] at hy
      obtain rfl := Option.some.inj hy
      exact h.sender hside hok.1 hends

end Conveyed

end Runs

end NanoIp.Sockets
