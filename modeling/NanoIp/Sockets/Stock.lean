import NanoIp.Sockets.Effects
import Mathlib.Algebra.BigOperators.Fin
import Mathlib.Algebra.Order.Group.Multiset
import Mathlib.Tactic.Abel

/-!
# The stock of receive packets

Every packet for reception waits at a driver or is queued on an allocated socket, and
events reach allocated sockets only. This module says what each operation does to the
packets and to the ways an event can take.
-/
namespace NanoIp.Sockets

variable {n k : Nat} {T : Type}

def Socket.handle (s : Socket n k) : Bool × SocketType × Tcp.State × Bool :=
  (s.isFree, s.type, s.tcp.state, s.udpBound)

def Socket.held (s : Socket n k) : Multiset PacketId :=
  if s.isFree then 0 else s.rxPackets.map RxPacket.id

def Socket.ware (s : Socket n k) : (Bool × SocketType × Tcp.State × Bool) × List PacketId :=
  (s.handle, s.rxPackets.map RxPacket.id)

/-- The packets of the module: those queued on allocated sockets, and those it just
gave back. -/
def Module.stock (m : Module n k) : Multiset PacketId := ∑ i, (m.sockets i).held + m.released

def System.stock (x : System n k T) : Multiset PacketId := x.pool + x.module.stock

section Stock

variable {m m' : Module n k}

theorem held_ware {s s' : Socket n k} (h : s'.ware = s.ware) : s'.held = s.held := by
  have hfree : s'.isFree = s.isFree := congrArg (fun w => w.1.1) h
  have hids : s'.rxPackets.map RxPacket.id = s.rxPackets.map RxPacket.id := congrArg Prod.snd h
  rw [Socket.held, Socket.held, hfree, hids]

theorem stock_same (hs : Same Socket.held m m') (hr : m'.released = m.released) :
    m'.stock = m.stock := by
  unfold Module.stock
  rw [hr]
  congr 1
  exact Finset.sum_congr rfl fun i _ => hs i

theorem held_same (hs : Same Socket.ware m m') : Same Socket.held m m' := fun i => held_ware (hs i)

theorem setState_held (m : Module n k) (i : Fin n) (state : Tcp.State) :
    Same Socket.held m (m.setState i state) := by
  dsimp only [Module.setState]
  exact (Same.refl _ m).modify (by rfl)

theorem handle_same (hs : Same Socket.ware m m') : Same Socket.handle m m' :=
  fun i => congrArg Prod.fst (hs i)

theorem stock_modify (m : Module n k) (i : Fin n) (f : Socket n k → Socket n k) :
    (m.modify i f).stock + (m.sockets i).held = m.stock + (f (m.sockets i)).held := by
  have hsum : ∀ g : Fin n → Multiset PacketId, ∑ j, g j = g i + ∑ j ∈ Finset.univ.erase i, g j :=
    fun g => (Finset.add_sum_erase _ g (Finset.mem_univ i)).symm
  have hrest : ∑ j ∈ Finset.univ.erase i, ((m.modify i f).sockets j).held =
      ∑ j ∈ Finset.univ.erase i, (m.sockets j).held :=
    Finset.sum_congr rfl fun j hj => by rw [Module.modify_of_ne _ _ (Finset.ne_of_mem_erase hj)]
  unfold Module.stock
  rw [hsum, hrest, Module.modify_self, Module.modify_released, hsum fun j => (m.sockets j).held]
  abel

theorem stock_put (x : System n k T) (m : Module n k) : (x.put m).stock = x.pool + m.stock := by
  simp only [System.stock, System.put, Module.stock, ← Multiset.coe_add, Multiset.coe_nil, add_zero]
  abel

end Stock

/-- Where events can reach: a UDP handle in the list belongs to a bound socket, a
pending request to an allocated one, and a free slot has no connection. -/
structure Reached (m : Module n k) (listed requests : Fin n → Bool) : Prop where
  listed : ∀ i, listed i = true →
    (m.sockets i).isFree = false ∧ (m.sockets i).type = .udp ∧ (m.sockets i).udpBound = true
  requested : ∀ i, requests i = true → (m.sockets i).isFree = false
  closed : ∀ i, (m.sockets i).isFree = true → (m.sockets i).type = .tcp →
    (m.sockets i).tcp.state = .closed

namespace Reached

variable {m m' : Module n k} {listed requests : Fin n → Bool} {i : Fin n}

theorem congr (h : Reached m listed requests) (hs : Same Socket.handle m m') :
    Reached m' listed requests := by
  have hfree (c : Fin n) : (m'.sockets c).isFree = (m.sockets c).isFree := congrArg Prod.fst (hs c)
  have htype (c : Fin n) : (m'.sockets c).type = (m.sockets c).type :=
    congrArg (fun q => q.2.1) (hs c)
  have hstate (c : Fin n) : (m'.sockets c).tcp.state = (m.sockets c).tcp.state :=
    congrArg (fun q => q.2.2.1) (hs c)
  have hbound (c : Fin n) : (m'.sockets c).udpBound = (m.sockets c).udpBound :=
    congrArg (fun q => q.2.2.2) (hs c)
  refine ⟨fun c hc => ?_, fun c hc => ?_, fun c hf ht => ?_⟩
  · rw [hfree, htype, hbound]
    exact h.listed c hc
  · rw [hfree]
    exact h.requested c hc
  · rw [hfree] at hf
    rw [htype] at ht
    rw [hstate]
    exact h.closed c hf ht

/-- One socket changes, with its place in the list and its request. -/
theorem modify (h : Reached m listed requests) {f : Socket n k → Socket n k} {b r : Bool}
    (hl : b = true → (f (m.sockets i)).isFree = false ∧ (f (m.sockets i)).type = .udp ∧
      (f (m.sockets i)).udpBound = true)
    (hr : r = true → (f (m.sockets i)).isFree = false)
    (hc : (f (m.sockets i)).isFree = true → (f (m.sockets i)).type = .tcp →
      (f (m.sockets i)).tcp.state = .closed) :
    Reached (m.modify i f) (Function.update listed i b) (Function.update requests i r) := by
  refine ⟨fun j hj => ?_, fun j hj => ?_, fun j hf ht => ?_⟩
  · by_cases hji : j = i
    · subst hji
      rw [Function.update_self] at hj
      rw [Module.modify_self]
      exact hl hj
    · rw [Function.update_of_ne hji] at hj
      rw [Module.modify_of_ne _ _ hji]
      exact h.listed j hj
  · by_cases hji : j = i
    · subst hji
      rw [Function.update_self] at hj
      rw [Module.modify_self]
      exact hr hj
    · rw [Function.update_of_ne hji] at hj
      rw [Module.modify_of_ne _ _ hji]
      exact h.requested j hj
  · by_cases hji : j = i
    · subst hji
      rw [Module.modify_self] at hf ht ⊢
      exact hc hf ht
    · rw [Module.modify_of_ne _ _ hji] at hf ht ⊢
      exact h.closed j hf ht

theorem allocated (h : Reached m listed requests) {f : Socket n k → Socket n k}
    (hi : (m.sockets i).isFree = false)
    (hf : ((f (m.sockets i)).isFree, (f (m.sockets i)).type, (f (m.sockets i)).udpBound) =
      ((m.sockets i).isFree, (m.sockets i).type, (m.sockets i).udpBound)) :
    Reached (m.modify i f) listed requests := by
  rw [Prod.mk.injEq, Prod.mk.injEq] at hf
  have hm := h.modify (i := i) (f := f) (b := listed i) (r := requests i) (fun hl => ?_)
    (fun _ => ?_) fun hc => ?_
  · rwa [Function.update_eq_self, Function.update_eq_self] at hm
  · rw [hf.1, hf.2.1, hf.2.2]
    exact h.listed i hl
  · rw [hf.1]
    exact hi
  · rw [hf.1, hi] at hc
    cases hc

theorem setState (h : Reached m listed requests) (hi : (m.sockets i).isFree = false)
    (state : Tcp.State) :
    Reached (m.setState i state) listed requests := h.allocated hi rfl

/-- A free slot that is taken for a socket. -/
theorem started (h : Reached m listed requests) (hi : (m.sockets i).isFree = true)
    (type : SocketType) (ret : Err) (flags : BitVec 32) :
    Reached (m.modify i (started type ret flags)) listed requests := by
  have hlisted : listed i = false := by
    rw [← Bool.not_eq_true]
    intro hl
    rw [(h.listed i hl).1] at hi
    cases hi
  have hrequests : requests i = false := by
    rw [← Bool.not_eq_true]
    intro hr
    rw [h.requested i hr] at hi
    cases hi
  have hm := h.modify (i := i) (f := Sockets.started type ret flags) (b := listed i)
    (r := requests i)
    (fun hl => ?_) (fun hr => ?_) fun hc ht => ?_
  · rwa [Function.update_eq_self, Function.update_eq_self] at hm
  · rw [hlisted] at hl
    cases hl
  · rw [hrequests] at hr
    cases hr
  · cases type with
    | udp => cases ht
    | tcp =>
      simp only [Sockets.started, hi, Bool.true_and, decide_eq_true_eq] at hc
      exact if_neg hc

theorem request (h : Reached m listed requests) (hi : (m.sockets i).isFree = false) :
    Reached m listed (Function.update requests i true) := by
  refine ⟨h.listed, fun j hj => ?_, h.closed⟩
  by_cases hji : j = i
  · rw [hji]
    exact hi
  · rw [Function.update_of_ne hji] at hj
    exact h.requested j hj

theorem answered (h : Reached m listed requests) :
    Reached m listed (Function.update requests i false) := by
  refine ⟨h.listed, fun j hj => h.requested j ?_, h.closed⟩
  by_cases hji : j = i
  · rw [hji, Function.update_self] at hj
    cases hj
  · rwa [Function.update_of_ne hji] at hj

theorem ended (h : Reached m listed requests) :
    Reached (m.modify i ended) (Function.update listed i false)
      (Function.update requests i false) := by
  refine h.modify nofun nofun fun _ ht => ?_
  have ht' : (m.sockets i).type = .tcp := ht
  simp only [Sockets.ended, ht']

end Reached

section Queues

theorem copyPacket_packets (size : Nat) (c : Copied) (p : RxPacket) (q : List RxPacket) :
    (copyPacket size c p q).released ++ (copyPacket size c p q).queue.map RxPacket.id =
      c.released ++ p.id :: q.map RxPacket.id := by
  simp only [copyPacket]
  generalize (if size ≤ p.packet.count.toNat then size else p.packet.count.toNat) = readSize
  split_ifs
  · exact List.append_assoc _ _ _
  · rfl

theorem copyLoop_packets {size : Nat} :
    ∀ {fuel : Nat} {c c' : Copied}, copyLoop size fuel c = some c' →
    c'.released ++ c'.queue.map RxPacket.id = c.released ++ c.queue.map RxPacket.id := by
  intro fuel
  induction fuel with
  | zero => exact fun h => nomatch h
  | succ fuel ih =>
    intro c c' h
    rw [copyLoop] at h
    cases hq : c.queue with
    | nil =>
      simp only [hq, Option.some.injEq] at h
      rw [← h, hq]
    | cons p q =>
      simp only [hq] at h
      rw [List.map_cons, ← copyPacket_packets size c p q]
      split_ifs at h
      · exact ih h
      · rw [← Option.some.inj h]

variable {m : Module n k} {i : Fin n}

/-- Packets of an allocated socket are given back. -/
theorem takePackets_stock (hi : (m.sockets i).isFree = false) {q : List RxPacket}
    {ids : List PacketId}
    (hq : ids ++ q.map RxPacket.id = (m.sockets i).rxPackets.map RxPacket.id) :
    (m.takePackets i q ids).stock = m.stock := by
  have hmod := stock_modify m i fun s => { s with rxPackets := q }
  have hold : (m.sockets i).held = ids + (q.map RxPacket.id : List PacketId) := by
    rw [Socket.held, hi, if_neg (by decide), ← hq, Multiset.coe_add]
  have hnew : ({ m.sockets i with rxPackets := q } : Socket n k).held =
      (q.map RxPacket.id : List PacketId) := by
    rw [Socket.held]
    exact if_neg (by rw [hi]; decide)
  have htake : (m.takePackets i q ids).stock =
      (m.modify i fun s => { s with rxPackets := q }).stock + ids := by
    simp only [Module.stock, Module.takePackets, Module.modify_released, ← Multiset.coe_add]
    abel
  rw [hnew, hold] at hmod
  rw [htake]
  apply add_right_cancel (b := ((q.map RxPacket.id : List PacketId) : Multiset PacketId))
  rw [add_assoc]
  exact hmod

theorem receivePass_stock (hi : (m.sockets i).isFree = false) (size : Nat) :
    (receivePass m i size).1.stock = m.stock := by
  unfold receivePass
  cases hq : (m.sockets i).rxPackets with
  | nil => rfl
  | cons p q =>
    cases (m.sockets i).type with
    | udp =>
      dsimp only
      split_ifs
      · exact takePackets_stock hi (by rw [hq]; rfl)
      · rfl
    | tcp =>
      dsimp only
      cases hc : copyAll size (p :: q) with
      | none => rfl
      | some c => exact takePackets_stock hi (by rw [hq]; exact copyLoop_packets hc)

theorem receiveFrom_stock (m : Module n k) (socketId : BitVec 32) (size : Nat) :
    (receiveFrom m socketId size).1.stock = m.stock := by
  unfold receiveFrom
  cases hi : m.get socketId with
  | none => rfl
  | some i =>
    dsimp only
    split
    · exact receivePass_stock (Module.get_some hi).2 size
    · rfl

theorem receiveWake_stock (m : Module n k) (i : Fin n) (size : Nat) (ret : Err)
    (active : BitVec 32) :
    (receiveWake m i size ret active).1.stock = m.stock := by
  unfold receiveWake
  split_ifs with hi
  · rfl
  · rfl
  · rfl
  · exact receivePass_stock (Bool.eq_false_iff.mpr hi) size

theorem queuePacket_stock (hi : (m.sockets i).isFree = false) (p : RxPacket) :
    (queuePacket m i p).stock = m.stock + {p.id} := by
  have hmod := stock_modify m i fun s => { s with rxPackets := s.rxPackets ++ [p] }
  have hflags : (queuePacket m i p).stock =
    (m.modify i fun s => { s with rxPackets := s.rxPackets ++ [p] }).stock :=
    stock_same (setFlags_same (fun _ _ => rfl) _ i eventRx) rfl
  have hnew : ({ m.sockets i with rxPackets := (m.sockets i).rxPackets ++ [p] } : Socket n k).held =
      (m.sockets i).held + {p.id} := by
    rw [Socket.held, Socket.held, hi, if_neg (by decide), if_neg (by decide), List.map_append,
      ← Multiset.coe_add]
    rfl
  rw [hnew] at hmod
  rw [hflags]
  apply add_right_cancel (b := (m.sockets i).held)
  rw [hmod]
  abel

theorem started_stock (hi : (m.sockets i).isFree = true) (type : SocketType) (ret : Err)
    (flags : BitVec 32) :
    (m.modify i (started type ret flags)).stock = m.stock := by
  have hmod := stock_modify m i (started type ret flags)
  have hold : (m.sockets i).held = 0 := if_pos hi
  have hnew : (started type ret flags (m.sockets i)).held = 0 := by
    unfold Socket.held
    split_ifs
    · rfl
    · cases type <;> rfl
  rwa [hold, hnew, add_zero, add_zero] at hmod

theorem ended_stock (hq : (m.sockets i).rxPackets = []) : (m.modify i ended).stock = m.stock := by
  have hmod := stock_modify m i ended
  have hold : (m.sockets i).held = 0 := by
    unfold Socket.held
    rw [hq]
    split_ifs <;> rfl
  have hnew : (ended (m.sockets i)).held = 0 := if_pos rfl
  rwa [hold, hnew, add_zero, add_zero] at hmod

theorem allocate_stock (m : Module n k) (type : SocketType) (ret : Err) :
    (allocate m type ret).1.stock = m.stock := by
  rcases allocate_cases m type ret with he | ⟨i, flags, hi, he⟩
  · rw [he]
  · rw [he]
    exact started_stock hi type ret flags

end Queues

section Connections

variable {m : Module n k} {i : Fin n}

/-- The events that neither queue a packet nor take or release a socket. -/
def Announces (event : Tcp.Event) : Prop := Signals event ∨ event = .accepted ∨ event = .closed

theorem announced_same (m : Module n k) (i : Fin n) {event : Tcp.Event} (he : Announces event) :
    Same Socket.ware m (tcpCallback m i event none .success).1 := by
  rcases he with he | rfl | rfl
  · exact tcpSignal_same (fun _ _ => rfl) m i event he .success
  · unfold tcpCallback
    split_ifs
    · exact Same.refl _ m
    · refine Same.trans ?_ (notified_same _ _ i)
      exact onAccepted_same (fun _ _ => rfl) (fun _ _ => rfl) (fun _ _ => rfl) (fun _ _ => rfl) m i
  · unfold tcpCallback
    split_ifs
    · exact Same.refl _ m
    · refine Same.trans ?_ (notified_same _ _ i)
      exact onClosed_same (fun _ _ => rfl) (fun _ _ => rfl) m i

theorem callbacks_same (i : Fin n) : ∀ (es : List (Tcp.Event × Option RxPacket)) (m : Module n k),
    (∀ e ∈ es, Announces e.1 ∧ e.2 = none) → Same Socket.ware m (callbacks i es m) := by
  intro es
  induction es with
  | nil => exact fun m _ => Same.refl _ m
  | cons e es ih =>
    intro m hes
    obtain ⟨event, packet⟩ := e
    obtain ⟨he, rfl⟩ := hes _ List.mem_cons_self
    exact (announced_same m i he).trans (ih _ fun e he => hes e (List.mem_cons_of_mem _ he))

/-- What TCP does to a connection changes its state only, unless it brings data or
gives up a handshake. -/
theorem changeConnection_same (m : Module n k) (i : Fin n) {c : Change} (hd : ∀ p, c ≠ .data p)
    (hf : c ≠ .acceptFailed) :
    Same Socket.ware (m.setState i c.state) (changeConnection m i c) := by
  refine callbacks_same i c.events _ fun e he => ?_
  cases c with
  | data p => exact absurd rfl (hd p)
  | acceptFailed => exact absurd rfl hf
  | closed again => cases again <;> simp [Change.events] at he <;> subst he <;>
      exact ⟨.inr (.inr rfl), rfl⟩
  | exhausted =>
    simp only [Change.events, List.mem_cons, List.not_mem_nil, or_false] at he
    rcases he with rfl | rfl
    · exact ⟨.inl trivial, rfl⟩
    · exact ⟨.inr (.inr rfl), rfl⟩
  | accepted =>
    obtain rfl := List.mem_singleton.mp he
    exact ⟨.inr (.inl rfl), rfl⟩
  | acked | connected | connectTimeout =>
    obtain rfl := List.mem_singleton.mp he
    exact ⟨.inl trivial, rfl⟩
  | fin | finAcknowledged | finWait => cases he

theorem ended_ware {s s' : Socket n k} (h : s'.ware = s.ware) :
    (ended s').ware = (ended s).ware := by
  have htype : s'.type = s.type := congrArg (fun w => w.1.2.1) h
  have hstate : s'.tcp.state = s.tcp.state := congrArg (fun w => w.1.2.2.1) h
  have hbound : s'.udpBound = s.udpBound := congrArg (fun w => w.1.2.2.2) h
  have hids : s'.rxPackets.map RxPacket.id = s.rxPackets.map RxPacket.id := congrArg Prod.snd h
  have hcase : (ended s').tcp.state = (ended s).tcp.state := by
    simp only [ended, htype]
    cases s.type with
    | udp => exact hstate
    | tcp => rfl
  rw [Socket.ware, Socket.ware, Socket.handle, Socket.handle, hcase]
  simp only [ended, htype, hbound, hids]

/-- A handshake that is given up releases the socket of the client. -/
theorem acceptFailed_same {p : Fin n} (hi : (m.sockets i).isFree = false)
    (hp : (m.sockets i).parent = some p) : Same Socket.ware ((m.setState i .closed).modify i ended)
      (changeConnection m i .acceptFailed) := by
  have hself : (m.setState i .closed).sockets i =
      { m.sockets i with tcp := { (m.sockets i).tcp with state := .closed } } :=
        Module.modify_self _ _ _
  have hunlink := unlinkPending_same (g := Socket.ware) (fun _ _ => rfl)
    (fun _ _ => rfl) (m.setState i .closed) p i
  have hreleases : Releases ((unlinkPending (m.setState i .closed) p i).sockets i) := by
    intro _ hidle
    have hstate := congrArg (fun w => w.1.2.2.1) (hunlink i)
    dsimp only [Socket.ware, Socket.handle] at hstate
    rw [hstate, hself] at hidle
    cases hidle
  show Same _ _ (tcpCallback (m.setState i .closed) i .acceptFailed none .success).1
  unfold tcpCallback
  rw [if_neg (by rw [hself, hi]; decide)]
  refine Same.trans ?_ (notified_same _ _ i)
  unfold onAcceptFailed
  rw [show ((m.setState i .closed).sockets i).parent = some p from by rw [hself]; exact hp]
  dsimp only
  rw [releaseSocket_of_releases hreleases]
  refine Same.modify (fun j => ?_) (by rfl)
  rw [Module.modify_sockets, Module.modify_sockets]
  split_ifs
  · exact ended_ware (hunlink i)
  · exact hunlink j

/-- A SYN for a listening connection. -/
theorem acceptConnection_reached {listed requests : Fin n → Bool} (h : Reached m listed requests)
    (i : Fin n) (peer : Endpoint) (ret : Err) (answered : Bool) :
    Reached (acceptConnection m i peer ret answered) listed requests ∧
      (acceptConnection m i peer ret answered).stock = m.stock := by
  have hreleased := (acceptConnection_beside m i peer ret answered).released
  rcases acceptConnection_cases m i peer ret answered with
    he | ⟨j, flags, hj, -, he⟩ | ⟨client, flags, state, -, -, hj, -, he⟩
  · exact ⟨h.congr (Same.of_sockets he), stock_same (Same.of_sockets he) hreleased⟩
  · exact ⟨(h.started hj .tcp ret flags).congr (Same.of_sockets he),
      (stock_same (Same.of_sockets he) hreleased).trans (started_stock hj .tcp ret flags)⟩
  · have hs := started_stock hj .tcp .success flags
    have hre := h.started hj .tcp .success flags
    have hself : (m.modify client (started .tcp .success flags)).sockets client =
        started .tcp .success flags (m.sockets client) := Module.modify_self _ _ _
    set m₁ := m.modify client (started .tcp .success flags)
    have hadopt : Same Socket.ware m₁ (adopt m₁ i client) :=
      adopt_same (fun _ _ => rfl) (fun _ _ => rfl) (fun _ _ => rfl) (fun _ _ => rfl) m₁ i client
    have hfree : ((adopt m₁ i client).sockets client).isFree = false := by
      rw [show ((adopt m₁ i client).sockets client).isFree =
        _ from congrArg (fun w => w.1.1) (hadopt client)]
      show (m₁.sockets client).isFree = false
      rw [hself]
      exact Bool.and_false _
    refine ⟨((hre.congr (handle_same hadopt)).allocated hfree rfl).congr (Same.of_sockets he), ?_⟩
    have hheld : Same Socket.held m₁ (acceptConnection m i peer ret answered) :=
      ((held_same hadopt).modify (by rfl)).trans (Same.of_sockets he)
    exact (stock_same hheld hreleased).trans hs

end Connections

end NanoIp.Sockets
