import NanoIp.Sockets.Stock

/-!
# Packets over a run

Reception and reading keep the stock of packets; a release gives no packet back, so
that it keeps the stock exactly where the queue is empty.
-/
namespace NanoIp.Sockets

variable {n k : Nat} {T : Type}

section Runs

/-- The packets are complete, and events reach allocated sockets only. -/
structure Complete (pool : List PacketId) (x : System n k T) : Prop where
  stock : x.stock = pool
  cleared : x.module.released = []
  reached : Reached x.module x.listed x.requests

/-- The socket that an input releases: by a call, or because a handshake is given up. -/
def System.freed (x : System n k T) : Input n T → Option (Fin n)
  | .change i .acceptFailed =>
    if (x.module.sockets i).isFree = false ∧ (x.module.sockets i).parent ≠ none then some i
    else none
  | input => input.released x.module

/-- The FIN of a released connection waits for ARP. -/
def Input.fin : Input n T → Bool
  | .release _ fin => fin
  | _ => false

/-- A socket is released only without packets, and a TCP socket without a frame that
waits for ARP. -/
def ReleasesIdle (x : System n k T) (input : Input n T) : Prop :=
  ∀ i, x.freed input = some i → (x.module.sockets i).rxPackets.isEmpty = true ∧
    ((x.module.sockets i).type = .tcp → x.requests i = false ∧ input.fin = false)

instance (x : System n k T) (input : Input n T) : Decidable (ReleasesIdle x input) :=
  inferInstanceAs (Decidable (∀ _ : Fin n, _ → _ ∧ (_ → _)))

variable {pool : List PacketId} {x y : System n k T} {input : Input n T}

namespace Complete

theorem put (h : Complete pool x) {m : Module n k} (hst : m.stock = x.module.stock)
    (hre : Reached m x.listed x.requests) : Complete pool (x.put m) where
  stock := by
    rw [stock_put, hst]
    exact h.stock
  cleared := rfl
  reached := hre.congr (Same.of_sockets rfl)

theorem same (h : Complete pool x) {m : Module n k} (hs : Same Socket.ware x.module m)
    (hr : m.released = x.module.released) : Complete pool (x.put m) :=
  h.put (stock_same (held_same hs) hr) (h.reached.congr (handle_same hs))

theorem surroundings (h : Complete pool x) {listed requests : Fin n → Bool}
    (hre : Reached x.module listed requests) :
    Complete pool { x with listed := listed, requests := requests } :=
  ⟨h.stock, h.cleared, hre⟩

theorem setAccept [DecidableEq T] (t : T) (i : Fin n) {r : Module n k × Pass (Accepted n)}
    (h : Complete pool (x.put r.1)) : Complete pool (x.setAccept t i r) := by
  obtain ⟨m, p⟩ := r
  cases p <;> exact ⟨h.stock, h.cleared, h.reached⟩

theorem setPoll [DecidableEq T] (t : T) {r : Module n k × Polled k}
    (h : Complete pool (x.put r.1)) :
    Complete pool (x.setPoll t r) := by
  obtain ⟨m, p⟩ := r
  cases p <;> exact ⟨h.stock, h.cleared, h.reached⟩

theorem received (h : Complete pool x) {p : RxPacket} (hy : x.takePacket p = some y)
    {m : Module n k} (hst : m.stock = x.module.stock + {p.id})
    (hre : Reached m x.listed x.requests) : Complete pool (y.put m) := by
  unfold System.takePacket at hy
  split_ifs at hy with hp
  obtain rfl := Option.some.inj hy
  refine ⟨?_, rfl, hre.congr (Same.of_sockets rfl)⟩
  rw [stock_put, ← h.stock, System.stock, hst, ← Multiset.coe_erase]
  have herase : (x.pool : Multiset PacketId).erase p.id + {p.id} = x.pool := by
    rw [add_comm, Multiset.singleton_add]
    exact Multiset.cons_erase hp
  rw [add_comm x.module.stock, ← add_assoc, herase]

theorem ended (h : Complete pool x) {i : Fin n} {m : Module n k}
    (hs : Same Socket.ware (x.module.modify i ended) m) (hr : m.released = x.module.released)
    (hq : (x.module.sockets i).rxPackets.isEmpty = true) :
    Complete pool { x.put m with
      listed := Function.update x.listed i false,
        requests := Function.update x.requests i false } := by
  refine ⟨?_, rfl, ?_⟩
  · have hstock : m.stock = x.module.stock :=
      (stock_same (held_same hs) hr).trans (ended_stock (List.isEmpty_iff.mp hq))
    refine Eq.trans ?_ h.stock
    exact (stock_put x m).trans (by rw [hstock]; rfl)
  · exact (h.reached.ended.congr (handle_same hs)).congr (Same.of_sockets rfl)

theorem bindUdp (h : Complete pool x) {socketId : BitVec 32} {i : Fin n} (ret : Err)
    (hi : x.module.get socketId = some i) (ht : (x.module.sockets i).type = .udp) :
    Complete pool { x.put (bindUdp x.module socketId ret).1 with
      listed := Function.update x.listed i (x.listed i || ret = .success) } := by
  unfold Sockets.bindUdp
  simp only [hi]
  by_cases hr : ret = .success
  · rw [if_pos hr]
    have hm := h.reached.modify (i := i) (f := fun s => { s with udpBound := true })
      (b := x.listed i || decide (ret = .success)) (r := x.requests i)
      (fun _ => ⟨(Module.get_some hi).2, ht, rfl⟩) (fun _ => (Module.get_some hi).2) fun hf => ?_
    · rw [Function.update_eq_self] at hm
      have hheld : Same Socket.held x.module
        (x.module.modify i fun s => { s with udpBound := true }) :=
        (Same.refl _ _).modify (by rfl)
      refine ⟨?_, rfl, hm.congr (Same.of_sockets rfl)⟩
      refine Eq.trans (stock_put x (x.module.modify i fun s => { s with udpBound := true })) ?_
      rw [stock_same hheld rfl]
      exact h.stock
    · exact absurd ((Module.get_some hi).2.symm.trans hf) (by decide)
  · rw [if_neg hr, decide_eq_false hr, Bool.or_false, Function.update_eq_self]
    exact h.put rfl h.reached

theorem listen (h : Complete pool x) (socketId max : BitVec 32) :
    Complete pool (x.put (listen x.module socketId max).1) := by
  unfold Sockets.listen
  cases hi : x.module.get socketId with
  | none => exact h.put rfl h.reached
  | some i =>
    dsimp only
    split_ifs
    · have hfree : ((x.module.modify i fun s => { s with maxChildCount := max }).sockets i).isFree =
        false := by
        rw [Module.modify_self]
        exact (Module.get_some hi).2
      have hmax : Same Socket.held x.module
        (x.module.modify i fun s => { s with maxChildCount := max }) :=
        (Same.refl _ _).modify (by rfl)
      have hm : Reached (x.module.modify i fun s => { s with maxChildCount := max }) x.listed
        x.requests :=
        h.reached.allocated (Module.get_some hi).2 rfl
      exact h.put (stock_same (hmax.trans (setState_held _ i _)) rfl) (hm.setState hfree _)
    · exact h.put rfl h.reached

theorem connect (h : Complete pool x) (socketId : BitVec 32) (endPoint : Endpoint) (ret : Err) :
    Complete pool (x.put (connect x.module socketId endPoint ret)) := by
  unfold Sockets.connect
  cases hi : x.module.get socketId with
  | none => exact h.put rfl h.reached
  | some i =>
    dsimp only
    by_cases hidle : (x.module.sockets i).type = .tcp ∧ (x.module.sockets i).tcp.state = .idle
    · rw [if_pos hidle]
      set m := x.module.modify i fun s =>
        { s with tcp := ⟨if ret.accepted then .synSent else .idle, endPoint⟩ }
      have hheld : Same Socket.held x.module m := (Same.refl _ _).modify (by rfl)
      have hm : Reached m x.listed x.requests := h.reached.allocated (Module.get_some hi).2 rfl
      split_ifs
      · exact h.put (stock_same (hheld.trans (resetFlags_same (fun _ _ => rfl) m i flagsAll)) rfl)
          (hm.congr (resetFlags_same (fun _ _ => rfl) m i flagsAll))
      · exact h.put (stock_same hheld rfl) hm
    · rw [if_neg hidle]
      exact h.put rfl h.reached

/-- A call releases a socket. -/
theorem release (h : Complete pool x) {i : Fin n} {fin : Bool}
    (hok : Releases (x.module.sockets i) → (x.module.sockets i).rxPackets.isEmpty = true ∧
      ((x.module.sockets i).type = .tcp → x.requests i = false ∧ fin = false)) :
    Complete pool (x.release i fin) := by
  have hcancel := cancelRequest_same (g := Socket.ware) (fun _ _ => rfl) x.module x.requests i
  have hreleased := (cancelRequest_beside x.module i x.requests).released
  set m := cancelRequest x.module x.requests i
  have htype : (m.sockets i).type = (x.module.sockets i).type :=
    congrArg (fun w => w.1.2.1) (hcancel i)
  have hstate : (m.sockets i).tcp.state = (x.module.sockets i).tcp.state :=
    congrArg (fun w => w.1.2.2.1) (hcancel i)
  unfold System.release
  by_cases hr : Releases (m.sockets i)
  · obtain ⟨hq, hidle⟩ := hok fun ht hs => hr (htype.trans ht) (hstate.trans hs)
    have hended : Complete pool { x.put (m.modify i Sockets.ended) with
        listed := Function.update x.listed i false,
          requests := Function.update x.requests i false } := by
      refine h.ended (fun j => ?_) hreleased hq
      rw [Module.modify_sockets, Module.modify_sockets]
      split_ifs
      · exact ended_ware (hcancel i)
      · exact hcancel j
    rw [releaseSocket_of_releases hr]
    cases ht : (x.module.sockets i).type with
    | udp =>
      have hlisted : (x.listed i && !(x.module.sockets i).udpBound) = false := by
        cases hl : x.listed i with
        | false => rfl
        | true => rw [(h.reached.listed i hl).2.2]; rfl
      simp only [hlisted, if_true]
      exact hended
    | tcp =>
      have hlisted : x.listed i = false := by
        rw [← Bool.not_eq_true]
        intro hl
        rw [(h.reached.listed i hl).2.1] at ht
        cases ht
      have hrequests : (x.requests i || fin) = false := by
        rw [(hidle ht).1, (hidle ht).2]
        rfl
      simp only [hrequests, if_true]
      rw [show Function.update x.listed i false = x.listed from by
        rw [← hlisted, Function.update_eq_self]] at hended
      exact hended
  · rw [releaseSocket_refused hr]
    exact h.same hcancel hreleased

/-- TCP changes a connection without bringing data. -/
theorem change (h : Complete pool x) {i : Fin n} {c : Change}
    (ht : (x.module.sockets i).type = .tcp) (hc : c.applies (x.module.sockets i).tcp.state = true)
    (hd : ∀ p, c ≠ .data p) (hok : ReleasesIdle x (.change i c)) :
    Complete pool (x.put (changeConnection x.module i c)) := by
  have hi : (x.module.sockets i).isFree = false := by
    rw [← Bool.not_eq_true]
    intro hf
    rw [h.reached.closed i hf ht] at hc
    cases c <;> simp [Change.applies] at hc
  have hset := h.reached.setState hi c.state
  have hheld := setState_held x.module i c.state
  have hreleased := (changeConnection_beside x.module i c).released
  by_cases hf : c = .acceptFailed
  · subst hf
    cases hp : (x.module.sockets i).parent with
    | none =>
      have hsame : Same Socket.ware (x.module.setState i .closed)
          (changeConnection x.module i .acceptFailed) := by
        show Same _ _ (tcpCallback (x.module.setState i .closed) i .acceptFailed none .success).1
        have hself : (x.module.setState i .closed).sockets i =
            { x.module.sockets i with tcp := { (x.module.sockets i).tcp with state := .closed } } :=
          Module.modify_self _ _ _
        have hnone : ((x.module.setState i .closed).sockets i).parent = none := by
          rw [hself]
          exact hp
        unfold tcpCallback
        split_ifs
        · exact Same.refl _ _
        · refine Same.trans ?_ (notified_same _ _ i)
          unfold onAcceptFailed
          rw [hnone]
          exact Same.refl _ _
      exact h.put (stock_same (hheld.trans (held_same hsame)) hreleased)
        (hset.congr (handle_same hsame))
    | some p =>
      obtain ⟨hq, hidle⟩ := hok i (by simp [System.freed, hi, hp])
      have hlisted : x.listed i = false := by
        rw [← Bool.not_eq_true]
        intro hl
        rw [(h.reached.listed i hl).2.1] at ht
        cases ht
      have hended := h.ended (i := i) (m := changeConnection x.module i .acceptFailed) (fun j => ?_)
        hreleased hq
      · rwa [show Function.update x.listed i false = x.listed from by
          rw [← hlisted, Function.update_eq_self], show Function.update x.requests i false =
            x.requests from by
          rw [← (hidle ht).1, Function.update_eq_self]] at hended
      · rw [acceptFailed_same hi hp j, Module.modify_sockets, Module.modify_sockets]
        split_ifs with hji
        · rw [show (x.module.setState i .closed).sockets i = _ from Module.modify_self _ _ _]
          simp only [Socket.ware, Socket.handle, Sockets.ended, ht]
        · rw [show (x.module.setState i .closed).sockets j =
            x.module.sockets j from Module.modify_of_ne _ _ hji]
  · have hsame := changeConnection_same x.module i hd hf
    exact h.put (stock_same (hheld.trans (held_same hsame)) hreleased)
      (hset.congr (handle_same hsame))

end Complete

theorem complete_step [DecidableEq T] (h : Complete pool x) (hok : ReleasesIdle x input)
    (hs : step x input = some y) : Complete pool y := by
  cases step_move hs with
  | allocate type ret =>
    refine h.put (allocate_stock _ type ret) ?_
    rcases allocate_cases x.module type ret with he | ⟨i, flags, hi, he⟩
    · rw [he]
      exact h.reached
    · rw [he]
      exact h.reached.started hi type ret flags
  | bindUdp socketId ret i hi ht =>
    exact h.bindUdp ret hi ht
  | setNonBlocking socketId nonBlocking =>
    refine h.same (setNonBlocking_same (fun _ _ => rfl) _ _ _) ?_
    unfold setNonBlocking
    cases x.module.get socketId <;> rfl
  | release socketId fin i hi =>
    exact h.release fun hr => hok i (by simp [System.freed, Input.released, hi, hr])
  | listen socketId max => exact h.listen socketId max
  | connect socketId endPoint ret => exact h.connect socketId endPoint ret
  | receiveFrom socketId size =>
    exact h.put (receiveFrom_stock _ _ _)
      (h.reached.congr (receiveFrom_same (fun _ _ => rfl) _ _ _))
  | receiveWake i size ret active =>
    exact h.put (receiveWake_stock _ _ _ _ _)
      (h.reached.congr (receiveWake_same (fun _ _ => rfl) _ _ _ _ _))
  | takeFlags i mask => exact h.same (resetFlags_same (fun _ _ => rfl) _ _ _) rfl
  | accept t socketId i ht hi =>
    refine (h.same ?_ (accept_beside _ _).released).setAccept t i
    unfold Sockets.accept
    rw [hi]
    dsimp only
    split_ifs
    · exact acceptTurn_same (fun _ _ => rfl) (fun _ _ => rfl) (fun _ _ => rfl) _ i
    · exact Same.refl _ _
  | acceptWake t ret i m ht hm =>
    have hwoken : Same Socket.ware x.module m := wakeOn_same (fun _ _ => rfl) hm
    refine (h.same (hwoken.trans ?_) ?_).setAccept t i
    · exact acceptTurn_same (fun _ _ => rfl) (fun _ _ => rfl) (fun _ _ => rfl) m i
    · exact (acceptTurn_beside m i).released.trans (wakeOn_beside hm).released
  | poll t handleIsReady ds ht =>
    exact (h.same (poll_same (fun _ _ => rfl) (fun _ _ => rfl) _ _ _) (poll_released _ _ _)).setPoll
      t
  | pollWake t handleIsReady ret q ds m ht hm =>
    refine (h.same (Same.trans (Same.of_sockets (wakePoll_sockets hm)) ?_) ?_).setPoll t
    · exact pollWake_same (fun _ _ => rfl) (fun _ _ => rfl) m q _ _ _
    · exact (pollWake_released m q _ _ _).trans (wakePoll_released hm)
  | request i hi => exact h.surroundings (h.reached.request hi)
  | arpResponse i sent hr =>
    have hput := h.same (requestCallback_same (fun _ _ => rfl) x.module i sent)
      (requestCallback_beside _ i sent).released
    exact hput.surroundings hput.reached.answered
  | datagram i p z hl hz =>
    refine h.received hz ?_ (h.reached.congr
      (udpReceive_same (fun _ _ => rfl) (fun _ _ => rfl) _ i p))
    have hi := (h.reached.listed i hl).1
    unfold udpCallback
    rw [if_neg (by rw [hi]; decide)]
    exact (stock_same (Same.of_sockets (notifyPoll_sockets _ i))
      (notifyPoll_beside _ i).released).trans
      (queuePacket_stock hi p)
  | accepting i peer ret answered ht hst =>
    obtain ⟨hre, hstock⟩ := acceptConnection_reached h.reached i peer ret answered
    exact h.put hstock hre
  | data i p z ht hst hz =>
    have hi : (x.module.sockets i).isFree = false := by
      rw [← Bool.not_eq_true]
      intro hf
      rw [h.reached.closed i hf ht] at hst
      cases hst
    have hset := h.reached.setState hi .established
    have hheld := setState_held x.module i .established
    have hset' : ((x.module.setState i .established).sockets i).isFree = false := by
      rw [show (x.module.setState i .established).sockets i = _ from Module.modify_self _ _ _]
      exact hi
    refine h.received hz ?_ (hset.congr
      (tcpReceive_same (fun _ _ => rfl) (fun _ _ => rfl) _ i p .success))
    rw [← stock_same hheld rfl, ← queuePacket_stock hset' p]
    show (tcpCallback (x.module.setState i .established) i .rx (some p) .success).1.stock = _
    refine stock_same (Same.of_sockets ?_) (tcpCallback_beside _ i .rx (some p) .success).released
    unfold tcpCallback
    rw [if_neg (by rw [hset']; decide)]
    exact notified_sockets _ i
  | change i c ht hc hd => exact h.change ht hc hd hok

/-- A step calls back for allocated sockets only. -/
theorem Complete.calls_allocated [DecidableEq T] (h : Complete pool x) (hs : step x input = some y)
    {i : Fin n} (hi : x.calls input = some i) : (x.module.sockets i).isFree = false := by
  have hopen (ht : (x.module.sockets i).type = .tcp)
    (hc : (x.module.sockets i).tcp.state ≠ .closed) :
      (x.module.sockets i).isFree = false := by
    rw [← Bool.not_eq_true]
    exact fun hf => hc (h.reached.closed i hf ht)
  cases step_move hs with
  | arpResponse j sent hr =>
    simp only [System.calls] at hi
    split_ifs at hi
    obtain rfl := Option.some.inj hi
    exact h.reached.requested j hr
  | datagram j p z hl hz =>
    obtain rfl := Option.some.inj hi
    exact (h.reached.listed j hl).1
  | accepting j peer ret answered ht hst =>
    obtain rfl := Option.some.inj hi
    exact hopen ht (by rw [hst]; nofun)
  | data j p z ht hst hz =>
    obtain rfl := Option.some.inj hi
    exact hopen ht (by rw [hst]; nofun)
  | change j c ht hc hd =>
    simp only [System.calls] at hi
    split_ifs at hi
    obtain rfl := Option.some.inj hi
    refine hopen ht fun hclosed => ?_
    rw [hclosed] at hc
    cases c <;> simp [Change.applies] at hc
  | _ => cases hi

end Runs

/-- In every run that releases sockets only without packets, and TCP sockets without a
frame that waits for ARP, no packet is lost and no free slot is called back. A release
gives its packets back exactly when there are none. -/
theorem stock_constant [DecidableEq T] :
    (∀ (pool : List PacketId) (x : System n k T),
      Lib.Reach step ReleasesIdle (System.initial n k T pool) x →
      x.stock = pool ∧ ∀ (input : Input n T) (y : System n k T) (i : Fin n), step x input = some y →
        x.calls input = some i → (x.module.sockets i).isFree = false) ∧
    ∀ (m : Module n k) (i : Fin n), ((releaseSocket m i).1.released : Multiset PacketId) =
      m.released + ((m.sockets i).rxPackets.map RxPacket.id : List PacketId) ↔
        (m.sockets i).rxPackets = [] := by
  refine ⟨fun pool x hr => ?_, fun m i => ?_⟩
  · have hinit : Complete pool (System.initial n k T pool) := by
      refine ⟨?_, rfl, nofun, nofun, nofun⟩
      have hnone : ∑ i : Fin n, ((Module.init : Module n k).sockets i).held = 0 :=
        Finset.sum_eq_zero fun i _ => if_pos rfl
      show (pool : Multiset PacketId) + (∑ i : Fin n, ((Module.init : Module n k).sockets i).held +
        ([] : List PacketId)) = pool
      rw [hnone, Multiset.coe_nil, add_zero, add_zero]
    have h : Complete pool x := hr.invariant hinit fun _ _ _ h hok hs => complete_step h hok hs
    exact ⟨h.stock, fun _ _ _ hs hi => h.calls_allocated hs hi⟩
  · rw [(releaseSocket_beside m i).released, left_eq_add, Multiset.coe_eq_zero, List.map_eq_nil_iff]

/-- A bound socket with a datagram. -/
def datagramQueued : List (Input 1 Unit) :=
  [.allocate .udp .success, .bindUdp 0#32 .success,
    .datagram ⟨0, Nat.one_pos⟩ ⟨7, ⟨fun _ => 0#8, 42, 4#16, 4#16, 0#32, none⟩⟩]

/-- A datagram is read before its socket is released. -/
theorem stock_constant_read : ∃ x : System 1 1 Unit, x.stock = [7] ∧ x.pool = [7] ∧
    (x.module.sockets 0).isFree = true := by
  obtain ⟨x, hr, hx⟩ := Lib.exists_of_runInputs step ReleasesIdle (System.initial 1 1 Unit [7])
    (datagramQueued ++ [.receiveFrom 0#32 4, .release 0#32 false])
    (fun x => x.pool = [7] ∧ (x.module.sockets 0).isFree = true) (by decide)
  exact ⟨x, (stock_constant.1 [7] x hr).1, of_decide_eq_true hx⟩

/-- A socket is released with a datagram in its queue: the packet is lost. -/
theorem queued_packet_lost : ¬ ∀ (pool : List PacketId) (x : System 1 1 Unit),
    Lib.Reach step Lib.anyStep (System.initial 1 1 Unit pool) x → x.stock = pool := by
  intro hall
  obtain ⟨x, hr, hx⟩ := Lib.exists_of_runInputs step Lib.anyStep (System.initial 1 1 Unit [7])
    (datagramQueued ++ [.release 0#32 false])
    (fun x => x.pool = [] ∧ x.module.released = [] ∧ (x.module.sockets 0).isFree = true) (by decide)
  obtain ⟨hpool, hreleased, hfree⟩ := of_decide_eq_true hx
  have hstock := hall [7] x hr
  rw [System.stock, Module.stock, Fin.sum_univ_one, Socket.held, if_pos hfree, hpool,
    hreleased] at hstock
  simp at hstock

end NanoIp.Sockets
