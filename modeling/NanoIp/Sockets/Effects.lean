import NanoIp.Sockets.Frame

/-!
# What the operations give back and signal

Only reading gives packets back, and only the end of a wait takes the flags of a poll
object. `Beside` says that an operation does neither; an event that is delivered to an
allocated socket also signals the poll object that the socket points to.
-/
namespace NanoIp.Sockets

variable {n k : Nat} {T : Type}

/-- Nothing is given back, and every poll object that was signalled still is. -/
structure Beside (m m' : Module n k) : Prop where
  released : m'.released = m.released
  flags : ∀ q, (m.polls q).syncFlags ≠ 0#32 → (m'.polls q).syncFlags ≠ 0#32

namespace Beside

variable {m m' m'' : Module n k}

theorem refl (m : Module n k) : Beside m m := ⟨rfl, fun _ h => h⟩

theorem trans (h : Beside m m') (h' : Beside m' m'') : Beside m m'' :=
  ⟨h'.released.trans h.released, fun q hq => h'.flags q (h.flags q hq)⟩

theorem of_eq (hr : m'.released = m.released) (hp : m'.polls = m.polls) : Beside m m' :=
  ⟨hr, fun q hq => by rwa [hp]⟩

theorem ite {c : Prop} [Decidable c] {a b : Module n k} (ha : Beside m a) (hb : Beside m b) :
    Beside m (if c then a else b) := by
  split_ifs
  · exact ha
  · exact hb

end Beside

section Calls

variable (m : Module n k) (i : Fin n)

theorem allocate_beside (type : SocketType) (ret : Err) : Beside m (allocate m type ret).1 := by
  rcases allocate_cases m type ret with he | ⟨j, flags, -, he⟩
  · rw [he]
    exact Beside.refl m
  · rw [he]
    exact Beside.of_eq rfl rfl

theorem releaseSocket_beside : Beside m (releaseSocket m i).1 := by
  by_cases hr : Releases (m.sockets i)
  · rw [releaseSocket_of_releases hr]
    exact Beside.of_eq rfl rfl
  · rw [releaseSocket_refused hr]
    exact Beside.refl m

theorem bindUdp_beside (socketId : BitVec 32) (ret : Err) :
    Beside m (bindUdp m socketId ret).1 := by
  unfold bindUdp
  cases m.get socketId with
  | none => exact Beside.refl m
  | some i =>
    dsimp only
    split_ifs
    · exact Beside.of_eq rfl rfl
    · exact Beside.refl m

theorem setNonBlocking_beside (socketId : BitVec 32) (nonBlocking : Bool) :
    Beside m (setNonBlocking m socketId nonBlocking) := by
  unfold setNonBlocking
  cases m.get socketId with
  | none => exact Beside.refl m
  | some i => exact Beside.of_eq rfl rfl

theorem listen_beside (socketId max : BitVec 32) : Beside m (listen m socketId max).1 := by
  unfold listen
  cases m.get socketId with
  | none => exact Beside.refl m
  | some i =>
    dsimp only
    split_ifs
    · exact Beside.of_eq rfl rfl
    · exact Beside.refl m

theorem connect_beside (socketId : BitVec 32) (endPoint : Endpoint) (ret : Err) :
    Beside m (connect m socketId endPoint ret) := by
  unfold connect
  cases m.get socketId with
  | none => exact Beside.refl m
  | some i =>
    dsimp only
    exact Beside.ite (Beside.ite (Beside.of_eq rfl rfl) (Beside.of_eq rfl rfl)) (Beside.refl m)

theorem acceptTurn_beside : Beside m (acceptTurn m i).1 := by
  unfold acceptTurn
  cases (m.sockets i).accepted with
  | none =>
    dsimp only
    split_ifs
    · exact Beside.refl m
    · exact Beside.of_eq rfl rfl
  | some client => exact Beside.of_eq rfl rfl

theorem accept_beside (socketId : BitVec 32) : Beside m (accept m socketId).1 := by
  unfold accept
  cases m.get socketId with
  | none => exact Beside.refl m
  | some i =>
    dsimp only
    split_ifs
    · exact acceptTurn_beside m i
    · exact Beside.refl m

variable {m} {i} in
theorem wakeOn_beside {m' : Module n k} {mask : BitVec 32} {ret : Err}
    (hm : wakeOn m i mask ret = some m') :
    Beside m m' := by
  rw [wakeOn] at hm
  split_ifs at hm
  · obtain rfl := Option.some.inj hm
    exact Beside.of_eq rfl rfl
  · obtain rfl := Option.some.inj hm
    exact Beside.refl m

end Calls

section Events

variable (m : Module n k) (i : Fin n)

theorem notifyPoll_beside : Beside m (notifyPoll m i) := by
  unfold notifyPoll
  cases (m.sockets i).poll with
  | none => exact Beside.refl m
  | some q =>
    refine ⟨rfl, fun r hr => ?_⟩
    by_cases hrq : r = q
    · subst hrq
      dsimp only
      rw [Function.update_self]
      exact fun hz => hr (BitVec.or_eq_zero_iff.mp hz).1
    · dsimp only
      rw [Function.update_of_ne hrq]
      exact hr

theorem notifyPoll_flags {q : Fin k} (hq : (m.sockets i).poll = some q) :
    ((notifyPoll m i).polls q).syncFlags ≠ 0#32 := by
  unfold notifyPoll
  rw [hq]
  dsimp only
  rw [Function.update_self]
  intro hz
  have hall := (BitVec.or_eq_zero_iff.mp hz).2
  exact absurd hall (by decide)

theorem notified_beside : Beside m (if (m.sockets i).isFree then m else notifyPoll m i) := by
  split_ifs
  · exact Beside.refl m
  · exact notifyPoll_beside m i

theorem udpCallback_beside (event : UdpEvent) (packet : Option RxPacket) :
    Beside m (udpCallback m i event packet) := by
  unfold udpCallback
  by_cases hi : (m.sockets i).isFree = true
  · rw [if_pos hi]
    exact Beside.refl m
  · rw [if_neg hi]
    refine Beside.trans ?_ (notifyPoll_beside _ i)
    cases event with
    | rx =>
      cases packet with
      | none => exact Beside.refl m
      | some p => exact Beside.of_eq rfl rfl
    | tx =>
      dsimp only
      split_ifs
      · exact Beside.of_eq rfl rfl
      · exact Beside.refl m
    | txFailed | error => exact Beside.of_eq rfl rfl

theorem onAccepting_beside (ret : Err) : Beside m (onAccepting m i ret).1 := by
  have ha := allocate_beside m .tcp ret
  rcases onAccepting_cases m i ret with he | ⟨e, m', hm', he⟩ | ⟨-, client, m', hm', he⟩
  · rw [he]
    exact Beside.refl m
  · rw [he]
    rwa [hm'] at ha
  · rw [he]
    rw [hm'] at ha
    exact ha.trans (Beside.of_eq rfl rfl)

theorem onAccepted_beside : Beside m (onAccepted m i) := by
  unfold onAccepted
  cases (m.sockets i).parent with
  | none => exact Beside.refl m
  | some p => exact Beside.of_eq rfl rfl

theorem onAcceptFailed_beside : Beside m (onAcceptFailed m i) := by
  unfold onAcceptFailed
  cases (m.sockets i).parent with
  | none => exact Beside.refl m
  | some p =>
    have hunlink : Beside m (unlinkPending m p i) := Beside.of_eq rfl rfl
    exact (hunlink.trans (releaseSocket_beside _ i)).trans (Beside.of_eq rfl rfl)

theorem onClosed_beside : Beside m (onClosed m i) := by
  unfold onClosed
  cases (m.sockets i).parent with
  | none => exact Beside.of_eq rfl rfl
  | some p => exact Beside.of_eq rfl rfl

theorem tcpCallback_beside (event : Tcp.Event) (packet : Option RxPacket) (ret : Err) :
    Beside m (tcpCallback m i event packet ret).1 := by
  unfold tcpCallback
  split_ifs
  · exact Beside.refl m
  · refine Beside.trans ?_ (notified_beside _ i)
    cases event with
    | rx =>
      cases packet with
      | none => exact Beside.refl m
      | some p => exact Beside.of_eq rfl rfl
    | accepting => exact onAccepting_beside m i ret
    | accepted => exact onAccepted_beside m i
    | acceptFailed => exact onAcceptFailed_beside m i
    | closed => exact onClosed_beside m i
    | tx | connected | txFailed | connectTimeout | error => exact Beside.of_eq rfl rfl

theorem callbacks_beside (es : List (Tcp.Event × Option RxPacket)) :
    ∀ m : Module n k, Beside m (callbacks i es m) := by
  induction es with
  | nil => exact Beside.refl
  | cons e es ih => exact fun m => (tcpCallback_beside m i e.1 e.2 .success).trans (ih _)

theorem changeConnection_beside (c : Change) : Beside m (changeConnection m i c) := by
  have hset : Beside m (m.setState i c.state) := Beside.of_eq rfl rfl
  exact hset.trans (callbacks_beside i c.events _)

theorem acceptConnection_beside (peer : Endpoint) (ret : Err) (answered : Bool) :
    Beside m (acceptConnection m i peer ret answered) := by
  have hcall := tcpCallback_beside m i .accepting none ret
  unfold acceptConnection
  cases hr : tcpCallback m i .accepting none ret with
  | mk m' client =>
    rw [hr] at hcall
    cases client with
    | none => exact hcall
    | some client => exact hcall.trans (Beside.of_eq rfl rfl)

theorem requestCallback_beside (sent : Bool) : Beside m (requestCallback m i sent) := by
  unfold requestCallback
  cases (m.sockets i).type with
  | udp => exact udpCallback_beside m i _ none
  | tcp =>
    dsimp only
    split_ifs
    · exact tcpCallback_beside m i .tx none .success
    · exact Beside.refl m
    · exact tcpCallback_beside m i .txFailed none .success

theorem cancelRequest_beside (requests : Fin n → Bool) : Beside m (cancelRequest m requests i) := by
  unfold cancelRequest
  split_ifs
  · exact requestCallback_beside m i false
  · exact Beside.refl m

end Events

section Reading

variable (m : Module n k) (i : Fin n) (size : Nat)

theorem receivePass_polls : (receivePass m i size).1.polls = m.polls := by
  unfold receivePass
  cases (m.sockets i).rxPackets with
  | nil => rfl
  | cons p q =>
    cases (m.sockets i).type with
    | udp => dsimp only; split_ifs <;> rfl
    | tcp => dsimp only; cases copyAll size (p :: q) <;> rfl

theorem receiveFrom_polls (socketId : BitVec 32) :
    (receiveFrom m socketId size).1.polls = m.polls := by
  unfold receiveFrom
  cases m.get socketId with
  | none => rfl
  | some i =>
    dsimp only
    split
    · exact receivePass_polls m i size
    · rfl

theorem receiveWake_polls (ret : Err) (active : BitVec 32) :
    (receiveWake m i size ret active).1.polls = m.polls := by
  unfold receiveWake
  split_ifs
  · rfl
  · rfl
  · rfl
  · exact receivePass_polls m i size

end Reading

section Polls

variable (m : Module n k) (q : Fin k) (handleIsReady : Fin n → Err)

theorem pollSockets_released (ds : List PollData) :
    ∀ m : Module n k, (pollSockets m q handleIsReady ds).1.released = m.released := by
  induction ds with
  | nil => exact fun m => rfl
  | cons d ds ih =>
    intro m
    unfold pollSockets
    cases m.get d.socketId with
    | none => rfl
    | some i => exact ih _

theorem forgetPoll_released (ds : List PollData) :
    ∀ m : Module n k, (forgetPoll m ds).released = m.released := by
  induction ds with
  | nil => exact fun m => rfl
  | cons d ds ih =>
    intro m
    unfold forgetPoll
    cases m.get d.socketId with
    | none => exact ih m
    | some i => exact ih _

theorem pollTurn_released (ds : List PollData) :
    (pollTurn m q handleIsReady ds).1.released = m.released := by
  simp only [pollTurn]
  split_ifs
  · exact pollSockets_released q handleIsReady ds m
  · exact (forgetPoll_released _ _).trans (pollSockets_released q handleIsReady ds m)

theorem poll_released (ds : List PollData) : (poll m handleIsReady ds).1.released = m.released := by
  unfold poll
  split_ifs
  · rfl
  · cases m.freePoll with
    | none => rfl
    | some q => exact pollTurn_released m q handleIsReady ds

theorem pollWake_released (ds : List PollData) (ret : Err) :
    (pollWake m q handleIsReady ds ret).1.released = m.released := by
  unfold pollWake
  split_ifs
  · exact pollTurn_released m q handleIsReady ds
  · exact forgetPoll_released ds _

variable {m q} in
theorem wakePoll_released {m' : Module n k} {ret : Err} (hm : wakePoll m q ret = some m') :
    m'.released = m.released := by
  rw [wakePoll] at hm
  split_ifs at hm
  · obtain rfl := Option.some.inj hm
    rfl
  · obtain rfl := Option.some.inj hm
    rfl

end Polls

theorem System.setAccept_polls [DecidableEq T] (x : System n k T) (t : T) (i : Fin n)
    (r : Module n k × Pass (Accepted n)) : (x.setAccept t i r).module.polls = r.1.polls := by
  obtain ⟨m, p⟩ := r
  cases p <;> rfl

theorem System.release_polls (x : System n k T) (i : Fin n) (fin : Bool) :
    (x.release i fin).module.polls =
      (releaseSocket (cancelRequest x.module x.requests i) i).1.polls := by
  simp only [System.release]
  split_ifs
  · cases (x.module.sockets i).type <;> rfl
  · rfl

end NanoIp.Sockets
