import NanoIp.Sockets.Frame

/-!
# What the packets of a socket depend on

Only the events of its own connection, its own reads and its own release touch the
packets of an allocated socket. Whatever the tasks do with the other sockets, and
whatever UDP and TCP report on them, leaves it as it is.
-/
namespace NanoIp.Sockets

variable {n k : Nat} {T : Type}

/-- What a reader finds of a socket: whether it is there, its type and its packets. -/
def Socket.line (s : Socket n k) : Bool × SocketType × List RxPacket :=
  (s.isFree, s.type, s.rxPackets)

/-- A reader finds socket `i` as before. -/
def Undisturbed (i : Fin n) (m m' : Module n k) : Prop := (m'.sockets i).line = (m.sockets i).line

namespace Undisturbed

variable {i : Fin n} {m m' m'' : Module n k}

theorem refl (i : Fin n) (m : Module n k) : Undisturbed i m m := rfl

theorem trans (h : Undisturbed i m m') (h' : Undisturbed i m' m'') : Undisturbed i m m'' :=
  Eq.trans h' h

theorem of_sockets (h : m'.sockets = m.sockets) : Undisturbed i m m' := by rw [Undisturbed, h]

theorem modify {j : Fin n} (hij : i ≠ j) (f : Socket n k → Socket n k) :
    Undisturbed i m (m.modify j f) :=
  congrArg Socket.line (m.modify_of_ne f hij)

theorem isFree (h : Undisturbed i m m') : (m'.sockets i).isFree = (m.sockets i).isFree :=
  congrArg Prod.fst h

theorem type (h : Undisturbed i m m') : (m'.sockets i).type = (m.sockets i).type :=
  congrArg (fun l => l.2.1) h

theorem rxPackets (h : Undisturbed i m m') : (m'.sockets i).rxPackets = (m.sockets i).rxPackets :=
  congrArg (fun l => l.2.2) h

end Undisturbed

theorem Same.undisturbed {m m' : Module n k} (h : Same Socket.line m m') (i : Fin n) :
    Undisturbed i m m' := h i

section Operations

variable {m : Module n k} {i j : Fin n}

theorem ne_of_free (hi : (m.sockets i).isFree = false) (hj : (m.sockets j).isFree = true) :
    i ≠ j := by
  rintro rfl
  cases hi.symm.trans hj

theorem allocate_undisturbed (hi : (m.sockets i).isFree = false) (type : SocketType) (ret : Err) :
    Undisturbed i m (allocate m type ret).1 := by
  rcases allocate_cases m type ret with he | ⟨j, flags, hj, he⟩
  · rw [he]
    exact Undisturbed.refl i m
  · rw [he]
    exact Undisturbed.modify (ne_of_free hi hj) _

theorem releaseSocket_undisturbed (hij : i ≠ j) : Undisturbed i m (releaseSocket m j).1 := by
  by_cases hr : Releases (m.sockets j)
  · rw [releaseSocket_of_releases hr]
    exact Undisturbed.modify hij _
  · rw [releaseSocket_refused hr]
    exact Undisturbed.refl i m

theorem takePackets_undisturbed (hij : i ≠ j) (q : List RxPacket) (ids : List PacketId) :
    Undisturbed i m (m.takePackets j q ids) :=
  congrArg Socket.line (m.modify_of_ne (fun s => { s with rxPackets := q }) hij)

theorem queuePacket_undisturbed (hij : i ≠ j) (p : RxPacket) :
    Undisturbed i m (queuePacket m j p) := by
  rw [queuePacket, Module.setFlags, modify_modify]
  exact Undisturbed.modify hij _

theorem receivePass_undisturbed (hij : i ≠ j) (size : Nat) :
    Undisturbed i m (receivePass m j size).1 := by
  unfold receivePass
  cases (m.sockets j).rxPackets with
  | nil => exact Undisturbed.refl i m
  | cons p q =>
    cases (m.sockets j).type with
    | udp =>
      dsimp only
      split_ifs
      · exact takePackets_undisturbed hij q _
      · exact Undisturbed.refl i m
    | tcp =>
      dsimp only
      cases copyAll size (p :: q) with
      | none => exact Undisturbed.refl i m
      | some c => exact takePackets_undisturbed hij c.queue _

theorem receiveFrom_undisturbed {socketId : BitVec 32} (hi : m.get socketId ≠ some i) (size : Nat) :
    Undisturbed i m (receiveFrom m socketId size).1 := by
  unfold receiveFrom
  cases hj : m.get socketId with
  | none => exact Undisturbed.refl i m
  | some j =>
    have hij : i ≠ j := by
      rintro rfl
      exact hi hj
    dsimp only
    split
    · exact receivePass_undisturbed hij size
    · exact Undisturbed.refl i m

theorem receiveWake_undisturbed (hij : i ≠ j) (size : Nat) (ret : Err) (active : BitVec 32) :
    Undisturbed i m (receiveWake m j size ret active).1 := by
  unfold receiveWake
  split_ifs
  · exact Undisturbed.refl i m
  · exact Undisturbed.refl i m
  · exact Undisturbed.refl i m
  · exact receivePass_undisturbed hij size

theorem datagram_undisturbed (hij : i ≠ j) (p : RxPacket) :
    Undisturbed i m (udpCallback m j .rx (some p)) := by
  unfold udpCallback
  by_cases hfree : (m.sockets j).isFree = true
  · rw [if_pos hfree]
    exact Undisturbed.refl i m
  · rw [if_neg hfree]
    exact (queuePacket_undisturbed hij p).trans (Undisturbed.of_sockets (notifyPoll_sockets _ j))

theorem onAccepting_undisturbed (hi : (m.sockets i).isFree = false) (ret : Err) :
    Undisturbed i m (onAccepting m j ret).1 := by
  have ha := allocate_undisturbed hi .tcp ret
  rcases onAccepting_cases m j ret with he | ⟨e, m', hm', he⟩ | ⟨-, client, m', hm', he⟩
  · rw [he]
    exact Undisturbed.refl i m
  · rw [he]
    rwa [hm'] at ha
  · rw [he]
    rw [hm'] at ha
    have hadopt : Same Socket.line m' (adopt m' j client) :=
      adopt_same (fun _ _ => rfl) (fun _ _ => rfl) (fun _ _ => rfl) (fun _ _ => rfl) m' j client
    exact ha.trans (hadopt.undisturbed i)

theorem onAcceptFailed_undisturbed (hij : i ≠ j) : Undisturbed i m (onAcceptFailed m j) := by
  unfold onAcceptFailed
  cases (m.sockets j).parent with
  | none => exact Undisturbed.refl i m
  | some parent =>
    have hunlink : Same Socket.line m (unlinkPending m parent j) :=
      unlinkPending_same (fun _ _ => rfl) (fun _ _ => rfl) m parent j
    exact ((hunlink.undisturbed i).trans (releaseSocket_undisturbed hij)).trans
      (Undisturbed.modify hij _)

/-- The packet that an event of TCP queues. -/
def queuedBy (event : Tcp.Event) (packet : Option RxPacket) : List RxPacket :=
  match event with
  | .rx => packet.toList
  | _ => []

/-- What an event of TCP does to an allocated socket: its own data is queued, and it stays what
it is unless its own handshake is given up. -/
theorem tcpCallback_line (hi : (m.sockets i).isFree = false) {event : Tcp.Event}
    (he : j = i → event ≠ .acceptFailed) (packet : Option RxPacket) (ret : Err) :
    ((tcpCallback m j event packet ret).1.sockets i).line = (false, (m.sockets i).type,
      (m.sockets i).rxPackets ++ if j = i then queuedBy event packet else []) := by
  have hkeep {m' : Module n k} (h : Undisturbed i m m') :
      (m'.sockets i).line = (false, (m.sockets i).type, (m.sockets i).rxPackets ++ []) := by
    rw [List.append_nil, ← hi]
    exact h
  unfold tcpCallback
  by_cases hfree : (m.sockets j).isFree = true
  · have hij := ne_of_free hi hfree
    rw [if_pos hfree, if_neg hij.symm]
    exact hkeep (Undisturbed.refl i m)
  · rw [if_neg hfree]
    have hnotified (m' : Module n k) :
      Undisturbed i m' (if (m'.sockets j).isFree then m' else notifyPoll m' j) :=
      (notified_same Socket.line m' j).undisturbed i
    have hsignal (mask : BitVec 32) : Same Socket.line m (m.setFlags j mask) :=
      setFlags_same (fun _ _ => rfl) m j mask
    dsimp only
    cases event with
    | rx =>
      cases packet with
      | none =>
        rw [show (if j = i then queuedBy .rx none else []) = [] by split_ifs <;> rfl]
        exact hkeep (hnotified m)
      | some p =>
        refine Eq.trans (hnotified (queuePacket m j p)) ?_
        by_cases hij : i = j
        · subst hij
          rw [queuePacket, Module.setFlags, modify_modify, Module.modify_self, if_pos rfl, ← hi]
          rfl
        · rw [if_neg (Ne.symm hij)]
          exact hkeep (queuePacket_undisturbed hij p)
    | accepting =>
      rw [show (if j = i then queuedBy .accepting packet else []) = [] by split_ifs <;> rfl]
      exact hkeep ((onAccepting_undisturbed hi ret).trans (hnotified _))
    | accepted =>
      rw [show (if j = i then queuedBy .accepted packet else []) = [] by split_ifs <;> rfl]
      have hsame : Same Socket.line m (onAccepted m j) :=
        onAccepted_same (fun _ _ => rfl) (fun _ _ => rfl) (fun _ _ => rfl) (fun _ _ => rfl) m j
      exact hkeep ((hsame.undisturbed i).trans (hnotified _))
    | acceptFailed =>
      have hij : i ≠ j := fun hij => he hij.symm rfl
      rw [if_neg hij.symm]
      exact hkeep ((onAcceptFailed_undisturbed hij).trans (hnotified _))
    | closed =>
      rw [show (if j = i then queuedBy .closed packet else []) = [] by split_ifs <;> rfl]
      have hsame : Same Socket.line m (onClosed m j) :=
        onClosed_same (fun _ _ => rfl) (fun _ _ => rfl) m j
      exact hkeep ((hsame.undisturbed i).trans (hnotified _))
    | tx | connected | txFailed | connectTimeout | error =>
      simp only [queuedBy, ite_self]
      exact hkeep (((hsignal _).undisturbed i).trans (hnotified _))

/-- The same for a list of events. -/
theorem callbacks_line (j : Fin n) : ∀ (es : List (Tcp.Event × Option RxPacket)) (m : Module n k),
    (m.sockets i).isFree = false → (j = i → ∀ e ∈ es, e.1 ≠ .acceptFailed) →
      ((callbacks j es m).sockets i).line = (false, (m.sockets i).type,
        (m.sockets i).rxPackets ++ if j = i then es.flatMap fun e => queuedBy e.1 e.2 else []) := by
  intro es
  induction es with
  | nil =>
    intro m hi _
    rw [callbacks, List.flatMap_nil, ite_self, List.append_nil, ← hi]
    rfl
  | cons e es ih =>
    intro m hi hes
    have hfirst := @tcpCallback_line n k m i j hi e.1 (fun hij => hes hij e List.mem_cons_self)
      e.2 .success
    have hrest := ih (tcpCallback m j e.1 e.2 .success).1 (congrArg Prod.fst hfirst)
      fun hij e' he' => hes hij e' (List.mem_cons_of_mem e he')
    have htype : ((tcpCallback m j e.1 e.2 .success).1.sockets i).type = _ :=
      congrArg (fun l => l.2.1) hfirst
    have hqueue : ((tcpCallback m j e.1 e.2 .success).1.sockets i).rxPackets = _ :=
      congrArg (fun l => l.2.2) hfirst
    rw [callbacks, hrest, htype, hqueue, List.append_assoc]
    by_cases hij : j = i
    · rw [if_pos hij, if_pos hij, if_pos hij, List.flatMap_cons]
    · simp only [if_neg hij, List.append_nil]

theorem changeConnection_undisturbed (hi : (m.sockets i).isFree = false) (hij : i ≠ j)
    (c : Change) :
    Undisturbed i m (changeConnection m j c) := by
  have hset : Same Socket.line m (m.setState j c.state) :=
    setState_same (fun _ _ => rfl) m j c.state
  have hline := callbacks_line (i := i) j c.events (m.setState j c.state)
    ((hset.undisturbed i).isFree.trans hi) fun h => absurd h.symm hij
  rw [if_neg hij.symm, List.append_nil, (hset.undisturbed i).type, (hset.undisturbed i).rxPackets,
    ← hi] at hline
  exact hline

theorem acceptConnection_undisturbed (hi : (m.sockets i).isFree = false) (peer : Endpoint)
    (ret : Err) (answered : Bool) : Undisturbed i m (acceptConnection m j peer ret answered) := by
  rcases acceptConnection_cases m j peer ret answered with he | ⟨client, flags, hc, -, he⟩ |
    ⟨client, flags, state, -, -, hc, -, he⟩
  · exact Undisturbed.of_sockets he
  · exact (Undisturbed.modify (ne_of_free hi hc) _).trans (Undisturbed.of_sockets he)
  · have hne := ne_of_free hi hc
    have hadopt : Same Socket.line (m.modify client (started .tcp .success flags)) _ :=
      adopt_same (fun _ _ => rfl) (fun _ _ => rfl) (fun _ _ => rfl) (fun _ _ => rfl) _ j client
    refine Undisturbed.trans ?_ (Undisturbed.of_sockets he)
    exact ((Undisturbed.modify hne _).trans (hadopt.undisturbed i)).trans (Undisturbed.modify hne _)

end Operations

/-- The inputs that read from socket `i`, release it or are events of its own. -/
def Input.touches (m : Module n k) (i : Fin n) : Input n T → Prop
  | .release socketId _ | .receiveFrom socketId _ => m.get socketId = some i
  | .receiveWake j _ _ _ | .datagram j _ | .change j _ => j = i
  | _ => False

instance (m : Module n k) (i : Fin n) (input : Input n T) : Decidable (input.touches m i) := by
  rcases input with ⟨⟩ <;> unfold Input.touches <;> infer_instance

section Steps

variable [DecidableEq T] {x y : System n k T} {input : Input n T} {i : Fin n}

/-- A step that does not touch an allocated socket leaves its packets as they are. -/
theorem step_undisturbed (hi : (x.module.sockets i).isFree = false)
    (ht : ¬ input.touches x.module i) (hs : step x input = some y) :
    Undisturbed i x.module y.module := by
  have hput (x' : System n k T) (m : Module n k) : Undisturbed i m (x'.put m).module :=
    Undisturbed.of_sockets rfl
  cases step_move hs with
  | allocate type ret => exact (allocate_undisturbed hi type ret).trans (hput x _)
  | bindUdp socketId ret j hj htype =>
    have hsame : Same Socket.line x.module (bindUdp x.module socketId ret).1 :=
      bindUdp_same (fun _ _ => rfl) x.module socketId ret
    exact (hsame.undisturbed i).trans (hput x _)
  | setNonBlocking socketId nonBlocking =>
    have hsame : Same Socket.line x.module (setNonBlocking x.module socketId nonBlocking) :=
      setNonBlocking_same (fun _ _ => rfl) x.module socketId nonBlocking
    exact (hsame.undisturbed i).trans (hput x _)
  | release socketId fin j hj =>
    have hij : i ≠ j := by
      rintro rfl
      exact ht hj
    have hsame : Same Socket.line x.module (cancelRequest x.module x.requests j) :=
      cancelRequest_same (fun _ _ => rfl) x.module x.requests j
    refine Undisturbed.trans ?_ (Undisturbed.of_sockets (x.release_sockets j fin))
    exact (hsame.undisturbed i).trans (releaseSocket_undisturbed hij)
  | listen socketId max =>
    have hsame : Same Socket.line x.module (listen x.module socketId max).1 :=
      listen_same (fun _ _ => rfl) (fun _ _ => rfl) x.module socketId max
    exact (hsame.undisturbed i).trans (hput x _)
  | connect socketId endPoint ret =>
    have hsame : Same Socket.line x.module (connect x.module socketId endPoint ret) :=
      connect_same (fun _ _ => rfl) (fun _ _ => rfl) x.module socketId endPoint ret
    exact (hsame.undisturbed i).trans (hput x _)
  | receiveFrom socketId size => exact (receiveFrom_undisturbed ht size).trans (hput x _)
  | receiveWake j size ret active =>
      exact (receiveWake_undisturbed (Ne.symm ht) size ret active).trans (hput x _)
  | takeFlags j mask =>
    have hsame : Same Socket.line x.module (x.module.resetFlags j mask) :=
      resetFlags_same (fun _ _ => rfl) x.module j mask
    exact (hsame.undisturbed i).trans (hput x _)
  | accept t socketId j hidle hj =>
    refine Undisturbed.trans ?_ (Undisturbed.of_sockets (x.setAccept_sockets t j _))
    unfold accept
    rw [hj]
    dsimp only
    have hsame : Same Socket.line x.module (acceptTurn x.module j).1 :=
      acceptTurn_same (fun _ _ => rfl) (fun _ _ => rfl) (fun _ _ => rfl) x.module j
    split_ifs
    · exact hsame.undisturbed i
    · exact Undisturbed.refl i _
  | acceptWake t ret j m hj hm =>
    have hwake : Same Socket.line x.module m := wakeOn_same (fun _ _ => rfl) hm
    have hsame : Same Socket.line m (acceptTurn m j).1 :=
      acceptTurn_same (fun _ _ => rfl) (fun _ _ => rfl) (fun _ _ => rfl) m j
    exact ((hwake.trans hsame).undisturbed i).trans
      (Undisturbed.of_sockets (x.setAccept_sockets t j _))
  | poll t handleIsReady ds hidle =>
    have hsame : Same Socket.line x.module (poll x.module handleIsReady ds).1 :=
      poll_same (fun _ _ => rfl) (fun _ _ => rfl) x.module handleIsReady ds
    exact (hsame.undisturbed i).trans (Undisturbed.of_sockets (x.setPoll_sockets t _))
  | pollWake t handleIsReady ret q ds m hpolling hm =>
    have hwake : Same Socket.line x.module m := Same.of_sockets (wakePoll_sockets hm)
    have hsame : Same Socket.line m (pollWake m q handleIsReady ds ret).1 :=
      pollWake_same (fun _ _ => rfl) (fun _ _ => rfl) m q handleIsReady ds ret
    exact ((hwake.trans hsame).undisturbed i).trans (Undisturbed.of_sockets (x.setPoll_sockets t _))
  | request j hj => exact Undisturbed.refl i _
  | arpResponse j sent hr =>
    have hsame : Same Socket.line x.module (requestCallback x.module j sent) :=
      requestCallback_same (fun _ _ => rfl) x.module j sent
    exact (hsame.undisturbed i).trans (hput x _)
  | datagram j p z hl hz => exact (datagram_undisturbed (Ne.symm ht) p).trans (hput z _)
  | accepting j peer ret answered htype hstate =>
    exact (acceptConnection_undisturbed hi peer ret answered).trans (hput x _)
  | data j p z htype hstate hz =>
      exact (changeConnection_undisturbed hi (Ne.symm ht) _).trans (hput z _)
  | change j c htype hc hd =>
      exact (changeConnection_undisturbed hi (Ne.symm ht) c).trans (hput x _)

end Steps

end NanoIp.Sockets
