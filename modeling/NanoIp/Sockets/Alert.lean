import NanoIp.Sockets.Frame

/-!
# What the flags of a socket tell

A task that waits for data on a socket learns from the flags alone what happens to it. Unless
another call takes them, the flags tell of every packet in the queue, of a connection that was
closed, and of the release of the socket.
-/
namespace NanoIp.Sockets

variable {n k : Nat} {T : Type}

/-- A connection that was established has one of these states from then on. -/
def WasEstablished (state : Tcp.State) : Prop :=
  state ≠ .idle ∧ state ≠ .listen ∧ state ≠ .synSent ∧ state ≠ .synReceived

/-- The flags tell of the packets and of the release, for a socket that can be read. -/
structure Told (s : Socket n k) : Prop where
  data : s.rxPackets ≠ [] → s.syncFlags &&& eventRx ≠ 0#32
  released : s.isFree = true → s.syncFlags &&& eventError ≠ 0#32
  opened : s.type = .tcp → WasEstablished s.tcp.state

/-- They tell of the end of the connection as well. -/
structure Alert (s : Socket n k) : Prop extends Told s where
  closed : s.type = .tcp → s.tcp.state = .closed → s.syncFlags &&& eventError ≠ 0#32

def Socket.view (s : Socket n k) : Bool × SocketType × List RxPacket × BitVec 32 × Tcp.State :=
  (s.isFree, s.type, s.rxPackets, s.syncFlags, s.tcp.state)

/-- The flags of socket `i` still tell all they told. -/
def Keeps (i : Fin n) (m m' : Module n k) : Prop := Alert (m.sockets i) → Alert (m'.sockets i)

section Socket

variable {s s' : Socket n k}

theorem flag_kept {v mask bit : BitVec 32} (h : v &&& bit ≠ 0#32) :
    (v ||| mask) &&& bit ≠ 0#32 := by
  rw [BitVec.and_or_distrib_right]
  intro hz
  exact h (BitVec.or_eq_zero_iff.mp hz).1

theorem flag_set {v mask bit : BitVec 32} (h : mask &&& bit ≠ 0#32) :
    (v ||| mask) &&& bit ≠ 0#32 := by
  rw [BitVec.or_comm]
  exact flag_kept h

theorem Told.congr (h : Told s) (hview : s'.view = s.view) : Told s' := by
  simp only [Socket.view, Prod.mk.injEq] at hview
  obtain ⟨hfree, htype, hqueue, hflags, hstate⟩ := hview
  exact ⟨by rw [hqueue, hflags]; exact h.data, by rw [hfree, hflags]; exact h.released,
    by rw [htype, hstate]; exact h.opened⟩

theorem Alert.congr (h : Alert s) (hview : s'.view = s.view) : Alert s' := by
  have hclosed := h.closed
  refine ⟨h.toTold.congr hview, ?_⟩
  simp only [Socket.view, Prod.mk.injEq] at hview
  obtain ⟨-, htype, -, hflags, hstate⟩ := hview
  rwa [htype, hflags, hstate]

theorem Alert.setFlags (h : Alert s) (mask : BitVec 32) :
    Alert { s with syncFlags := s.syncFlags ||| mask } :=
  ⟨⟨fun hq => flag_kept (h.data hq), fun hf => flag_kept (h.released hf), h.opened⟩,
    fun ht hc => flag_kept (h.closed ht hc)⟩

theorem Told.signal (h : Told s) : Alert { s with syncFlags := s.syncFlags ||| eventError } :=
  ⟨⟨fun hq => flag_kept (h.data hq), fun hf => flag_kept (h.released hf), h.opened⟩,
    fun _ _ => flag_set (by decide)⟩

theorem Alert.queue (h : Alert s) (p : RxPacket) :
    Alert { s with rxPackets := s.rxPackets ++ [p], syncFlags := s.syncFlags ||| eventRx } :=
  ⟨⟨fun _ => flag_set (by decide), fun hf => flag_kept (h.released hf), h.opened⟩,
    fun ht hc => flag_kept (h.closed ht hc)⟩

theorem Alert.take (h : Alert s) {q : List RxPacket} (hq : q ≠ [] → s.rxPackets ≠ []) :
    Alert { s with rxPackets := q } :=
  ⟨⟨fun hne => h.data (hq hne), h.released, h.opened⟩, h.closed⟩

theorem Alert.ended (h : Alert s) : Alert (ended s) := by
  refine ⟨⟨fun hq => flag_kept (h.data hq), fun _ => flag_set (by decide), fun ht => ?_⟩,
    fun _ _ => flag_set (by decide)⟩
  have ht' : s.type = .tcp := ht
  simp only [Sockets.ended, ht']
  exact ⟨by decide, by decide, by decide, by decide⟩

end Socket

namespace Keeps

variable {i j : Fin n} {m m' m'' : Module n k}

theorem refl (i : Fin n) (m : Module n k) : Keeps i m m := id

theorem trans (h : Keeps i m m') (h' : Keeps i m' m'') : Keeps i m m'' := h' ∘ h

theorem same (h : Same Socket.view m m') : Keeps i m m' := fun ha => ha.congr (h i)

theorem of_sockets (h : m'.sockets = m.sockets) : Keeps i m m' := same (Same.of_sockets h)

theorem modify_of_ne (hij : i ≠ j) (f : Socket n k → Socket n k) : Keeps i m (m.modify j f) := by
  intro ha
  rwa [Module.modify_of_ne _ _ hij]

theorem modify {f : Socket n k → Socket n k} (hf : Alert (m.sockets j) → Alert (f (m.sockets j))) :
    Keeps i m (m.modify j f) := by
  by_cases hij : i = j
  · subst hij
    intro ha
    rw [Module.modify_self]
    exact hf ha
  · exact modify_of_ne hij f

end Keeps

section Events

variable {m : Module n k} {i : Fin n}

theorem setFlags_keeps (j : Fin n) (mask : BitVec 32) : Keeps i m (m.setFlags j mask) :=
  Keeps.modify fun ha => ha.setFlags mask

theorem resetFlags_keeps {j : Fin n} (hij : i ≠ j) (mask : BitVec 32) :
    Keeps i m (m.resetFlags j mask) :=
  Keeps.modify_of_ne hij _

theorem setState_keeps {j : Fin n} {state : Tcp.State}
    (h : Alert (m.sockets j) → state = (m.sockets j).tcp.state) :
    Keeps i m (m.setState j state) :=
  Keeps.modify fun ha => by rw [h ha]; exact ha

theorem takePackets_keeps {j : Fin n} {q : List RxPacket}
    (hq : q ≠ [] → (m.sockets j).rxPackets ≠ []) (ids : List PacketId) :
    Keeps i m (m.takePackets j q ids) := by
  have hmodify : Keeps i m (m.modify j fun s => { s with rxPackets := q }) :=
    Keeps.modify fun ha => ha.take hq
  exact hmodify.trans (Keeps.of_sockets rfl)

theorem queuePacket_keeps (j : Fin n) (p : RxPacket) : Keeps i m (queuePacket m j p) := by
  rw [queuePacket, Module.setFlags, modify_modify]
  exact Keeps.modify fun ha => ha.queue p

theorem releaseSocket_keeps (j : Fin n) : Keeps i m (releaseSocket m j).1 := by
  by_cases hr : Releases (m.sockets j)
  · rw [releaseSocket_of_releases hr]
    exact Keeps.modify fun ha => ha.ended
  · rw [releaseSocket_refused hr]
    exact Keeps.refl i m

theorem onAccepted_keeps (j : Fin n) : Keeps i m (onAccepted m j) := by
  unfold onAccepted
  cases (m.sockets j).parent with
  | none => exact Keeps.refl i m
  | some parent =>
    have hlists : Same Socket.view m (appendAccepted (unlinkPending m parent j) parent j) :=
      (unlinkPending_same (fun _ _ => rfl) (fun _ _ => rfl) m parent j).trans
        (appendAccepted_same (fun _ _ => rfl) (fun _ _ => rfl) _ parent j)
    exact (Keeps.same hlists).trans (setFlags_keeps j eventRx)

theorem onAcceptFailed_keeps (j : Fin n) : Keeps i m (onAcceptFailed m j) := by
  unfold onAcceptFailed
  cases (m.sockets j).parent with
  | none => exact Keeps.refl i m
  | some parent =>
    have hlist : Same Socket.view m (unlinkPending m parent j) :=
      unlinkPending_same (fun _ _ => rfl) (fun _ _ => rfl) m parent j
    exact ((Keeps.same hlist).trans (releaseSocket_keeps j)).trans
      (Keeps.same ((Same.refl _ _).modify rfl))

/-- The part of `onClosed` in front of the flag. -/
theorem onClosed_count (m : Module n k) (j : Fin n) :
    ∃ m', Same Socket.view m m' ∧ onClosed m j = m'.setFlags j eventError := by
  unfold onClosed
  refine ⟨_, ?_, rfl⟩
  cases (m.sockets j).parent with
  | none => exact Same.refl _ m
  | some parent => exact (Same.refl _ m).modify rfl

/-- An event other than a new connection. -/
theorem tcpCallback_keeps {event : Tcp.Event} (he : event ≠ .accepting) (j : Fin n)
    (packet : Option RxPacket) (ret : Err) : Keeps i m (tcpCallback m j event packet ret).1 := by
  unfold tcpCallback
  by_cases hfree : (m.sockets j).isFree = true
  · rw [if_pos hfree]
    exact Keeps.refl i m
  · rw [if_neg hfree]
    have hnotified (m' : Module n k) :
      Keeps i m' (if (m'.sockets j).isFree then m' else notifyPoll m' j) :=
      Keeps.same (notified_same Socket.view m' j)
    dsimp only
    cases event with
    | rx =>
      cases packet with
      | none => exact hnotified m
      | some p => exact (queuePacket_keeps j p).trans (hnotified _)
    | accepting => exact absurd rfl he
    | accepted => exact (onAccepted_keeps j).trans (hnotified _)
    | acceptFailed => exact (onAcceptFailed_keeps j).trans (hnotified _)
    | closed =>
      obtain ⟨m', hm', hc⟩ := onClosed_count m j
      refine Keeps.trans ?_ (hnotified _)
      rw [hc]
      exact (Keeps.same hm').trans (setFlags_keeps j eventError)
    | tx | connected | txFailed | connectTimeout | error =>
        exact (setFlags_keeps j _).trans (hnotified _)

theorem callbacks_keeps (j : Fin n) : ∀ (es : List (Tcp.Event × Option RxPacket)) (m : Module n k),
    (∀ e ∈ es, e.1 ≠ .accepting) → Keeps i m (callbacks j es m) := by
  intro es
  induction es with
  | nil => exact fun m _ => Keeps.refl i m
  | cons e es ih =>
    intro m hes
    rw [callbacks]
    exact (tcpCallback_keeps (hes e List.mem_cons_self) j e.2 .success).trans
      (ih _ fun e' he' => hes e' (List.mem_cons_of_mem e he'))

theorem Change.events_plain (c : Change) : ∀ e ∈ c.events, e.1 ≠ .accepting := by
  cases c with
  | closed again => cases again <;> simp [Change.events]
  | _ => simp [Change.events]

theorem tcpCallback_tells (hi : (m.sockets i).isFree = false) (ht : Told (m.sockets i))
    {event : Tcp.Event} (he : event = .closed ∨ event = .txFailed) (ret : Err) :
    Alert ((tcpCallback m i event none ret).1.sockets i) := by
  have hfree : ¬ (m.sockets i).isFree = true := by rw [hi]; exact Bool.false_ne_true
  unfold tcpCallback
  rw [if_neg hfree]
  rcases he with rfl | rfl
  · obtain ⟨m', hm', hc⟩ := onClosed_count m i
    rw [hc]
    refine Alert.congr ?_ (notified_same Socket.view _ i i)
    rw [Module.setFlags, Module.modify_self]
    exact (ht.congr (hm' i)).signal
  · refine Alert.congr ?_ (notified_same Socket.view _ i i)
    rw [Module.setFlags, Module.modify_self]
    exact ht.signal

/-- What TCP does to a connection on its own. -/
theorem changeConnection_keeps {j : Fin n} {c : Change} (htype : (m.sockets j).type = .tcp)
    (hc : c.applies (m.sockets j).tcp.state = true) : Keeps i m (changeConnection m j c) := by
  unfold changeConnection
  by_cases hij : i = j
  · subst hij
    intro ha
    have hopened := ha.opened htype
    have hafter : WasEstablished c.state ∧
      (c.state = .closed → ∃ event es, c.events = (event, none) :: es ∧
        (event = .closed ∨ event = .txFailed)) := by
      cases c with
      | data p | acked | fin | finAcknowledged | finWait =>
          exact ⟨by simp [WasEstablished, Change.state], nofun⟩
      | connected | connectTimeout | accepted | acceptFailed =>
        simp only [Change.applies, decide_eq_true_eq] at hc
        simp [WasEstablished, hc] at hopened
      | closed again =>
        refine ⟨by simp [WasEstablished, Change.state], fun _ => ?_⟩
        cases again
        · exact ⟨.closed, [], rfl, .inl rfl⟩
        · exact ⟨.closed, [(.closed, none)], rfl, .inl rfl⟩
      | exhausted =>
        exact ⟨by
          simp [WasEstablished, Change.state], fun _ =>
          ⟨.txFailed, [(.closed, none)], rfl, .inr rfl⟩⟩
    -- before the first event the flags do not tell of the end
    have htold : Told ((m.setState i c.state).sockets i) := by
      rw [Module.setState, Module.modify_self]
      exact ⟨ha.data, ha.released, fun _ => hafter.1⟩
    by_cases hclosed : c.state = .closed
    · by_cases hfree : ((m.setState i c.state).sockets i).isFree = true
      · rw [callbacks_free hfree]
        exact ⟨htold, fun _ _ => htold.released hfree⟩
      · obtain ⟨event, es, hes, hevent⟩ := hafter.2 hclosed
        have hplain := c.events_plain
        rw [hes] at hplain ⊢
        rw [callbacks]
        exact callbacks_keeps i es _ (fun e he => hplain e (List.mem_cons_of_mem _ he))
          (tcpCallback_tells (Bool.eq_false_iff.mpr hfree) htold hevent .success)
    · refine callbacks_keeps i _ _ c.events_plain ⟨htold, fun _ hstate => absurd ?_ hclosed⟩
      rw [Module.setState, Module.modify_self] at hstate
      exact hstate
  · exact (Keeps.modify_of_ne hij _).trans (callbacks_keeps j _ _ c.events_plain)

theorem udpCallback_keeps (j : Fin n) (event : UdpEvent) (packet : Option RxPacket) :
    Keeps i m (udpCallback m j event packet) := by
  unfold udpCallback
  by_cases hfree : (m.sockets j).isFree = true
  · rw [if_pos hfree]
    exact Keeps.refl i m
  · rw [if_neg hfree]
    refine Keeps.trans ?_ (Keeps.of_sockets (notifyPoll_sockets _ j))
    cases event with
    | rx =>
      cases packet with
      | none => exact Keeps.refl i m
      | some p => exact queuePacket_keeps j p
    | tx =>
      dsimp only
      split_ifs
      · exact setFlags_keeps j _
      · exact Keeps.refl i m
    | txFailed | error => exact setFlags_keeps j _

theorem requestCallback_keeps (j : Fin n) (sent : Bool) : Keeps i m (requestCallback m j sent) := by
  unfold requestCallback
  cases (m.sockets j).type with
  | udp => exact udpCallback_keeps j _ _
  | tcp =>
    dsimp only
    split_ifs
    · exact tcpCallback_keeps (by decide) j _ _
    · exact Keeps.refl i m
    · exact tcpCallback_keeps (by decide) j _ _

theorem cancelRequest_keeps (requests : Fin n → Bool) (j : Fin n) :
    Keeps i m (cancelRequest m requests j) := by
  unfold cancelRequest
  split_ifs
  · exact requestCallback_keeps j false
  · exact Keeps.refl i m

end Events

section Calls

variable {m : Module n k} {i : Fin n}

theorem allocate_keeps (hi : (m.sockets i).isFree = false) (type : SocketType) (ret : Err) :
    Keeps i m (allocate m type ret).1 := by
  rcases allocate_cases m type ret with he | ⟨j, flags, hj, he⟩
  · rw [he]
    exact Keeps.refl i m
  · rw [he]
    refine Keeps.modify_of_ne ?_ _
    rintro rfl
    cases hi.symm.trans hj

theorem listen_keeps (socketId max : BitVec 32) : Keeps i m (listen m socketId max).1 := by
  unfold listen
  cases m.get socketId with
  | none => exact Keeps.refl i m
  | some j =>
    dsimp only
    split_ifs with hc
    · have hmax : Same Socket.view m (m.modify j fun s => { s with maxChildCount := max }) :=
        (Same.refl _ m).modify rfl
      have hstate := @setState_keeps n k (m.modify j fun s => { s with maxChildCount := max }) i j
      refine (Keeps.same hmax).trans (hstate fun ha => ?_)
      have htype : ((m.modify j fun s => { s with maxChildCount := max }).sockets j).type =
          .tcp := by
        rw [Module.modify_self]
        exact hc.1
      rw [tcpListen, if_neg (ha.opened htype).1]
    · exact Keeps.refl i m

theorem connect_keeps (socketId : BitVec 32) (endPoint : Endpoint) (ret : Err) :
    Keeps i m (connect m socketId endPoint ret) := by
  unfold connect
  cases m.get socketId with
  | none => exact Keeps.refl i m
  | some j =>
    dsimp only
    by_cases hc : (m.sockets j).type = .tcp ∧ (m.sockets j).tcp.state = .idle
    · by_cases hij : i = j
      · subst hij
        exact fun ha => absurd hc.2 (ha.opened hc.1).1
      · rw [if_pos hc]
        have hset (state : Tcp.State) :
          Keeps i m (m.modify j fun s => { s with tcp := ⟨state, endPoint⟩ }) :=
          Keeps.modify_of_ne hij _
        by_cases hwaits : ret.accepted ∧ ((m.modify j fun s => { s with tcp :=
            ⟨if ret.accepted then .synSent else .idle, endPoint⟩ }).sockets j).nonBlocking = false
        · rw [if_pos hwaits]
          exact (hset _).trans (resetFlags_keeps hij _)
        · rw [if_neg hwaits]
          exact hset _
    · rw [if_neg hc]
      exact Keeps.refl i m

theorem acceptTurn_keeps {j : Fin n} (hij : i ≠ j) : Keeps i m (acceptTurn m j).1 := by
  unfold acceptTurn
  cases (m.sockets j).accepted with
  | none =>
    dsimp only
    split_ifs
    · exact Keeps.refl i m
    · exact resetFlags_keeps hij _
  | some client =>
    have hhead := (Same.refl Socket.view m).modify (i := j)
      (f := fun s => { s with accepted := (m.sockets client).next }) rfl
    exact Keeps.same (hhead.modify (f := fun s => { s with next := none }) rfl)

theorem accept_keeps (socketId : BitVec 32) : Keeps i m (accept m socketId).1 := by
  unfold accept
  cases m.get socketId with
  | none => exact Keeps.refl i m
  | some j =>
    dsimp only
    by_cases hc : (m.sockets j).type = .tcp ∧ (m.sockets j).tcp.state = .listen
    · rw [if_pos hc]
      by_cases hij : i = j
      · subst hij
        exact fun ha => absurd hc.2 (ha.opened hc.1).2.1
      · exact acceptTurn_keeps hij
    · rw [if_neg hc]
      exact Keeps.refl i m

theorem acceptConnection_keeps (hi : (m.sockets i).isFree = false) (j : Fin n) (peer : Endpoint)
    (ret : Err) (answered : Bool) : Keeps i m (acceptConnection m j peer ret answered) := by
  have hother {client : Fin n} (hc : (m.sockets client).isFree = true) : i ≠ client := by
    rintro rfl
    cases hi.symm.trans hc
  rcases acceptConnection_cases m j peer ret answered with he | ⟨client, flags, hc, -, he⟩ |
    ⟨client, flags, state, -, -, hc, -, he⟩
  · exact Keeps.of_sockets he
  · exact (Keeps.modify_of_ne (hother hc) _).trans (Keeps.of_sockets he)
  · have hadopt : Same Socket.view (m.modify client (started .tcp .success flags)) _ :=
      adopt_same (fun _ _ => rfl) (fun _ _ => rfl) (fun _ _ => rfl) (fun _ _ => rfl) _ j client
    refine Keeps.trans ?_ (Keeps.of_sockets he)
    exact ((Keeps.modify_of_ne (hother hc) _).trans (Keeps.same hadopt)).trans
      (Keeps.modify_of_ne (hother hc) _)

theorem wakeOn_keeps {m' : Module n k} {j : Fin n} {mask : BitVec 32} {ret : Err} (hij : i ≠ j)
    (hm : wakeOn m j mask ret = some m') : Keeps i m m' := by
  rw [wakeOn] at hm
  split_ifs at hm
  · obtain rfl := Option.some.inj hm
    exact Keeps.modify_of_ne hij _
  · obtain rfl := Option.some.inj hm
    exact Keeps.refl i m

/-- Packets are taken out by whoever reads. -/
theorem receivePass_keeps (j : Fin n) (size : Nat) : Keeps i m (receivePass m j size).1 := by
  unfold receivePass
  cases hq : (m.sockets j).rxPackets with
  | nil => exact Keeps.refl i m
  | cons p q =>
    have htake (rest : List RxPacket) (ids : List PacketId) :
      Keeps i m (m.takePackets j rest ids) :=
      takePackets_keeps (fun _ => by rw [hq]; exact List.cons_ne_nil p q) ids
    cases (m.sockets j).type with
    | udp =>
      dsimp only
      split_ifs
      · exact htake q _
      · exact Keeps.refl i m
    | tcp =>
      dsimp only
      cases copyAll size (p :: q) with
      | none => exact Keeps.refl i m
      | some c => exact htake c.queue _

theorem receiveFrom_keeps (socketId : BitVec 32) (size : Nat) :
    Keeps i m (receiveFrom m socketId size).1 := by
  unfold receiveFrom
  cases m.get socketId with
  | none => exact Keeps.refl i m
  | some j =>
    dsimp only
    split
    · exact receivePass_keeps j size
    · exact Keeps.refl i m

theorem receiveWake_keeps (j : Fin n) (size : Nat) (ret : Err) (active : BitVec 32) :
    Keeps i m (receiveWake m j size ret active).1 := by
  unfold receiveWake
  split_ifs
  · exact Keeps.refl i m
  · exact Keeps.refl i m
  · exact Keeps.refl i m
  · exact receivePass_keeps j size

/-- A poll takes the flags of its own sockets only. -/
theorem pollSockets_alert (q : Fin k) (handleIsReady : Fin n → Err) (ds : List PollData) :
    ∀ m : Module n k,
    (∀ d ∈ ds, m.get d.socketId ≠ some i) → Keeps i m (pollSockets m q handleIsReady ds).1 := by
  induction ds with
  | nil => exact fun m _ => Keeps.refl i m
  | cons d ds ih =>
    intro m hds
    unfold pollSockets
    cases hj : m.get d.socketId with
    | none => exact Keeps.refl i m
    | some j =>
      have hij : i ≠ j := by
        rintro rfl
        exact hds d List.mem_cons_self hj
      have hsame : Same Socket.isFree m (pollSocket m q j (handleIsReady j) d).1 :=
        pollSocket_same (fun _ _ => rfl) (fun _ _ => rfl) m q j _ d
      have hrest : ∀ d' ∈ ds, (pollSocket m q j (handleIsReady j) d).1.get d'.socketId ≠
          some i := by
        intro d' hd' hget
        exact hds d' (List.mem_cons_of_mem d hd') (Module.get_congr hget (hsame i).symm)
      exact ((Keeps.modify_of_ne hij _).trans (Keeps.modify_of_ne hij _)).trans (ih _ hrest)

theorem pollTurn_keeps (q : Fin k) (handleIsReady : Fin n → Err) {ds : List PollData}
    (hds : ∀ d ∈ ds, m.get d.socketId ≠ some i) : Keeps i m (pollTurn m q handleIsReady ds).1 := by
  have h := pollSockets_alert q handleIsReady ds m hds
  simp only [pollTurn]
  split_ifs
  · exact h.trans (Keeps.of_sockets rfl)
  · exact h.trans (Keeps.same (endPoll_same (fun _ _ => rfl) _ q _))

theorem poll_keeps (handleIsReady : Fin n → Err) {ds : List PollData}
    (hds : ∀ d ∈ ds, m.get d.socketId ≠ some i) :
    Keeps i m (poll m handleIsReady ds).1 := by
  unfold poll
  split_ifs
  · exact Keeps.refl i m
  · cases m.freePoll with
    | none => exact Keeps.refl i m
    | some q => exact pollTurn_keeps q handleIsReady hds

theorem pollWake_keeps (q : Fin k) (handleIsReady : Fin n → Err) {ds : List PollData}
    (hds : ∀ d ∈ ds, m.get d.socketId ≠ some i) (ret : Err) :
    Keeps i m (pollWake m q handleIsReady ds ret).1 := by
  unfold pollWake
  split_ifs
  · exact pollTurn_keeps q handleIsReady hds
  · exact Keeps.same (endPoll_same (fun _ _ => rfl) m q ds)

end Calls

end NanoIp.Sockets
