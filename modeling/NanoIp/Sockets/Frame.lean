import NanoIp.Sockets.Machine

/-!
# What the operations leave alone

An invariant reads some fields of a socket only. `Same g` says that an operation kept
what `g` reads of every socket; each operation keeps every `g` that ignores the fields
it writes.
-/
namespace NanoIp.Sockets

variable {n k : Nat} {T : Type} {α β : Type*}

/-- What `g` reads of the sockets is as before. -/
def Same (g : Socket n k → α) (m m' : Module n k) : Prop := ∀ j, g (m'.sockets j) = g (m.sockets j)

namespace Same

variable {g : Socket n k → α} {m m' m'' : Module n k}

theorem refl (g : Socket n k → α) (m : Module n k) : Same g m m := fun _ => rfl

theorem trans (h : Same g m m') (h' : Same g m' m'') : Same g m m'' := fun j => (h' j).trans (h j)

theorem modify {i : Fin n} {f : Socket n k → Socket n k} (h : Same g m m')
    (hf : g (f (m'.sockets i)) = g (m'.sockets i)) : Same g m (m'.modify i f) := by
  intro j
  rw [Module.modify_sockets]
  split_ifs with hj
  · rw [hf, ← hj]
    exact h j
  · exact h j

theorem ite {c : Prop} [Decidable c] {a b : Module n k} (ha : Same g m a) (hb : Same g m b) :
    Same g m (if c then a else b) := by
  split_ifs
  · exact ha
  · exact hb

theorem of_sockets (h : m'.sockets = m.sockets) : Same g m m' := fun j => by rw [h]

end Same

section Outcomes

theorem modify_modify (m : Module n k) (i : Fin n) (f g : Socket n k → Socket n k) :
    (m.modify i f).modify i g = m.modify i fun s => g (f s) := by
  unfold Module.modify
  simp only [Function.update_self, Function.update_idem]

theorem modify_congr {m : Module n k} {i : Fin n} {f g : Socket n k → Socket n k}
    (h : f (m.sockets i) = g (m.sockets i)) (r : β) : (m.modify i f, r) = (m.modify i g, r) := by
  unfold Module.modify
  rw [h]

theorem modify_eq_self (m : Module n k) (i : Fin n) {f : Socket n k → Socket n k}
    (hf : f (m.sockets i) = m.sockets i) : m.modify i f = m := by
  unfold Module.modify
  rw [hf, Function.update_eq_self]

/-- The slot that `NANO_IP_SOCKET_Allocate` tries, with the result of its handle. -/
def started (type : SocketType) (ret : Err) (flags : BitVec 32) (s : Socket n k) : Socket n k :=
  match type with
  | .udp => { s with
      isFree := s.isFree && ret ≠ .success
      type := .udp
      options := 0#32
      rxPackets := []
      syncFlags := flags
      udpBound := false
      poll := none }
  | .tcp => { s with
      isFree := s.isFree && ret ≠ .success
      type := .tcp
      options := 0#32
      rxPackets := []
      syncFlags := flags
      tcp := ⟨if ret = .success then .idle else .closed, ⟨0#32, 0#16⟩⟩
      poll := none
      parent := none
      childCount := 0#32
      maxChildCount := 0#32
      acceptPending := none
      accepted := none
      next := none }

/-- `NANO_IP_SOCKET_Allocate` finds no slot, or tries a free one. -/
theorem allocate_cases (m : Module n k) (type : SocketType) (ret : Err) :
    allocate m type ret = (m, .error .resource) ∨
    ∃ i flags, (m.sockets i).isFree = true ∧ allocate m type ret =
      (m.modify i (started type ret flags), if ret = .success then .ok i else .error ret) := by
  unfold allocate
  cases hfree : m.firstFree with
  | none => exact .inl rfl
  | some i =>
    have hi : (m.sockets i).isFree = true :=
      List.find?_some (p := fun j => (m.sockets j).isFree) hfree
    right
    by_cases hr : ret = .success
    · cases type with
      | udp =>
        refine ⟨i, ((m.sockets i).syncFlags &&& ~~~ flagsAll) ||| eventTx, hi, ?_⟩
        simp only [hr, if_true, Module.initUdp, Module.reset, Module.resetFlags, Module.setFlags,
          modify_modify]
        apply modify_congr
        simp only [started, hi, ne_eq, not_true_eq_false, decide_false, Bool.and_false]
      | tcp =>
        refine ⟨i, (m.sockets i).syncFlags &&& ~~~ flagsAll, hi, ?_⟩
        simp only [hr, if_true, Module.initTcp, Module.reset, Module.resetFlags, modify_modify]
        apply modify_congr
        simp only [started, hi, ne_eq, not_true_eq_false, decide_false, Bool.and_false, if_true]
    · refine ⟨i, (m.sockets i).syncFlags &&& ~~~ flagsAll, hi, ?_⟩
      cases type with
      | udp =>
        simp only [if_neg hr, Module.initUdp, Module.reset, Module.resetFlags, modify_modify]
        apply modify_congr
        simp only [started, hi, hr, ne_eq, not_false_eq_true, decide_true, Bool.and_true]
      | tcp =>
        simp only [if_neg hr, Module.initTcp, Module.reset, Module.resetFlags, modify_modify]
        apply modify_congr
        simp only [started, hi, hr, ne_eq, not_false_eq_true, decide_true, Bool.and_true, if_false]

/-- The slot of a released socket. -/
def ended (s : Socket n k) : Socket n k :=
  { s with
    isFree := true
    syncFlags := s.syncFlags ||| flagsAll
    tcp := match s.type with
      | .udp => s.tcp
      | .tcp => { s.tcp with state := .closed } }

/-- The release of a socket succeeds, unless it is a TCP socket without a connection. -/
def Releases (s : Socket n k) : Prop := s.type = .tcp → s.tcp.state ≠ .idle

instance (s : Socket n k) : Decidable (Releases s) := inferInstanceAs (Decidable (_ → _))

theorem releaseSocket_of_releases {m : Module n k} {i : Fin n} (h : Releases (m.sockets i)) :
    releaseSocket m i = (m.modify i ended, .success) := by
  unfold releaseSocket releaseConnection
  cases ht : (m.sockets i).type with
  | udp =>
    simp only [if_true, Module.setFlags, modify_modify]
    apply modify_congr
    simp only [ended, ht]
  | tcp =>
    simp only [tcpClose, h ht, ne_eq, not_false_eq_true, if_true, Module.setState, Module.setFlags,
      modify_modify]
    apply modify_congr
    simp only [ended, ht]

theorem releaseSocket_refused {m : Module n k} {i : Fin n} (h : ¬ Releases (m.sockets i)) :
    releaseSocket m i = (m, .invalidTcpState) := by
  obtain ⟨ht, hs⟩ := Classical.not_imp.mp h
  rw [not_not] at hs
  unfold releaseSocket releaseConnection
  simp only [ht, hs, tcpClose, ne_eq, not_true_eq_false, if_false, Module.setState]
  have hself : (m.modify i fun s => { s with tcp := { s.tcp with state := .idle } }) = m :=
    modify_eq_self m i (by rw [← hs])
  simp only [reduceCtorEq, if_false, hself]

/-- The socket that an input releases. -/
def Input.released (m : Module n k) : Input n T → Option (Fin n)
  | .release socketId _ => (m.get socketId).filter fun i => Releases (m.sockets i)
  | _ => none

end Outcomes

/-- `g` does not read what a socket shows of events and packets, nor its options. -/
structure Blind (g : Socket n k → α) : Prop where
  flags : ∀ s v, g { s with syncFlags := v } = g s
  queue : ∀ s v, g { s with rxPackets := v } = g s
  poll : ∀ s v, g { s with poll := v } = g s
  options : ∀ s v, g { s with options := v } = g s
  udpBound : ∀ s v, g { s with udpBound := v } = g s

/-- A new client becomes a pending child of a listening socket. -/
def adopt (m : Module n k) (i client : Fin n) : Module n k :=
  let m := m.modify client fun s => { s with next := (m.sockets i).acceptPending }
  let m := m.modify i fun s => { s with acceptPending := some client }
  let m := m.modify client fun s => { s with parent := some i }
  m.modify i fun s => { s with childCount := s.childCount + 1#32 }

section Pointers

variable {g : Socket n k → α} (hnext : ∀ s v, g { s with next := v } = g s)

include hnext

theorem setNext_same (m : Module n k) (next : Fin n → Option (Fin n)) : Same g m (m.setNext next) :=
  fun _ => hnext _ _

theorem unlinkPending_same (hpending : ∀ s v, g { s with acceptPending := v } = g s)
    (m : Module n k) (parent i : Fin n) : Same g m (unlinkPending m parent i) := by
  unfold unlinkPending
  exact (setNext_same hnext m _).modify (hpending _ _)

theorem appendAccepted_same (haccepted : ∀ s v, g { s with accepted := v } = g s) (m : Module n k)
    (parent i : Fin n) : Same g m (appendAccepted m parent i) := by
  unfold appendAccepted
  exact (setNext_same hnext m _).modify (haccepted _ _)

theorem adopt_same (hpending : ∀ s v, g { s with acceptPending := v } = g s)
    (hparent : ∀ s v, g { s with parent := v } = g s)
    (hcount : ∀ s v, g { s with childCount := v } = g s) (m : Module n k) (i client : Fin n) :
    Same g m (adopt m i client) := by
  unfold adopt
  exact ((((Same.refl g m).modify (hnext _ _)).modify (hpending _ _)).modify (hparent _ _)).modify
    (hcount _ _)

end Pointers

/-- `TCP_EVENT_ACCEPTING` finds no room, no socket, or a socket that it adopts. -/
theorem onAccepting_cases (m : Module n k) (i : Fin n) (ret : Err) :
    onAccepting m i ret = (m, none) ∨
    (∃ e m', allocate m .tcp ret = (m', .error e) ∧ onAccepting m i ret = (m', none)) ∨
    ((m.sockets i).childCount < (m.sockets i).maxChildCount ∧
      ∃ client m', allocate m .tcp ret = (m', .ok client) ∧
        onAccepting m i ret = (adopt m' i client, some client)) := by
  unfold onAccepting
  split_ifs with hroom
  · cases hr : allocate m .tcp ret with
    | mk m' r =>
      cases r with
      | error e => exact .inr (.inl ⟨e, m', rfl, rfl⟩)
      | ok client => exact .inr (.inr ⟨hroom, client, m', rfl, rfl⟩)
  · exact .inl rfl

theorem notified_sockets (m : Module n k) (i : Fin n) :
    (if (m.sockets i).isFree then m else notifyPoll m i).sockets = m.sockets := by
  split_ifs
  · rfl
  · exact notifyPoll_sockets m i

theorem tcpCallback_free {m : Module n k} {i : Fin n} (hi : (m.sockets i).isFree = true)
    (event : Tcp.Event) (packet : Option RxPacket) (ret : Err) :
    tcpCallback m i event packet ret = (m, none) := by
  unfold tcpCallback
  exact if_pos hi

theorem callbacks_free {m : Module n k} {i : Fin n} (hi : (m.sockets i).isFree = true) :
    ∀ es, callbacks i es m = m := by
  intro es
  induction es with
  | nil => rfl
  | cons e es ih =>
    rw [callbacks, tcpCallback_free hi]
    exact ih

/-- A SYN for a listening connection changes no socket, or tries a slot in vain, or
leaves a new child of the listening socket in state idle or SYN received. -/
theorem acceptConnection_cases (m : Module n k) (i : Fin n) (peer : Endpoint) (ret : Err)
    (answered : Bool) :
    (acceptConnection m i peer ret answered).sockets = m.sockets ∨
    (∃ j flags, (m.sockets j).isFree = true ∧ ret ≠ .success ∧
      (acceptConnection m i peer ret answered).sockets =
        (m.modify j (started .tcp ret flags)).sockets) ∨
    ∃ client flags, ∃ state : Tcp.State, (m.sockets i).isFree = false ∧
      (m.sockets i).childCount < (m.sockets i).maxChildCount ∧ (m.sockets client).isFree = true ∧
      (state = .idle ∨ state = .synReceived) ∧ (acceptConnection m i peer ret answered).sockets =
        ((adopt (m.modify client (started .tcp .success flags)) i client).modify client fun s =>
          { s with tcp := ⟨state, peer⟩ }).sockets := by
  unfold acceptConnection tcpCallback
  by_cases hi : (m.sockets i).isFree = true
  · rw [if_pos hi]
    exact .inl rfl
  · rw [if_neg hi]
    dsimp only
    rcases onAccepting_cases m i ret with he | ⟨e, m', ha, he⟩ | ⟨hroom, client, m', ha, he⟩
    · rw [he]
      exact .inl (notified_sockets m i)
    · rw [he]
      rcases allocate_cases m .tcp ret with hc | ⟨j, flags, hj, hc⟩
      · obtain rfl : m' = m := congrArg Prod.fst (ha.symm.trans hc)
        exact .inl (notified_sockets _ i)
      · rw [ha, Prod.mk.injEq] at hc
        split_ifs at hc with hret
        · cases hc.2
        · obtain ⟨rfl, -⟩ := hc
          exact .inr (.inl ⟨j, flags, hj, hret, notified_sockets _ i⟩)
    · rw [he]
      rcases allocate_cases m .tcp ret with hc | ⟨j, flags, hj, hc⟩
      · cases ha.symm.trans hc
      · rw [ha, Prod.mk.injEq] at hc
        split_ifs at hc with hret
        · obtain ⟨rfl, hclient⟩ := hc
          obtain rfl := Except.ok.inj hclient
          subst hret
          have hidle : ((adopt (m.modify client (started .tcp .success flags)) i client).sockets
            client).tcp =
              ⟨.idle, ⟨0#32, 0#16⟩⟩ := by
            have hkeep := adopt_same (g := Socket.tcp) (fun _ _ => rfl)
              (fun _ _ => rfl) (fun _ _ => rfl)
              (fun _ _ => rfl) (m.modify client (started .tcp .success flags)) i client client
            rw [hkeep, Module.modify_self]
            rfl
          refine .inr (.inr ⟨client, flags, if answered then .synReceived else .idle, ?_, hroom,
            hj, ?_, ?_⟩)
          · exact Bool.eq_false_iff.mpr hi
          · cases answered <;> simp
          · show Function.update _ client _ = Function.update _ client _
            rw [notified_sockets]
            dsimp only
            rw [hidle]
        · cases hc.2

/-- The events that only signal. -/
def Signals : Tcp.Event → Prop
  | .tx | .txFailed | .connected | .connectTimeout | .error => True
  | .rx | .accepting | .accepted | .acceptFailed | .closed => False

theorem notified_same (g : Socket n k → α) (m : Module n k) (i : Fin n) :
    Same g m (if (m.sockets i).isFree then m else notifyPoll m i) :=
  Same.ite (Same.refl g m) (Same.of_sockets (notifyPoll_sockets _ _))

section Flags

variable {g : Socket n k → α} (hflags : ∀ s v, g { s with syncFlags := v } = g s)

include hflags

theorem setFlags_same (m : Module n k) (i : Fin n) (mask : BitVec 32) :
    Same g m (m.setFlags i mask) :=
  (Same.refl g m).modify (hflags _ _)

theorem resetFlags_same (m : Module n k) (i : Fin n) (mask : BitVec 32) :
    Same g m (m.resetFlags i mask) :=
  (Same.refl g m).modify (hflags _ _)

theorem wakeOn_same {m m' : Module n k} {i : Fin n} {mask : BitVec 32} {ret : Err}
    (hm : wakeOn m i mask ret = some m') : Same g m m' := by
  rw [wakeOn] at hm
  split_ifs at hm
  · obtain rfl := Option.some.inj hm
    exact resetFlags_same hflags m i _
  · obtain rfl := Option.some.inj hm
    exact Same.refl g m

theorem queuePacket_same (hqueue : ∀ s v, g { s with rxPackets := v } = g s) (m : Module n k)
    (i : Fin n) (p : RxPacket) : Same g m (queuePacket m i p) :=
  Same.trans ((Same.refl g m).modify (hqueue _ _)) (setFlags_same hflags _ i _)

theorem udpReceive_same (hqueue : ∀ s v, g { s with rxPackets := v } = g s) (m : Module n k)
    (i : Fin n) (p : RxPacket) : Same g m (udpCallback m i .rx (some p)) := by
  unfold udpCallback
  by_cases hfree : (m.sockets i).isFree = true
  · rw [if_pos hfree]
    exact Same.refl g m
  · rw [if_neg hfree]
    exact (queuePacket_same hflags hqueue m i p).trans (Same.of_sockets (notifyPoll_sockets _ _))

theorem udpSignal_same (m : Module n k) (i : Fin n) (event : UdpEvent) :
    Same g m (udpCallback m i event none) := by
  unfold udpCallback
  by_cases hfree : (m.sockets i).isFree = true
  · rw [if_pos hfree]
    exact Same.refl g m
  · rw [if_neg hfree]
    refine Same.trans ?_ (Same.of_sockets (notifyPoll_sockets _ _))
    cases event with
    | rx => exact Same.refl g m
    | tx =>
      dsimp only
      split_ifs
      · exact setFlags_same hflags m i _
      · exact Same.refl g m
    | txFailed | error => exact setFlags_same hflags m i _

theorem tcpSignal_same (m : Module n k) (i : Fin n) (event : Tcp.Event) (he : Signals event)
    (ret : Err) :
    Same g m (tcpCallback m i event none ret).1 := by
  unfold tcpCallback
  split_ifs with hfree
  · exact Same.refl g m
  · cases event with
    | tx | txFailed | connected | connectTimeout | error =>
      exact (setFlags_same hflags m i _).trans (notified_same g _ i)
    | rx | accepting | accepted | acceptFailed | closed => exact he.elim

theorem tcpReceive_same (hqueue : ∀ s v, g { s with rxPackets := v } = g s) (m : Module n k)
    (i : Fin n) (p : RxPacket) (ret : Err) : Same g m (tcpCallback m i .rx (some p) ret).1 := by
  unfold tcpCallback
  split_ifs
  · exact Same.refl g m
  · exact (queuePacket_same hflags hqueue m i p).trans (notified_same g _ i)

theorem requestCallback_same (m : Module n k) (i : Fin n) (sent : Bool) :
    Same g m (requestCallback m i sent) := by
  unfold requestCallback
  cases (m.sockets i).type with
  | udp => exact udpSignal_same hflags m i _
  | tcp =>
    dsimp only
    split_ifs
    · exact tcpSignal_same hflags m i .tx trivial _
    · exact Same.refl g m
    · exact tcpSignal_same hflags m i .txFailed trivial _

theorem cancelRequest_same (m : Module n k) (requests : Fin n → Bool) (i : Fin n) :
    Same g m (cancelRequest m requests i) := by
  unfold cancelRequest
  split_ifs
  · exact requestCallback_same hflags m i false
  · exact Same.refl g m

end Flags

section Queue

variable {g : Socket n k → α} (hqueue : ∀ s v, g { s with rxPackets := v } = g s)

include hqueue

theorem takePackets_same (m : Module n k) (i : Fin n) (q : List RxPacket) (ids : List PacketId) :
    Same g m (m.takePackets i q ids) :=
  (Same.refl g m).modify (f := fun s => { s with rxPackets := q }) (hqueue _ _)

theorem receivePass_same (m : Module n k) (i : Fin n) (size : Nat) :
    Same g m (receivePass m i size).1 := by
  unfold receivePass
  cases (m.sockets i).rxPackets with
  | nil => exact Same.refl g m
  | cons p q =>
    cases (m.sockets i).type with
    | udp =>
      dsimp only
      split_ifs
      · exact takePackets_same hqueue m i _ _
      · exact Same.refl g m
    | tcp =>
      dsimp only
      cases copyAll size (p :: q) with
      | none => exact Same.refl g m
      | some c => exact takePackets_same hqueue m i _ _

theorem receiveFrom_same (m : Module n k) (socketId : BitVec 32) (size : Nat) :
    Same g m (receiveFrom m socketId size).1 := by
  unfold receiveFrom
  cases m.get socketId with
  | none => exact Same.refl g m
  | some i =>
    dsimp only
    split
    · exact receivePass_same hqueue m i size
    · exact Same.refl g m

theorem receiveWake_same (m : Module n k) (i : Fin n) (size : Nat) (ret : Err)
    (active : BitVec 32) :
    Same g m (receiveWake m i size ret active).1 := by
  unfold receiveWake
  split_ifs
  · exact Same.refl g m
  · exact Same.refl g m
  · exact Same.refl g m
  · exact receivePass_same hqueue m i size

end Queue

section Polls

variable {g : Socket n k → α} (hflags : ∀ s v, g { s with syncFlags := v } = g s)
  (hpoll : ∀ s v, g { s with poll := v } = g s)

include hpoll

theorem forgetPoll_same (ds : List PollData) : ∀ m : Module n k, Same g m (forgetPoll m ds) := by
  induction ds with
  | nil => exact fun m => Same.refl g m
  | cons d ds ih =>
    intro m
    unfold forgetPoll
    cases m.get d.socketId with
    | none => exact ih m
    | some i => exact ((Same.refl g m).modify (hpoll _ _)).trans (ih _)

theorem endPoll_same (m : Module n k) (q : Fin k) (ds : List PollData) :
    Same g m (endPoll m q ds) :=
  Same.trans (Same.of_sockets rfl) (forgetPoll_same hpoll ds _)

include hflags

theorem pollSocket_same (m : Module n k) (q : Fin k) (i : Fin n) (handleIsReady : Err)
    (d : PollData) :
    Same g m (pollSocket m q i handleIsReady d).1 :=
  (resetFlags_same hflags m i _).modify (f := fun s => { s with poll := some q }) (hpoll _ _)

theorem pollSockets_same (q : Fin k) (handleIsReady : Fin n → Err) (ds : List PollData) :
    ∀ m : Module n k, Same g m (pollSockets m q handleIsReady ds).1 := by
  induction ds with
  | nil => exact fun m => Same.refl g m
  | cons d ds ih =>
    intro m
    unfold pollSockets
    cases m.get d.socketId with
    | none => exact Same.refl g m
    | some i => exact (pollSocket_same hflags hpoll m q i _ d).trans (ih _)

theorem pollTurn_same (m : Module n k) (q : Fin k) (handleIsReady : Fin n → Err)
    (ds : List PollData) :
    Same g m (pollTurn m q handleIsReady ds).1 := by
  have h := pollSockets_same hflags hpoll q handleIsReady ds m
  simp only [pollTurn]
  split_ifs
  · exact h.trans (Same.of_sockets rfl)
  · exact h.trans (endPoll_same hpoll _ q _)

theorem poll_same (m : Module n k) (handleIsReady : Fin n → Err) (ds : List PollData) :
    Same g m (poll m handleIsReady ds).1 := by
  unfold poll
  split_ifs
  · exact Same.refl g m
  · cases m.freePoll with
    | none => exact Same.refl g m
    | some q => exact pollTurn_same hflags hpoll m q handleIsReady ds

theorem pollWake_same (m : Module n k) (q : Fin k) (handleIsReady : Fin n → Err)
    (ds : List PollData) (ret : Err) : Same g m (pollWake m q handleIsReady ds ret).1 := by
  unfold pollWake
  split_ifs
  · exact pollTurn_same hflags hpoll m q handleIsReady ds
  · exact endPoll_same hpoll m q ds

end Polls

theorem acceptTurn_same {g : Socket n k → α} (hnext : ∀ s v, g { s with next := v } = g s)
    (haccepted : ∀ s v, g { s with accepted := v } = g s)
    (hflags : ∀ s v, g { s with syncFlags := v } = g s) (m : Module n k) (i : Fin n) :
    Same g m (acceptTurn m i).1 := by
  unfold acceptTurn
  cases (m.sockets i).accepted with
  | none =>
    dsimp only
    split_ifs
    · exact Same.refl g m
    · exact resetFlags_same hflags m i flagsAll
  | some client =>
    have hhead := (Same.refl g m).modify (i := i)
      (f := fun s => { s with accepted := (m.sockets client).next })
      (haccepted _ _)
    exact hhead.modify (f := fun s => { s with next := none }) (hnext _ _)

theorem wakePoll_sockets {m m' : Module n k} {q : Fin k} {ret : Err}
    (hm : wakePoll m q ret = some m') :
    m'.sockets = m.sockets := by
  rw [wakePoll] at hm
  split_ifs at hm
  · obtain rfl := Option.some.inj hm
    rfl
  · obtain rfl := Option.some.inj hm
    rfl

theorem bindUdp_same {g : Socket n k → α} (hbound : ∀ s v, g { s with udpBound := v } = g s)
    (m : Module n k) (socketId : BitVec 32) (ret : Err) : Same g m (bindUdp m socketId ret).1 := by
  unfold bindUdp
  cases m.get socketId with
  | none => exact Same.refl g m
  | some i =>
    dsimp only
    split_ifs
    · exact (Same.refl g m).modify (f := fun s => { s with udpBound := true }) (hbound _ _)
    · exact Same.refl g m

theorem setNonBlocking_same {g : Socket n k → α} (hoptions : ∀ s v, g { s with options := v } = g s)
    (m : Module n k) (socketId : BitVec 32) (nonBlocking : Bool) :
    Same g m (setNonBlocking m socketId nonBlocking) := by
  unfold setNonBlocking
  cases m.get socketId with
  | none => exact Same.refl g m
  | some i => exact (Same.refl g m).modify (hoptions _ _)

section Connections

variable {g : Socket n k → α}

theorem setState_same (htcp : ∀ s v, g { s with tcp := v } = g s) (m : Module n k) (i : Fin n)
    (state : Tcp.State) : Same g m (m.setState i state) := by
  unfold Module.setState
  exact (Same.refl g m).modify (htcp _ _)

theorem releaseSocket_same (hended : ∀ s, g (ended s) = g s) (m : Module n k) (i : Fin n) :
    Same g m (releaseSocket m i).1 := by
  by_cases hr : Releases (m.sockets i)
  · rw [releaseSocket_of_releases hr]
    exact (Same.refl g m).modify (hended _)
  · rw [releaseSocket_refused hr]
    exact Same.refl g m

theorem listen_same (hmax : ∀ s v, g { s with maxChildCount := v } = g s)
    (htcp : ∀ s v, g { s with tcp := v } = g s) (m : Module n k) (socketId max : BitVec 32) :
    Same g m (listen m socketId max).1 := by
  unfold listen
  cases m.get socketId with
  | none => exact Same.refl g m
  | some i =>
    dsimp only
    split_ifs
    · have hm := (Same.refl g m).modify (i := i)
        (f := fun s => { s with maxChildCount := max }) (hmax _ _)
      exact hm.trans (setState_same htcp _ i _)
    · exact Same.refl g m

theorem connect_same (htcp : ∀ s v, g { s with tcp := v } = g s)
    (hflags : ∀ s v, g { s with syncFlags := v } = g s) (m : Module n k) (socketId : BitVec 32)
    (endPoint : Endpoint) (ret : Err) :
    Same g m (connect m socketId endPoint ret) := by
  unfold connect
  cases m.get socketId with
  | none => exact Same.refl g m
  | some i =>
    have hm (state : Tcp.State) := (Same.refl g m).modify (i := i)
      (f := fun s => { s with tcp := ⟨state, endPoint⟩ }) (htcp _ _)
    exact Same.ite (Same.ite ((hm _).trans (resetFlags_same hflags _ i _)) (hm _)) (Same.refl g m)

theorem onAccepted_same (hnext : ∀ s v, g { s with next := v } = g s)
    (hpending : ∀ s v, g { s with acceptPending := v } = g s)
    (haccepted : ∀ s v, g { s with accepted := v } = g s)
    (hflags : ∀ s v, g { s with syncFlags := v } = g s) (m : Module n k) (i : Fin n) :
    Same g m (onAccepted m i) := by
  unfold onAccepted
  cases (m.sockets i).parent with
  | none => exact Same.refl g m
  | some parent =>
    exact ((unlinkPending_same hnext hpending m parent i).trans
      (appendAccepted_same hnext haccepted _ parent i)).trans
      (setFlags_same hflags _ i eventRx)

theorem onAcceptFailed_same (hnext : ∀ s v, g { s with next := v } = g s)
    (hpending : ∀ s v, g { s with acceptPending := v } = g s) (hended : ∀ s, g (ended s) = g s)
    (hcount : ∀ s v, g { s with childCount := v } = g s) (m : Module n k) (i : Fin n) :
    Same g m (onAcceptFailed m i) := by
  unfold onAcceptFailed
  cases (m.sockets i).parent with
  | none => exact Same.refl g m
  | some parent =>
    exact ((unlinkPending_same hnext hpending m parent i).trans
      (releaseSocket_same hended _ i)).modify (hcount _ _)

theorem onClosed_same (hcount : ∀ s v, g { s with childCount := v } = g s)
    (hflags : ∀ s v, g { s with syncFlags := v } = g s) (m : Module n k) (i : Fin n) :
    Same g m (onClosed m i) := by
  unfold onClosed
  refine Same.trans ?_ (setFlags_same hflags _ i eventError)
  cases (m.sockets i).parent with
  | none => exact Same.refl g m
  | some parent => exact (Same.refl g m).modify (hcount _ _)

end Connections

/-- The inputs that do not touch a connection or a list of sockets. -/
def Input.Plain : Input n T → Prop
  | .bindUdp _ _ | .setNonBlocking _ _ | .receiveFrom _ _ | .receiveWake _ _ _ _ | .takeFlags _ _
  | .poll _ _ _ | .pollWake _ _ _ | .request _ | .arpResponse _ _ | .datagram _ _ => True
  | .allocate _ _ | .release _ _ | .listen _ _ | .connect _ _ _ | .accept _ _ | .acceptWake _ _
  | .accepting _ _ _ _ | .change _ _ => False

theorem System.setPoll_sockets [DecidableEq T] (x : System n k T) (t : T)
    (r : Module n k × Polled k) :
    (x.setPoll t r).module.sockets = r.1.sockets := by
  obtain ⟨m, p⟩ := r
  cases p <;> rfl

theorem System.setAccept_sockets [DecidableEq T] (x : System n k T) (t : T) (i : Fin n)
    (r : Module n k × Pass (Accepted n)) : (x.setAccept t i r).module.sockets = r.1.sockets := by
  obtain ⟨m, p⟩ := r
  cases p <;> rfl

theorem System.release_sockets (x : System n k T) (i : Fin n) (fin : Bool) :
    (x.release i fin).module.sockets =
      (releaseSocket (cancelRequest x.module x.requests i) i).1.sockets := by
  simp only [System.release]
  split_ifs
  · cases (x.module.sockets i).type <;> rfl
  · rfl

theorem System.release_tasks (x : System n k T) (i : Fin n) (fin : Bool) :
    (x.release i fin).tasks = x.tasks := by
  simp only [System.release]
  split_ifs
  · cases (x.module.sockets i).type <;> rfl
  · rfl

/-- They keep all that a blind reader reads. -/
theorem plain_same [DecidableEq T] {g : Socket n k → α} (hg : Blind g) {x y : System n k T}
    {input : Input n T} (hp : input.Plain) (hs : Move x input y) : Same g x.module y.module := by
  cases hs with
  | bindUdp socketId ret i hi ht => exact bindUdp_same hg.udpBound _ _ _
  | setNonBlocking socketId nonBlocking => exact setNonBlocking_same hg.options _ _ _
  | receiveFrom socketId size => exact receiveFrom_same hg.queue _ _ _
  | receiveWake i size ret active => exact receiveWake_same hg.queue _ _ _ _ _
  | takeFlags i mask => exact resetFlags_same hg.flags _ _ _
  | poll t handleIsReady ds ht =>
    exact (poll_same hg.flags hg.poll _ _ _).trans (Same.of_sockets (x.setPoll_sockets t _))
  | pollWake t handleIsReady ret q ds m ht hm =>
    exact (Same.of_sockets (wakePoll_sockets hm)).trans
      ((pollWake_same hg.flags hg.poll _ _ _ _ _).trans (Same.of_sockets (x.setPoll_sockets t _)))
  | request i hi => exact Same.refl g _
  | arpResponse i sent hr => exact requestCallback_same hg.flags _ _ _
  | datagram i p z hl hz => exact udpReceive_same hg.flags hg.queue _ _ _
  | allocate | release | listen | connect | accept | acceptWake | accepting | data | change =>
      exact hp.elim

end NanoIp.Sockets
