import NanoIp.Sockets.Frame
import Mathlib.Data.Fintype.Basic

/-!
# Waking a task in Accept

The event flag of an accepted connection is set on the socket of the client, not on
the listening socket whose flags the task waits on. A run in which no connection is
accepted while a task waits keeps the promise of a wake-up; the first one that is
breaks it.
-/
namespace NanoIp.Sockets

variable {n k : Nat} {T : Type} [DecidableEq T]

/-- Whenever a task waits in Accept on a socket with an accepted connection, the flag
it waits for is set. -/
def AcceptWakes (x : System n k T) : Prop :=
  ∀ t i, x.tasks t = .accepting i → (x.module.sockets i).accepted ≠ none →
    (x.module.sockets i).syncFlags &&& eventRx ≠ 0#32

/-- The socket whose connection an input accepts. -/
def Input.accepted : Input n T → Option (Fin n)
  | .change i .accepted => some i
  | _ => none

/-- No connection is accepted for a socket on which a task waits. -/
def AcceptsUnawaited (x : System n k T) (input : Input n T) : Prop :=
  ∀ i, input.accepted = some i → ∀ p, (x.module.sockets i).parent = some p → ∀ t, x.tasks t ≠
    .accepting p

omit [DecidableEq T] in
instance [Fintype T] (x : System n k T) (input : Input n T) :
    Decidable (AcceptsUnawaited x input) :=
  inferInstanceAs (Decidable (∀ _ : Fin n, _ → ∀ _ : Fin n, _ → ∀ _ : T, _))

/-- No list of accepted connections becomes non-empty. -/
def KeepsEmpty (m m' : Module n k) : Prop :=
  ∀ j, (m.sockets j).accepted = none → (m'.sockets j).accepted = none

/-- A task waits for a connection only where none is there. -/
def AwaitsNone (x : System n k T) : Prop :=
  ∀ t i, x.tasks t = .accepting i → (x.module.sockets i).accepted = none

omit [DecidableEq T] in
theorem AwaitsNone.wakes {x : System n k T} (h : AwaitsNone x) : AcceptWakes x :=
  fun t i ht ha => absurd (h t i ht) ha

section Lists

theorem blind_accepted : Blind (Socket.accepted (n := n) (k := k)) :=
  ⟨fun _ _ => rfl, fun _ _ => rfl, fun _ _ => rfl, fun _ _ => rfl, fun _ _ => rfl⟩

variable {m m' m'' : Module n k}

theorem KeepsEmpty.trans (h : KeepsEmpty m m') (h' : KeepsEmpty m' m'') : KeepsEmpty m m'' :=
  fun j hj => h' j (h j hj)

theorem Same.keepsEmpty (h : Same Socket.accepted m m') : KeepsEmpty m m' :=
  fun j hj => (h j).trans hj

theorem KeepsEmpty.modify {i : Fin n} {f : Socket n k → Socket n k}
    (hf : (m.sockets i).accepted = none → (f (m.sockets i)).accepted = none) :
    KeepsEmpty m (m.modify i f) := by
  intro j hj
  rw [Module.modify_sockets]
  split_ifs with h
  · exact hf (h ▸ hj)
  · exact hj

theorem allocate_keepsEmpty (m : Module n k) (type : SocketType) (ret : Err) :
    KeepsEmpty m (allocate m type ret).1 := by
  rcases allocate_cases m type ret with he | ⟨i, flags, -, he⟩
  · rw [he]
    exact fun _ hj => hj
  · rw [he]
    refine KeepsEmpty.modify fun hn => ?_
    cases type with
    | udp => exact hn
    | tcp => rfl

theorem acceptTurn_keepsEmpty (m : Module n k) (i : Fin n) : KeepsEmpty m (acceptTurn m i).1 := by
  unfold acceptTurn
  cases ha : (m.sockets i).accepted with
  | some client =>
    dsimp only
    refine KeepsEmpty.trans (KeepsEmpty.modify fun hn => ?_) (KeepsEmpty.modify (by exact id))
    rw [ha] at hn
    cases hn
  | none =>
    dsimp only
    split_ifs
    · exact fun _ hj => hj
    · exact (resetFlags_same (fun _ _ => rfl) m i flagsAll).keepsEmpty

theorem acceptTurn_waits (m : Module n k) (i : Fin n) (h : (acceptTurn m i).2 = .waits) :
    (m.sockets i).accepted = none := by
  unfold acceptTurn at h
  cases ha : (m.sockets i).accepted with
  | some client =>
    rw [ha] at h
    cases h
  | none => rfl

theorem onAccepting_keepsEmpty (m : Module n k) (i : Fin n) (ret : Err) :
    KeepsEmpty m (onAccepting m i ret).1 := by
  have ha := allocate_keepsEmpty m .tcp ret
  rcases onAccepting_cases m i ret with he | ⟨e, m', hr, he⟩ | ⟨-, client, m', hr, he⟩
  · rw [he]
    exact fun _ hj => hj
  · rw [hr] at ha
    rw [he]
    exact ha
  · rw [hr] at ha
    rw [he]
    exact ha.trans (adopt_same (fun _ _ => rfl) (fun _ _ => rfl)
      (fun _ _ => rfl) (fun _ _ => rfl) m' i
      client).keepsEmpty

theorem tcpCallback_keepsEmpty (m : Module n k) (i : Fin n) {event : Tcp.Event}
    (he : event ≠ .accepted) (packet : Option RxPacket) (ret : Err) :
    KeepsEmpty m (tcpCallback m i event packet ret).1 := by
  have hn (m' : Module n k) := (notified_same Socket.accepted m' i).keepsEmpty
  unfold tcpCallback
  split_ifs
  · exact fun _ hj => hj
  · cases event with
    | rx =>
      cases packet with
      | none => exact hn m
      | some p =>
        exact (queuePacket_same (fun _ _ => rfl) (fun _ _ => rfl) m i p).keepsEmpty.trans (hn _)
    | tx | txFailed | connected | connectTimeout | error =>
      exact (setFlags_same (fun _ _ => rfl) m i _).keepsEmpty.trans (hn _)
    | accepting => exact (onAccepting_keepsEmpty m i ret).trans (hn _)
    | accepted => exact absurd rfl he
    | acceptFailed =>
      exact (onAcceptFailed_same (fun _ _ => rfl) (fun _ _ => rfl) (fun _ => rfl) (fun _ _ => rfl) m
        i).keepsEmpty.trans
        (hn _)
    | closed => exact (onClosed_same (fun _ _ => rfl) (fun _ _ => rfl) m i).keepsEmpty.trans (hn _)

theorem callbacks_keepsEmpty (i : Fin n) (es : List (Tcp.Event × Option RxPacket)) :
    ∀ m : Module n k, (∀ e ∈ es, e.1 ≠ .accepted) → KeepsEmpty m (callbacks i es m) := by
  induction es with
  | nil => exact fun m _ _ hj => hj
  | cons e es ih =>
    intro m he
    exact (tcpCallback_keepsEmpty m i (he e List.mem_cons_self) e.2 .success).trans
      (ih _ fun e' he' => he e' (List.mem_cons_of_mem e he'))

theorem Change.event_ne {c : Change} (hc : c ≠ .accepted) : ∀ e ∈ c.events, e.1 ≠ .accepted := by
  cases c with
  | accepted => exact absurd rfl hc
  | closed again => cases again <;> simp [Change.events]
  | _ => simp [Change.events]

theorem changeConnection_keepsEmpty (m : Module n k) (i : Fin n) {c : Change} (hc : c ≠ .accepted) :
    KeepsEmpty m (changeConnection m i c) :=
  (Same.keepsEmpty ((Same.refl _ m).modify (by rfl))).trans
    (callbacks_keepsEmpty i _ _ (Change.event_ne hc))

theorem acceptConnection_keepsEmpty (m : Module n k) (i : Fin n) (peer : Endpoint) (ret : Err)
    (answered : Bool) : KeepsEmpty m (acceptConnection m i peer ret answered) := by
  have h : KeepsEmpty m (tcpCallback m i .accepting none ret).1 :=
    tcpCallback_keepsEmpty m i (by decide) none ret
  unfold acceptConnection
  cases hr : tcpCallback m i .accepting none ret with
  | mk m' handle =>
    rw [hr] at h
    cases handle with
    | none => exact h
    | some client => exact h.trans (Same.keepsEmpty ((Same.refl _ m').modify (by rfl)))

theorem changeConnection_sockets (m : Module n k) {i : Fin n}
    (hfree : (m.sockets i).isFree = false) :
    (changeConnection m i .accepted).sockets =
      (onAccepted (m.setState i .established) i).sockets := by
  have hset : ((m.setState i .established).sockets i).isFree = false := by
    rw [Module.setState, Module.modify_self]
    exact hfree
  show (tcpCallback (m.setState i .established) i .accepted none .success).1.sockets = _
  unfold tcpCallback
  rw [if_neg (by rw [hset]; decide)]
  dsimp only
  split_ifs
  · rfl
  · exact notifyPoll_sockets _ _

theorem onAccepted_accepted (m : Module n k) (i : Fin n) {j : Fin n}
    (hj : (m.sockets i).parent ≠ some j) :
    ((onAccepted m i).sockets j).accepted = (m.sockets j).accepted := by
  unfold onAccepted
  cases hp : (m.sockets i).parent with
  | none => rfl
  | some parent =>
    have hne : j ≠ parent := fun h => hj (by rw [hp, h])
    refine (setFlags_same (fun _ _ => rfl) _ i eventRx j).trans ?_
    refine Eq.trans ?_ (unlinkPending_same (g := Socket.accepted) (fun _ _ => rfl)
      (fun _ _ => rfl) m parent i j)
    unfold appendAccepted
    dsimp only
    rw [Module.modify_of_ne _ _ hne]
    exact setNext_same (g := Socket.accepted) (fun _ _ => rfl) _ _ j

theorem onAccepted_some {m : Module n k} {i p : Fin n} (hp : (m.sockets i).parent = some p) :
    ((onAccepted m i).sockets p).accepted ≠ none := by
  unfold onAccepted
  rw [hp]
  dsimp only
  rw [setFlags_same (g := Socket.accepted) (fun _ _ => rfl) _ i eventRx p]
  unfold appendAccepted
  dsimp only
  rw [Module.modify_self]
  exact Lib.append_head _ _ i n

theorem onAccepted_flags {m : Module n k} {i p : Fin n} (hp : (m.sockets i).parent = some p)
    (hne : p ≠ i) :
    ((onAccepted m i).sockets p).syncFlags = (m.sockets p).syncFlags := by
  unfold onAccepted
  rw [hp]
  dsimp only
  rw [Module.setFlags, Module.modify_of_ne _ _ hne]
  unfold appendAccepted
  dsimp only
  rw [Module.modify_self]
  show ((unlinkPending m p i).sockets p).syncFlags = _
  unfold unlinkPending
  dsimp only
  rw [Module.modify_self]
  rfl

theorem changeConnection_accepted (m : Module n k) (i : Fin n) {j : Fin n}
    (hj : (m.sockets i).parent ≠ some j) (hn : (m.sockets j).accepted = none) :
    ((changeConnection m i .accepted).sockets j).accepted = none := by
  have hset : Same Socket.accepted m (m.setState i .established) := by
    dsimp only [Module.setState]
    exact (Same.refl _ m).modify (by rfl)
  by_cases hfree : (m.sockets i).isFree = true
  · have hf : ((m.setState i .established).sockets i).isFree = true := by
      rw [Module.setState, Module.modify_self]
      exact hfree
    show ((tcpCallback (m.setState i .established) i .accepted none .success).1.sockets
      j).accepted = _
    rw [tcpCallback, if_pos hf]
    exact (hset j).trans hn
  · have hparent : ((m.setState i .established).sockets i).parent = (m.sockets i).parent := by
      rw [Module.setState, Module.modify_self]
    rw [changeConnection_sockets m (by simpa using hfree),
      onAccepted_accepted _ _ (by rw [hparent]; exact hj)]
    exact (hset j).trans hn

theorem accept_keepsEmpty (m : Module n k) (socketId : BitVec 32) :
    KeepsEmpty m (accept m socketId).1 := by
  unfold accept
  cases m.get socketId with
  | none => exact fun _ hj => hj
  | some i =>
    dsimp only
    split_ifs
    · exact acceptTurn_keepsEmpty m i
    · exact fun _ hj => hj

theorem accept_waits {m : Module n k} {socketId : BitVec 32} {i : Fin n}
    (hi : m.get socketId = some i) (h : (accept m socketId).2 = .waits) :
    (m.sockets i).accepted = none := by
  unfold accept at h
  rw [hi] at h
  dsimp only at h
  split_ifs at h
  exact acceptTurn_waits m i h

end Lists

section Runs

variable {x y : System n k T}

omit [DecidableEq T] in
theorem AwaitsNone.keep (h : AwaitsNone x) (hk : KeepsEmpty x.module y.module)
    (ht : ∀ t i, y.tasks t = .accepting i → x.tasks t = .accepting i) : AwaitsNone y :=
  fun t i hi => hk i (h t i (ht t i hi))

theorem AwaitsNone.setAccept (h : AwaitsNone x) (t : T) (i : Fin n)
    {r : Module n k × Pass (Accepted n)} (hk : KeepsEmpty x.module r.1)
    (hw : r.2 = .waits → (x.module.sockets i).accepted = none) :
    AwaitsNone (x.setAccept t i r) := by
  intro t' j hj
  rw [x.setAccept_sockets]
  apply hk
  obtain ⟨m, p⟩ := r
  by_cases ht : t' = t
  · subst ht
    cases p with
    | returns a =>
      rw [show (x.setAccept t' i (m, .returns a)).tasks t' =
        .idle from Function.update_self _ _ _] at hj
      cases hj
    | waits =>
      rw [show (x.setAccept t' i (m, .waits)).tasks t' = .accepting i from Function.update_self
        _ _ _] at hj
      obtain rfl := Activity.accepting.inj hj
      exact hw rfl
  · refine h t' j ?_
    cases p with
    | returns a => exact (Function.update_of_ne ht _ _).symm.trans hj
    | waits => exact (Function.update_of_ne ht _ _).symm.trans hj

theorem setPoll_accepting (t : T) (r : Module n k × Polled k) {t' : T} {i : Fin n}
    (h : (x.setPoll t r).tasks t' = .accepting i) : x.tasks t' = .accepting i := by
  obtain ⟨m, p⟩ := r
  have hne : t' ≠ t := by
    rintro rfl
    cases p with
    | returns ret ds count =>
      rw [show (x.setPoll t' (m, .returns ret ds count)).tasks t' =
        .idle from Function.update_self _ _ _] at h
      cases h
    | waits q ds =>
      rw [show (x.setPoll t' (m, .waits q ds)).tasks t' =
        .polling q ds from Function.update_self _ _ _] at h
      cases h
  cases p with
  | returns ret ds count => exact (Function.update_of_ne hne _ _).symm.trans h
  | waits q ds => exact (Function.update_of_ne hne _ _).symm.trans h

theorem plain_accepting {input : Input n T} (hp : input.Plain) (hs : Move x input y) (t : T)
    (i : Fin n) (h : y.tasks t = .accepting i) : x.tasks t = .accepting i := by
  cases hs with
  | poll t' handleIsReady ds ht => exact setPoll_accepting t' _ h
  | pollWake t' handleIsReady ret q ds m ht hm => exact setPoll_accepting t' _ h
  | datagram i p z hl hz =>
    rw [System.takePacket] at hz
    split_ifs at hz
    obtain rfl := Option.some.inj hz
    exact h
  | bindUdp | setNonBlocking | receiveFrom | receiveWake | takeFlags | request | arpResponse =>
      exact h
  | allocate | release | listen | connect | accept | acceptWake | accepting | data | change =>
      exact hp.elim

/-- A task starts to wait only where no connection is, and none is accepted there
while it waits. -/
theorem awaitsNone_step {input : Input n T} (h : AwaitsNone x) (hok : AcceptsUnawaited x input)
    (hs : step x input = some y) : AwaitsNone y := by
  have hmove := step_move hs
  by_cases hp : input.Plain
  · exact h.keep (plain_same blind_accepted hp hmove).keepsEmpty (plain_accepting hp hmove)
  · cases hmove with
    | allocate type ret => exact h.keep (allocate_keepsEmpty _ _ _) fun _ _ ht => ht
    | release socketId fin i hi =>
      refine h.keep (Same.keepsEmpty ?_) fun t j ht =>
        (congrFun (x.release_tasks i fin) t).symm.trans ht
      exact ((cancelRequest_same (fun _ _ => rfl) _ _ i).trans
        (releaseSocket_same (fun _ => rfl) _ i)).trans
        (Same.of_sockets (x.release_sockets i fin))
    | listen socketId max =>
      exact h.keep (listen_same (fun _ _ => rfl) (fun _ _ => rfl) _ _ _).keepsEmpty fun _ _ ht => ht
    | connect socketId endPoint ret =>
      exact h.keep (connect_same (fun _ _ => rfl) (fun _ _ => rfl) _ _ _ _).keepsEmpty fun _ _ ht =>
        ht
    | accept t socketId i ht hi => exact h.setAccept t i (accept_keepsEmpty _ _) (accept_waits hi)
    | acceptWake t ret i m ht hm =>
      have hsame := wakeOn_same (g := Socket.accepted) (fun _ _ => rfl) hm
      refine h.setAccept t i (hsame.keepsEmpty.trans (acceptTurn_keepsEmpty m i)) fun hw => ?_
      rw [← hsame i]
      exact acceptTurn_waits m i hw
    | accepting i peer ret answered ht hl =>
      exact h.keep (acceptConnection_keepsEmpty _ _ _ _ _) fun _ _ ht => ht
    | data i p z ht hst hz =>
      rw [System.takePacket] at hz
      split_ifs at hz
      obtain rfl := Option.some.inj hz
      exact h.keep (changeConnection_keepsEmpty _ i nofun) fun _ _ ht => ht
    | change i c ht hc hd =>
      by_cases hacc : c = .accepted
      · subst hacc
        intro t j hj
        exact changeConnection_accepted x.module i (fun hpar => hok i rfl j hpar t hj) (h t j hj)
      · exact h.keep (changeConnection_keepsEmpty _ i hacc) fun _ _ ht => ht
    | bindUdp | setNonBlocking | receiveFrom | receiveWake | takeFlags | poll | pollWake | request
    | arpResponse | datagram => exact absurd trivial hp

/-- A connection that is accepted while a task waits does not wake it. -/
theorem accepted_awaited {i p : Fin n} {t : T} (hs : step x (.change i .accepted) = some y)
    (hfree : (x.module.sockets i).isFree = false) (hp : (x.module.sockets i).parent = some p)
    (hne : p ≠ i) (ht : x.tasks t = .accepting p)
    (hflag : (x.module.sockets p).syncFlags &&& eventRx = 0#32) :
    ¬ AcceptWakes y := by
  cases step_move hs with
  | change _ _ htype hc hd =>
    have hset : Same (fun s => (s.parent, s.syncFlags)) x.module
        (x.module.setState i .established) := by
      dsimp only [Module.setState]
      exact (Same.refl _ _).modify (by rfl)
    have hparent : ((x.module.setState i .established).sockets i).parent = some p :=
      (congrArg Prod.fst (hset i)).trans hp
    intro hwakes
    have hwake := hwakes t p ht
    rw [show (x.put (changeConnection x.module i .accepted)).module.sockets = _ from
      changeConnection_sockets x.module hfree] at hwake
    apply hwake
    · exact onAccepted_some hparent
    · rw [onAccepted_flags hparent hne,
        show ((x.module.setState i .established).sockets p).syncFlags = _ from
        congrArg Prod.snd (hset p)]
      exact hflag

/-- Once the flag is set, the wait can end, and it ends with the first connection. -/
theorem accept_returns {t : T} {i client : Fin n} (ha : (x.module.sockets i).accepted = some client)
    (hflag : (x.module.sockets i).syncFlags &&& eventRx ≠ 0#32) (ht : x.tasks t = .accepting i) :
    ∃ m endPoint, step x (.acceptWake t .success) = some (x.setAccept t i (acceptTurn m i)) ∧
      (acceptTurn m i).2 = .returns ⟨.success, some (client, endPoint)⟩ := by
  have hmask : (x.module.sockets i).syncFlags &&& acceptMask ≠ 0#32 := by
    intro hz
    apply hflag
    rw [show eventRx = acceptMask &&& eventRx from by decide, ← BitVec.and_assoc, hz]
    rfl
  have hacc := resetFlags_same (g := Socket.accepted) (fun _ _ => rfl) x.module i
    ((x.module.sockets i).syncFlags &&& acceptMask) i
  rw [ha] at hacc
  have hturn : ∃ endPoint, (acceptTurn
    (x.module.resetFlags i ((x.module.sockets i).syncFlags &&& acceptMask))
      i).2 = .returns ⟨.success, some (client, endPoint)⟩ := by
    simp only [acceptTurn, hacc]
    exact ⟨_, rfl⟩
  obtain ⟨endPoint, hret⟩ := hturn
  refine ⟨_, endPoint, ?_, hret⟩
  simp only [step, taskStep, ht, wakeOn, if_pos hmask, if_true, Option.map_some]

end Runs

/-- A task in Accept is woken as long as no connection is accepted for a socket it
waits on; such a connection is not announced to it. With the flag set, the wait would
end and return the first connection. -/
theorem accept_wakes :
    (∀ (pool : List PacketId) (x : System n k T),
      Lib.Reach step AcceptsUnawaited (System.initial n k T pool) x → AcceptWakes x) ∧
    (∀ (x y : System n k T) (i p : Fin n) (t : T), step x (.change i .accepted) = some y →
      (x.module.sockets i).isFree = false → (x.module.sockets i).parent = some p → p ≠ i →
      x.tasks t = .accepting p → (x.module.sockets p).syncFlags &&& eventRx = 0#32 →
        ¬ AcceptWakes y) ∧
    ∀ (x : System n k T) (t : T) (i client : Fin n), (x.module.sockets i).accepted = some client →
      (x.module.sockets i).syncFlags &&& eventRx ≠ 0#32 → x.tasks t = .accepting i →
      ∃ m endPoint, step x (.acceptWake t .success) = some (x.setAccept t i (acceptTurn m i)) ∧
        (acceptTurn m i).2 = .returns ⟨.success, some (client, endPoint)⟩ := by
  refine ⟨fun pool x hr => AwaitsNone.wakes ?_, fun _ _ _ _ _ hs => accepted_awaited hs,
    fun _ _ _ _ =>
    accept_returns⟩
  exact hr.invariant (fun _ _ ht => nomatch ht) fun _ _ _ h hok hs => awaitsNone_step h hok hs

/-- A connection that is accepted before the call is returned, and the next call
waits; one that is accepted during the wait is not announced. -/
theorem accept_wakes_first :
    (∃ x : System 2 1 Unit, x.tasks () = .accepting 0 ∧ AcceptWakes x) ∧
    (∃ x y : System 2 1 Unit, step x (.change 1 .accepted) = some y ∧ ¬ AcceptWakes y) ∧
    ∃ x : System 2 1 Unit, (acceptTurn x.module 0).2 = .returns ⟨.success, some (1, ⟨0#32, 0#16⟩)⟩ ∧
      ∃ m, step x (.acceptWake () .success) = some (x.setAccept () 0 (acceptTurn m 0)) := by
  obtain ⟨hruns, hlost, hreturns⟩ := accept_wakes (n := 2) (k := 1) (T := Unit)
  refine ⟨?_, ?_, ?_⟩
  · obtain ⟨x, hr, hx⟩ := Lib.exists_of_runInputs step AcceptsUnawaited (System.initial 2 1 Unit [])
      (listening ++ [.change 1 .accepted, .accept () 0#32, .accept () 0#32])
      (fun x => x.tasks () = .accepting 0) (by decide)
    exact ⟨x, of_decide_eq_true hx, hruns [] x hr⟩
  · obtain ⟨x, -, hx⟩ := Lib.exists_of_runInputs step AcceptsUnawaited (System.initial 2 1 Unit [])
      (listening ++ [.accept () 0#32])
      (fun x => (step x (.change 1 .accepted)).isSome ∧ (x.module.sockets 1).isFree = false ∧
        (x.module.sockets 1).parent = some 0 ∧ x.tasks () = .accepting 0 ∧
        (x.module.sockets 0).syncFlags &&& eventRx = 0#32) (by decide)
    obtain ⟨hs, hfree, hp, ht, hflag⟩ := of_decide_eq_true hx
    obtain ⟨y, hy⟩ := Option.isSome_iff_exists.mp hs
    exact ⟨x, y, hy, hlost x y 1 0 () hy hfree hp (by decide) ht hflag⟩
  · let x : System 2 1 Unit := { System.initial 2 1 Unit [] with
      module := (Module.init : Module 2 1).modify 0 fun s =>
        { s with accepted := some 1, syncFlags := eventRx }
      tasks := fun _ => .accepting 0 }
    obtain ⟨m, -, hs, -⟩ := hreturns x () 0 1 rfl (by decide) rfl
    exact ⟨x, rfl, m, hs⟩

/-- A connection is accepted while a task waits in Accept: its list is not empty and
the flag is not set. -/
theorem accepted_unnoticed : ¬ ∀ (pool : List PacketId) (x : System 2 1 Unit),
    Lib.Reach step Lib.anyStep (System.initial 2 1 Unit pool) x → AcceptWakes x := by
  intro hall
  obtain ⟨x, hr, hx⟩ := Lib.exists_of_runInputs step Lib.anyStep (System.initial 2 1 Unit [])
    (listening ++ [.accept () 0#32, .change 1 .accepted])
    (fun x => x.tasks () = .accepting 0 ∧ (x.module.sockets 0).accepted ≠ none ∧
      (x.module.sockets 0).syncFlags &&& eventRx = 0#32) (by decide)
  obtain ⟨ht, ha, hflag⟩ := of_decide_eq_true hx
  exact hall [] x hr () 0 ht ha hflag

end NanoIp.Sockets
