import NanoIp.Sockets.Effects
import Mathlib.Data.Fintype.Basic

/-!
# Concurrent polls

No entry of the poll array is ever marked as taken, so that every call takes the first
one. A run in which no call starts while another one waits keeps the calls apart, and
an event on a polled socket wakes its call.
-/
namespace NanoIp.Sockets

variable {n k : Nat} {T : Type}

/-- A task in the wait of `NANO_IP_SOCKET_Poll`. -/
def Activity.isPolling : Activity n k → Bool
  | .polling _ _ => true
  | _ => false

/-- The task that goes through a section of `NANO_IP_SOCKET_Poll`. -/
def Input.poller : Input n T → Option T
  | .poll t _ _ | .pollWake t _ _ => some t
  | _ => none

/-- A call that takes an entry of the poll array. -/
def Input.startsPoll : Input n T → Bool
  | .poll _ _ ds => !ds.isEmpty
  | _ => false

/-- No call takes an entry while another call waits. -/
def PollsAlone (x : System n k T) (input : Input n T) : Prop :=
  input.startsPoll = true → ∀ t, (x.tasks t).isPolling = false

instance [Fintype T] (x : System n k T) (input : Input n T) : Decidable (PollsAlone x input) :=
  inferInstanceAs (Decidable (_ → ∀ _ : T, _))

/-- The sockets that a task polls. -/
def System.pollsOf (x : System n k T) (t : T) (i : Fin n) : Bool :=
  match x.tasks t with
  | .polling _ ds => ds.any fun d => x.module.get d.socketId = some i
  | _ => false

/-- What is seen of the calls beside a run: the sockets each call polls, as long as
they are not released, and whether an event came to one of them since the wait began. -/
structure Watch (n : Nat) (T : Type) where
  polled : T → Fin n → Bool
  event : T → Bool

variable [DecidableEq T]

def Watch.see (w : Watch n T) (x : System n k T) (input : Input n T) (y : System n k T) :
    Watch n T where
  polled t i := if input.poller = some t then y.pollsOf t i else w.polled t i &&
    !(y.module.sockets i).isFree
  event t :=
    if input.poller = some t then false
    else w.event t || (x.calls input).any fun i => w.polled t i && !(y.module.sockets i).isFree

def Watch.start : Watch n T := ⟨fun _ _ => false, fun _ => false⟩

/-- The calls in progress use different entries, there are not more of them than
entries, and an event on a socket of a call lets its wait end. -/
structure PollsApart (x : System n k T) (w : Watch n T) : Prop where
  distinct : ∀ t t' q q' ds ds', x.tasks t = .polling q ds → x.tasks t' = .polling q' ds' →
    t ≠ t' → q ≠ q'
  admitted : ∀ l : List T, l.Nodup → (∀ t ∈ l, (x.tasks t).isPolling = true) → l.length ≤ k
  wakes : ∀ t handleIsReady, w.event t = true →
    (step x (.pollWake t handleIsReady .success)).isSome = true

section Callbacks

variable {m : Module n k} {i : Fin n}

theorem notified_flags {q : Fin k} (hq : (m.sockets i).poll = some q)
    (hi : ((if (m.sockets i).isFree then m else notifyPoll m i).sockets i).isFree = false) :
    ((if (m.sockets i).isFree then m else notifyPoll m i).polls q).syncFlags ≠ 0#32 := by
  rw [notified_sockets] at hi
  rw [if_neg (by rw [hi]; decide)]
  exact notifyPoll_flags m i hq

/-- An event without a new client: something that keeps the pointers to poll objects,
and the notification. -/
theorem tcpCallback_poll {event : Tcp.Event} (he : event ≠ .accepting)
    (hi : (m.sockets i).isFree = false) (packet : Option RxPacket) (ret : Err) :
    ∃ m', Same Socket.poll m m' ∧
      (tcpCallback m i event packet ret).1 = if (m'.sockets i).isFree then m' else
        notifyPoll m' i := by
  unfold tcpCallback
  rw [if_neg (by rw [hi]; decide)]
  cases event with
  | accepting => exact absurd rfl he
  | rx =>
    cases packet with
    | none => exact ⟨m, Same.refl _ m, rfl⟩
    | some p => exact ⟨queuePacket m i p, queuePacket_same (fun _ _ => rfl)
        (fun _ _ => rfl) m i p, rfl⟩
  | tx | connected => exact ⟨m.setFlags i eventTx, setFlags_same (fun _ _ => rfl) m i eventTx, rfl⟩
  | txFailed | connectTimeout | error =>
    exact ⟨m.setFlags i eventError, setFlags_same (fun _ _ => rfl) m i eventError, rfl⟩
  | accepted =>
    exact ⟨onAccepted m i,
      onAccepted_same (fun _ _ => rfl) (fun _ _ => rfl) (fun _ _ => rfl) (fun _ _ => rfl) m i, rfl⟩
  | acceptFailed =>
    exact ⟨onAcceptFailed m i,
      onAcceptFailed_same (fun _ _ => rfl) (fun _ _ => rfl) (fun _ => rfl)
        (fun _ _ => rfl) m i, rfl⟩
  | closed => exact ⟨onClosed m i, onClosed_same (fun _ _ => rfl) (fun _ _ => rfl) m i, rfl⟩

/-- Events keep the pointers to poll objects and signal the one of an allocated socket. -/
theorem callbacks_poll (i : Fin n) : ∀ (es : List (Tcp.Event × Option RxPacket)) (m : Module n k),
    (∀ e ∈ es, e.1 ≠ .accepting) → Same Socket.poll m (callbacks i es m) ∧
      ∀ q, es ≠ [] → (m.sockets i).poll = some q → ((callbacks i es m).sockets i).isFree = false →
        ((callbacks i es m).polls q).syncFlags ≠ 0#32 := by
  intro es
  induction es with
  | nil => exact fun m _ => ⟨Same.refl _ m, fun _ h => absurd rfl h⟩
  | cons e es ih =>
    intro m hes
    obtain ⟨event, packet⟩ := e
    have hrest := fun e he => hes e (List.mem_cons_of_mem _ he)
    rw [callbacks]
    by_cases hi : (m.sockets i).isFree = true
    · rw [tcpCallback_free hi, callbacks_free hi]
      exact ⟨Same.refl _ m, fun _ _ _ hf => absurd (hi.symm.trans hf) (by decide)⟩
    · obtain ⟨m', hs, he⟩ := tcpCallback_poll (hes _ List.mem_cons_self) (Bool.eq_false_iff.mpr hi)
        packet .success
      rw [he]
      have hfirst : Same Socket.poll m (if (m'.sockets i).isFree then m' else notifyPoll m' i) :=
        hs.trans (notified_same _ m' i)
      obtain ⟨hlater, -⟩ := ih (if (m'.sockets i).isFree then m' else notifyPoll m' i) hrest
      refine ⟨hfirst.trans hlater, fun q _ hq hf => ?_⟩
      refine (callbacks_beside i es _).flags q (notified_flags ((hs i).trans hq) ?_)
      by_contra hfree
      rw [Bool.not_eq_false] at hfree
      rw [callbacks_free hfree] at hf
      exact absurd (hfree.symm.trans hf) (by decide)

theorem udpCallback_poll (hi : (m.sockets i).isFree = false) (event : UdpEvent)
    (packet : Option RxPacket) :
    Same Socket.poll m (udpCallback m i event packet) ∧
      ∀ q, (m.sockets i).poll = some q →
        ((udpCallback m i event packet).polls q).syncFlags ≠ 0#32 := by
  have hstep : ∃ m', Same Socket.poll m m' ∧ udpCallback m i event packet = notifyPoll m' i := by
    unfold udpCallback
    rw [if_neg (by rw [hi]; decide)]
    refine ⟨_, ?_, rfl⟩
    cases event with
    | rx =>
      cases packet with
      | none => exact Same.refl _ m
      | some p => exact queuePacket_same (fun _ _ => rfl) (fun _ _ => rfl) m i p
    | tx => exact Same.ite (setFlags_same (fun _ _ => rfl) m i eventTx) (Same.refl _ m)
    | txFailed | error => exact setFlags_same (fun _ _ => rfl) m i eventError
  obtain ⟨m', hs, he⟩ := hstep
  rw [he]
  exact ⟨hs.trans (Same.of_sockets (notifyPoll_sockets m' i)), fun q hq =>
    notifyPoll_flags m' i ((hs i).trans hq)⟩

theorem requestCallback_poll (hi : (m.sockets i).isFree = false) {sent : Bool}
    (hcall : ¬ ((m.sockets i).type = .tcp ∧ sent = true ∧ (m.sockets i).tcp.state ≠ .established))
    {q : Fin k} (hq : (m.sockets i).poll = some q)
    (hf : ((requestCallback m i sent).sockets i).isFree = false) :
    ((requestCallback m i sent).polls q).syncFlags ≠ 0#32 := by
  have htcp {event : Tcp.Event} (he : event ≠ .accepting)
      (hf : ((tcpCallback m i event none .success).1.sockets i).isFree = false) :
      ((tcpCallback m i event none .success).1.polls q).syncFlags ≠ 0#32 := by
    obtain ⟨m', hs, he⟩ := tcpCallback_poll he hi none .success
    rw [he] at hf ⊢
    exact notified_flags ((hs i).trans hq) hf
  unfold requestCallback at hf ⊢
  cases ht : (m.sockets i).type with
  | udp => exact (udpCallback_poll hi _ none).2 q hq
  | tcp =>
    simp only [ht] at hf ⊢
    split_ifs at hf ⊢ with hsent hest
    · exact htcp (by decide) hf
    · exact absurd ⟨ht, hsent, hest⟩ hcall
    · exact htcp (by decide) hf

theorem changeConnection_poll (m : Module n k) (i : Fin n) (c : Change) :
    Same Socket.poll m (changeConnection m i c) ∧
      ∀ q, c.events ≠ [] → (m.sockets i).poll = some q →
        ((changeConnection m i c).sockets i).isFree = false →
        ((changeConnection m i c).polls q).syncFlags ≠ 0#32 := by
  have hset : Same Socket.poll m (m.setState i c.state) :=
    setState_same (fun _ _ => rfl) m i c.state
  have hevents : ∀ e ∈ c.events, e.1 ≠ .accepting := by
    cases c with
    | closed again => cases again <;> simp [Change.events]
    | _ => simp [Change.events]
  obtain ⟨hs, hn⟩ := callbacks_poll i c.events (m.setState i c.state) hevents
  exact ⟨hset.trans hs, fun q hne hq hf => hn q hne ((hset i).trans hq) hf⟩

theorem allocate_poll (m : Module n k) (type : SocketType) (ret : Err) {j : Fin n}
    (hj : (m.sockets j).isFree = false) :
    ((allocate m type ret).1.sockets j).poll = (m.sockets j).poll := by
  rcases allocate_cases m type ret with he | ⟨c, flags, hc, he⟩
  · rw [he]
  · rw [he, Module.modify_of_ne]
    rintro rfl
    exact absurd (hj.symm.trans hc) (by decide)

theorem onAccepting_poll (m : Module n k) (i : Fin n) (ret : Err) {j : Fin n}
    (hj : (m.sockets j).isFree = false) :
    ((onAccepting m i ret).1.sockets j).poll = (m.sockets j).poll := by
  have hallocate := allocate_poll m .tcp ret hj
  rcases onAccepting_cases m i ret with he | ⟨e, m', ha, he⟩ | ⟨-, client, m', ha, he⟩
  · rw [he]
  · rw [he, ← hallocate, ha]
  · rw [he, ← hallocate, ha]
    exact adopt_same (g := Socket.poll) (fun _ _ => rfl) (fun _ _ => rfl)
      (fun _ _ => rfl) (fun _ _ => rfl)
      m' i client j

/-- A SYN keeps the pointers of the allocated sockets and signals the listening one. -/
theorem acceptConnection_poll (m : Module n k) (i : Fin n) (peer : Endpoint) (ret : Err)
    (answered : Bool) :
    (∀ j, (m.sockets j).isFree = false →
      ((acceptConnection m i peer ret answered).sockets j).poll = (m.sockets j).poll) ∧
    ∀ q, (m.sockets i).isFree = false → (m.sockets i).poll = some q →
      ((acceptConnection m i peer ret answered).sockets i).isFree = false →
      ((acceptConnection m i peer ret answered).polls q).syncFlags ≠ 0#32 := by
  have hcall : ∀ j, (m.sockets j).isFree = false →
      ((tcpCallback m i .accepting none ret).1.sockets j).poll = (m.sockets j).poll := by
    intro j hj
    by_cases hi : (m.sockets i).isFree = true
    · rw [tcpCallback_free hi]
    · unfold tcpCallback
      rw [if_neg hi]
      exact (notified_same Socket.poll _ i j).trans (onAccepting_poll m i ret hj)
  have hflags : ∀ q, (m.sockets i).isFree = false → (m.sockets i).poll = some q →
      ((tcpCallback m i .accepting none ret).1.sockets i).isFree = false →
      ((tcpCallback m i .accepting none ret).1.polls q).syncFlags ≠ 0#32 := by
    intro q hi hq
    unfold tcpCallback
    rw [if_neg (by rw [hi]; decide)]
    exact notified_flags ((onAccepting_poll m i ret hi).trans hq)
  unfold acceptConnection
  cases hr : tcpCallback m i .accepting none ret with
  | mk m' client =>
    rw [hr] at hcall hflags
    cases client with
    | none => exact ⟨hcall, hflags⟩
    | some client =>
      have hs : Same (fun s => (s.isFree, s.poll)) m' (m'.modify client fun s => { s with
          tcp := ⟨if answered then .synReceived else s.tcp.state, peer⟩ }) :=
        (Same.refl _ m').modify (by rfl)
      refine ⟨fun j hj => (congrArg Prod.snd (hs j)).trans (hcall j hj), fun q hi hq hf => ?_⟩
      exact hflags q hi hq ((congrArg Prod.fst (hs i)).symm.trans hf)

end Callbacks

section Turns

variable {m : Module n k} {q : Fin k}

theorem get_same {m m' : Module n k} (hs : Same Socket.isFree m m') (socketId : BitVec 32) :
    m'.get socketId = m.get socketId := by
  have hfree : ∀ i, (m'.sockets i).isFree = (m.sockets i).isFree := hs
  unfold Module.get
  simp only [hfree]

theorem pollSocket_poll (m : Module n k) (q : Fin k) (i : Fin n) (handleIsReady : Err)
    (d : PollData) {j : Fin n} (hj : j = i ∨ (m.sockets j).poll = some q) :
    ((pollSocket m q i handleIsReady d).1.sockets j).poll = some q := by
  unfold pollSocket
  dsimp only
  rw [Module.modify_sockets]
  split_ifs with hji
  · rfl
  · exact (resetFlags_same (g := Socket.poll) (fun _ _ => rfl) m i _ j).trans (hj.resolve_left hji)

theorem pollSockets_keeps (q : Fin k) (handleIsReady : Fin n → Err) {j : Fin n}
    (ds : List PollData) :
    ∀ m : Module n k, (m.sockets j).poll = some q →
      ((pollSockets m q handleIsReady ds).1.sockets j).poll = some q := by
  induction ds with
  | nil => exact fun m hj => hj
  | cons d ds ih =>
    intro m hj
    unfold pollSockets
    cases m.get d.socketId with
    | none => exact hj
    | some i => exact ih _ (pollSocket_poll m q i _ d (.inr hj))

/-- Behind a complete round every socket of the call points to its poll object. -/
theorem pollSockets_points (q : Fin k) (handleIsReady : Fin n → Err) (ds : List PollData) :
    ∀ m : Module n k, (pollSockets m q handleIsReady ds).2.2.2 = .success →
      ∀ d ∈ (pollSockets m q handleIsReady ds).2.1, ∀ i, m.get d.socketId = some i →
        ((pollSockets m q handleIsReady ds).1.sockets i).poll = some q := by
  induction ds with
  | nil => exact fun m _ d hd => nomatch hd
  | cons d ds ih =>
    intro m hret
    unfold pollSockets at hret ⊢
    cases hi : m.get d.socketId with
    | none =>
      rw [hi] at hret
      cases hret
    | some i =>
      simp only [hi] at hret ⊢
      intro d' hd' j hj
      have hsame := pollSocket_same (g := Socket.isFree) (fun _ _ => rfl) (fun _ _ => rfl) m q i
        (handleIsReady i) d
      rcases List.mem_cons.mp hd' with rfl | hd'
      · obtain rfl : j = i := Option.some.inj (hj.symm.trans hi)
        exact pollSockets_keeps q handleIsReady ds _ (pollSocket_poll m q j _ d (.inl rfl))
      · exact ih _ hret d' hd' j (by rw [get_same hsame]; exact hj)

theorem pollTurn_waits {handleIsReady : Fin n → Err} {ds ds' : List PollData} {q' : Fin k}
    {m' : Module n k} (h : pollTurn m q handleIsReady ds = (m', .waits q' ds')) :
    ∀ d ∈ ds', ∀ i, m'.get d.socketId = some i → (m'.sockets i).poll = some q' := by
  simp only [pollTurn] at h
  split_ifs at h with hc
  · rw [Prod.mk.injEq, Polled.waits.injEq] at h
    obtain ⟨rfl, rfl, rfl⟩ := h
    intro d hd i hi
    refine pollSockets_points q handleIsReady ds m hc.1 d hd i ?_
    have hsame := pollSockets_same (g := Socket.isFree) (fun _ _ => rfl) (fun _ _ => rfl) q
      handleIsReady ds m
    rw [← get_same hsame]
    exact hi
  · cases (Prod.mk.inj h).2

theorem poll_waits {handleIsReady : Fin n → Err} {ds ds' : List PollData} {q' : Fin k}
    {m' : Module n k} (h : poll m handleIsReady ds = (m', .waits q' ds')) :
    ∀ d ∈ ds', ∀ i, m'.get d.socketId = some i → (m'.sockets i).poll = some q' := by
  unfold poll at h
  split_ifs at h with hds
  · cases (Prod.mk.inj h).2
  · cases hq : m.freePoll with
    | none =>
      rw [hq] at h
      cases (Prod.mk.inj h).2
    | some q =>
      rw [hq] at h
      exact pollTurn_waits h

theorem pollWake_waits {handleIsReady : Fin n → Err} {ds ds' : List PollData} {ret : Err}
    {q' : Fin k} {m' : Module n k} (h : pollWake m q handleIsReady ds ret = (m', .waits q' ds')) :
    ∀ d ∈ ds', ∀ i, m'.get d.socketId = some i → (m'.sockets i).poll = some q' := by
  unfold pollWake at h
  split_ifs at h
  · exact pollTurn_waits h
  · cases (Prod.mk.inj h).2

end Turns

/-- What a step does that goes through no section of `NANO_IP_SOCKET_Poll`. -/
structure Leaves (x : System n k T) (input : Input n T) (y : System n k T) : Prop where
  tasks : ∀ t q ds, y.tasks t = .polling q ds ↔ x.tasks t = .polling q ds
  pointers : ∀ i, (x.module.sockets i).isFree = false → (y.module.sockets i).poll =
    (x.module.sockets i).poll
  flags : ∀ q, (x.module.polls q).syncFlags ≠ 0#32 → (y.module.polls q).syncFlags ≠ 0#32
  notifies : ∀ i q, x.calls input = some i → (x.module.sockets i).isFree = false →
    (x.module.sockets i).poll = some q → (y.module.sockets i).isFree = false →
    (y.module.polls q).syncFlags ≠ 0#32

section Steps

variable {x y : System n k T} {input : Input n T}

omit [DecidableEq T] in
theorem Leaves.quiet {m : Module n k} (hm : y.module.sockets = m.sockets ∧ y.module.polls = m.polls)
    (htasks : ∀ t q ds, y.tasks t = .polling q ds ↔ x.tasks t = .polling q ds)
    (hpointers : ∀ i, (x.module.sockets i).isFree = false → (m.sockets i).poll =
      (x.module.sockets i).poll)
    (hflags : ∀ q, (x.module.polls q).syncFlags ≠ 0#32 → (m.polls q).syncFlags ≠ 0#32)
    (hcalls : x.calls input = none) : Leaves x input y := by
  refine ⟨htasks, fun i hi => ?_, fun q hq => ?_, fun i q hc => ?_⟩
  · rw [hm.1]
    exact hpointers i hi
  · rw [hm.2]
    exact hflags q hq
  · rw [hcalls] at hc
    cases hc

omit [DecidableEq T] in
theorem takePacket_some {z : System n k T} {p : RxPacket} (hz : x.takePacket p = some z) :
    z.module = x.module ∧ z.tasks = x.tasks := by
  unfold System.takePacket at hz
  split_ifs at hz
  obtain rfl := Option.some.inj hz
  exact ⟨rfl, rfl⟩

/-- A section of Accept leaves the calls of the others alone. -/
theorem setAccept_polling {t : T} (ht : (x.tasks t).isPolling = false) (i : Fin n)
    (r : Module n k × Pass (Accepted n)) (t' : T) (q : Fin k) (ds : List PollData) :
    (x.setAccept t i r).tasks t' = .polling q ds ↔ x.tasks t' = .polling q ds := by
  have htask : ∃ a : Activity n k, a.isPolling = false ∧
      (x.setAccept t i r).tasks = Function.update x.tasks t a := by
    obtain ⟨m, p⟩ := r
    cases p with
    | returns a => exact ⟨.idle, rfl, rfl⟩
    | waits => exact ⟨.accepting i, rfl, rfl⟩
  obtain ⟨a, ha, he⟩ := htask
  rw [he]
  by_cases htt : t' = t
  · subst htt
    rw [Function.update_self]
    constructor
    · rintro rfl
      cases ha
    · intro hx
      rw [hx] at ht
      cases ht
  · rw [Function.update_of_ne htt]

omit [DecidableEq T] in
theorem Leaves.call {m : Module n k}
    (hpointers : ∀ i, (x.module.sockets i).isFree = false → (m.sockets i).poll =
      (x.module.sockets i).poll)
    (hflags : ∀ q, (x.module.polls q).syncFlags ≠ 0#32 → (m.polls q).syncFlags ≠ 0#32)
    (hcalls : x.calls input = none) : Leaves x input (x.put m) :=
  Leaves.quiet ⟨rfl, rfl⟩ (fun _ _ _ => Iff.rfl) hpointers hflags hcalls

omit [DecidableEq T] in
theorem leaves_release (socketId : BitVec 32) (fin : Bool) (i : Fin n) :
    Leaves x (.release socketId fin) (x.release i fin) := by
  have hsame : Same Socket.poll x.module
    (releaseSocket (cancelRequest x.module x.requests i) i).1 :=
    (cancelRequest_same (fun _ _ => rfl) _ _ i).trans (releaseSocket_same (fun _ => rfl) _ i)
  refine Leaves.quiet ⟨x.release_sockets i fin, x.release_polls i fin⟩ (fun t q ds => ?_)
    (fun j _ => hsame j)
    ((cancelRequest_beside _ i _).trans (releaseSocket_beside _ i)).flags rfl
  rw [x.release_tasks]

theorem leaves_accept {t : T} {socketId : BitVec 32} {i : Fin n} (ht : x.tasks t = .idle)
    (hi : x.module.get socketId = some i) :
    Leaves x (.accept t socketId) (x.setAccept t i (accept x.module socketId)) := by
  have hsame : Same Socket.poll x.module (accept x.module socketId).1 := by
    unfold Sockets.accept
    rw [hi]
    dsimp only
    split_ifs
    · exact acceptTurn_same (fun _ _ => rfl) (fun _ _ => rfl) (fun _ _ => rfl) _ i
    · exact Same.refl _ _
  exact Leaves.quiet ⟨x.setAccept_sockets t i _, x.setAccept_polls t i _⟩
    (setAccept_polling (by rw [ht]; rfl) i _) (fun j _ => hsame j)
      (accept_beside _ socketId).flags rfl

theorem leaves_acceptWake {t : T} {ret : Err} {i : Fin n} {m : Module n k}
    (ht : x.tasks t = .accepting i) (hm : wakeOn x.module i acceptMask ret = some m) :
    Leaves x (.acceptWake t ret) (x.setAccept t i (acceptTurn m i)) := by
  have hsame : Same Socket.poll x.module (acceptTurn m i).1 :=
    (wakeOn_same (fun _ _ => rfl) hm).trans (acceptTurn_same (fun _ _ => rfl)
      (fun _ _ => rfl) (fun _ _ => rfl) m i)
  exact Leaves.quiet ⟨x.setAccept_sockets t i _, x.setAccept_polls t i _⟩
    (setAccept_polling (by rw [ht]; rfl) i _) (fun j _ => hsame j)
    ((wakeOn_beside hm).trans (acceptTurn_beside m i)).flags rfl

omit [DecidableEq T] in
theorem leaves_arpResponse (i : Fin n) (sent : Bool) :
    Leaves x (.arpResponse i sent) { x.put (requestCallback x.module i sent) with
      requests := Function.update x.requests i false } := by
  refine ⟨fun _ _ _ => Iff.rfl, fun j _ => requestCallback_same (g := Socket.poll)
    (fun _ _ => rfl) _ i sent j,
    (requestCallback_beside _ i sent).flags, fun j q hc hi hq hf => ?_⟩
  simp only [System.calls] at hc
  split_ifs at hc with hcall
  obtain rfl := Option.some.inj hc
  exact requestCallback_poll hi hcall hq hf

omit [DecidableEq T] in
theorem leaves_datagram {i : Fin n} {p : RxPacket} {z : System n k T}
    (hz : x.takePacket p = some z) :
    Leaves x (.datagram i p) (z.put (udpCallback x.module i .rx (some p))) := by
  obtain ⟨-, htasks⟩ := takePacket_some hz
  refine ⟨fun t q ds => ?_, fun j _ => udpReceive_same (g := Socket.poll)
    (fun _ _ => rfl) (fun _ _ => rfl) _ i p j,
    (udpCallback_beside _ i .rx (some p)).flags, fun j q hc hi hq _ => ?_⟩
  · show z.tasks t = _ ↔ _
    rw [htasks]
  · obtain rfl := Option.some.inj hc
    exact (udpCallback_poll hi .rx (some p)).2 q hq

omit [DecidableEq T] in
theorem leaves_accepting (i : Fin n) (peer : Endpoint) (ret : Err) (answered : Bool) :
    Leaves x (.accepting i peer ret answered)
      (x.put (acceptConnection x.module i peer ret answered)) := by
  obtain ⟨hpointers, hnotifies⟩ := acceptConnection_poll x.module i peer ret answered
  refine ⟨fun _ _ _ => Iff.rfl, hpointers, (acceptConnection_beside _ i peer ret answered).flags,
    fun j q hc hi hq hf => ?_⟩
  obtain rfl := Option.some.inj hc
  exact hnotifies q hi hq hf

omit [DecidableEq T] in
theorem leaves_data {i : Fin n} {p : RxPacket} {z : System n k T} (hz : x.takePacket p = some z) :
    Leaves x (.change i (.data p)) (z.put (changeConnection x.module i (.data p))) := by
  obtain ⟨-, htasks⟩ := takePacket_some hz
  obtain ⟨hsame, hnotifies⟩ := changeConnection_poll x.module i (.data p)
  refine ⟨fun t q ds => ?_, fun j _ => hsame j, (changeConnection_beside _ i _).flags,
    fun j q hc hi hq hf => ?_⟩
  · show z.tasks t = _ ↔ _
    rw [htasks]
  · obtain rfl := Option.some.inj hc
    exact hnotifies q (fun h => by cases h) hq hf

omit [DecidableEq T] in
theorem leaves_change (i : Fin n) (c : Change) :
    Leaves x (.change i c) (x.put (changeConnection x.module i c)) := by
  obtain ⟨hsame, hnotifies⟩ := changeConnection_poll x.module i c
  refine ⟨fun _ _ _ => Iff.rfl, fun j _ => hsame j, (changeConnection_beside _ i _).flags,
    fun j q hcall hi hq hf => ?_⟩
  simp only [System.calls] at hcall
  split_ifs at hcall with hevents
  obtain rfl := Option.some.inj hcall
  exact hnotifies q (by simpa using hevents) hq hf

/-- What the other steps leave of the waiting calls. -/
theorem leaves_step (hs : Move x input y) (hp : input.poller = none) : Leaves x input y := by
  cases hs with
  | allocate type ret =>
    exact Leaves.call (fun i hi => allocate_poll _ type ret hi)
      (allocate_beside _ type ret).flags rfl
  | bindUdp socketId ret i hi ht =>
    exact Leaves.quiet ⟨rfl, rfl⟩ (fun _ _ _ => Iff.rfl)
      (fun j _ => bindUdp_same (fun _ _ => rfl) _ _ _ j)
      (bindUdp_beside _ socketId ret).flags rfl
  | setNonBlocking socketId nonBlocking =>
    exact Leaves.call (fun j _ => setNonBlocking_same (fun _ _ => rfl) _ _ _ j)
      (setNonBlocking_beside _ socketId nonBlocking).flags rfl
  | release socketId fin i hi => exact leaves_release socketId fin i
  | listen socketId max =>
    exact Leaves.call (fun j _ => listen_same (fun _ _ => rfl) (fun _ _ => rfl) _ _ _ j)
      (listen_beside _ socketId max).flags rfl
  | connect socketId endPoint ret =>
    exact Leaves.call (fun j _ => connect_same (fun _ _ => rfl) (fun _ _ => rfl) _ _ _ _ j)
      (connect_beside _ socketId endPoint ret).flags rfl
  | receiveFrom socketId size =>
    exact Leaves.call (fun j _ => receiveFrom_same (fun _ _ => rfl) _ _ _ j)
      (fun q hq => by rwa [receiveFrom_polls]) rfl
  | receiveWake i size ret active =>
    exact Leaves.call (fun j _ => receiveWake_same (fun _ _ => rfl) _ _ _ _ _ j)
      (fun q hq => by rwa [receiveWake_polls]) rfl
  | takeFlags i mask =>
    exact Leaves.call (fun j _ => resetFlags_same (g := Socket.poll) (fun _ _ => rfl) _ i mask j)
      (fun _ hq => hq) rfl
  | accept t socketId i ht hi => exact leaves_accept ht hi
  | acceptWake t ret i m ht hm => exact leaves_acceptWake ht hm
  | poll t handleIsReady ds ht => cases hp
  | pollWake t handleIsReady ret q ds m ht hm => cases hp
  | request i hi =>
    exact Leaves.quiet (m := x.module) ⟨rfl, rfl⟩ (fun _ _ _ => Iff.rfl)
      (fun _ _ => rfl) (fun _ hq => hq) rfl
  | arpResponse i sent hr => exact leaves_arpResponse i sent
  | datagram i p z hl hz => exact leaves_datagram hz
  | accepting i peer ret answered ht hst => exact leaves_accepting i peer ret answered
  | data i p z ht hst hz => exact leaves_data hz
  | change i c ht hc hd => exact leaves_change i c

theorem setPoll_tasks {t : T} (r : Module n k × Polled k) {t' : T} (hne : t' ≠ t) :
    (x.setPoll t r).tasks t' = x.tasks t' := by
  obtain ⟨m, p⟩ := r
  cases p <;> exact Function.update_of_ne hne _ _

end Steps

/-- At most one call waits, its sockets point to its poll object, and behind an event
this object is signalled. -/
structure OnePoller (x : System n k T) (w : Watch n T) : Prop where
  one : ∀ t t', (x.tasks t).isPolling = true → (x.tasks t').isPolling = true → t = t'
  polled : ∀ t i, w.polled t i = true → (x.module.sockets i).isFree = false ∧
    ∃ q ds, x.tasks t = .polling q ds ∧ (x.module.sockets i).poll = some q
  event : ∀ t, w.event t = true → ∃ q ds, x.tasks t = .polling q ds ∧
    (x.module.polls q).syncFlags ≠ 0#32

namespace OnePoller

variable {x y : System n k T} {w : Watch n T} {input : Input n T}

theorem leave (h : OnePoller x w) (hl : Leaves x input y) (hp : input.poller = none) :
    OnePoller y (w.see x input y) := by
  have hpolling (t : T) (ht : (y.tasks t).isPolling = true) : (x.tasks t).isPolling = true := by
    cases hy : y.tasks t with
    | polling q ds => rw [(hl.tasks t q ds).mp hy]; rfl
    | idle | accepting => rw [hy] at ht; cases ht
  have hnone (t : T) : input.poller ≠ some t := by
    rw [hp]
    nofun
  refine ⟨fun t t' ht ht' => h.one t t' (hpolling t ht) (hpolling t' ht'), fun t i hw => ?_,
    fun t hw => ?_⟩
  · simp only [Watch.see, if_neg (hnone t), Bool.and_eq_true, Bool.not_eq_true'] at hw
    obtain ⟨hi, q, ds, ht, hq⟩ := h.polled t i hw.1
    exact ⟨hw.2, q, ds, (hl.tasks t q ds).mpr ht, (hl.pointers i hi).trans hq⟩
  · simp only [Watch.see, if_neg (hnone t), Bool.or_eq_true] at hw
    rcases hw with hw | hw
    · obtain ⟨q, ds, ht, hq⟩ := h.event t hw
      exact ⟨q, ds, (hl.tasks t q ds).mpr ht, hl.flags q hq⟩
    · obtain ⟨i, hi, hwi⟩ := (Option.any_eq_true _ _).mp hw
      simp only [Bool.and_eq_true, Bool.not_eq_true'] at hwi
      obtain ⟨hf, q, ds, ht, hq⟩ := h.polled t i hwi.1
      exact ⟨q, ds, (hl.tasks t q ds).mpr ht, hl.notifies i q hi hf hq hwi.2⟩

/-- A section of the only call in progress. -/
theorem turn (h : OnePoller x w) {t : T} {r : Module n k × Polled k} (hp : input.poller = some t)
    (hother : ∀ t', t' ≠ t → (x.tasks t').isPolling = false)
    (hwaits : ∀ m' q ds, r = (m', .waits q ds) →
      ∀ d ∈ ds, ∀ i, m'.get d.socketId = some i → (m'.sockets i).poll = some q) :
    OnePoller (x.setPoll t r) (w.see x input (x.setPoll t r)) := by
  have honly (t' : T) (ht' : ((x.setPoll t r).tasks t').isPolling = true) : t' = t := by
    by_contra hne
    rw [setPoll_tasks r hne, hother t' hne] at ht'
    cases ht'
  have hquiet (t' : T) (hne : t' ≠ t) : (∀ i, w.polled t' i = false) ∧ w.event t' = false := by
    constructor
    · intro i
      rw [← Bool.not_eq_true]
      intro hw
      obtain ⟨-, q, ds, ht, -⟩ := h.polled t' i hw
      have hfalse := hother t' hne
      rw [ht] at hfalse
      cases hfalse
    · rw [← Bool.not_eq_true]
      intro hw
      obtain ⟨q, ds, ht, -⟩ := h.event t' hw
      have hfalse := hother t' hne
      rw [ht] at hfalse
      cases hfalse
  refine ⟨fun t' t'' ht' ht'' => (honly t' ht').trans (honly t'' ht'').symm, fun t' i hw => ?_,
    fun t' hw => ?_⟩
  · by_cases hne : t' = t
    · subst hne
      simp only [Watch.see, hp, if_true] at hw
      obtain ⟨m, p⟩ := r
      cases p with
      | returns ret ds count =>
        rw [System.pollsOf, show (x.setPoll t' (m, .returns ret ds count)).tasks t' = .idle from
          Function.update_self _ _ _] at hw
        cases hw
      | waits q ds =>
        have htask : (x.setPoll t' (m, .waits q ds)).tasks t' = .polling q ds :=
          Function.update_self _ _ _
        rw [System.pollsOf, htask] at hw
        obtain ⟨d, hd, hi⟩ := List.any_eq_true.mp hw
        have hget : m.get d.socketId = some i := of_decide_eq_true hi
        exact ⟨(Module.get_some hget).2, q, ds, htask, hwaits m q ds rfl d hd i hget⟩
    · simp only [Watch.see, hp, Option.some.injEq, if_neg (Ne.symm hne), (hquiet t' hne).1,
        Bool.false_and] at hw
      cases hw
  · by_cases hne : t' = t
    · subst hne
      simp only [Watch.see, hp, if_true] at hw
      cases hw
    · simp only [Watch.see, hp, Option.some.injEq, if_neg (Ne.symm hne), (hquiet t' hne).1,
        (hquiet t' hne).2,
        Bool.false_and, Bool.false_or] at hw
      cases hc : x.calls input <;> simp [hc] at hw

/-- A call without sockets is refused. -/
theorem refused (h : OnePoller x w) {t : T} (ht : x.tasks t = .idle) (handleIsReady : Fin n → Err) :
    OnePoller (x.setPoll t (poll x.module handleIsReady []))
      (w.see x (.poll t handleIsReady []) (x.setPoll t (poll x.module handleIsReady []))) := by
  have htasks : (x.setPoll t (poll x.module handleIsReady [])).tasks = x.tasks := by
    show Function.update x.tasks t .idle = x.tasks
    rw [← ht, Function.update_eq_self]
  refine ⟨fun t' t'' ht' ht'' => ?_, fun t' i hw => ?_, fun t' hw => ?_⟩
  · rw [htasks] at ht' ht''
    exact h.one t' t'' ht' ht''
  · by_cases hne : t' = t
    · subst hne
      simp [Watch.see, Input.poller, System.pollsOf, htasks, ht] at hw
    · simp only [Watch.see, Input.poller, Option.some.injEq, if_neg (Ne.symm hne),
        Bool.and_eq_true] at hw
      rw [htasks]
      exact h.polled t' i hw.1
  · by_cases hne : t' = t
    · subst hne
      simp [Watch.see, Input.poller] at hw
    · simp only [Watch.see, Input.poller, Option.some.injEq, if_neg (Ne.symm hne), System.calls,
        Option.any_none,
        Bool.or_false] at hw
      rw [htasks]
      exact h.event t' hw

theorem step (h : OnePoller x w) (hok : PollsAlone x input) (hs : step x input = some y) :
    OnePoller y (w.see x input y) := by
  have hmove := step_move hs
  cases hp : input.poller with
  | none => exact h.leave (leaves_step hmove hp) hp
  | some t =>
    cases hmove with
    | poll t' handleIsReady ds ht =>
      obtain rfl := Option.some.inj hp
      by_cases hds : ds = []
      · subst hds
        exact h.refused ht handleIsReady
      · have halone := hok (by simpa [Input.startsPoll] using hds)
        exact h.turn rfl (fun t' _ => halone t') fun _ _ _ hw => poll_waits hw
    | pollWake t' handleIsReady ret q ds m ht hm =>
      obtain rfl := Option.some.inj hp
      refine h.turn rfl (fun t'' hne => ?_) fun _ _ _ hw => pollWake_waits hw
      rw [← Bool.not_eq_true]
      intro hpolling
      exact hne (h.one t'' t' hpolling (by rw [ht]; rfl))
    | _ => cases hp

theorem apart (h : OnePoller x w) : PollsApart x w where
  distinct t t' q q' ds ds' ht ht' hne :=
    absurd (h.one t t' (by rw [ht]; rfl) (by rw [ht']; rfl)) hne
  admitted l hnodup hl := by
    cases l with
    | nil => exact Nat.zero_le k
    | cons t l =>
      have hrest : l = [] := by
        rw [List.eq_nil_iff_forall_not_mem]
        intro t' ht'
        have heq := h.one t t' (hl t List.mem_cons_self) (hl t' (List.mem_cons_of_mem t ht'))
        exact (List.nodup_cons.mp hnodup).1 (heq ▸ ht')
      have hpolling := hl t List.mem_cons_self
      cases ht : x.tasks t with
      | polling q ds =>
        rw [hrest]
        exact q.pos
      | idle | accepting => rw [ht] at hpolling; cases hpolling
  wakes t handleIsReady hw := by
    obtain ⟨q, ds, ht, hq⟩ := h.event t hw
    simp only [Sockets.step, taskStep, ht, wakePoll, if_pos hq, if_true, Option.map_some,
      Option.isSome_some]

end OnePoller

/-- The calls are kept apart in every run in which none starts while another one waits: a call that
starts takes an entry that no other call uses. -/
theorem polls_apart (pool : List PacketId) (z : System n k T × Watch n T)
    (hr : Lib.Reach (Lib.observe step Watch.see) (fun z input => PollsAlone z.1 input)
      (System.initial n k T pool, Watch.start) z) :
    PollsApart z.1 z.2 ∧ ∀ t handleIsReady ds, ds ≠ [] → PollsAlone z.1 (.poll t handleIsReady ds) →
      ∀ q, z.1.module.freePoll = some q → ∀ t' ds', z.1.tasks t' ≠ .polling q ds' := by
  have hinit : OnePoller (System.initial n k T pool) Watch.start :=
    ⟨fun _ _ ht => (nomatch ht), fun _ _ hw => (nomatch hw), fun _ hw => (nomatch hw)⟩
  have h : OnePoller z.1 z.2 := by
    refine hr.invariant (I := fun z => OnePoller z.1 z.2) hinit fun s input s' h hok hs => ?_
    obtain ⟨hstep, hsee⟩ := Lib.observe_some.mp hs
    rw [hsee]
    exact h.step hok hstep
  refine ⟨h.apart, fun t handleIsReady ds hds hok q _ t' ds' ht' => ?_⟩
  have hfalse := hok (by simpa [Input.startsPoll] using hds) t'
  rw [ht'] at hfalse
  cases hfalse

/-- A call waits, and an event on its socket ends the wait. -/
theorem polls_apart_waiting : ∃ z : System 1 2 Bool × Watch 1 Bool, PollsApart z.1 z.2 ∧
    z.1.tasks true = .polling 0 [⟨0#32, pollIn, 0#16⟩] ∧ z.2.event true = true := by
  obtain ⟨z, hr, hz⟩ := Lib.exists_of_runInputs (Lib.observe step Watch.see)
    (fun z input => PollsAlone z.1 input)
    (System.initial 1 2 Bool [7], Watch.start)
    [.allocate .udp .success, .bindUdp 0#32 .success, .takeFlags ⟨0, Nat.one_pos⟩ eventAll,
      .poll true (fun _ => .success) [⟨0#32, pollIn, 0#16⟩],
      .datagram ⟨0, Nat.one_pos⟩ ⟨7, ⟨fun _ => 0#8, 42, 4#16, 4#16, 0#32, none⟩⟩]
    (fun z => z.1.tasks true = .polling 0 [⟨0#32, pollIn, 0#16⟩] ∧ z.2.event true =
      true) (by decide)
  exact ⟨z, (polls_apart [7] z hr).1, of_decide_eq_true hz⟩

/-- Two calls wait on the same one of two entries. -/
theorem poll_entry_shared : ¬ ∀ (pool : List PacketId) (z : System 2 2 Bool × Watch 2 Bool),
    Lib.Reach (Lib.observe step Watch.see) Lib.anyStep
      (System.initial 2 2 Bool pool, Watch.start) z →
      PollsApart z.1 z.2 := by
  intro hall
  obtain ⟨z, hr, hz⟩ := Lib.exists_of_runInputs (Lib.observe step Watch.see) Lib.anyStep
    (System.initial 2 2 Bool [], Watch.start)
    [.allocate .udp .success, .allocate .udp .success,
      .poll true (fun _ => .success) [⟨0#32, pollIn, 0#16⟩],
        .poll false (fun _ => .success) [⟨1#32, pollIn, 0#16⟩]]
    (fun z => z.1.tasks true = .polling 0 [⟨0#32, pollIn, 0#16⟩] ∧
      z.1.tasks false = .polling 0 [⟨1#32, pollIn, 0#16⟩]) (by decide)
  obtain ⟨ht, ht'⟩ := of_decide_eq_true hz
  exact (hall [] z hr).distinct true false 0 0 _ _ ht ht' nofun rfl

end NanoIp.Sockets
