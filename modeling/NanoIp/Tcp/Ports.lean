import NanoIp.Tcp.Listed

/-!
# The automatic port

`next_free_local_port` starts as the pool's start plus a reading of the counter, and each try
of `NANO_IP_TCP_Open` moves it on by another reading. Nothing else of the module writes it.
-/
namespace NanoIp.Tcp

variable {n : Nat}

/-- The port `NANO_IP_TCP_Init` starts with. -/
def initialPort (time : Nat) : BitVec 16 := portPoolStart + (BitVec.ofNat 32 time).truncate 16

/-- `TCP_PORT_POOL_START..65535`. -/
def InPool (port : BitVec 16) : Prop := portPoolStart ≤ port

instance (port : BitVec 16) : Decidable (InPool port) :=
  inferInstanceAs (Decidable (portPoolStart ≤ port))

section Frame

variable (m : Stack n) (a : Fin n) (seg : Segment) (lower : Lower)

theorem finalizeAndSendPacket_localPort (flags : Byte) (pid : PacketId) :
    (finalizeAndSendPacket m a flags pid lower).1.nextFreeLocalPort = m.nextFreeLocalPort := by
  unfold finalizeAndSendPacket recordHanded
  dsimp only
  split <;> rfl

theorem sendControlFrame_localPort (flags : Byte) :
    (sendControlFrame m a flags lower).1.nextFreeLocalPort = m.nextFreeLocalPort := by
  rcases sendControlFrame_cases m a flags lower with ⟨e, -, he⟩ | ⟨pid, hp, m', ret, hf, he⟩
  · rw [he]
  · have hsent := finalizeAndSendPacket_localPort (allocatePacket m (.ok pid) 0#16).1 a
      lower flags pid
    rw [hf, allocatePacket] at hsent
    simp only [if_neg hp] at hsent
    rw [he]
    dsimp only
    split <;> exact hsent

theorem bind_localPort (address : Ipv4Address) (port : BitVec 16) :
    (bind m a address port).1.nextFreeLocalPort = m.nextFreeLocalPort := by
  unfold bind
  split_ifs <;> rfl

theorem connect_localPort (address : Ipv4Address) (port : BitVec 16) :
    (connect m a address port lower).1.nextFreeLocalPort = m.nextFreeLocalPort := by
  unfold connect
  dsimp only
  split_ifs
  · exact sendControlFrame_localPort _ _ _ _
  · exact sendControlFrame_localPort _ _ _ _
  · rfl

theorem sendFin_localPort : (sendFin m a lower).nextFreeLocalPort = m.nextFreeLocalPort := by
  unfold sendFin
  dsimp only
  split_ifs
  · exact sendControlFrame_localPort _ _ _ _
  · exact sendControlFrame_localPort _ _ _ _
  · rfl

theorem close_localPort : (close m a lower).1.nextFreeLocalPort = m.nextFreeLocalPort := by
  unfold close
  dsimp only
  split_ifs
  · exact sendFin_localPort m a lower
  · exact sendFin_localPort m a lower

theorem sendPacket_localPort (pid : PacketId) :
    (sendPacket m a pid lower).1.nextFreeLocalPort = m.nextFreeLocalPort := by
  unfold sendPacket
  dsimp only
  split_ifs
  · rfl
  · exact finalizeAndSendPacket_localPort _ _ _ _ _
  · exact finalizeAndSendPacket_localPort _ _ _ _ _
  · rfl

theorem finWaitFin_localPort :
    (finWaitFin m a seg lower).1.nextFreeLocalPort = m.nextFreeLocalPort := by
  unfold finWaitFin
  dsimp only
  split_ifs
  · exact sendControlFrame_localPort _ _ _ _
  · exact sendControlFrame_localPort _ _ _ _

theorem rxSynSent_localPort :
    (rxSynSent m a seg lower).1.nextFreeLocalPort = m.nextFreeLocalPort := by
  unfold rxSynSent
  dsimp only
  split_ifs
  · exact sendControlFrame_localPort _ _ _ _
  · exact sendControlFrame_localPort _ _ _ _
  · rfl

theorem releaseLastTx_localPort : (releaseLastTx m a).nextFreeLocalPort = m.nextFreeLocalPort := by
  unfold releaseLastTx
  cases (m.mem a).lastTxPacket <;> rfl

theorem rxEstablished_localPort :
    (rxEstablished m a seg lower).1.nextFreeLocalPort = m.nextFreeLocalPort := by
  unfold rxEstablished rxData rxFin
  dsimp only
  split_ifs
  · exact sendControlFrame_localPort _ _ _ _
  · exact sendControlFrame_localPort _ _ _ _
  · rfl
  · exact releaseLastTx_localPort m a
  · exact sendControlFrame_localPort _ _ _ _
  · exact sendControlFrame_localPort _ _ _ _
  · rfl

theorem rxStateMachine_localPort :
    (rxStateMachine m a seg lower).1.nextFreeLocalPort = m.nextFreeLocalPort := by
  unfold rxStateMachine
  cases (m.mem a).state with
  | synSent => exact rxSynSent_localPort m a seg lower
  | established => exact rxEstablished_localPort m a seg lower
  | finWait1 =>
    dsimp only
    split_ifs
    · rfl
    · exact finWaitFin_localPort m a seg lower
    · rfl
  | finWait2 =>
    dsimp only
    split_ifs
    · exact finWaitFin_localPort m a seg lower
    · rfl
  | listen | synReceived | closeWait =>
    dsimp only
    split_ifs <;> rfl
  | closing | lastAck | timeWait => exact sendControlFrame_localPort _ _ _ _
  | idle | closed => rfl

theorem rxAcknowledge_localPort :
    (rxAcknowledge m a seg lower).1.nextFreeLocalPort = m.nextFreeLocalPort := by
  unfold rxAcknowledge
  split_ifs
  · exact rxStateMachine_localPort m a seg lower
  · exact sendControlFrame_localPort _ _ _ _
  · rfl

theorem rxFrame_localPort : (rxFrame m seg lower).1.nextFreeLocalPort = m.nextFreeLocalPort := by
  unfold rxFrame rxHandle
  cases lookup m seg with
  | none => rfl
  | some h =>
    dsimp only
    split_ifs
    · rfl
    · exact rxAcknowledge_localPort m h seg lower

theorem rxAccept_localPort (accept : Option (Fin n)) :
    (rxAccept m a seg accept lower).1.nextFreeLocalPort = m.nextFreeLocalPort := by
  unfold rxAccept
  cases accept with
  | none => rfl
  | some b =>
    dsimp only
    split_ifs
    · exact sendControlFrame_localPort _ _ _ _
    · exact sendControlFrame_localPort _ _ _ _
    · rfl

theorem ipv4ErrorCallback_localPort (error : Err) :
    (ipv4ErrorCallback m a error).1.nextFreeLocalPort = m.nextFreeLocalPort := by
  unfold ipv4ErrorCallback
  split_ifs <;> rfl

theorem arpResponse_localPort (mac : Option MacAddress) (driver : Err) :
    (arpResponse m a mac driver).1.nextFreeLocalPort = m.nextFreeLocalPort := by
  unfold arpResponse recordHanded
  split
  · rw [ipv4ErrorCallback_localPort]
    split <;> rfl
  · rw [ipv4ErrorCallback_localPort]
    rfl
  · rfl

theorem resendPacket_localPort (pid : PacketId) :
    (resendPacket m a pid lower).nextFreeLocalPort = m.nextFreeLocalPort := by
  unfold resendPacket recordHanded
  dsimp only
  split <;> rfl

theorem retryPacket_localPort (pid : PacketId) (timestamp : BitVec 32) :
    (retryPacket m a pid timestamp lower).1.nextFreeLocalPort = m.nextFreeLocalPort := by
  unfold retryPacket
  dsimp only
  split_ifs
  · exact releaseLastTx_localPort _ a
  · exact resendPacket_localPort _ a lower pid

theorem visit_localPort (timestamp : BitVec 32) :
    (visit m a timestamp lower).1.nextFreeLocalPort = m.nextFreeLocalPort := by
  unfold visit
  cases (m.mem a).state with
  | established =>
    cases (m.mem a).lastTxPacket with
    | none => rfl
    | some pid =>
      dsimp only
      split_ifs
      · exact retryPacket_localPort m a lower pid timestamp
      · rfl
  | synSent | synReceived | closeWait | finWait1 | finWait2 | timeWait =>
    dsimp only
    split_ifs <;> rfl
  | closed | listen | closing | lastAck | idle => rfl

theorem resume_localPort {m : Stack n} {release : Bool} {accept : Option (Fin n)} {pc : Pc n}
    {y : Stack n × Pc n} (hs : resume m release accept lower pc = some y) :
    y.1.nextFreeLocalPort = m.nextFreeLocalPort := by
  cases pc with
  | inReset h seg =>
    obtain rfl := Option.some.inj hs
    exact rxAcknowledge_localPort m h seg.1 lower
  | inAccepting h seg =>
    obtain rfl := Option.some.inj hs
    exact rxAccept_localPort m h seg lower accept
  | inRx seg =>
    obtain rfl := Option.some.inj hs
    dsimp only
    split <;> rfl
  | inCallback | inTick | inTxFailed =>
    obtain rfl := Option.some.inj hs
    rfl
  | ready | tick => cases hs

theorem finishOpen_localPort (ret : Err) :
    (finishOpen m a ret).1.nextFreeLocalPort = m.nextFreeLocalPort := by
  unfold finishOpen
  split_ifs <;> rfl

end Frame

section Open

variable {m m' : Stack n} {a : Fin n} {ret : Err}

/-- Every reading that the port loop takes leaves the next port in the pool. -/
def StaysInPool (m : Stack n) (a : Fin n) : List Nat → Prop
  | [] => True
  | ms :: readings =>
    let m' := nextPort ((bind m a 0#32 m.nextFreeLocalPort).1.wait ms)
    InPool m'.nextFreeLocalPort ∧ ((m'.mem a).port = 0#16 → StaysInPool m' a readings)

@[simp] theorem nextPort_mem (m : Stack n) : (nextPort m).mem = m.mem := rfl

theorem openLoop_retry (ms : Nat) (hb : bind m a 0#32 m.nextFreeLocalPort = (m', ret))
    (hr : ret ≠ .success) :
    (nextPort (m'.wait ms)).mem = m.mem ∧ (nextPort (m'.wait ms)).handles = m.handles := by
  rcases bind_cases hb with ⟨hok, -⟩ | ⟨-, rfl⟩
  · exact absurd hok hr
  · exact ⟨rfl, rfl⟩

theorem addressInUse_congr (hm : m'.mem = m.mem) (hh : m'.handles = m.handles)
    (address : Ipv4Address) (port : BitVec 16) :
    addressInUse m' address port = addressInUse m address port := by
  rw [addressInUse, addressInUse, Stack.registered, Stack.registered, hm, hh]

theorem bind_free {port : BitVec 16} (hb : bind m a 0#32 port = (m', .success)) :
    port ≠ 0#16 ∧ addressInUse m 0#32 port = false ∧
      m' = m.modify a fun k => { k with ipv4Address := 0#32, port := port } := by
  unfold bind at hb
  split_ifs at hb with hp hs hu
  · cases hb
  · cases hb
  · exact ⟨hp, Bool.eq_false_of_not_eq_true hu, (Prod.mk.inj hb).1.symm⟩
  · cases hb

/-- What the loop ends with: a port of the pool that nobody in the list is bound to, and a next
port of the pool. -/
theorem openLoop_pool (readings : List Nat) : ∀ {m : Stack n}, (m.mem a).port = 0#16 →
    InPool m.nextFreeLocalPort → StaysInPool m a readings → openLoop m a readings = some (m', ret) →
    InPool m'.nextFreeLocalPort ∧ InPool (m'.mem a).port ∧
      addressInUse m 0#32 (m'.mem a).port = false ∧
      ∀ k, k ≠ a → m'.mem k = m.mem k := by
  induction readings with
  | nil => intro m _ _ _ ho; cases ho
  | cons ms readings ih =>
    intro m hport hpool ⟨hnext, hrest⟩ ho
    rcases hb : bind m a 0#32 m.nextFreeLocalPort with ⟨m₁, r⟩
    rw [openLoop, hb] at ho
    rw [hb] at hnext hrest
    dsimp only at ho hnext hrest
    by_cases hr : r = .success
    · obtain ⟨hne, hfree, rfl⟩ := bind_free (hr ▸ hb)
      have hself : ((nextPort ((m.modify a fun k => { k with
          ipv4Address := 0#32, port := m.nextFreeLocalPort }).wait ms)).mem a).port =
            m.nextFreeLocalPort := by
        rw [nextPort_mem, Stack.wait_mem, Stack.modify_self]
      rw [hself, if_neg hne] at ho
      obtain ⟨rfl, -⟩ := Prod.mk.inj (Option.some.inj ho)
      rw [hself]
      refine ⟨hnext, hpool, hfree, fun k hk => ?_⟩
      rw [nextPort_mem, Stack.wait_mem, Stack.modify_of_ne _ _ hk]
    · obtain ⟨hmem, hhandles⟩ := openLoop_retry ms hb hr
      have hport' : ((nextPort (m₁.wait ms)).mem a).port = 0#16 := by rw [hmem, hport]
      rw [if_pos hport'] at ho
      obtain ⟨hnext', hport'', hfree, hother⟩ := ih hport' hnext (hrest hport') ho
      rw [addressInUse_congr hmem hhandles] at hfree
      refine ⟨hnext', hport'', hfree, fun k hk => ?_⟩
      rw [hother k hk, hmem]

end Open

/-- A handle as `NANO_IP_TCP_Open` binds it. -/
def Stack.unbound (m : Stack n) (a : Fin n) : Stack n :=
  m.modify a fun k => { k with state := .idle, port := 0#16 }

/-- The condition on a step: an automatic port is chosen with readings that stay in the pool. -/
def ReadsPool (x : Stack n × Pc n) : Input n → Prop
  | .open_ h localPort readings =>
    localPort = 0#16 → (x.1.mem h).state = .closed → StaysInPool (x.1.unbound h) h readings
  | _ => True

/-- The handle has a port of the pool that no other registered handle has for any address, and the
next port is one of the pool. -/
structure ChosenFromPool (m : Stack n) (a : Fin n) : Prop where
  chosen : InPool (m.mem a).port
  alone : ∀ k ∈ m.registered, k ≠ a →
    ¬ ((m.mem k).port = (m.mem a).port ∧ (m.mem k).ipv4Address = 0#32)
  next : InPool m.nextFreeLocalPort

section Run

variable {x y : Stack n × Pc n} {i : Input n} {a : Fin n}

theorem open_next {readings : List Nat} {r : Stack n × Err} (hpool : InPool x.1.nextFreeLocalPort)
    (hok : ReadsPool x (.open_ a 0#16 readings)) (ho : open_ x.1 a 0#16 readings = some r) :
    InPool r.1.nextFreeLocalPort := by
  unfold open_ at ho
  by_cases hs : (x.1.mem a).state = .closed
  · rw [if_pos hs] at ho
    dsimp only at ho
    rw [if_pos rfl] at ho
    obtain ⟨⟨m, ret⟩, hloop, rfl⟩ := Option.map_eq_some_iff.mp ho
    have hport : ((x.1.unbound a).mem a).port = 0#16 := by rw [Stack.unbound, Stack.modify_self]
    rw [finishOpen_localPort]
    exact (openLoop_pool readings hport hpool (hok rfl hs) hloop).1
  · rw [if_neg hs] at ho
    obtain rfl := Option.some.inj ho
    exact hpool

theorem open_chosen (ht : Tidy x.1) {readings : List Nat} {m' : Stack n}
    (hpool : InPool x.1.nextFreeLocalPort) (hok : ReadsPool x (.open_ a 0#16 readings))
    (ho : open_ x.1 a 0#16 readings = some (m', .success)) :
    ChosenFromPool m' a := by
  have hnext := open_next hpool hok ho
  have hreg := (open_registered ht ho).1
  unfold open_ at ho
  by_cases hs : (x.1.mem a).state = .closed
  · rw [if_pos hs] at ho
    dsimp only at ho
    rw [if_pos rfl] at ho
    obtain ⟨⟨m, ret⟩, hloop, hfin⟩ := Option.map_eq_some_iff.mp ho
    have hport : ((x.1.unbound a).mem a).port = 0#16 := by rw [Stack.unbound, Stack.modify_self]
    obtain ⟨-, hchosen, hfree, hother⟩ := openLoop_pool readings hport hpool (hok rfl hs) hloop
    have hret : ret = .success := by
      unfold finishOpen at hfin
      split_ifs at hfin with hr
      · exact hr
      · exact (Prod.mk.inj hfin).2
    rw [finishOpen, if_pos hret] at hfin
    obtain rfl := (Prod.mk.inj hfin).1
    have hself : ((m.modify a fun k => { k with state := .idle, next := m.handles }).mem a).port =
        (m.mem a).port := by
      rw [Stack.modify_self]
    refine ⟨?_, fun k hk hne hc => ?_, hnext⟩
    · change InPool ((m.modify a fun k => { k with state := .idle, next := m.handles }).mem a).port
      rw [hself]
      exact hchosen
    · rw [hreg] at hk
      have hin : k ∈ x.1.registered := (List.mem_cons.mp hk).resolve_left hne
      have hkeep : (x.1.unbound a).registered = x.1.registered := by
        refine congrArg (Lib.chain · n x.1.handles) (funext fun j => ?_)
        rw [Stack.unbound, Stack.modify_mem]
        split
        · next hj => rw [hj]
        · rfl
      have hk' : (m.modify a fun k => { k with state := .idle, next := m.handles }).mem k =
          x.1.mem k := by
        rw [Stack.modify_of_ne _ _ hne, hother k hne, Stack.unbound, Stack.modify_of_ne _ _ hne]
      change ((m.modify a fun k => { k with state := .idle, next := m.handles }).mem k).port =
        ((m.modify a fun k => { k with state := .idle, next := m.handles }).mem a).port ∧
        ((m.modify a fun k => { k with state := .idle, next := m.handles }).mem k).ipv4Address =
          0#32 at hc
      rw [hself, hk'] at hc
      rw [addressInUse, hkeep, List.any_eq_false] at hfree
      refine hfree k hin ?_
      rw [Stack.unbound, Stack.modify_of_ne _ _ hne]
      exact decide_eq_true hc
  · rw [if_neg hs] at ho
    cases ho

theorem open_fixed {m : Stack n} {localPort : BitVec 16} {readings : List Nat} {r : Stack n × Err}
    (hp : localPort ≠ 0#16) (ho : open_ m a localPort readings = some r) :
    r.1.nextFreeLocalPort = m.nextFreeLocalPort := by
  unfold open_ at ho
  by_cases hs : (m.mem a).state = .closed
  · rw [if_pos hs] at ho
    dsimp only at ho
    rw [if_neg hp] at ho
    obtain ⟨r', hr', rfl⟩ := Option.map_eq_some_iff.mp ho
    obtain rfl := Option.some.inj hr'
    rw [finishOpen_localPort, bind_localPort]
    rfl
  · rw [if_neg hs] at ho
    obtain rfl := Option.some.inj ho
    rfl

theorem call_inPool {m' : Stack n} (hpool : InPool x.1.nextFreeLocalPort) (hok : ReadsPool x i)
    (hc : call x.1 i = some m') : InPool m'.nextFreeLocalPort := by
  have hsame (he : m'.nextFreeLocalPort = x.1.nextFreeLocalPort) : InPool m'.nextFreeLocalPort :=
    he ▸ hpool
  cases i with
  | open_ h localPort readings =>
    obtain ⟨r, hr, rfl⟩ := Option.map_eq_some_iff.mp hc
    by_cases hp : localPort = 0#16
    · subst hp
      exact open_next hpool hok hr
    · exact hsame (open_fixed hp hr)
  | bind h address port =>
    obtain rfl := Option.some.inj hc
    exact hsame (bind_localPort x.1 h address port)
  | connect h address port lower =>
    obtain rfl := Option.some.inj hc
    exact hsame (connect_localPort x.1 h lower address port)
  | listen h =>
    obtain rfl := Option.some.inj hc
    refine hsame ?_
    unfold listen
    split_ifs <;> rfl
  | close h lower =>
    obtain rfl := Option.some.inj hc
    exact hsame (close_localPort x.1 h lower)
  | allocatePacket answer size =>
    obtain rfl := Option.some.inj hc
    refine hsame ?_
    unfold allocatePacket
    split
    · rfl
    · split <;> rfl
  | sendPacket h pid lower =>
    obtain rfl := Option.some.inj hc
    exact hsame (sendPacket_localPort x.1 h lower pid)
  | writePacket | releasePacket | elapse =>
    obtain rfl := Option.some.inj hc
    exact hpool
  | releaseHandle | rxFrame | arpResponse | periodicTask | visit | ret => cases hc

theorem inPool_step (hpool : InPool x.1.nextFreeLocalPort) (hok : ReadsPool x i)
    (hs : step x i = some y) :
    InPool y.1.nextFreeLocalPort := by
  have hsame (he : y.1.nextFreeLocalPort = x.1.nextFreeLocalPort) : InPool y.1.nextFreeLocalPort :=
    he ▸ hpool
  cases step_move hs with
  | rxFrame seg lower => exact hsame (rxFrame_localPort x.1 seg lower)
  | arpResponse h mac driver => exact hsame (arpResponse_localPort x.1 h mac driver)
  | periodicTask | visited => exact hpool
  | visit lower h timestamp => exact hsame (visit_localPort x.1 h lower timestamp)
  | ret release accept lower y hr => exact hsame (resume_localPort lower hr)
  | releaseHandle h pending =>
    refine hsame ?_
    unfold releaseHandle
    split_ifs
    · exact arpResponse_localPort x.1 h none .success
    · rfl
  | call i m hpc hc => exact call_inPool hpool hok hc

/-- In a run whose counter readings, that of the initialisation included, stay in the pool, the next
port is always one of the pool, and so is every port that is chosen. -/
theorem open_from_pool (packets : PacketId → Packet) {time : Nat} (h0 : InPool (initialPort time))
    (hr : Lib.Reach step ReadsPool (initial n packets (initialPort time) time) x) :
    InPool x.1.nextFreeLocalPort ∧ ∀ (h : Fin n) (readings : List Nat) (m' : Stack n),
      ReadsPool x (.open_ h 0#16 readings) → open_ x.1 h 0#16 readings = some (m', .success) →
      ChosenFromPool m' h := by
  have hinit : InPool (initial n packets (initialPort time) time).1.nextFreeLocalPort ∧
      Tidy (initial n packets (initialPort time) time).1 := ⟨h0, tidy_initial packets _ time⟩
  have hinv := hr.invariant (I := fun x => InPool x.1.nextFreeLocalPort ∧ Tidy x.1) hinit
    fun _ _ _ hi hok hs => ⟨inPool_step hi.1 hok hs, tidy_step hi.2 hs⟩
  exact ⟨hinv.1, fun h readings m' hok ho => open_chosen hinv.2 hinv.1 hok ho⟩

end Run

/-- Seven milliseconds after the start the first port is 10007. -/
theorem open_from_pool_first : ∃ m' : Stack 1,
    open_ (initial 1 (fun _ => blankPacket) (initialPort 7) 7).1 0 0#16 [5] = some (m', .success) ∧
      (m'.mem 0).port = 10007#16 ∧ m'.nextFreeLocalPort = 10019#16 ∧ ChosenFromPool m' 0 := by
  obtain ⟨⟨m', ret⟩, ho, hx⟩ := (Option.any_eq_true (fun r : Stack 1 × Err => decide
    (r.2 = .success ∧ (r.1.mem 0).port = 10007#16 ∧ r.1.nextFreeLocalPort = 10019#16))
    (open_ (initial 1 (fun _ => blankPacket) (initialPort 7) 7).1 0 0#16 [5])).mp (by decide)
  obtain ⟨hret, hport, hnext⟩ := of_decide_eq_true hx
  dsimp only at hret hport hnext
  subst hret
  have hok : ReadsPool (initial 1 (fun _ => blankPacket) (initialPort 7) 7) (.open_ 0 0#16 [5]) :=
    fun _ _ =>
    ⟨by decide, fun hz => absurd hz (by decide)⟩
  exact ⟨m', ho, hport, hnext, (open_from_pool _ (by decide) .refl).2 0 [5] m' hok ho⟩

/-- After a minute the sum of the pool's start and the counter wraps: the first port is 4464. -/
theorem first_port_wraps :
    ¬ ∀ (n : Nat) (packets : PacketId → Packet) (time : Nat) (x : Stack n × Pc n) (h : Fin n)
    (readings : List Nat) (m' : Stack n),
    Lib.Reach step Lib.anyStep (initial n packets (initialPort time) time) x →
    open_ x.1 h 0#16 readings = some (m', .success) → ChosenFromPool m' h := by
  intro hall
  obtain ⟨⟨m', ret⟩, ho, hx⟩ := (Option.any_eq_true (fun r : Stack 1 × Err => decide
    (r.2 = .success ∧ (r.1.mem 0).port = 4464#16))
    (open_ (initial 1 (fun _ => blankPacket) (initialPort 60000) 60000).1 0 0#16 [1])).mp
      (by decide)
  obtain ⟨hret, hport⟩ := of_decide_eq_true hx
  dsimp only at hret hport
  subst hret
  have hchosen := (hall 1 _ 60000 _ 0 [1] m' .refl ho).chosen
  rw [hport] at hchosen
  exact absurd hchosen (by decide)

end NanoIp.Tcp
