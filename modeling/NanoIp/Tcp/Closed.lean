import NanoIp.Tcp.Trace

/-!
# What the module's functions keep

Most of what the functions of the module do to the stack is to change connections, to raise
events and to send control frames. A predicate that these keep is kept by every step, but
for what the step does with a data packet: `Special` lists these cases.
-/
namespace NanoIp.Tcp

variable {n : Nat}

/-- The two states have the same packets, the same log, and each handle transmits the same. -/
structure SameTransmission (m m' : Stack n) : Prop where
  allocated : m'.allocated = m.allocated
  packets : m'.packets = m.packets
  log : m'.log = m.log
  ipv4Handle : ∀ k, (m'.mem k).ipv4Handle = (m.mem k).ipv4Handle
  lastTxPacket : ∀ k, (m'.mem k).lastTxPacket = (m.mem k).lastTxPacket

/-- The predicate is kept by what does not transmit, by events and by control frames. -/
structure Closed (P : Stack n → Prop) : Prop where
  same : ∀ {m m'}, P m → SameTransmission m m' → P m'
  raise : ∀ {m} (h : Fin n) (event : Event) (error : Err) (packet : Option Segment), P m →
    P (m.raise h event error packet)
  kept : ∀ {m} (seg : Segment), P m → P (m.record (.kept seg))
  control : ∀ {m} (h : Fin n) (flags : Byte) (lower : Lower), P m →
    P (sendControlFrame m h flags lower).1

/-- What a step does with data packets keeps the predicate. -/
structure Special (P : Stack n → Prop) (x : Stack n × Pc n) (i : Input n) : Prop where
  allocatePacket : ∀ answer size, i = .allocatePacket answer size →
    P (allocatePacket x.1 answer size).1
  writePacket : ∀ pid bs, i = .writePacket pid bs → P (writePacket x.1 pid bs)
  sendPacket : ∀ h pid lower, i = .sendPacket h pid lower → P (sendPacket x.1 h pid lower).1
  releasePacket : ∀ pid, i = .releasePacket pid → P (x.1.releasePacket pid)
  acked : ∀ h seg lower, Acknowledges x h i seg lower → (x.1.mem h).state = .established →
    seg.flags = flagAck →
    (x.1.mem h).lastTxPacket.isSome = true → P (releaseLastTx x.1 h)
  retry : ∀ h pid timestamp lower, Expires x i h pid timestamp lower →
    P (retryPacket x.1 h pid timestamp lower).1
  arpResponse : ∀ h mac driver, i = .arpResponse h mac driver ∨ i = .releaseHandle h true ∧
    mac = none →
    (x.1.mem h).ipv4Handle.busy = true → P (arpResponse x.1 h mac driver).1

namespace Closed

variable {P : Stack n → Prop} {m : Stack n} {a : Fin n} {seg : Segment} {lower : Lower}

theorem modify (hc : Closed P) (hm : P m) (f : Handle n → Handle n)
    (hf : ∀ k, (f k).ipv4Handle = k.ipv4Handle ∧ (f k).lastTxPacket = k.lastTxPacket) :
    P (m.modify a f) := by
  refine hc.same hm ⟨rfl, rfl, rfl, fun k => ?_, fun k => ?_⟩
  · rw [Stack.modify_mem]
    split
    · next hk => rw [hk, (hf _).1]
    · rfl
  · rw [Stack.modify_mem]
    split
    · next hk => rw [hk, (hf _).2]
    · rfl

theorem setState (hc : Closed P) (hm : P m) (s : State) : P (m.setState a s) :=
  hc.modify hm _ fun _ => ⟨rfl, rfl⟩

theorem startTimeout (hc : Closed P) (hm : P m) : P (m.startTimeout a) :=
  hc.modify hm _ fun _ => ⟨rfl, rfl⟩

theorem removeHandle (hc : Closed P) (hm : P m) : P (m.removeHandle a) :=
  hc.same hm ⟨rfl, rfl, rfl, fun _ => rfl, fun _ => rfl⟩

theorem bind (hc : Closed P) (hm : P m) (address : Ipv4Address) (port : BitVec 16) :
    P (bind m a address port).1 := by
  unfold NanoIp.Tcp.bind
  split_ifs
  · exact hm
  · exact hm
  · exact hc.modify hm (fun k => { k with ipv4Address := address, port := port }) fun _ =>
      ⟨rfl, rfl⟩
  · exact hm

theorem openLoop (hc : Closed P) (readings : List Nat) :
    ∀ {m m' : Stack n} {ret : Err}, P m → openLoop m a readings = some (m', ret) → P m' := by
  induction readings with
  | nil => intro m m' ret _ ho; cases ho
  | cons ms readings ih =>
    intro m m' ret hm ho
    have hbind : P (nextPort ((NanoIp.Tcp.bind m a 0#32 m.nextFreeLocalPort).1.wait ms)) :=
      hc.same (hc.bind (a := a) hm 0#32 m.nextFreeLocalPort)
        ⟨rfl, rfl, rfl, fun _ => rfl, fun _ => rfl⟩
    rw [NanoIp.Tcp.openLoop] at ho
    dsimp only at ho
    split_ifs at ho
    · exact ih hbind ho
    · obtain ⟨rfl, -⟩ := Prod.mk.inj (Option.some.inj ho)
      exact hbind

theorem finishOpen (hc : Closed P) (hm : P m) (ret : Err) : P (finishOpen m a ret).1 := by
  unfold NanoIp.Tcp.finishOpen
  split_ifs
  · have hmod : P (m.modify a fun k => { k with state := .idle, next := m.handles }) :=
      hc.modify hm _ fun _ => ⟨rfl, rfl⟩
    exact hc.same hmod ⟨rfl, rfl, rfl, fun _ => rfl, fun _ => rfl⟩
  · exact hc.setState hm _

theorem open_ (hc : Closed P) (hm : P m) {localPort : BitVec 16} {readings : List Nat}
    {r : Stack n × Err} (ho : open_ m a localPort readings = some r) : P r.1 := by
  have hidle : P (m.modify a fun k => { k with state := .idle, port := 0#16 }) :=
    hc.modify hm _ fun _ => ⟨rfl, rfl⟩
  unfold NanoIp.Tcp.open_ at ho
  split_ifs at ho
  · dsimp only at ho
    obtain ⟨⟨m', ret⟩, hloop, rfl⟩ := Option.map_eq_some_iff.mp ho
    exact hc.finishOpen (hc.openLoop readings hidle hloop) ret
  · obtain ⟨r', hr', rfl⟩ := Option.map_eq_some_iff.mp ho
    obtain rfl := Option.some.inj hr'
    exact hc.finishOpen (hc.bind hidle 0#32 localPort) _
  · obtain rfl := Option.some.inj ho
    exact hm

theorem connect (hc : Closed P) (hm : P m) (address : Ipv4Address) (port : BitVec 16)
    (lower : Lower) :
    P (connect m a address port lower).1 := by
  unfold NanoIp.Tcp.connect
  split_ifs
  · have hsent := hc.control a flagSyn lower (hc.modify (a := a) hm (fun k => { k with
      destIpv4Address := address, destPort := port, seqNumber := m.msCounter }) fun _ => ⟨rfl, rfl⟩)
    dsimp only
    split_ifs
    · exact hc.startTimeout (hc.modify hsent (fun k =>
        { k with state := .synSent, seqNumber := k.seqNumber + 1#32 })
        fun _ => ⟨rfl, rfl⟩)
    · exact hsent
  · exact hm

theorem listen (hc : Closed P) (hm : P m) : P (listen m a).1 := by
  unfold NanoIp.Tcp.listen
  split_ifs
  · exact hc.setState hm _
  · exact hm

theorem close (hc : Closed P) (hm : P m) (lower : Lower) : P (close m a lower).1 := by
  have hfin : P (sendFin m a lower) := by
    have hsent := hc.control a (flagFin ||| flagAck) lower hm
    unfold sendFin
    dsimp only
    split_ifs
    · exact hc.startTimeout (hc.modify hsent (fun k =>
        { k with state := .finWait1, seqNumber := k.seqNumber + 1#32 })
        fun _ => ⟨rfl, rfl⟩)
    · exact hsent
    · exact hm
  unfold NanoIp.Tcp.close
  dsimp only
  split_ifs
  · exact hc.removeHandle (hc.setState hfin _)
  · exact hfin

theorem resetConnection (hc : Closed P) (hm : P m) : P (resetConnection m a lower).1 :=
  hc.raise _ _ _ _ (hc.removeHandle (hc.control a flagRst lower (hc.setState hm .closed)))

theorem acknowledge (hc : Closed P) (hm : P m) (ack : BitVec 32) (flags : Byte) (lower : Lower) :
    P (sendControlFrame (m.modify a fun k => { k with ackNumber := ack }) a flags lower).1 :=
  hc.control a flags lower (hc.modify hm (fun k => { k with ackNumber := ack }) fun _ => ⟨rfl, rfl⟩)

theorem finWaitFin (hc : Closed P) (hm : P m) : P (finWaitFin m a seg lower).1 := by
  have hsent := hc.acknowledge (a := a) hm (seg.seqNumber + 1#32) flagAck lower
  unfold NanoIp.Tcp.finWaitFin
  dsimp only
  split_ifs
  · exact hc.startTimeout (hc.setState hsent _)
  · exact hsent

theorem rxSynSent (hc : Closed P) (hm : P m) : P (rxSynSent m a seg lower).1 := by
  have hsent := hc.acknowledge (a := a) hm (seg.seqNumber + 1#32) flagAck lower
  unfold NanoIp.Tcp.rxSynSent
  dsimp only
  split_ifs
  · exact hc.raise _ _ _ _ (hc.setState hsent _)
  · exact hsent
  · exact hm

theorem rxEstablished (hc : Closed P) (hm : P m)
    (hacked : seg.flags = flagAck → (m.mem a).lastTxPacket.isSome = true → P (releaseLastTx m a)) :
    P (rxEstablished m a seg lower).1 := by
  have hdata := hc.acknowledge (a := a) hm seg.nextSeq flagAck lower
  have hfin := hc.acknowledge (a := a) hm (seg.seqNumber + 1#32) (flagFin ||| flagAck) lower
  unfold NanoIp.Tcp.rxEstablished rxData rxFin
  dsimp only
  split_ifs with _ _ _ hack
  · exact hc.raise _ _ _ _ hdata
  · exact hdata
  · exact hm
  · exact hc.raise _ _ _ _ (hacked hack.2 hack.1)
  · exact hc.startTimeout (hc.modify hfin (fun k =>
      { k with state := .closeWait, seqNumber := k.seqNumber + 1#32 })
      fun _ => ⟨rfl, rfl⟩)
  · exact hfin
  · exact hm

theorem rxStateMachine (hc : Closed P) (hm : P m)
    (hacked : (m.mem a).state = .established → seg.flags = flagAck → (m.mem a).lastTxPacket.isSome =
      true → P (releaseLastTx m a)) : P (rxStateMachine m a seg lower).1 := by
  unfold NanoIp.Tcp.rxStateMachine
  cases hs : (m.mem a).state with
  | listen =>
    dsimp only
    split_ifs
    · exact hc.raise _ _ _ _ hm
    · exact hm
  | synReceived =>
    dsimp only
    split_ifs
    · exact hc.raise _ _ _ _ (hc.setState hm _)
    · exact hm
  | synSent => exact hc.rxSynSent hm
  | established => exact hc.rxEstablished hm (hacked hs)
  | closeWait =>
    dsimp only
    split_ifs
    · exact hc.raise _ _ _ _ (hc.removeHandle (hc.setState hm _))
    · exact hm
  | finWait1 =>
    dsimp only
    split_ifs
    · exact hc.startTimeout (hc.setState hm _)
    · exact hc.finWaitFin hm
    · exact hm
  | finWait2 =>
    dsimp only
    split_ifs
    · exact hc.finWaitFin hm
    · exact hm
  | idle | closed => exact hm
  | closing | lastAck | timeWait => exact hc.resetConnection hm

theorem rxAcknowledge (hc : Closed P) (hm : P m) (hacked : seg.ackNumber = (m.mem a).seqNumber →
    (m.mem a).state = .established → seg.flags = flagAck → (m.mem a).lastTxPacket.isSome = true →
      P (releaseLastTx m a)) : P (rxAcknowledge m a seg lower).1 := by
  unfold NanoIp.Tcp.rxAcknowledge
  split_ifs with hack
  · refine hc.rxStateMachine hm fun hs => hacked ?_ hs
    rcases hack with hl | hack
    · rw [hs] at hl
      cases hl
    · exact hack
  · exact hc.resetConnection hm
  · exact hm

theorem rxAccept (hc : Closed P) {l : Fin n} (hm : P m) (accept : Option (Fin n)) :
    P (rxAccept m l seg accept lower).1 := by
  unfold NanoIp.Tcp.rxAccept
  cases accept with
  | none => exact hm
  | some a =>
    have hpeer := hc.modify (a := a) hm (fun k => { k with
      ipv4Address := seg.destAddress, port := seg.destPort
      destIpv4Address := seg.srcAddress, destPort := seg.srcPort }) fun _ => ⟨rfl, rfl⟩
    have hnumber := hc.modify (a := l) hpeer (fun k => { k with seqNumber := m.msCounter }) fun _ =>
      ⟨rfl, rfl⟩
    have hsent := hc.acknowledge (a := a) hnumber (seg.seqNumber + 1#32) (flagSyn ||| flagAck) lower
    dsimp only
    split_ifs
    · exact hc.startTimeout (hc.modify hsent
        (fun k => { k with state := .synReceived, seqNumber := k.seqNumber + 1#32 }) fun _ =>
          ⟨rfl, rfl⟩)
    · exact hsent
    · exact hc.raise _ _ _ _ hm

theorem visit (hc : Closed P) (hm : P m) (timestamp : BitVec 32)
    (hretry : ∀ pid, (m.mem a).state = .established → (m.mem a).lastTxPacket = some pid →
      (m.mem a).stateTimeout ≤ timestamp → P (retryPacket m a pid timestamp lower).1) :
    P (visit m a timestamp lower).1 := by
  have habort (event : Event) (error : Stack n → Err) : P (abortConnection m a event error) :=
    hc.raise _ _ _ _ (hc.removeHandle (hc.setState hm .closed))
  unfold NanoIp.Tcp.visit
  cases hs : (m.mem a).state with
  | synSent | synReceived | closeWait | finWait1 | finWait2 | timeWait =>
    dsimp only
    split_ifs
    · dsimp only
      exact habort _ _
    · exact hm
  | established =>
    cases hl : (m.mem a).lastTxPacket with
    | none => exact hm
    | some pid =>
      dsimp only
      split_ifs with he
      · exact hretry pid hs hl he
      · exact hm
  | closed | listen | closing | lastAck | idle => exact hm

section Steps

variable {x y : Stack n × Pc n} {i : Input n}

theorem rxFrame (hc : Closed P) (hm : P x.1) (hsp : Special P x (.rxFrame seg lower))
    (hpc : x.2 = .ready) :
    P (rxFrame x.1 seg lower).1 := by
  obtain ⟨m, pc⟩ := x
  obtain rfl : pc = .ready := hpc
  unfold NanoIp.Tcp.rxFrame
  cases hl : lookup m seg with
  | none => exact hm
  | some a =>
    dsimp only
    unfold rxHandle
    split_ifs with hr
    · exact hc.raise _ _ _ _ (hc.removeHandle (hc.setState hm _))
    · exact hc.rxAcknowledge hm fun hack hs hf hsome => hsp.acked a seg lower
        ⟨.inl ⟨rfl, rfl, hl, hr⟩, hack⟩ hs hf hsome

theorem resume (hc : Closed P) {release : Bool} {accept : Option (Fin n)} (hm : P x.1)
    (hr : resume x.1 release accept lower x.2 = some y) : P y.1 := by
  cases hpc : x.2 with
  | ready | tick => rw [hpc] at hr; cases hr
  | inReset a seg =>
    rw [hpc] at hr
    obtain rfl := Option.some.inj hr
    refine hc.rxAcknowledge hm fun _ _ hf _ => ?_
    -- a reset is no pure acknowledgement
    have hrst := seg.2
    rw [Segment.hasFlag, hf] at hrst
    exact absurd hrst (by decide)
  | inAccepting l seg =>
    rw [hpc] at hr
    obtain rfl := Option.some.inj hr
    exact hc.rxAccept hm accept
  | inRx seg =>
    rw [hpc] at hr
    obtain rfl := Option.some.inj hr
    dsimp only
    split_ifs
    · exact hm
    · exact hc.kept seg hm
  | inCallback | inTick =>
    rw [hpc] at hr
    obtain rfl := Option.some.inj hr
    exact hm
  | inTxFailed a timestamp =>
    rw [hpc] at hr
    obtain rfl := Option.some.inj hr
    exact hc.raise _ _ _ _ hm

theorem call (hc : Closed P) (hm : P x.1) (hsp : Special P x i) {m' : Stack n} (hi : call x.1 i = some m') : P m' := by
  cases i with
  | open_ a localPort readings =>
    obtain ⟨r, hr, rfl⟩ := Option.map_eq_some_iff.mp hi
    exact hc.open_ hm hr
  | bind a address port => obtain rfl := Option.some.inj hi; exact hc.bind hm address port
  | connect a address port lower => obtain rfl := Option.some.inj hi; exact hc.connect hm address port lower
  | listen a => obtain rfl := Option.some.inj hi; exact hc.listen hm
  | close a lower => obtain rfl := Option.some.inj hi; exact hc.close hm lower
  | allocatePacket answer size =>
      obtain rfl := Option.some.inj hi; exact hsp.allocatePacket answer size rfl
  | writePacket pid bs => obtain rfl := Option.some.inj hi; exact hsp.writePacket pid bs rfl
  | sendPacket a pid lower => obtain rfl := Option.some.inj hi; exact hsp.sendPacket a pid lower rfl
  | releasePacket pid => obtain rfl := Option.some.inj hi; exact hsp.releasePacket pid rfl
  | elapse ms =>
    obtain rfl := Option.some.inj hi
    exact hc.same hm ⟨rfl, rfl, rfl, fun _ => rfl, fun _ => rfl⟩
  | _ => cases hi

theorem step (hc : Closed P) (hm : P x.1) (hsp : Special P x i) (hs : step x i = some y) :
    P y.1 := by
  cases step_move hs with
  | rxFrame seg lower hpc => exact hc.rxFrame hm hsp hpc
  | arpResponse a mac driver _ hb => exact hsp.arpResponse a mac driver (.inl rfl) hb
  | periodicTask | visited => exact hm
  | visit lower a timestamp hpc =>
    exact hc.visit hm timestamp fun pid hst hl he =>
      hsp.retry a pid timestamp lower ⟨rfl, hpc, hst, hl, he⟩
  | ret release accept lower _ hr => exact hc.resume hm hr
  | releaseHandle a pending =>
    unfold NanoIp.Tcp.releaseHandle
    split_ifs with hrel
    · obtain ⟨-, hb, rfl⟩ := hrel
      exact hsp.arpResponse a none .success (.inr ⟨rfl, rfl⟩) hb
    · exact hm
  | call _ m' _ hi => exact hc.call hm hsp hi

end Steps

end Closed

end NanoIp.Tcp
