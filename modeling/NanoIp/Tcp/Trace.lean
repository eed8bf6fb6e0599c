import NanoIp.Tcp.StepEffect

/-!
# What one step adds to the log

The counterpart of `Effect` for the log: `May` lists the entries a step can add,
each with the reason for it, and `step_writes` says that there are no others. A
packet leaves the allocator's used packets only with an entry of its release.
-/
namespace NanoIp.Tcp

variable {n : Nat}

/-- The log grew by entries that all satisfy `P`, and a used packet stays used unless
its release is among them. The clock went on. -/
def Writes (P : Obs n → Prop) (m m' : Stack n) : Prop :=
  m.time ≤ m'.time ∧ ∃ new, m'.log = m.log ++ new ∧ (∀ o ∈ new, P o) ∧
    ∀ pid ∈ m.allocated, pid ∈ m'.allocated ∨ .released pid ∈ new

namespace Writes

variable {P Q : Obs n → Prop} {m m' m'' : Stack n} {a : Fin n}

theorem silent (hl : m'.log = m.log) (ha : m'.allocated = m.allocated) (ht : m.time ≤ m'.time) :
    Writes P m m' := by
  refine ⟨ht, [], by rw [hl, List.append_nil], List.forall_mem_nil _, fun pid hp => .inl ?_⟩
  rwa [ha]

theorem refl (P : Obs n → Prop) (m : Stack n) : Writes P m m := silent rfl rfl (Nat.le_refl _)

theorem trans (h₁ : Writes P m m') (h₂ : Writes P m' m'') : Writes P m m'' := by
  obtain ⟨ht₁, new₁, hl₁, hp₁, ha₁⟩ := h₁
  obtain ⟨ht₂, new₂, hl₂, hp₂, ha₂⟩ := h₂
  refine ⟨Nat.le_trans ht₁ ht₂, new₁ ++ new₂, by rw [hl₂, hl₁, List.append_assoc], fun o ho => ?_, fun pid hpid => ?_⟩
  · rcases List.mem_append.mp ho with ho | ho
    · exact hp₁ o ho
    · exact hp₂ o ho
  · rcases ha₁ pid hpid with hk | hk
    · rcases ha₂ pid hk with hk | hk
      · exact .inl hk
      · exact .inr (List.mem_append.mpr (.inr hk))
    · exact .inr (List.mem_append.mpr (.inl hk))

theorem mono (h : Writes P m m') (hpq : ∀ o, P o → Q o) : Writes Q m m' := by
  obtain ⟨ht, new, hl, hp, ha⟩ := h
  exact ⟨ht, new, hl, fun o ho => hpq o (hp o ho), ha⟩

theorem modify (h : Writes P m m') (f : Handle n → Handle n) : Writes P m (m'.modify a f) :=
  h.trans (silent rfl rfl (Nat.le_refl _))

theorem setState (h : Writes P m m') (s : State) : Writes P m (m'.setState a s) := h.modify _

theorem startTimeout (h : Writes P m m') : Writes P m (m'.startTimeout a) := h.modify _

theorem removeHandle (h : Writes P m m') : Writes P m (m'.removeHandle a) := h.trans (silent rfl rfl (Nat.le_refl _))

theorem wait (h : Writes P m m') (ms : Nat) : Writes P m (m'.wait ms) :=
  h.trans (silent rfl rfl (Nat.le_add_right _ _))

theorem setPackets (h : Writes P m m') (packets : PacketId → Packet) :
    Writes P m { m' with packets := packets } := h.trans (silent rfl rfl (Nat.le_refl _))

theorem record {o : Obs n} (h : Writes P m m') (ho : P o) : Writes P m (m'.record o) := by
  refine h.trans ⟨Nat.le_refl _, [o], rfl, fun o' ho' => ?_, fun pid hp => .inl hp⟩
  rwa [List.mem_singleton.mp ho']

theorem raise {event : Event} {error : Err} {packet : Option Segment} (h : Writes P m m')
    (ho : P (.raised a event error packet)) : Writes P m (m'.raise a event error packet) := h.record ho

theorem releasePacket {pid : PacketId} (h : Writes P m m') (ho : P (.released pid)) :
    Writes P m (m'.releasePacket pid) := by
  refine h.trans ⟨Nat.le_refl _, [.released pid], rfl, fun o ho' => ?_, fun q hq => ?_⟩
  · rwa [List.mem_singleton.mp ho']
  · by_cases hne : q = pid
    · rw [hne]
      exact .inr List.mem_cons_self
    · exact .inl ((List.mem_erase_of_ne hne).mpr hq)

theorem recordHanded {pid : PacketId} {sent : Ipv4.Sent} (h : Writes P m m')
    (ho : ∀ ret, P (.handed a pid ret)) : Writes P m (recordHanded m' a pid sent) := by
  unfold NanoIp.Tcp.recordHanded
  split
  · exact h.record (ho _)
  · exact h

end Writes

def newEntries (x y : Stack n × Pc n) : List (Obs n) := y.1.log.drop x.1.log.length

theorem newEntries_eq {x y : Stack n × Pc n} {new : List (Obs n)} (hl : y.1.log = x.1.log ++ new) :
    newEntries x y = new := by
  rw [newEntries, hl, List.drop_left]

theorem Writes.entries {P : Obs n → Prop} {x y : Stack n × Pc n} (hw : Writes P x.1 y.1) {o : Obs n}
    (ho : o ∈ newEntries x y) : P o := by
  obtain ⟨-, new, hl, hp, -⟩ := hw
  rw [newEntries_eq hl] at ho
  exact hp o ho

/-- What a control frame of handle `a` leaves in the log, `used` being the packets in
use when it is built. -/
inductive ControlEntry (used : List PacketId) (a : Fin n) (flags : Byte) : Obs n → Prop
  | output (seg : Segment) (ret : Err) : seg.flags = flags → ControlEntry used a flags (.output a seg ret)
  | handed (pid : PacketId) (ret : Err) : ControlEntry used a flags (.handed a pid ret)
  | returned (pid : PacketId) : pid ∉ used → ControlEntry used a flags (.released pid)

theorem finalizeAndSendPacket_writes {P : Obs n → Prop} (m : Stack n) (a : Fin n) (flags : Byte)
    (pid : PacketId) (lower : Lower)
    (ho : P (.output a (outputSegment (m.mem a) flags (outputHeader (m.mem a) lower (m.packets pid)) (m.packets pid))
      (finalizeAndSendPacket m a flags pid lower).2))
    (hh : ∀ ret, P (.handed a pid ret)) : Writes P m (finalizeAndSendPacket m a flags pid lower).1 := by
  unfold finalizeAndSendPacket at ho ⊢
  dsimp only at ho ⊢
  apply Writes.recordHanded _ hh
  exact ((((Writes.refl P m).modify _).setPackets _).wait _).record ho

theorem allocatePacket_writes {P : Obs n → Prop} {m : Stack n} {pid : PacketId} (hp : pid ∉ m.allocated)
    (size : BitVec 16) : Writes P m (allocatePacket m (.ok pid) size).1 := by
  refine ⟨Nat.le_of_eq (allocatePacket_time _ _ _).symm, [], by rw [allocatePacket_log, List.append_nil],
    List.forall_mem_nil _, fun q hq => .inl ?_⟩
  unfold allocatePacket
  dsimp only
  rw [if_neg hp]
  exact List.mem_cons_of_mem _ hq

/-- A control frame logs its segment with its result, perhaps its packet as handed to the
driver, and the packet as given back when it is refused. -/
theorem sendControlFrame_logs {P : Obs n → Prop} (m : Stack n) (a : Fin n) (flags : Byte) (lower : Lower)
    (ho : ∀ header p, P (.output a (outputSegment (m.mem a) flags header p) (controlResult m a lower)))
    (hh : ∀ pid ret, P (.handed a pid ret)) (hr : ∀ pid, pid ∉ m.allocated → P (.released pid)) :
    Writes P m (sendControlFrame m a flags lower).1 := by
  have hres := sendControlFrame_ret m a flags lower
  rcases sendControlFrame_cases m a flags lower with ⟨e, -, he⟩ | ⟨pid, hp, m', ret, hf, he⟩
  · rw [he]
    exact Writes.refl _ m
  · rw [he] at hres ⊢
    have hmem : (allocatePacket m (.ok pid) 0#16).1.mem a = m.mem a := by rw [allocatePacket_mem]
    have hw := (allocatePacket_writes hp 0#16).trans (finalizeAndSendPacket_writes (P := P)
      (allocatePacket m (.ok pid) 0#16).1 a flags pid lower
      (by rw [hf, hmem, show ret = controlResult m a lower from hres]; exact ho _ _) (hh pid))
    rw [hf] at hw
    dsimp only
    split
    · exact hw
    · exact hw.releasePacket (hr pid hp)

theorem sendControlFrame_writes (m : Stack n) (a : Fin n) (flags : Byte) (lower : Lower) :
    Writes (ControlEntry m.allocated a flags) m (sendControlFrame m a flags lower).1 :=
  sendControlFrame_logs m a flags lower (fun _ _ => .output _ _ rfl) .handed .returned

/-- `i` makes the module send frames with these flags for handle `h`. -/
inductive Frames (x : Stack n × Pc n) (i : Input n) (h : Fin n) : Byte → Prop
  | connect (address : Ipv4Address) (port : BitVec 16) (lower : Lower) :
      i = .connect h address port lower → (x.1.mem h).state = .idle → Frames x i h flagSyn
  | close (lower : Lower) : i = .close h lower → (x.1.mem h).state = .established →
      Frames x i h (flagFin ||| flagAck)
  | sendPacket (pid : PacketId) (lower : Lower) : i = .sendPacket h pid lower →
      (x.1.mem h).state = .established → Frames x i h (flagPsh ||| flagAck)
  | acknowledge (seg : Segment) (lower : Lower) (flags : Byte) : Acknowledges x h i seg lower →
      (x.1.mem h).state = .synSent ∨ (x.1.mem h).state = .established ∨
        (x.1.mem h).state = .finWait1 ∨ (x.1.mem h).state = .finWait2 →
      flags = flagAck ∨ flags = flagFin ||| flagAck → Frames x i h flags
  | reset (seg : Segment) (lower : Lower) : Processes x h i seg lower → Rejects x.1 h seg →
      Frames x i h flagRst
  | accept (l : Fin n) (seg : Segment) (release : Bool) (lower : Lower) :
      i = .ret release (some h) lower → x.2 = .inAccepting l seg → (x.1.mem h).state = .idle →
      Frames x i h (flagSyn ||| flagAck)

/-- `i` is the visit of `h` at which its pending packet is due again. -/
structure Expires (x : Stack n × Pc n) (i : Input n) (h : Fin n) (pid : PacketId) (timestamp : BitVec 32)
    (lower : Lower) : Prop where
  input : i = .visit lower
  pc : x.2 = .tick (some h) timestamp
  state : (x.1.mem h).state = .established
  pending : (x.1.mem h).lastTxPacket = some pid
  expired : (x.1.mem h).stateTimeout ≤ timestamp

/-- The entries a step can add to the log; `Effect` says which events it raises. -/
inductive May (x : Stack n × Pc n) (i : Input n) : Obs n → Prop
  | raised (h : Fin n) (event : Event) (error : Err) (packet : Option Segment) :
      May x i (.raised h event error packet)
  | kept (seg : Segment) : May x i (.kept seg)
  | output (h : Fin n) (flags : Byte) (seg : Segment) (ret : Err) :
      Frames x i h flags → seg.flags = flags → May x i (.output h seg ret)
  | handed (h : Fin n) (flags : Byte) (pid : PacketId) (ret : Err) :
      Frames x i h flags → May x i (.handed h pid ret)
  | resent (h : Fin n) (pid : PacketId) (timestamp : BitVec 32) (lower : Lower) (ret : Err) :
      Expires x i h pid timestamp lower → (x.1.mem h).txRetryCount + 1#8 ≠ maxRetryCount →
      May x i (.resent h pid ret)
  | resentHanded (h : Fin n) (pid : PacketId) (timestamp : BitVec 32) (lower : Lower) (ret : Err) :
      Expires x i h pid timestamp lower → (x.1.mem h).txRetryCount + 1#8 ≠ maxRetryCount →
      May x i (.handed h pid ret)
  | deferred (h : Fin n) (mac : Option MacAddress) (driver : Err) (pid : PacketId) (ret : Err) :
      i = .arpResponse h mac driver → May x i (.handed h pid ret)
  | returned (pid : PacketId) : pid ∉ x.1.allocated → May x i (.released pid)
  | releasedByCall (pid : PacketId) : i = .releasePacket pid → May x i (.released pid)
  | acked (h : Fin n) (seg : Segment) (lower : Lower) (pid : PacketId) :
      Acknowledges x h i seg lower → (x.1.mem h).state = .established →
      (x.1.mem h).lastTxPacket = some pid → seg.flags = flagAck → May x i (.released pid)
  | exhausted (h : Fin n) (pid : PacketId) (timestamp : BitVec 32) (lower : Lower) :
      Expires x i h pid timestamp lower → (x.1.mem h).txRetryCount + 1#8 = maxRetryCount →
      May x i (.released pid)
  | arpFailed (h : Fin n) (driver : Err) (pid : PacketId) : i = .arpResponse h none driver →
      (x.1.mem h).ipv4Handle.packet = some pid → May x i (.released pid)
  | cancelled (h : Fin n) (pid : PacketId) : i = .releaseHandle h true →
      (x.1.mem h).ipv4Handle.busy = true → (x.1.mem h).ipv4Handle.packet = some pid →
      May x i (.released pid)

section Calls

variable {x y : Stack n × Pc n} {i : Input n} {h : Fin n} {lower : Lower}

theorem Frames.writes {m : Stack n} {flags : Byte} (hf : Frames x i h flags)
    (hw : Writes (May x i) x.1 m) (ha : m.allocated = x.1.allocated) (lower : Lower) :
    Writes (May x i) x.1 (sendControlFrame m h flags lower).1 := by
  refine hw.trans ((sendControlFrame_writes m h flags lower).mono fun o ho => ?_)
  cases ho with
  | output seg ret hs => exact .output h flags seg ret hf hs
  | handed pid ret => exact .handed h flags pid ret hf
  | returned pid hp => exact .returned pid (by rwa [← ha])

theorem bind_silent (m : Stack n) (a : Fin n) (address : Ipv4Address) (port : BitVec 16) :
    (bind m a address port).1.log = m.log ∧ (bind m a address port).1.allocated = m.allocated ∧
      (bind m a address port).1.time = m.time := by
  unfold bind
  split_ifs <;> exact ⟨rfl, rfl, rfl⟩

theorem openLoop_silent {a : Fin n} {m' : Stack n} {ret : Err} (readings : List Nat) :
    ∀ {m : Stack n}, openLoop m a readings = some (m', ret) →
      m'.log = m.log ∧ m'.allocated = m.allocated ∧ m.time ≤ m'.time := by
  induction readings with
  | nil => intro m ho; cases ho
  | cons ms readings ih =>
    intro m ho
    obtain ⟨hbl, hba, hbt⟩ := bind_silent m a 0#32 m.nextFreeLocalPort
    have htime : m.time ≤ (nextPort ((bind m a 0#32 m.nextFreeLocalPort).1.wait ms)).time :=
      Nat.le_trans (Nat.le_of_eq hbt.symm) (Nat.le_add_right _ _)
    simp only [openLoop] at ho
    split_ifs at ho with hp
    · obtain ⟨hl, ha, ht⟩ := ih ho
      exact ⟨hl.trans hbl, ha.trans hba, Nat.le_trans htime ht⟩
    · obtain ⟨rfl, rfl⟩ := Prod.mk.inj (Option.some.inj ho)
      exact ⟨hbl, hba, htime⟩

theorem open_writes {P : Obs n → Prop} {m : Stack n} {a : Fin n} {localPort : BitVec 16} {readings : List Nat}
    {r : Stack n × Err} (ho : open_ m a localPort readings = some r) : Writes P m r.1 := by
  unfold open_ at ho
  split_ifs at ho with hs hp
  · dsimp only at ho
    obtain ⟨⟨m', ret⟩, hb, rfl⟩ := Option.map_eq_some_iff.mp ho
    obtain ⟨hl, ha, ht⟩ := openLoop_silent readings hb
    unfold finishOpen
    split_ifs
    · exact Writes.silent hl ha ht
    · exact Writes.silent hl ha ht
  · dsimp only at ho
    obtain ⟨⟨m', ret⟩, hb, rfl⟩ := Option.map_eq_some_iff.mp ho
    have hbind := bind_silent (m.modify a fun k => { k with state := .idle, port := 0#16 }) a 0#32 localPort
    rw [Option.some.inj hb] at hbind
    obtain ⟨hl, ha, ht⟩ := hbind
    unfold finishOpen
    split_ifs
    · exact Writes.silent hl ha (Nat.le_of_eq ht.symm)
    · exact Writes.silent hl ha (Nat.le_of_eq ht.symm)
  · obtain rfl := Option.some.inj ho
    exact Writes.refl P m

theorem connect_writes (address : Ipv4Address) (port : BitVec 16) :
    Writes (May x (.connect h address port lower)) x.1 (connect x.1 h address port lower).1 := by
  unfold connect
  split_ifs with hs
  · have h0 := (Writes.refl (May x (.connect h address port lower)) x.1).modify (a := h) fun k => { k with
      destIpv4Address := address, destPort := port, seqNumber := x.1.msCounter }
    have hw := Frames.writes (.connect address port lower rfl hs) h0 rfl lower
    dsimp only
    split_ifs
    · exact (hw.modify _).startTimeout
    · exact hw
  · exact Writes.refl _ _

theorem listen_writes {P : Obs n → Prop} (m : Stack n) (a : Fin n) : Writes P m (listen m a).1 := by
  unfold listen
  split_ifs
  · exact (Writes.refl P m).setState _
  · exact Writes.refl P m

theorem close_writes : Writes (May x (.close h lower)) x.1 (close x.1 h lower).1 := by
  have hw : Writes (May x (.close h lower)) x.1 (sendFin x.1 h lower) := by
    unfold sendFin
    split_ifs with hs
    · have hf := Frames.writes (.close lower rfl hs) (Writes.refl (May x (.close h lower)) x.1) rfl lower
      dsimp only
      split_ifs
      · exact (hf.modify _).startTimeout
      · exact hf
    · exact Writes.refl _ _
  unfold close
  dsimp only
  split_ifs
  · exact (hw.setState _).removeHandle
  · exact hw

theorem sendPacket_writes (pid : PacketId) :
    Writes (May x (.sendPacket h pid lower)) x.1 (sendPacket x.1 h pid lower).1 := by
  unfold sendPacket
  split_ifs with hl hs
  · exact Writes.refl _ _
  · have hf : Frames x (.sendPacket h pid lower) h (flagPsh ||| flagAck) := .sendPacket pid lower rfl hs
    have hkeep : Writes (May x (.sendPacket h pid lower)) x.1 (keepPacket x.1 h pid) :=
      Writes.silent rfl rfl (Nat.le_refl _)
    have hw := hkeep.trans (finalizeAndSendPacket_writes (keepPacket x.1 h pid) h (flagPsh ||| flagAck)
      pid lower (.output h _ _ _ hf rfl) fun ret => .handed h _ pid ret hf)
    dsimp only
    split_ifs
    · exact hw.modify _
    · exact hw
  · exact Writes.refl _ _

theorem call_writes {m' : Stack n} (hc : call x.1 i = some m') : Writes (May x i) x.1 m' := by
  have h0 := Writes.refl (May x i) x.1
  cases i with
  | open_ a localPort readings =>
    obtain ⟨r, hr, rfl⟩ := Option.map_eq_some_iff.mp hc
    exact open_writes hr
  | bind a address port =>
    obtain rfl := Option.some.inj hc
    obtain ⟨hl, ha, ht⟩ := bind_silent x.1 a address port
    exact Writes.silent hl ha (Nat.le_of_eq ht.symm)
  | connect a address port lower => obtain rfl := Option.some.inj hc; exact connect_writes address port
  | listen a => obtain rfl := Option.some.inj hc; exact listen_writes x.1 a
  | close a lower => obtain rfl := Option.some.inj hc; exact close_writes
  | allocatePacket answer size =>
    obtain rfl := Option.some.inj hc
    refine ⟨Nat.le_of_eq (allocatePacket_time _ _ _).symm, [], by rw [allocatePacket_log, List.append_nil],
      List.forall_mem_nil _, fun q hq => .inl ?_⟩
    unfold allocatePacket
    split
    · exact hq
    · split_ifs
      · exact hq
      · exact List.mem_cons_of_mem _ hq
  | writePacket pid bs => obtain rfl := Option.some.inj hc; exact Writes.silent rfl rfl (Nat.le_refl _)
  | sendPacket a pid lower => obtain rfl := Option.some.inj hc; exact sendPacket_writes pid
  | releasePacket pid => obtain rfl := Option.some.inj hc; exact h0.releasePacket (.releasedByCall pid rfl)
  | elapse ms => obtain rfl := Option.some.inj hc; exact Writes.silent rfl rfl (Nat.le_add_right _ _)
  | _ => cases hc

end Calls

section Segments

variable {x y : Stack n × Pc n} {i : Input n} {h : Fin n} {seg : Segment} {lower : Lower}

theorem resetConnection_writes (hf : Frames x i h flagRst) :
    Writes (May x i) x.1 (resetConnection x.1 h lower).1 := by
  have h0 := (Writes.refl (May x i) x.1).setState (a := h) .closed
  exact ((hf.writes h0 rfl lower).removeHandle).raise (.raised _ _ _ _)

theorem acknowledge_writes {flags : Byte} (hf : Frames x i h flags) (ack : BitVec 32) (lower : Lower) :
    Writes (May x i) x.1
      (sendControlFrame (x.1.modify h fun k => { k with ackNumber := ack }) h flags lower).1 :=
  hf.writes ((Writes.refl (May x i) x.1).modify _) rfl lower

theorem finWaitFin_writes (hf : Frames x i h flagAck) :
    Writes (May x i) x.1 (finWaitFin x.1 h seg lower).1 := by
  have hw := acknowledge_writes hf (seg.seqNumber + 1#32) lower
  unfold finWaitFin
  dsimp only
  split_ifs
  · exact (hw.setState _).startTimeout
  · exact hw

theorem rxSynSent_writes (hf : Frames x i h flagAck) : Writes (May x i) x.1 (rxSynSent x.1 h seg lower).1 := by
  have hw := acknowledge_writes hf (seg.seqNumber + 1#32) lower
  unfold rxSynSent
  dsimp only
  split_ifs
  · exact (hw.setState _).raise (.raised _ _ _ _)
  · exact hw
  · exact Writes.refl _ _

theorem rxData_writes (hf : Frames x i h flagAck) : Writes (May x i) x.1 (rxData x.1 h seg lower).1 := by
  have hw := acknowledge_writes hf seg.nextSeq lower
  unfold rxData
  dsimp only
  split_ifs
  · exact hw.raise (.raised _ _ _ _)
  · exact hw
  · exact Writes.refl _ _

theorem rxFin_writes (hf : Frames x i h (flagFin ||| flagAck)) :
    Writes (May x i) x.1 (rxFin x.1 h seg lower).1 := by
  have hw := acknowledge_writes hf (seg.seqNumber + 1#32) lower
  unfold rxFin
  dsimp only
  split_ifs
  · exact (hw.modify _).startTimeout
  · exact hw

theorem releaseLastTx_writes {P : Obs n → Prop} {m : Stack n} {a : Fin n} {pid : PacketId}
    (hl : (m.mem a).lastTxPacket = some pid) (hp : P (.released pid)) : Writes P m (releaseLastTx m a) := by
  unfold releaseLastTx
  rw [hl]
  exact ((Writes.refl P m).releasePacket hp).modify _

theorem rxEstablished_writes (hp : Acknowledges x h i seg lower) (hs : (x.1.mem h).state = .established) :
    Writes (May x i) x.1 (rxEstablished x.1 h seg lower).1 := by
  unfold rxEstablished
  split_ifs with hd ha hf
  · exact rxData_writes (.acknowledge seg lower _ hp (.inr (.inl hs)) (.inl rfl))
  · obtain ⟨pid, hpid⟩ := Option.isSome_iff_exists.mp ha.1
    exact (releaseLastTx_writes hpid (.acked h seg lower pid hp hs hpid ha.2)).raise (.raised _ _ _ _)
  · exact rxFin_writes (.acknowledge seg lower _ hp (.inr (.inl hs)) (.inr rfl))
  · exact Writes.refl _ _

theorem rxStateMachine_writes (hp : Processes x h i seg lower)
    (ha : (x.1.mem h).state = .listen ∨ seg.ackNumber = (x.1.mem h).seqNumber) :
    Writes (May x i) x.1 (rxStateMachine x.1 h seg lower).1 := by
  have h0 := Writes.refl (May x i) x.1
  have hack (hs : (x.1.mem h).state ≠ .listen) : Acknowledges x h i seg lower :=
    ⟨hp, ha.resolve_left hs⟩
  have hreset (hs : (x.1.mem h).state = .closing ∨ (x.1.mem h).state = .lastAck ∨
      (x.1.mem h).state = .timeWait) : Frames x i h flagRst := by
    have hne : (x.1.mem h).state ≠ .listen := by rcases hs with hs | hs | hs <;> rw [hs] <;> decide
    exact .reset seg lower hp ⟨hne, .inr ⟨(hack hne).2, hs⟩⟩
  unfold rxStateMachine
  cases hs : (x.1.mem h).state with
  | listen =>
    dsimp only
    split_ifs
    · exact h0.raise (.raised _ _ _ _)
    · exact h0
  | synReceived =>
    dsimp only
    split_ifs
    · exact (h0.setState _).raise (.raised _ _ _ _)
    · exact h0
  | synSent => exact rxSynSent_writes (.acknowledge seg lower _ (hack (by rw [hs]; decide)) (.inl hs) (.inl rfl))
  | established => exact rxEstablished_writes (hack (by rw [hs]; decide)) hs
  | closeWait =>
    dsimp only
    split_ifs
    · exact ((h0.setState _).removeHandle).raise (.raised _ _ _ _)
    · exact h0
  | finWait1 =>
    have hf : Frames x i h flagAck :=
      .acknowledge seg lower _ (hack (by rw [hs]; decide)) (.inr (.inr (.inl hs))) (.inl rfl)
    dsimp only
    split_ifs
    · exact (h0.setState _).startTimeout
    · exact finWaitFin_writes hf
    · exact h0
  | finWait2 =>
    have hf : Frames x i h flagAck :=
      .acknowledge seg lower _ (hack (by rw [hs]; decide)) (.inr (.inr (.inr hs))) (.inl rfl)
    dsimp only
    split_ifs
    · exact finWaitFin_writes hf
    · exact h0
  | idle | closed => exact h0
  | closing => exact resetConnection_writes (hreset (.inl hs))
  | lastAck => exact resetConnection_writes (hreset (.inr (.inl hs)))
  | timeWait => exact resetConnection_writes (hreset (.inr (.inr hs)))

theorem rxAcknowledge_writes (hp : Processes x h i seg lower) :
    Writes (May x i) x.1 (rxAcknowledge x.1 h seg lower).1 := by
  unfold rxAcknowledge
  split_ifs with ha hgt
  · exact rxStateMachine_writes hp ha
  · exact resetConnection_writes (.reset seg lower hp ⟨fun hl => ha (.inl hl), .inl hgt⟩)
  · exact Writes.refl _ _

theorem rxFrame_writes (hpc : x.2 = .ready) :
    Writes (May x (.rxFrame seg lower)) x.1 (rxFrame x.1 seg lower).1 := by
  unfold rxFrame
  cases hl : lookup x.1 seg with
  | none => exact Writes.refl _ _
  | some a =>
    dsimp only
    unfold rxHandle
    split_ifs with hr
    · exact ((Writes.refl _ _).setState _).removeHandle.raise (.raised _ _ _ _)
    · exact rxAcknowledge_writes (.inl ⟨rfl, hpc, hl, hr⟩)

theorem rxAccept_writes {l : Fin n} (hpc : x.2 = .inAccepting l seg) (release : Bool)
    (accept : Option (Fin n)) :
    Writes (May x (.ret release accept lower)) x.1 (rxAccept x.1 l seg accept lower).1 := by
  have h0 := Writes.refl (May x (.ret release accept lower)) x.1
  unfold rxAccept
  cases accept with
  | none => exact h0
  | some a =>
    dsimp only
    split_ifs with hs hr
    · have hf : Frames x (.ret release (some a) lower) a (flagSyn ||| flagAck) :=
        .accept l seg release lower rfl hpc hs
      exact ((hf.writes (((h0.modify _).modify _).modify _) rfl lower).modify _).startTimeout
    · have hf : Frames x (.ret release (some a) lower) a (flagSyn ||| flagAck) :=
        .accept l seg release lower rfl hpc hs
      exact hf.writes (((h0.modify _).modify _).modify _) rfl lower
    · exact h0.raise (.raised _ _ _ _)

theorem ipv4ErrorCallback_writes {m m' : Stack n} (hw : Writes (May x i) m m') (a : Fin n) (error : Err) :
    Writes (May x i) m (ipv4ErrorCallback m' a error).1 := by
  unfold ipv4ErrorCallback
  split_ifs
  · exact hw.raise (.raised _ _ _ _)
  · exact hw
  · exact hw.raise (.raised _ _ _ _)

theorem arpResponse_writes (a : Fin n) (mac : Option MacAddress) (driver : Err)
    (hh : ∀ pid ret, mac ≠ none → May x i (.handed a pid ret))
    (hr : ∀ pid, mac = none → (x.1.mem a).ipv4Handle.packet = some pid → May x i (.released pid)) :
    Writes (May x i) x.1 (arpResponse x.1 a mac driver).1 := by
  have h0 := Writes.refl (May x i) x.1
  unfold arpResponse
  cases hp : (x.1.mem a).ipv4Handle.packet with
  | none => exact h0
  | some pid =>
    cases mac with
    | none => exact ipv4ErrorCallback_writes ((h0.releasePacket (hr pid rfl hp)).modify _) a _
    | some mac =>
      apply ipv4ErrorCallback_writes
      apply Writes.recordHanded _ fun ret => hh pid ret (Option.some_ne_none mac)
      exact Writes.silent rfl rfl (Nat.le_refl _)

theorem releaseHandle_writes (a : Fin n) (pending : Bool) :
    Writes (May x (.releaseHandle a pending)) x.1 (releaseHandle x.1 a pending).1 := by
  unfold releaseHandle
  split_ifs with hc
  · obtain ⟨-, hb, rfl⟩ := hc
    exact arpResponse_writes a none .success (fun _ _ hm => absurd rfl hm)
      fun pid _ hp => .cancelled a pid rfl hb hp
  · exact Writes.refl _ _

end Segments

section Steps

variable {x y : Stack n × Pc n} {i : Input n} {h : Fin n} {lower : Lower} {timestamp : BitVec 32}

theorem abortConnection_writes (event : Event) (error : Stack n → Err) :
    Writes (May x i) x.1 (abortConnection x.1 h event error) :=
  ((Writes.refl _ _).setState _).removeHandle.raise (.raised _ _ _ _)

theorem retryPacket_writes {pid : PacketId} (he : Expires x i h pid timestamp lower) :
    Writes (May x i) x.1 (retryPacket x.1 h pid timestamp lower).1 := by
  have h0 := (Writes.refl (May x i) x.1).modify (a := h) fun k => { k with
    txRetryCount := k.txRetryCount + 1#8 }
  unfold retryPacket
  dsimp only
  rw [Stack.modify_self]
  split_ifs with hr
  · have hp : ((x.1.modify h fun k => { k with txRetryCount := k.txRetryCount + 1#8 }).mem h).lastTxPacket =
        some pid := by
      rw [Stack.modify_self]
      exact he.pending
    have hw := h0.trans (releaseLastTx_writes hp (.exhausted h pid timestamp lower he hr))
    exact ((hw.setState _).removeHandle).raise (.raised _ _ _ _)
  · unfold resendPacket
    apply Writes.recordHanded _ fun ret => .resentHanded h pid timestamp lower ret he hr
    exact (((h0.modify _).setPackets _).wait _).record (.resent h pid timestamp lower _ he hr)

theorem visit_writes (hpc : x.2 = .tick (some h) timestamp) :
    Writes (May x (.visit lower)) x.1 (visit x.1 h timestamp lower).1 := by
  have h0 := Writes.refl (May x (.visit lower)) x.1
  unfold visit
  cases hs : (x.1.mem h).state with
  | synSent | synReceived | closeWait | finWait1 | finWait2 | timeWait =>
    dsimp only
    split_ifs
    · exact abortConnection_writes _ _
    · exact h0
  | established =>
    cases hl : (x.1.mem h).lastTxPacket with
    | none => exact h0
    | some pid =>
      dsimp only
      split_ifs with ht
      · exact retryPacket_writes ⟨rfl, hpc, hs, hl, ht⟩
      · exact h0
  | closed | listen | closing | lastAck | idle => exact h0

theorem resume_writes {release : Bool} {accept : Option (Fin n)}
    (hr : resume x.1 release accept lower x.2 = some y) :
    Writes (May x (.ret release accept lower)) x.1 y.1 := by
  have h0 := Writes.refl (May x (.ret release accept lower)) x.1
  cases hpc : x.2 with
  | ready => rw [hpc] at hr; cases hr
  | tick current timestamp => rw [hpc] at hr; cases hr
  | inReset a seg =>
    rw [hpc] at hr
    obtain rfl := Option.some.inj hr
    exact rxAcknowledge_writes (.inr ⟨release, accept, seg.2, rfl, hpc⟩)
  | inAccepting l seg =>
    rw [hpc] at hr
    obtain rfl := Option.some.inj hr
    exact rxAccept_writes hpc release accept
  | inRx seg =>
    rw [hpc] at hr
    obtain rfl := Option.some.inj hr
    dsimp only
    split_ifs
    · exact h0
    · exact h0.record (.kept seg)
  | inCallback | inTick =>
    rw [hpc] at hr
    obtain rfl := Option.some.inj hr
    exact h0
  | inTxFailed a timestamp =>
    rw [hpc] at hr
    obtain rfl := Option.some.inj hr
    exact h0.raise (.raised _ _ _ _)

/-- A step adds to the log only what `May` lists, and releases no packet silently. -/
theorem step_writes (hs : step x i = some y) : Writes (May x i) x.1 y.1 := by
  cases step_move hs with
  | rxFrame seg lower hpc => exact rxFrame_writes hpc
  | arpResponse a mac driver =>
    refine arpResponse_writes a mac driver (fun pid ret _ => .deferred a mac driver pid ret rfl) ?_
    rintro pid rfl hp
    exact .arpFailed a driver pid rfl hp
  | periodicTask => exact Writes.refl _ _
  | visit lower a timestamp hpc => exact visit_writes hpc
  | visited => exact Writes.refl _ _
  | ret release accept lower _ hr => exact resume_writes hr
  | releaseHandle a pending => exact releaseHandle_writes a pending
  | call _ m' _ hc => exact call_writes hc

theorem Expires.step {pid : PacketId} (he : Expires x i h pid timestamp lower) (hs : step x i = some y) :
    y.1 = (retryPacket x.1 h pid timestamp lower).1 := by
  obtain ⟨m, pc⟩ := x
  obtain ⟨rfl, rfl, hst, hp, ht⟩ := he
  have hv : visit m h timestamp lower = retryPacket m h pid timestamp lower := by
    unfold visit
    rw [hst]
    dsimp only
    rw [hp]
    exact if_pos ht
  obtain rfl := Option.some.inj hs
  exact congrArg Prod.fst hv

end Steps

end NanoIp.Tcp
