import NanoIp.Tcp.Trace
import Mathlib.Data.List.Induction

/-!
# What a handle puts on the network

The segments that a handle transmitted, and the numbers they carry: those of the
handle before the step for a frame that opens or sends, those it is left with for an
acknowledgement. A retransmission puts the data segment of the pending packet on the
network again.
-/
namespace NanoIp.Tcp

variable {n : Nat}

/-- A segment as `NANO_IP_TCP_SendPacket` sends it. -/
def Segment.isData (seg : Segment) : Bool := seg.flags = flagPsh ||| flagAck

/-- The segment that a log entry says handle `h` transmitted. -/
def Obs.sentBy (h : Fin n) : Obs n → Option Segment
  | .output k seg .success => if k = h then some seg else none
  | _ => none

/-- The segments that handle `h` transmitted, without the retransmissions. -/
def Stack.sent (m : Stack n) (h : Fin n) : List Segment := m.log.filterMap (Obs.sentBy h)

/-- What a log entry adds to the segments on the network: a segment, or the last data
segment once more. -/
def carry (h : Fin n) (carried : List Segment) : Obs n → List Segment
  | .output k seg .success => if k = h then carried ++ [seg] else carried
  | .resent k _ .success =>
    if k = h then carried ++ (carried.filter Segment.isData).getLast?.toList else carried
  | _ => carried

/-- The segments that handle `h` put on the network, with its retransmissions. -/
def Stack.carried (m : Stack n) (h : Fin n) : List Segment := m.log.foldl (carry h) []

theorem mem_sentBy {h : Fin n} {o : Obs n} {seg : Segment} :
    o.sentBy h = some seg ↔ o = .output h seg .success := by
  constructor
  · intro ho
    unfold Obs.sentBy at ho
    split at ho
    · split_ifs at ho with hk
      rw [hk, Option.some.inj ho]
    · cases ho
  · rintro rfl
    exact if_pos rfl

theorem mem_sent {m : Stack n} {h : Fin n} {seg : Segment} :
    seg ∈ m.sent h ↔ .output h seg .success ∈ m.log := by
  rw [Stack.sent, List.mem_filterMap]
  exact ⟨fun ⟨o, ho, hs⟩ => mem_sentBy.mp hs ▸ ho, fun ho => ⟨_, ho, mem_sentBy.mpr rfl⟩⟩

/-- A retransmission puts nothing on the network that was not there. -/
theorem mem_carried {m : Stack n} {h : Fin n} {seg : Segment} :
    seg ∈ m.carried h ↔ seg ∈ m.sent h := by
  unfold Stack.carried Stack.sent
  induction m.log using List.reverseRecOn with
  | nil => exact Iff.rfl
  | append_singleton log o ih =>
    rw [List.foldl_concat, List.filterMap_append, List.mem_append, ← ih]
    generalize log.foldl (carry h) [] = carried
    have hlast : seg ∈ (carried.filter Segment.isData).getLast?.toList → seg ∈ carried := fun hs =>
      List.mem_of_mem_filter (List.mem_of_getLast? (Option.mem_toList.mp hs))
    unfold carry
    split
    · split_ifs with hk <;> simp [Obs.sentBy, hk]
    · split_ifs with hk
      · rw [List.mem_append]
        simpa [Obs.sentBy] using hlast
      · simp [Obs.sentBy]
    · next h₁ _ =>
      have hnone : o.sentBy h = none := by
        unfold Obs.sentBy
        split
        · exact absurd rfl (h₁ _ _)
        · rfl
      simp [hnone]

/-- What the entry says handle `h` transmitted satisfies `Q`. -/
def Says (h : Fin n) (Q : Segment → Prop) (o : Obs n) : Prop :=
  ∀ seg, o = .output h seg .success → Q seg

section Frames

variable (m : Stack n) (h : Fin n) (flags : Byte) (lower : Lower)

/-- A control frame that is transmitted carries the flags it is sent with and the numbers of
the handle. -/
theorem sendControlFrame_speaks {Q : Segment → Prop}
    (hq : controlResult m h lower = .success → ∀ seg : Segment, seg.flags = flags →
      seg.seqNumber = (m.mem h).seqNumber →
      (flags &&& flagAck ≠ 0#8 → seg.ackNumber = (m.mem h).ackNumber) → Q seg) :
    Writes (Says h Q) m (sendControlFrame m h flags lower).1 := by
  refine sendControlFrame_logs m h flags lower (fun header p seg he => ?_)
    (fun _ _ _ => nofun) fun _ _ _ => nofun
  obtain ⟨-, rfl, hr⟩ := Obs.output.inj he
  exact hq hr _ rfl rfl fun hf => if_pos hf

theorem finalizeAndSendPacket_log (pid : PacketId) :
    ∃ rest, (finalizeAndSendPacket m h flags pid lower).1.log =
    m.log ++ Obs.output h (outputSegment (m.mem h) flags
      (outputHeader (m.mem h) lower (m.packets pid)) (m.packets pid))
      (finalizeAndSendPacket m h flags pid lower).2 :: rest := by
  unfold finalizeAndSendPacket recordHanded
  dsimp only
  split
  · exact ⟨[_], List.append_assoc _ _ _⟩
  · exact ⟨[], rfl⟩

theorem sendControlFrame_log (hacc : (controlResult m h lower).accepted = true) : ∃ header p rest,
    (sendControlFrame m h flags lower).1.log = m.log ++
      Obs.output h (outputSegment (m.mem h) flags header p) (controlResult m h lower) :: rest := by
  have hres := sendControlFrame_ret m h flags lower
  rcases sendControlFrame_cases m h flags lower with ⟨e, hno, he⟩ | ⟨pid, -, m', ret, hf, he⟩
  · rw [he] at hres
    rw [← hres, hno] at hacc
    cases hacc
  · rw [he] at hres ⊢
    obtain rfl : ret = controlResult m h lower := hres
    obtain ⟨rest, hlog⟩ := finalizeAndSendPacket_log (allocatePacket m (.ok pid) 0#16).1 h
      flags lower pid
    rw [hf, allocatePacket_log, allocatePacket_mem] at hlog
    dsimp only
    rw [if_pos hacc]
    exact ⟨_, _, rest, hlog⟩

end Frames

/-- A pure acknowledgement carries the number of `k`, which is established, or in TIME_WAIT when
it answers a FIN. -/
def Acknowledging (k : Handle n) (seg : Segment) : Prop :=
  seg.flags = flagAck → seg.ackNumber = k.ackNumber ∧ (k.state = .established ∨ k.state = .timeWait)

/-- The pure acknowledgements that `h` transmits carry the number it is left with. -/
def AckedAs (h : Fin n) (m m' : Stack n) : Prop := Writes (Says h (Acknowledging (m'.mem h))) m m'

theorem says_raise {h : Fin n} {Q : Segment → Prop} {m m' : Stack n} (hw : Writes (Says h Q) m m')
    (event : Event) (error : Err) (packet : Option Segment) :
    Writes (Says h Q) m (m'.raise h event error packet) :=
  hw.raise fun _ => nofun

theorem sendControlFrame_fields (m : Stack n) (h : Fin n) (flags : Byte) (lower : Lower) :
    ((sendControlFrame m h flags lower).1.mem h).state = (m.mem h).state ∧
      ((sendControlFrame m h flags lower).1.mem h).seqNumber = (m.mem h).seqNumber ∧
      ((sendControlFrame m h flags lower).1.mem h).ackNumber = (m.mem h).ackNumber := by
  obtain ⟨ip, header, hm⟩ := sendControlFrame_mem m h flags lower
  rw [hm, Function.update_self]
  exact ⟨rfl, rfl, rfl⟩

section Receive

variable {m : Stack n} {h : Fin n} {seg : Segment} {lower : Lower}

theorem AckedAs.refl (m : Stack n) (h : Fin n) : AckedAs h m m := Writes.refl _ m

theorem acknowledge_speaks {Q : Segment → Prop} (m : Stack n) (h : Fin n) (ack : BitVec 32)
    (flags : Byte) (lower : Lower)
    (hq : controlResult m h lower = .success → ∀ seg : Segment, seg.flags = flags →
      (flags = flagAck → seg.ackNumber = ack) → Q seg) :
    Writes (Says h Q) m (sendControlFrame (m.modify h fun k => { k with ackNumber := ack }) h flags
      lower).1 := by
  refine Writes.trans ((Writes.refl _ m).modify _)
    (sendControlFrame_speaks _ h flags lower fun hr seg hf _ hack => ?_)
  rw [controlResult_ack] at hr
  refine hq hr seg hf fun hflags => ?_
  rw [hack (by rw [hflags]; decide), Stack.modify_self]

theorem acknowledge_fields (m : Stack n) (h : Fin n) (ack : BitVec 32) (flags : Byte)
    (lower : Lower) :
    ((sendControlFrame (m.modify h fun k => { k with ackNumber := ack }) h flags lower).1.mem
      h).state =
        (m.mem h).state ∧
      ((sendControlFrame (m.modify h fun k => { k with ackNumber := ack }) h flags lower).1.mem
        h).ackNumber =
        ack := by
  obtain ⟨hst, -, hack⟩ := sendControlFrame_fields (m.modify h fun k => { k with ackNumber := ack })
    h flags lower
  rw [Stack.modify_self] at hst hack
  exact ⟨hst, hack⟩

theorem finWaitFin_ackedAs : AckedAs h m (finWaitFin m h seg lower).1 := by
  unfold finWaitFin AckedAs
  dsimp only
  rw [sendControlFrame_eq, controlResult_ack]
  have hack := (acknowledge_fields m h (seg.seqNumber + 1#32) flagAck lower).2
  dsimp only
  split_ifs with hr
  · refine Writes.startTimeout
      (Writes.setState (acknowledge_speaks m h _ flagAck lower fun _ seg' _ hnum hf => ?_) _)
    rw [Stack.startTimeout, Stack.modify_self, Stack.setState_self]
    exact ⟨(hnum rfl).trans hack.symm, .inr rfl⟩
  · exact acknowledge_speaks m h _ flagAck lower fun hok => absurd hok hr

theorem rxSynSent_ackedAs : AckedAs h m (rxSynSent m h seg lower).1 := by
  unfold rxSynSent AckedAs
  by_cases hf : seg.flags = flagSyn ||| flagAck
  · rw [if_pos hf]
    dsimp only
    rw [sendControlFrame_eq, controlResult_ack]
    have hack := (acknowledge_fields m h (seg.seqNumber + 1#32) flagAck lower).2
    dsimp only
    split_ifs with hr
    · refine says_raise (Writes.setState
        (acknowledge_speaks m h _ flagAck lower fun _ seg' _ hnum hf => ?_) _) _ _ _
      rw [Stack.raise, Stack.record_mem, Stack.setState_self]
      exact ⟨(hnum rfl).trans hack.symm, .inl rfl⟩
    · exact acknowledge_speaks m h _ flagAck lower fun hok => absurd hok hr
  · rw [if_neg hf]
    exact Writes.refl _ m

theorem rxData_ackedAs (hs : (m.mem h).state = .established) :
    AckedAs h m (rxData m h seg lower).1 := by
  unfold rxData AckedAs
  by_cases hseq : seg.seqNumber = (m.mem h).ackNumber
  · rw [if_pos hseq]
    dsimp only
    rw [sendControlFrame_eq, controlResult_ack]
    obtain ⟨hst, hack⟩ := acknowledge_fields m h seg.nextSeq flagAck lower
    dsimp only
    split_ifs with hr
    · refine says_raise (acknowledge_speaks m h _ flagAck lower fun _ seg' _ hnum hf => ?_) _ _ _
      exact ⟨(hnum rfl).trans hack.symm, .inl (hst.trans hs)⟩
    · exact acknowledge_speaks m h _ flagAck lower fun hok => absurd hok hr
  · rw [if_neg hseq]
    exact Writes.refl _ m

theorem acknowledge_other {k : Handle n} (m : Stack n) (h : Fin n) (ack : BitVec 32) {flags : Byte}
    (hf : flags ≠ flagAck) (lower : Lower) : Writes (Says h (Acknowledging k)) m
      (sendControlFrame (m.modify h fun k => { k with ackNumber := ack }) h flags lower).1 :=
  acknowledge_speaks m h ack flags lower fun _ _ hflags _ hack => absurd (hflags.symm.trans hack) hf

theorem rxFin_ackedAs : AckedAs h m (rxFin m h seg lower).1 := by
  unfold rxFin AckedAs
  dsimp only
  split_ifs
  · exact Writes.startTimeout (Writes.modify (acknowledge_other m h _ (by decide) lower) _)
  · exact acknowledge_other m h _ (by decide) lower

theorem rxEstablished_ackedAs (hs : (m.mem h).state = .established) :
    AckedAs h m (rxEstablished m h seg lower).1 := by
  unfold rxEstablished
  split_ifs
  · exact rxData_ackedAs hs
  · unfold releaseLastTx AckedAs
    cases (m.mem h).lastTxPacket with
    | none => exact says_raise ((Writes.refl _ m).modify _) _ _ _
    | some pid => exact says_raise (Writes.modify
        (Writes.releasePacket (Writes.refl _ m) fun _ => nofun) _) _ _ _
  · exact rxFin_ackedAs
  · exact AckedAs.refl m h

theorem resetConnection_ackedAs : AckedAs h m (resetConnection m h lower).1 := by
  refine says_raise (Writes.removeHandle (Writes.trans ((Writes.refl _ m).setState .closed)
    (sendControlFrame_speaks _ h flagRst lower fun _ seg hflags _ _ hf => ?_))) _ _ _
  exact absurd (hflags.symm.trans hf) (by decide)

theorem rxStateMachine_ackedAs : AckedAs h m (rxStateMachine m h seg lower).1 := by
  unfold rxStateMachine
  cases hs : (m.mem h).state with
  | synSent => exact rxSynSent_ackedAs
  | established => exact rxEstablished_ackedAs hs
  | listen =>
    dsimp only
    split_ifs
    · exact says_raise (Writes.refl _ m) _ _ _
    · exact AckedAs.refl m h
  | synReceived =>
    dsimp only
    split_ifs
    · exact says_raise ((Writes.refl _ m).setState _) _ _ _
    · exact AckedAs.refl m h
  | closeWait =>
    dsimp only
    split_ifs
    · exact says_raise ((Writes.setState (Writes.refl _ m) _).removeHandle) _ _ _
    · exact AckedAs.refl m h
  | finWait1 =>
    dsimp only
    split_ifs
    · exact ((Writes.refl _ m).setState _).startTimeout
    · exact finWaitFin_ackedAs
    · exact AckedAs.refl m h
  | finWait2 =>
    dsimp only
    split_ifs
    · exact finWaitFin_ackedAs
    · exact AckedAs.refl m h
  | idle | closed => exact AckedAs.refl m h
  | closing | lastAck | timeWait => exact resetConnection_ackedAs

theorem rxAcknowledge_ackedAs : AckedAs h m (rxAcknowledge m h seg lower).1 := by
  unfold rxAcknowledge
  split_ifs
  · exact rxStateMachine_ackedAs
  · exact resetConnection_ackedAs
  · exact AckedAs.refl m h

theorem rxAcknowledge_synSent (hs : (m.mem h).state = .synSent)
    (hack : seg.ackNumber = (m.mem h).seqNumber) (hf : seg.flags ≠ flagSyn ||| flagAck) :
    (rxAcknowledge m h seg lower).1 = m := by
  rw [rxAcknowledge, if_pos (.inr hack), rxStateMachine, hs]
  dsimp only
  rw [rxSynSent, if_neg hf]

end Receive

/-- A SYN carries the number before that of `k`, which waits for its acknowledgement; a SYN|ACK
carries the acknowledgement number as well. -/
def Opening (k : Handle n) (seg : Segment) : Prop :=
  seg.seqNumber + 1#32 = k.seqNumber ∧ (k.state = .synSent ∨ k.state = .synReceived) ∧
    (seg.flags = flagSyn ||| flagAck → seg.ackNumber = k.ackNumber)

theorem connect_opening {m : Stack n} {h : Fin n} (hs : (m.mem h).state = .idle)
    (address : Ipv4Address) (port : BitVec 16) (lower : Lower) :
    Writes (Says h (Opening ((connect m h address port lower).1.mem h))) m
      (connect m h address port lower).1 := by
  unfold connect
  rw [if_pos hs]
  dsimp only
  rw [sendControlFrame_eq]
  dsimp only
  split_ifs with hr
  · refine Writes.startTimeout (Writes.modify (Writes.trans ((Writes.refl _ m).modify _)
      (sendControlFrame_speaks _ h flagSyn lower fun _ seg hf hseq _ => ?_)) _)
    rw [Opening, hseq, hf]
    simp only [Stack.startTimeout, Stack.modify_self, (sendControlFrame_fields _ _ _ _).2.1]
    exact ⟨trivial, .inl trivial, fun hflags => absurd hflags (by decide)⟩
  · refine Writes.trans ((Writes.refl _ m).modify _)
      (sendControlFrame_speaks _ h flagSyn lower fun hok => ?_)
    rw [hok] at hr
    exact absurd rfl hr

theorem rxAccept_opening {m : Stack n} {l a : Fin n} (hs : (m.mem a).state = .idle) (seg : Segment)
    (lower : Lower) :
    Writes (Says a (Opening ((rxAccept m l seg (some a) lower).1.mem a))) m
      (rxAccept m l seg (some a) lower).1 := by
  unfold rxAccept
  dsimp only
  rw [if_pos hs, sendControlFrame_eq]
  dsimp only
  split_ifs with hr
  · refine Writes.startTimeout
      (Writes.modify (Writes.trans ((((Writes.refl _ m).modify _).modify _).modify _)
      (sendControlFrame_speaks _ a (flagSyn ||| flagAck) lower fun _ seg _ hseq hack => ?_)) _)
    rw [Opening, hseq, hack (by decide)]
    simp only [Stack.startTimeout, Stack.modify_self, (sendControlFrame_fields _ _ _ _).2.1,
      (sendControlFrame_fields _ _ _ _).2.2]
    exact ⟨trivial, .inr trivial, fun _ => trivial⟩
  · exact Writes.trans ((((Writes.refl _ m).modify _).modify _).modify _)
      (sendControlFrame_speaks _ a (flagSyn ||| flagAck) lower fun hok => absurd hok hr)

theorem connect_logged {m : Stack n} {h : Fin n} (hs : (m.mem h).state = .idle)
    {address : Ipv4Address} {port : BitVec 16} {lower : Lower}
    (hy : ((connect m h address port lower).1.mem h).state = .synSent) :
    ∃ seg ret, seg.flags = flagSyn ∧ .output h seg ret ∈
      (connect m h address port lower).1.log := by
  unfold connect at hy ⊢
  rw [if_pos hs] at hy ⊢
  dsimp only at hy ⊢
  rw [sendControlFrame_eq] at hy ⊢
  dsimp only at hy ⊢
  split_ifs at hy ⊢ with hr
  · obtain ⟨header, p, rest, hlog⟩ := sendControlFrame_log _ h flagSyn lower hr
    exact ⟨_, _, rfl, hlog ▸ List.mem_append.mpr (.inr List.mem_cons_self)⟩
  · rw [← Handle.conn_state, sendControlFrame_conn, Handle.conn_state, Stack.modify_self] at hy
    cases hs.symm.trans hy

theorem rxAccept_logged {m : Stack n} {l a : Fin n} (hs : (m.mem a).state = .idle) {seg : Segment}
    {lower : Lower} (hy : ((rxAccept m l seg (some a) lower).1.mem a).state = .synReceived) :
    ∃ seg' ret, seg'.flags = flagSyn ||| flagAck ∧
      .output a seg' ret ∈ (rxAccept m l seg (some a) lower).1.log := by
  unfold rxAccept at hy ⊢
  dsimp only at hy ⊢
  rw [if_pos hs, sendControlFrame_eq] at hy ⊢
  dsimp only at hy ⊢
  split_ifs at hy ⊢ with hr
  · obtain ⟨header, p, rest, hlog⟩ :=
      sendControlFrame_log _ a (flagSyn ||| flagAck) lower (by rw [hr]; rfl)
    exact ⟨_, _, rfl, hlog ▸ List.mem_append.mpr (.inr List.mem_cons_self)⟩
  · rw [← Handle.conn_state, sendControlFrame_conn, Handle.conn_state, Stack.modify_self,
      Stack.modify_mem] at hy
    split_ifs at hy
    · next hal =>
      subst hal
      rw [Stack.modify_self] at hy
      cases hs.symm.trans hy
    · rw [Stack.modify_self] at hy
      cases hs.symm.trans hy

section Steps

variable {x y : Stack n × Pc n} {i : Input n} {h : Fin n} {seg : Segment} {ret : Err}
  {lower : Lower}

theorem Processes.step (hp : Processes x h i seg lower) (hs : step x i = some y) :
    y = rxAcknowledge x.1 h seg lower := by
  obtain ⟨m, pc⟩ := x
  rcases hp with ⟨rfl, rfl, hl, hr⟩ | ⟨release, accept, hf, rfl, rfl⟩
  · obtain rfl := Option.some.inj hs
    dsimp only at hl hr ⊢
    rw [rxFrame, hl]
    exact dif_neg hr
  · exact (Option.some.inj hs).symm

/-- A pure acknowledgement carries the number it leaves the handle with. It answers a segment on
an established connection, the SYN|ACK of SYN_SENT, or a FIN on a connection that is closing. -/
theorem pureAck_number (hs : step x i = some y) (ho : .output h seg .success ∈ newEntries x y)
    (hf : seg.flags = flagAck) : seg.ackNumber = (y.1.mem h).ackNumber ∧
      ((y.1.mem h).state = .established ∨ (y.1.mem h).state = .timeWait) ∧
      ((x.1.mem h).state = .established ∨ (x.1.mem h).state = .finWait1 ∨
        (x.1.mem h).state = .finWait2 ∨
        (x.1.mem h).state = .synSent ∧ ∃ seg' lower, Acknowledges x h i seg' lower ∧
          seg'.flags = flagSyn ||| flagAck) := by
  cases (step_writes hs).entries ho with
  | output _ flags _ _ hframes hflags =>
    rw [hf] at hflags
    cases hframes with
    | connect | close | sendPacket | reset | accept => exact absurd hflags (by decide)
    | acknowledge seg' lower _ hack hst =>
      obtain rfl := hack.1.step hs
      have ha : AckedAs h x.1 (rxAcknowledge x.1 h seg' lower).1 := rxAcknowledge_ackedAs
      obtain ⟨hnum, hy⟩ := Writes.entries ha ho seg rfl hf
      refine ⟨hnum, hy, ?_⟩
      rcases hst with hst | hst | hst | hst
      · refine .inr (.inr (.inr ⟨hst, seg', lower, hack, Decidable.byContradiction fun hne => ?_⟩))
        have hsame : (rxAcknowledge x.1 h seg' lower).1 = x.1 :=
          rxAcknowledge_synSent hst hack.2 hne
        have hlog : (rxAcknowledge x.1 h seg' lower).1.log = x.1.log ++ [] := by
          rw [hsame, List.append_nil]
        rw [newEntries_eq hlog] at ho
        cases ho
      · exact .inl hst
      · exact .inr (.inl hst)
      · exact .inr (.inr (.inl hst))

/-- A SYN is transmitted by a handle that begins to wait for its acknowledgement. -/
theorem syn_number (hs : step x i = some y) (ho : .output h seg .success ∈ newEntries x y)
    (hf : seg.hasFlag flagSyn = true) : (x.1.mem h).state = .idle ∧
      seg.seqNumber + 1#32 = (y.1.mem h).seqNumber ∧
      ((y.1.mem h).state = .synSent ∨ (y.1.mem h).state = .synReceived) ∧
      (seg.flags = flagSyn ||| flagAck → seg.ackNumber = (y.1.mem h).ackNumber) := by
  obtain ⟨m, pc⟩ := x
  cases (step_writes hs).entries ho with
  | output _ flags _ _ hframes hflags =>
    rw [Segment.hasFlag, hflags] at hf
    cases hframes with
    | close | sendPacket | reset => exact absurd hf (by decide)
    | acknowledge seg' lower _ _ _ hflags =>
        rcases hflags with rfl | rfl <;> exact absurd hf (by decide)
    | connect address port lower hi hst =>
      subst hi
      cases step_move hs with
      | call _ m' _ hc =>
        obtain rfl := Option.some.inj hc
        exact ⟨hst, Writes.entries (connect_opening hst address port lower) ho seg rfl⟩
    | accept l seg' release lower hi hpc hst =>
      subst hi
      cases step_move hs with
      | ret _ _ _ _ hr =>
        rw [hpc] at hr
        obtain rfl := Option.some.inj hr
        exact ⟨hst, Writes.entries (rxAccept_opening hst seg' lower) ho seg rfl⟩
      | call _ _ _ hc => cases hc

/-- The segments that handle `h` transmitted in a step. -/
def newlySent (h : Fin n) (x y : Stack n × Pc n) : List Segment :=
  (newEntries x y).filterMap (Obs.sentBy h)

theorem mem_newlySent : seg ∈ newlySent h x y ↔ .output h seg .success ∈ newEntries x y := by
  rw [newlySent, List.mem_filterMap]
  exact ⟨fun ⟨o, ho, hs⟩ => mem_sentBy.mp hs ▸ ho, fun ho => ⟨_, ho, mem_sentBy.mpr rfl⟩⟩

theorem step_log (hs : step x i = some y) : y.1.log = x.1.log ++ newEntries x y := by
  obtain ⟨-, new, hl, -⟩ := step_writes hs
  rw [newEntries_eq hl, hl]

theorem step_sent (hs : step x i = some y) (h : Fin n) :
    y.1.sent h = x.1.sent h ++ newlySent h x y := by
  rw [Stack.sent, step_log hs, List.filterMap_append]
  rfl

/-- A data segment is transmitted by a call on an established connection with nothing pending. -/
theorem data_sent (hs : step x i = some y) (ho : .output h seg ret ∈ newEntries x y)
    (hf : seg.flags = flagPsh ||| flagAck) : ∃ pid lower, i = .sendPacket h pid lower ∧
      (x.1.mem h).state = .established ∧ (x.1.mem h).lastTxPacket = none := by
  cases (step_writes hs).entries ho with
  | output _ flags _ _ hframes hflags =>
    rw [hflags] at hf
    cases hframes with
    | connect | close | reset | accept => exact absurd hf (by decide)
    | acknowledge _ _ _ _ _ hflags => rcases hflags with rfl | rfl <;> exact absurd hf (by decide)
    | sendPacket pid lower hi hst =>
      refine ⟨pid, lower, hi, hst, Option.not_isSome_iff_eq_none.mp fun hsome => ?_⟩
      subst hi
      cases step_move hs with
      | call _ m' _ hc =>
        obtain rfl := Option.some.inj hc
        have hsame : (sendPacket x.1 h pid lower).1.log = x.1.log ++ [] := by
          rw [sendPacket, if_pos hsome, List.append_nil]
        rw [newEntries_eq hsame] at ho
        cases ho

end Steps

end NanoIp.Tcp
