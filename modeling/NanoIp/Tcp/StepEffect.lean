import NanoIp.Tcp.ApiEffect

/-!
# The effects of received segments, timers and callbacks

The receive path and the periodic task change the connection of the handle they
work on in one of the ways of `Effect`. Together with the calls this gives
`step_effect`, the case analysis behind the invariants.
-/
namespace NanoIp.Tcp

variable {n : Nat}

theorem releaseLastTx_apart {m : Stack n} {h a : Fin n} (hne : h ≠ a) :
    Apart m (releaseLastTx m a) h := by
  unfold releaseLastTx
  cases (m.mem a).lastTxPacket with
  | none => exact (Apart.refl m h).modify hne _
  | some pid => exact ((Apart.refl m h).releasePacket pid).modify hne _

theorem releaseLastTx_becomes (m : Stack n) (h : Fin n) :
    Becomes m (releaseLastTx m h) h { (m.mem h).conn with lastTxPacket := none } [] := by
  have h0 := Untouched.refl m h
  unfold releaseLastTx
  cases (m.mem h).lastTxPacket with
  | none =>
    have hb := h0.becomes.modify (fun k => { k with lastTxPacket := none }) fun _ => rfl
    exact hb
  | some pid =>
    have hb := (h0.releasePacket pid).becomes.modify (fun k => { k with lastTxPacket := none })
      fun _ => rfl
    exact hb

section Segments

variable {x : Stack n × Pc n} {h a : Fin n} {i : Input n} {seg : Segment} {lower : Lower}

theorem resetConnection_apart {m : Stack n} (hne : h ≠ a) :
    Apart m (resetConnection m a lower).1 h :=
  ((((Apart.refl m h).setState hne .closed).sendControlFrame hne flagRst lower).removeHandle).raise
    hne _ _ _

theorem resetConnection_becomes (m : Stack n) (h : Fin n) (lower : Lower) :
    Becomes m (resetConnection m h lower).1 h { (m.mem h).conn with state := .closed }
      [(.closed, .failure, none)] :=
  (((((Untouched.refl m h).becomes.setState .closed).sendControlFrame flagRst
    lower).removeHandle).raise
    _ _ _)

theorem finWaitFin_apart {m : Stack n} (hne : h ≠ a) :
    Apart m (finWaitFin m a seg lower).1 h := by
  unfold finWaitFin
  dsimp only
  rw [sendControlFrame_eq]
  have h0 := ((Apart.refl m h).modify hne fun k => { k with
    ackNumber := seg.seqNumber + 1#32 }).sendControlFrame hne flagAck lower
  dsimp only
  split_ifs
  · exact (h0.setState hne _).startTimeout hne
  · exact h0

theorem controlResult_ack (m : Stack n) (ack : BitVec 32) :
    controlResult (m.modify h fun k => { k with ackNumber := ack }) h lower =
      controlResult m h lower :=
  controlResult_modify m h lower _ rfl rfl

theorem finWaitFin_steps (hp : Acknowledges x h i seg lower)
    (hs : (x.1.mem h).state = .finWait1 ∨ (x.1.mem h).state = .finWait2)
    (hf : seg.flags = flagFin ||| flagAck) : Steps x h i (finWaitFin x.1 h seg lower).1 := by
  unfold finWaitFin
  dsimp only
  rw [sendControlFrame_eq, controlResult_ack]
  have h0 := ((Untouched.refl x.1 h).becomes.modify (fun k => { k with
    ackNumber := seg.seqNumber + 1#32 }) fun _ => rfl).sendControlFrame (a := h) flagAck lower
  dsimp only
  split_ifs with hr
  · exact ⟨_, _, .finWait seg lower _ hp hs hf hr, (h0.setState .timeWait).startTimeout⟩
  · exact ⟨_, _, .finWaitRefused seg lower hp hs hf hr, h0⟩

theorem rxSynSent_apart {m : Stack n} (hne : h ≠ a) : Apart m (rxSynSent m a seg lower).1 h := by
  unfold rxSynSent
  split_ifs
  · dsimp only
    rw [sendControlFrame_eq]
    have h0 := ((Apart.refl m h).modify hne fun k => { k with
      ackNumber := seg.seqNumber + 1#32 }).sendControlFrame hne flagAck lower
    dsimp only
    split_ifs
    · exact (h0.setState hne _).raise hne _ _ _
    · exact h0
  · exact Apart.refl m h

theorem rxSynSent_steps (hp : Acknowledges x h i seg lower) (hs : (x.1.mem h).state = .synSent) :
    Steps x h i (rxSynSent x.1 h seg lower).1 := by
  unfold rxSynSent
  split_ifs with hf
  · dsimp only
    rw [sendControlFrame_eq, controlResult_ack]
    have h0 := ((Untouched.refl x.1 h).becomes.modify (fun k => { k with
      ackNumber := seg.seqNumber + 1#32 }) fun _ => rfl).sendControlFrame (a := h) flagAck lower
    dsimp only
    split_ifs with hr
    · exact ⟨_, _, .synAcknowledged seg lower hp hs hf hr, (h0.setState .established).raise _ _ _⟩
    · exact ⟨_, _, .synRefused seg lower hp hs hf hr, h0⟩
  · exact (Untouched.refl x.1 h).steps

theorem rxData_apart {m : Stack n} (hne : h ≠ a) : Apart m (rxData m a seg lower).1 h := by
  unfold rxData
  split_ifs
  · dsimp only
    rw [sendControlFrame_eq]
    have h0 := ((Apart.refl m h).modify hne fun k => { k with
      ackNumber := seg.nextSeq }).sendControlFrame hne flagAck lower
    dsimp only
    split_ifs
    · exact h0.raise hne _ _ _
    · exact h0
  · exact Apart.refl m h

theorem rxData_steps (hp : Acknowledges x h i seg lower) (hs : (x.1.mem h).state = .established)
    (hl : seg.payload.length ≠ 0) (hf : seg.flags = flagPsh ||| flagAck) :
    Steps x h i (rxData x.1 h seg lower).1 := by
  unfold rxData
  split_ifs with hseq
  · dsimp only
    rw [sendControlFrame_eq, controlResult_ack]
    have h0 := ((Untouched.refl x.1 h).becomes.modify (fun k => { k with
      ackNumber := seg.nextSeq }) fun _ => rfl).sendControlFrame (a := h) flagAck lower
    dsimp only
    split_ifs with hr
    · exact ⟨_, _, .data seg lower hp hs hl hf hseq hr, h0.raise _ _ _⟩
    · exact ⟨_, _, .dataRefused seg lower hp hs hl hf hseq hr, h0⟩
  · exact (Untouched.refl x.1 h).steps

theorem rxFin_apart {m : Stack n} (hne : h ≠ a) : Apart m (rxFin m a seg lower).1 h := by
  unfold rxFin
  dsimp only
  rw [sendControlFrame_eq]
  have h0 := ((Apart.refl m h).modify hne fun k => { k with
    ackNumber := seg.seqNumber + 1#32 }).sendControlFrame hne (flagFin ||| flagAck) lower
  dsimp only
  split_ifs
  · exact (h0.modify hne _).startTimeout hne
  · exact h0

theorem rxFin_steps (hp : Acknowledges x h i seg lower) (hs : (x.1.mem h).state = .established)
    (hf : seg.flags = flagFin ||| flagAck) : Steps x h i (rxFin x.1 h seg lower).1 := by
  unfold rxFin
  dsimp only
  rw [sendControlFrame_eq, controlResult_ack]
  have h0 := ((Untouched.refl x.1 h).becomes.modify (fun k => { k with
    ackNumber := seg.seqNumber + 1#32 }) fun _ => rfl).sendControlFrame (a := h)
      (flagFin ||| flagAck) lower
  dsimp only
  split_ifs with hr
  · have h1 := (h0.modify (fun k => { k with state := .closeWait, seqNumber := k.seqNumber + 1#32 })
      fun _ => rfl).startTimeout
    exact ⟨_, _, .fin seg lower _ hp hs hf hr, h1⟩
  · exact ⟨_, _, .finRefused seg lower hp hs hf hr, h0⟩

theorem rxEstablished_apart {m : Stack n} (hne : h ≠ a) :
    Apart m (rxEstablished m a seg lower).1 h := by
  unfold rxEstablished
  split_ifs
  · exact rxData_apart hne
  · exact (releaseLastTx_apart hne).raise hne _ _ _
  · exact rxFin_apart hne
  · exact Apart.refl m h

theorem rxEstablished_steps (hp : Acknowledges x h i seg lower)
    (hs : (x.1.mem h).state = .established) :
    Steps x h i (rxEstablished x.1 h seg lower).1 := by
  unfold rxEstablished
  split_ifs with hd ha hf
  · exact rxData_steps hp hs hd.1 hd.2
  · obtain ⟨pid, hpid⟩ := Option.isSome_iff_exists.mp ha.1
    exact ⟨_, _, .acked seg lower pid hp hs hpid ha.2, (releaseLastTx_becomes x.1 h).raise _ _ _⟩
  · exact rxFin_steps hp hs hf
  · exact (Untouched.refl x.1 h).steps

theorem rxStateMachine_apart {m : Stack n} (hne : h ≠ a) :
    Apart m (rxStateMachine m a seg lower).1 h := by
  have h0 := Apart.refl m h
  unfold rxStateMachine
  cases (m.mem a).state with
  | listen =>
    dsimp only
    split_ifs
    · exact h0.raise hne _ _ _
    · exact h0
  | synReceived =>
    dsimp only
    split_ifs
    · exact (h0.setState hne _).raise hne _ _ _
    · exact h0
  | synSent => exact rxSynSent_apart hne
  | established => exact rxEstablished_apart hne
  | closeWait =>
    dsimp only
    split_ifs
    · exact ((h0.setState hne _).removeHandle).raise hne _ _ _
    · exact h0
  | finWait1 =>
    dsimp only
    split_ifs
    · exact (h0.setState hne _).startTimeout hne
    · exact finWaitFin_apart hne
    · exact h0
  | finWait2 =>
    dsimp only
    split_ifs
    · exact finWaitFin_apart hne
    · exact h0
  | idle => exact h0
  | closed => exact h0
  | closing => exact resetConnection_apart hne
  | lastAck => exact resetConnection_apart hne
  | timeWait => exact resetConnection_apart hne

/-- Outside LISTEN the state machine is entered only by a matching acknowledgement. -/
theorem rxStateMachine_steps (hp : Processes x h i seg lower)
    (ha : (x.1.mem h).state = .listen ∨ seg.ackNumber = (x.1.mem h).seqNumber) :
    Steps x h i (rxStateMachine x.1 h seg lower).1 := by
  have h0 := Untouched.refl x.1 h
  have hack (hs : (x.1.mem h).state ≠ .listen) : Acknowledges x h i seg lower :=
    ⟨hp, ha.resolve_left hs⟩
  unfold rxStateMachine
  cases hs : (x.1.mem h).state with
  | listen =>
    dsimp only
    split_ifs with hf
    · exact ⟨_, _, .accepting seg lower hp hs hf, h0.becomes.raise _ _ _⟩
    · exact h0.steps
  | synReceived =>
    dsimp only
    split_ifs with hf
    · exact ⟨_, _, .accepted seg lower (hack (by rw [hs]; decide)) hs hf,
        (h0.becomes.setState .established).raise _ _ _⟩
    · exact h0.steps
  | synSent => exact rxSynSent_steps (hack (by rw [hs]; decide)) hs
  | established => exact rxEstablished_steps (hack (by rw [hs]; decide)) hs
  | closeWait =>
    dsimp only
    split_ifs with hf
    · exact ⟨_, _, .closeAcknowledged seg lower (hack (by rw [hs]; decide)) hs hf,
        ((h0.becomes.setState .closed).removeHandle).raise _ _ _⟩
    · exact h0.steps
  | finWait1 =>
    dsimp only
    split_ifs with hf hf'
    · exact ⟨_, _, .finAcknowledged seg lower _ (hack (by rw [hs]; decide)) hs hf,
        (h0.becomes.setState .finWait2).startTimeout⟩
    · exact finWaitFin_steps (hack (by rw [hs]; decide)) (.inl hs) hf'
    · exact h0.steps
  | finWait2 =>
    dsimp only
    split_ifs with hf
    · exact finWaitFin_steps (hack (by rw [hs]; decide)) (.inr hs) hf
    · exact h0.steps
  | idle => exact h0.steps
  | closed => exact h0.steps
  | closing =>
    have hne : (x.1.mem h).state ≠ .listen := by rw [hs]; decide
    exact ⟨_, _, .invalid seg lower hp ⟨hne, .inr ⟨(hack hne).2, .inl hs⟩⟩,
      resetConnection_becomes _ _ _⟩
  | lastAck =>
    have hne : (x.1.mem h).state ≠ .listen := by rw [hs]; decide
    exact ⟨_, _, .invalid seg lower hp ⟨hne, .inr ⟨(hack hne).2, .inr (.inl hs)⟩⟩,
      resetConnection_becomes _ _ _⟩
  | timeWait =>
    have hne : (x.1.mem h).state ≠ .listen := by rw [hs]; decide
    exact ⟨_, _, .invalid seg lower hp ⟨hne, .inr ⟨(hack hne).2, .inr (.inr hs)⟩⟩,
      resetConnection_becomes _ _ _⟩

theorem rxAcknowledge_apart {m : Stack n} (hne : h ≠ a) :
    Apart m (rxAcknowledge m a seg lower).1 h := by
  unfold rxAcknowledge
  split_ifs
  · exact rxStateMachine_apart hne
  · exact resetConnection_apart hne
  · exact Apart.refl m h

theorem rxAcknowledge_steps (hp : Processes x h i seg lower) :
    Steps x h i (rxAcknowledge x.1 h seg lower).1 := by
  unfold rxAcknowledge
  split_ifs with ha hgt
  · exact rxStateMachine_steps hp ha
  · exact ⟨_, _, .invalid seg lower hp ⟨fun hl => ha (.inl hl), .inl hgt⟩,
      resetConnection_becomes _ _ _⟩
  · exact (Untouched.refl x.1 h).steps

theorem rxFrame_steps (hpc : x.2 = .ready) :
    Steps x h (.rxFrame seg lower) (rxFrame x.1 seg lower).1 := by
  unfold rxFrame
  cases hl : lookup x.1 seg with
  | none => exact (Untouched.refl x.1 h).steps
  | some a =>
    dsimp only
    unfold rxHandle
    have h0 := Untouched.refl x.1 h
    by_cases hne : h = a
    · subst hne
      split_ifs with hr
      · exact ⟨_, _, .reset seg lower rfl hpc hl hr,
          ((h0.becomes.setState .closed).removeHandle).raise _ _ _⟩
      · exact rxAcknowledge_steps (.inl ⟨rfl, hpc, hl, hr⟩)
    · split_ifs with hr
      · exact (((h0.setState hne _).removeHandle).raise hne _ _ _).steps
      · exact (rxAcknowledge_apart hne).untouched.steps

end Segments

variable {x y : Stack n × Pc n} {h : Fin n}

theorem rxAccept_steps {l : Fin n} {seg : Segment} (hpc : x.2 = .inAccepting l seg) (release : Bool)
    (accept : Option (Fin n)) (lower : Lower) :
    Steps x h (.ret release accept lower) (rxAccept x.1 l seg accept lower).1 := by
  have h0 := Untouched.refl x.1 h
  unfold rxAccept
  cases accept with
  | none => exact h0.steps
  | some a =>
    dsimp only
    by_cases hs : (x.1.mem a).state = .idle
    · rw [if_pos hs, sendControlFrame_eq]
      dsimp only
      set f : Handle n → Handle n := fun k => { k with
        ipv4Address := seg.destAddress, port := seg.destPort
        destIpv4Address := seg.srcAddress, destPort := seg.srcPort } with hf
      set g : Handle n → Handle n := fun k =>
        { k with seqNumber := (x.1.modify a f).msCounter } with hg
      by_cases hne : h = a
      · subst hne
        have h1 : ∃ seqNumber, Becomes x.1 (((x.1.modify h f).modify l g).modify h fun k =>
            { k with ackNumber := seg.seqNumber + 1#32 }) h { (x.1.mem h).conn with
              ipv4Address := seg.destAddress, port := seg.destPort
              destIpv4Address := seg.srcAddress, destPort := seg.srcPort
              seqNumber := seqNumber, ackNumber := seg.seqNumber + 1#32 } [] := by
          have hb := h0.becomes.modify f fun _ => rfl
          by_cases hla : h = l
          · subst hla
            exact ⟨_, (hb.modify g fun _ => rfl).modify _ fun _ => rfl⟩
          · exact ⟨_, (hb.then_untouched ((Untouched.refl _ h).modify hla g)).modify _ fun _ => rfl⟩
        obtain ⟨seqNumber, h1⟩ := h1
        have h2 := h1.sendControlFrame (a := h) (flagSyn ||| flagAck) lower
        split_ifs with hr
        · have h3 := (h2.modify (fun k => { k with
            state := .synReceived, seqNumber := k.seqNumber + 1#32 }) fun _ => rfl).startTimeout_at
            (sendControlFrame_time _ _ _ _ (by rw [sendControlFrame_ret, hr]; rfl))
          exact ⟨_, _, .answered l seg release lower _ rfl hpc hs, h3⟩
        · exact ⟨_, _, .answerRefused l seg release lower _ rfl hpc hs, h2⟩
      · have h1 : ∃ seqNumber, (seqNumber = (x.1.mem h).seqNumber ∨ h = l) ∧
            Becomes x.1 (((x.1.modify a f).modify l g).modify a fun k =>
              { k with ackNumber := seg.seqNumber + 1#32 }) h
              { (x.1.mem h).conn with seqNumber := seqNumber } [] := by
          have hu := h0.modify hne f
          by_cases hla : h = l
          · subst hla
            exact ⟨_, .inr rfl, (hu.becomes.modify g fun _ => rfl).then_untouched
              ((Untouched.refl _ h).modify hne _)⟩
          · exact ⟨_, .inl rfl, ((hu.modify hla g).modify hne _).becomes⟩
        obtain ⟨seqNumber, hseq, h1⟩ := h1
        have h2 := h1.sendControlFrame (a := a) (flagSyn ||| flagAck) lower
        have h3 : Effect x h (.ret release (some a) lower)
            { (x.1.mem h).conn with seqNumber := seqNumber } [] := by
          rcases hseq with rfl | rfl
          · exact .same
          · exact .listener seg release (some a) lower seqNumber rfl hpc
              fun he => hne (Option.some.inj he).symm
        split_ifs
        · exact ⟨_, _, h3, h2.then_untouched (((Untouched.refl _ h).modify hne _).startTimeout hne)⟩
        · exact ⟨_, _, h3, h2⟩
    · rw [if_neg hs]
      by_cases hne : h = a
      · subst hne
        exact ⟨_, _, .acceptFailed l seg release lower rfl hpc hs, h0.becomes.raise _ _ _⟩
      · exact (h0.raise hne _ _ _).steps

theorem recordHanded_untouched (m : Stack n) (a : Fin n) (pid : PacketId) (sent : Ipv4.Sent) :
    Untouched m (recordHanded m a pid sent) h :=
  ⟨by rw [recordHanded_mem], recordHanded_eventsOf _ _ _ _ _⟩

theorem ipv4Change_untouched {m : Stack n} {a : Fin n} (f : Ipv4.Handle → Ipv4.Handle) :
    Untouched m (m.modify a fun k => { k with ipv4Handle := f k.ipv4Handle }) h := by
  refine ⟨?_, Stack.eventsOf_congr rfl h⟩
  by_cases hne : h = a
  · subst hne
    rw [Stack.modify_self]
    rfl
  · rw [Stack.modify_of_ne _ _ hne]

theorem ipv4ErrorCallback_becomes (m : Stack n) (h : Fin n) (error : Err) :
    Becomes m (ipv4ErrorCallback m h error).1 h (m.mem h).conn
      (if error = .success then
        if (m.mem h).state = .established then [(.tx, .success, none)] else []
      else [(.txFailed, error, none)]) := by
  have h0 := (Untouched.refl m h).becomes
  unfold ipv4ErrorCallback
  split_ifs
  · exact h0.raise _ _ _
  · exact h0
  · exact h0.raise _ _ _

theorem ipv4ErrorCallback_untouched {m : Stack n} {a : Fin n} (hne : h ≠ a) (error : Err) :
    Untouched m (ipv4ErrorCallback m a error).1 h := by
  have h0 := Untouched.refl m h
  unfold ipv4ErrorCallback
  split_ifs
  · exact h0.raise hne _ _ _
  · exact h0
  · exact h0.raise hne _ _ _

/-- The answer to an ARP request ends in the error callback of the IPv4 handle; a
request without an address ends in a failure. -/
theorem arpResponse_cases (m : Stack n) (a : Fin n) (mac : Option MacAddress) (driver : Err) :
    arpResponse m a mac driver = (m, .ready) ∨
    ∃ m' error, (∀ h, Untouched m m' h) ∧ arpResponse m a mac driver =
      ipv4ErrorCallback m' a error ∧
      (mac = none → error = .arpFailure) := by
  unfold arpResponse
  cases (m.mem a).ipv4Handle.packet with
  | none => exact .inl rfl
  | some pid =>
    cases mac with
    | none =>
      exact .inr ⟨_, _, fun h => ((Untouched.refl m h).releasePacket pid).trans
        (ipv4Change_untouched fun ip => { ip with busy := false }), rfl, fun _ => rfl⟩
    | some mac =>
      refine .inr ⟨_, _, fun h => ?_, rfl, fun hm => absurd hm (Option.some_ne_none mac)⟩
      exact (Untouched.trans (ipv4Change_untouched (m := m) (a := a) fun _ => _)
        ⟨rfl, Stack.eventsOf_congr rfl h⟩).trans (recordHanded_untouched _ _ _ _)

theorem arpResponse_steps {a : Fin n} (mac : Option MacAddress) (driver : Err) :
    Steps x h (.arpResponse a mac driver) (arpResponse x.1 a mac driver).1 := by
  rcases arpResponse_cases x.1 a mac driver with he | ⟨m', error, hu, he, -⟩
  · rw [he]
    exact (Untouched.refl x.1 h).steps
  · rw [he]
    by_cases hne : h = a
    · subst hne
      have hb := (hu h).then_becomes (ipv4ErrorCallback_becomes m' h error)
      rw [(hu h).1, (hu h).state] at hb
      split_ifs at hb with hok hs
      · exact ⟨_, _, .arpSent mac driver rfl hs, hb⟩
      · exact ⟨_, _, .same, hb⟩
      · exact ⟨_, _, .arpFailed mac driver error rfl, hb⟩
    · exact ((hu h).trans (ipv4ErrorCallback_untouched hne error)).steps

theorem releaseHandle_steps {a : Fin n} (pending : Bool) :
    Steps x h (.releaseHandle a pending) (releaseHandle x.1 a pending).1 := by
  unfold releaseHandle
  split_ifs with hc
  · obtain ⟨hst, hbusy, rfl⟩ := hc
    rcases arpResponse_cases x.1 a none .success with he | ⟨m', error, hu, he, hfail⟩
    · rw [he]
      exact (Untouched.refl x.1 h).steps
    · obtain rfl := hfail rfl
      rw [he]
      by_cases hne : h = a
      · subst hne
        have hb := (hu h).then_becomes (ipv4ErrorCallback_becomes m' h .arpFailure)
        rw [(hu h).1] at hb
        exact ⟨_, _, .cancelled rfl hbusy hst, hb⟩
      · exact ((hu h).trans (ipv4ErrorCallback_untouched hne _)).steps
  · exact (Untouched.refl x.1 h).steps

theorem abortConnection_untouched {m : Stack n} {a : Fin n} (hne : h ≠ a) (event : Event)
    (error : Stack n → Err) : Untouched m (abortConnection m a event error) h :=
  (((Untouched.refl m h).setState hne .closed).removeHandle).raise hne _ _ _

theorem abortConnection_becomes (m : Stack n) (h : Fin n) (event : Event) (error : Stack n → Err) :
    Becomes m (abortConnection m h event error) h { (m.mem h).conn with state := .closed }
      [(event, error ((m.setState h .closed).removeHandle h), none)] :=
  ((Untouched.refl m h).becomes.setState .closed).removeHandle.raise _ _ _

theorem closingError_closed (m : Stack n) (h : Fin n) :
    closingError h ((m.setState h .closed).removeHandle h) = .timeout := by
  have hc : (((m.setState h .closed).removeHandle h).mem h).state = .closed := by
    change ((m.setState h .closed).mem h).state = .closed
    rw [Stack.setState_self]
  rw [closingError, hc]
  rfl

theorem resendPacket_mem (m : Stack n) (h : Fin n) (pid : PacketId) (lower : Lower) :
    ∃ ip, (resendPacket m h pid lower).mem = Function.update m.mem h { m.mem h with
      ipv4Handle := ip, stateTimeout := (m.mem h).stateTimeout + stateTimeoutMs } := by
  unfold resendPacket
  simp only [recordHanded_mem, Stack.record_mem, Stack.wait_mem]
  exact ⟨_, rfl⟩

theorem resendPacket_eventsOf (m : Stack n) (a : Fin n) (pid : PacketId) (lower : Lower)
    (h : Fin n) :
    (resendPacket m a pid lower).eventsOf h = m.eventsOf h := by
  unfold resendPacket
  simp only [recordHanded_eventsOf]
  simp [Stack.eventsOf, Stack.wait]

theorem resendPacket_untouched {m : Stack n} {a : Fin n} (hne : h ≠ a) (pid : PacketId)
    (lower : Lower) :
    Untouched m (resendPacket m a pid lower) h := by
  obtain ⟨ip, hm⟩ := resendPacket_mem m a pid lower
  exact ⟨by rw [hm, Function.update_of_ne hne], resendPacket_eventsOf _ _ _ _ _⟩

theorem resendPacket_becomes (m : Stack n) (h : Fin n) (pid : PacketId) (lower : Lower) :
    Becomes m (resendPacket m h pid lower) h
      { (m.mem h).conn with stateTimeout := (m.mem h).stateTimeout + stateTimeoutMs } [] := by
  obtain ⟨ip, hm⟩ := resendPacket_mem m h pid lower
  refine ⟨?_, by rw [resendPacket_eventsOf, List.append_nil]⟩
  rw [hm, Function.update_self]
  rfl

theorem retryPacket_untouched {m : Stack n} {a : Fin n} (hne : h ≠ a) (pid : PacketId)
    (timestamp : BitVec 32) (lower : Lower) :
    Untouched m (retryPacket m a pid timestamp lower).1 h := by
  have h0 := (Untouched.refl m h).modify hne fun k =>
    { k with txRetryCount := k.txRetryCount + 1#8 }
  unfold retryPacket
  dsimp only
  split_ifs
  · exact h0.trans ((((releaseLastTx_apart hne).setState hne .closed).removeHandle).raise hne _ _
      _).untouched
  · exact h0.trans (resendPacket_untouched hne pid lower)

theorem retryPacket_steps {timestamp : BitVec 32} {pid : PacketId} {lower : Lower}
    (hpc : x.2 = .tick (some h) timestamp) (ht : (x.1.mem h).stateTimeout ≤ timestamp)
    (hs : (x.1.mem h).state = .established) (hp : (x.1.mem h).lastTxPacket = some pid) :
    Steps x h (.visit lower) (retryPacket x.1 h pid timestamp lower).1 := by
  have h0 := (Untouched.refl x.1 h).becomes.modify
    (fun k => { k with txRetryCount := k.txRetryCount + 1#8 }) fun _ => rfl
  unfold retryPacket
  dsimp only
  rw [Stack.modify_self]
  split_ifs with hr
  · have h1 := (((releaseLastTx_becomes (x.1.modify h fun k => { k with
      txRetryCount := k.txRetryCount + 1#8 }) h).setState .closed).removeHandle (a := h)).raise
        .txFailed .timeout none
    rw [Stack.modify_self] at h1
    exact ⟨_, _, .exhausted timestamp lower pid rfl hpc ht hs hp hr, h0.append h1⟩
  · have h1 := resendPacket_becomes (x.1.modify h fun k => { k with
      txRetryCount := k.txRetryCount + 1#8 }) h pid lower
    rw [Stack.modify_self] at h1
    exact ⟨_, _, .resent timestamp lower pid rfl hpc ht hs hp hr, h0.append h1⟩

theorem visit_untouched {m : Stack n} {a : Fin n} (hne : h ≠ a) (timestamp : BitVec 32)
    (lower : Lower) :
    Untouched m (visit m a timestamp lower).1 h := by
  have h0 := Untouched.refl m h
  unfold visit
  cases (m.mem a).state with
  | synSent | synReceived | closeWait | finWait1 | finWait2 | timeWait =>
    dsimp only
    split_ifs
    · exact abortConnection_untouched hne _ _
    · exact h0
  | established =>
    cases (m.mem a).lastTxPacket with
    | none => exact h0
    | some pid =>
      dsimp only
      split_ifs
      · exact retryPacket_untouched hne pid timestamp lower
      · exact h0
  | closed | listen | closing | lastAck | idle => exact h0

theorem visit_steps {a : Fin n} {timestamp : BitVec 32} {lower : Lower}
    (hpc : x.2 = .tick (some a) timestamp) :
    Steps x h (.visit lower) (visit x.1 a timestamp lower).1 := by
  by_cases hne : h = a
  · subst hne
    have h0 := Untouched.refl x.1 h
    unfold visit
    cases hs : (x.1.mem h).state with
    | synSent =>
      dsimp only
      split_ifs with ht
      · exact ⟨_, _, .timedOut timestamp lower .connectTimeout rfl hpc ht (.inl ⟨hs, rfl⟩),
          abortConnection_becomes _ _ _ _⟩
      · exact h0.steps
    | synReceived =>
      dsimp only
      split_ifs with ht
      · exact ⟨_, _, .timedOut timestamp lower .acceptFailed rfl hpc ht (.inr (.inl ⟨hs, rfl⟩)),
          abortConnection_becomes _ _ _ _⟩
      · exact h0.steps
    | closeWait | finWait1 | finWait2 | timeWait =>
      dsimp only
      split_ifs with ht
      · have hb := abortConnection_becomes x.1 h .closed (closingError h)
        rw [closingError_closed] at hb
        exact ⟨_, _, .timedOut timestamp lower .closed rfl hpc ht (by simp [hs]), hb⟩
      · exact h0.steps
    | established =>
      cases hl : (x.1.mem h).lastTxPacket with
      | none => exact h0.steps
      | some pid =>
        dsimp only
        split_ifs with ht
        · exact retryPacket_steps hpc ht hs hl
        · exact h0.steps
    | closed | listen | closing | lastAck | idle => exact h0.steps
  · exact (visit_untouched hne timestamp lower).steps

theorem resume_steps {release : Bool} {accept : Option (Fin n)} {lower : Lower}
    (hr : resume x.1 release accept lower x.2 = some y) :
    Steps x h (.ret release accept lower) y.1 := by
  have h0 := Untouched.refl x.1 h
  cases hpc : x.2 with
  | ready => rw [hpc] at hr; cases hr
  | tick current timestamp => rw [hpc] at hr; cases hr
  | inReset a seg =>
    rw [hpc] at hr
    obtain rfl := Option.some.inj hr
    by_cases hne : h = a
    · subst hne
      exact rxAcknowledge_steps (.inr ⟨release, accept, seg.2, rfl, hpc⟩)
    · exact (rxAcknowledge_apart hne).untouched.steps
  | inAccepting l seg =>
    rw [hpc] at hr
    obtain rfl := Option.some.inj hr
    exact rxAccept_steps hpc release accept lower
  | inRx seg =>
    rw [hpc] at hr
    obtain rfl := Option.some.inj hr
    refine Untouched.steps ?_
    split
    · exact h0
    · exact ⟨rfl, by simp [Stack.eventsOf]⟩
  | inCallback =>
    rw [hpc] at hr
    obtain rfl := Option.some.inj hr
    exact h0.steps
  | inTick a timestamp =>
    rw [hpc] at hr
    obtain rfl := Option.some.inj hr
    exact h0.steps
  | inTxFailed a timestamp =>
    rw [hpc] at hr
    obtain rfl := Option.some.inj hr
    by_cases hne : h = a
    · subst hne
      exact ⟨_, _, .failedClosed timestamp release accept lower rfl hpc, h0.becomes.raise _ _ _⟩
    · exact (h0.raise hne _ _ _).steps

theorem call_steps {i : Input n} {m' : Stack n} (hc : call x.1 i = some m') : Steps x h i m' := by
  have h0 := Untouched.refl x.1 h
  cases i with
  | open_ a localPort readings =>
    obtain ⟨r, hr, rfl⟩ := Option.map_eq_some_iff.mp hc
    exact open_steps hr
  | bind a address port => obtain rfl := Option.some.inj hc; exact bind_steps a address port
  | connect a address port lower => obtain rfl := Option.some.inj hc; exact connect_steps a address port lower
  | listen a => obtain rfl := Option.some.inj hc; exact listen_steps a
  | close a lower => obtain rfl := Option.some.inj hc; exact close_steps a lower
  | allocatePacket answer size =>
    obtain rfl := Option.some.inj hc
    exact Untouched.steps
      ⟨by rw [allocatePacket_mem], Stack.eventsOf_congr (allocatePacket_log _ _ _) h⟩
  | writePacket pid bs => obtain rfl := Option.some.inj hc; exact h0.steps
  | sendPacket a pid lower => obtain rfl := Option.some.inj hc; exact sendPacket_steps a pid lower
  | releasePacket pid => obtain rfl := Option.some.inj hc; exact (h0.releasePacket pid).steps
  | elapse ms => obtain rfl := Option.some.inj hc; exact h0.steps
  | _ => cases hc

/-- Every step changes the connection of every handle in one of the ways of `Effect`. -/
theorem step_effect {i : Input n} (hs : step x i = some y) (h : Fin n) :
    ∃ k new, Effect x h i k new ∧ (y.1.mem h).conn = k ∧ y.1.eventsOf h =
      x.1.eventsOf h ++ new := by
  have h0 := Untouched.refl x.1 h
  change Steps x h i y.1
  cases step_move hs with
  | rxFrame seg lower hpc => exact rxFrame_steps hpc
  | arpResponse a mac driver => exact arpResponse_steps mac driver
  | periodicTask => exact h0.steps
  | visit lower a timestamp hpc => exact visit_steps hpc
  | visited => exact h0.steps
  | ret release accept lower _ hr => exact resume_steps hr
  | releaseHandle a pending => exact releaseHandle_steps pending
  | call _ m' _ hc => exact call_steps hc

/-- Where a step can take the state of a handle, with the inputs that begin a connection. -/
inductive Goes (x : Stack n × Pc n) (i : Input n) (h : Fin n) : State → State → Prop
  | same (s : State) : Goes x i h s s
  | closed (s : State) : Goes x i h s .closed
  | opened (localPort : BitVec 16) (readings : List Nat) : i = .open_ h localPort readings →
      Goes x i h .closed .idle
  | listening : i = .listen h → Goes x i h .idle .listen
  | connected (address : Ipv4Address) (port : BitVec 16) (lower : Lower) :
      i = .connect h address port lower →
      Goes x i h .idle .synSent
  | answered (l : Fin n) (seg : Segment) (release : Bool) (lower : Lower) :
      i = .ret release (some h) lower →
      x.2 = .inAccepting l seg → Goes x i h .idle .synReceived
  | synAcknowledged : Goes x i h .synSent .established
  | accepted : Goes x i h .synReceived .established
  | fin : Goes x i h .established .closeWait
  | finAcknowledged : Goes x i h .finWait1 .finWait2
  | finWait (s : State) : s = .finWait1 ∨ s = .finWait2 → Goes x i h s .timeWait

theorem step_goes {i : Input n} (hs : step x i = some y) (h : Fin n) :
    Goes x i h (x.1.mem h).state (y.1.mem h).state := by
  obtain ⟨k, new, heff, hk, -⟩ := step_effect hs h
  have hst : (y.1.mem h).state = k.state := by rw [← hk]; rfl
  rw [hst]
  cases heff with
  | opened localPort _ readings hi hx => rw [hx]; exact .opened localPort readings hi
  | listening hi hx => rw [hx]; exact .listening hi
  | connected address port lower hi hx => rw [hx]; exact .connected address port lower hi
  | answered l seg release lower _ hi hpc hx => rw [hx]; exact .answered l seg release lower hi hpc
  | synAcknowledged _ _ _ hx => rw [hx]; exact .synAcknowledged
  | accepted _ _ _ hx => rw [hx]; exact .accepted
  | fin _ _ _ _ hx => rw [hx]; exact .fin
  | finAcknowledged _ _ _ _ hx => rw [hx]; exact .finAcknowledged
  | finWait _ _ _ _ hx => exact .finWait _ hx
  | closedByCall | reset | invalid | closeAcknowledged | timedOut | exhausted => exact .closed _
  | _ => exact .same _

end NanoIp.Tcp
