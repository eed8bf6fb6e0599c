import NanoIp.Tcp.Effect

/-!
# The effects of the calls of the interface

Each call changes the connection of the handle it is made on in one of the ways of
`Effect`, and leaves the other handles alone.
-/
namespace NanoIp.Tcp

variable {n : Nat}

/-- The step changed the connection of `h` and raised events on it as `Effect` says. -/
def Steps (x : Stack n × Pc n) (h : Fin n) (i : Input n) (m' : Stack n) : Prop :=
  ∃ k new, Effect x h i k new ∧ Becomes x.1 m' h k new

theorem Untouched.steps {x : Stack n × Pc n} {h : Fin n} {i : Input n} {m' : Stack n}
    (hu : Untouched x.1 m' h) : Steps x h i m' := ⟨_, _, .same, hu.becomes⟩

section SendControlFrame

variable (m : Stack n) (h : Fin n) (flags : Byte) (lower : Lower)

theorem sendControlFrame_eq : sendControlFrame m h flags lower =
    ((sendControlFrame m h flags lower).1, controlResult m h lower) :=
  Prod.ext rfl (sendControlFrame_ret _ _ _ _)

theorem controlResult_modify (f : Handle n → Handle n)
    (hip : (f (m.mem h)).ipv4Handle = (m.mem h).ipv4Handle)
    (hd : (f (m.mem h)).destIpv4Address = (m.mem h).destIpv4Address) :
    controlResult (m.modify h f) h lower = controlResult m h lower := by
  simp only [controlResult, Stack.modify_self, Stack.modify_allocated,
    Stack.modify_packets, hip, hd]

end SendControlFrame

section Open

variable {m m' : Stack n} {a h : Fin n} {address : Ipv4Address} {port : BitVec 16} {ret : Err}

theorem bind_cases (hb : bind m a address port = (m', ret)) :
    (ret = .success ∧ port ≠ 0#16 ∧ (m.mem a).state = .idle ∧
      m' = m.modify a fun k => { k with ipv4Address := address, port := port }) ∨
    (ret ≠ .success ∧ m' = m) := by
  unfold bind at hb
  split_ifs at hb with hp hs hu
  all_goals obtain ⟨rfl, rfl⟩ := Prod.mk.inj hb
  · exact .inr ⟨by decide, rfl⟩
  · exact .inr ⟨by decide, rfl⟩
  · exact .inl ⟨rfl, hp, hs, rfl⟩
  · exact .inr ⟨by decide, rfl⟩

theorem bind_untouched (m : Stack n) (address : Ipv4Address) (port : BitVec 16) (hne : h ≠ a) :
    Untouched m (bind m a address port).1 h := by
  rcases hb : bind m a address port with ⟨m', ret⟩
  dsimp only
  rcases bind_cases hb with ⟨-, -, -, rfl⟩ | ⟨-, rfl⟩
  · exact (Untouched.refl m h).modify hne _
  · exact Untouched.refl m' h

theorem nextPort_untouched (m : Stack n) (ms : Nat) (h : Fin n) :
    Untouched m (nextPort (m.wait ms)) h :=
  ⟨rfl, Stack.eventsOf_congr rfl h⟩

theorem openLoop_untouched (hne : h ≠ a) (readings : List Nat) :
    ∀ {m : Stack n}, openLoop m a readings = some (m', ret) → Untouched m m' h := by
  induction readings with
  | nil => intro m ho; cases ho
  | cons ms readings ih =>
    intro m ho
    rcases hb : bind m a 0#32 m.nextFreeLocalPort with ⟨m₁, r⟩
    have hu : Untouched m (nextPort (m₁.wait ms)) h := by
      have h₁ := bind_untouched m 0#32 m.nextFreeLocalPort hne
      rw [hb] at h₁
      exact h₁.trans (nextPort_untouched m₁ ms h)
    simp only [openLoop, hb] at ho
    split_ifs at ho with hp
    · exact hu.trans (ih ho)
    · obtain ⟨rfl, rfl⟩ := Prod.mk.inj (Option.some.inj ho)
      exact hu

/-- The loop ends only with a port, which only a successful bind sets. -/
theorem openLoop_becomes (readings : List Nat) :
    ∀ {m : Stack n}, (m.mem a).port = 0#16 → openLoop m a readings = some (m', ret) →
      ret = .success ∧ ∃ port, Becomes m m' a { (m.mem a).conn with
        ipv4Address := 0#32,
        port := port } [] := by
  induction readings with
  | nil => intro m _ ho; cases ho
  | cons ms readings ih =>
    intro m hm ho
    rcases hb : bind m a 0#32 m.nextFreeLocalPort with ⟨m₁, r⟩
    simp only [openLoop, hb] at ho
    have hu := nextPort_untouched m₁ ms a
    rcases bind_cases hb with ⟨rfl, hp, -, rfl⟩ | ⟨-, rfl⟩
    · have hport : ((nextPort ((m.modify a fun k => { k with
          ipv4Address := 0#32, port := m.nextFreeLocalPort }).wait ms)).mem a).port =
            m.nextFreeLocalPort := by
        simp only [nextPort, Stack.wait_mem, Stack.modify_self]
      rw [hport, if_neg hp] at ho
      obtain ⟨rfl, rfl⟩ := Prod.mk.inj (Option.some.inj ho)
      exact ⟨rfl, m.nextFreeLocalPort,
        ((Untouched.refl m a).becomes.modify _ fun _ => rfl).then_untouched hu⟩
    · have hport : ((nextPort (m₁.wait ms)).mem a).port = 0#16 := hm
      rw [if_pos hport] at ho
      obtain ⟨hr, p, hbec⟩ := ih hport ho
      exact ⟨hr, p, hu.then_becomes hbec⟩

theorem finishOpen_untouched (hne : h ≠ a) : Untouched m (finishOpen m a ret).1 h := by
  unfold finishOpen
  split_ifs
  · exact ((Untouched.refl m h).modify hne fun k =>
      { k with state := .idle, next := m.handles }).trans
      ⟨rfl, Stack.eventsOf_congr rfl h⟩
  · exact (Untouched.refl m h).setState hne _

theorem finishOpen_success {k : Handle n} {m₀ : Stack n} (hb : Becomes m₀ m a k []) :
    Becomes m₀ (finishOpen m a .success).1 a { k.conn with state := .idle } [] :=
  (hb.modify (fun k => { k with state := .idle, next := m.handles }) fun _ => rfl).then_untouched
    ⟨rfl, Stack.eventsOf_congr rfl a⟩

theorem finishOpen_refused {k : Handle n} {m₀ : Stack n} (hr : ret ≠ .success)
    (hb : Becomes m₀ m a k []) :
    Becomes m₀ (finishOpen m a ret).1 a { k.conn with state := .closed } [] := by
  unfold finishOpen
  rw [if_neg hr]
  exact hb.setState _

end Open

variable {x : Stack n × Pc n} {h : Fin n}

theorem open_steps {a : Fin n} {localPort : BitVec 16} {readings : List Nat} {r : Stack n × Err}
    (ho : open_ x.1 a localPort readings = some r) :
    Steps x h (.open_ a localPort readings) r.1 := by
  unfold open_ at ho
  by_cases hs : (x.1.mem a).state = .closed
  · rw [if_pos hs] at ho
    dsimp only at ho
    obtain ⟨⟨m, ret⟩, hb, rfl⟩ := Option.map_eq_some_iff.mp ho
    by_cases hne : h = a
    · subst hne
      have h0 : Becomes x.1 _ h _ [] := (Untouched.refl x.1 h).becomes.modify
        (fun k => { k with state := .idle, port := 0#16 }) fun _ => rfl
      have hfin : (ret = .success ∧ ∃ port, Becomes x.1 m h { (x.1.mem h).conn with
            state := .idle, ipv4Address := 0#32, port := port } []) ∨
          (ret ≠ .success ∧ Becomes x.1 m h { (x.1.mem h).conn with
            state := .idle,
            port := 0#16 } []) := by
        split_ifs at hb with hp
        · obtain ⟨hr, port, hbec⟩ := openLoop_becomes readings (by rw [Stack.modify_self]) hb
          refine .inl ⟨hr, port, ?_⟩
          have hc := hbec.1
          have he := hbec.2
          rw [h0.1] at hc
          rw [h0.2, List.append_nil, List.append_nil] at he
          exact ⟨hc, by rw [he, List.append_nil]⟩
        · rcases bind_cases (Option.some.inj hb) with ⟨hr, -, -, rfl⟩ | ⟨hr, rfl⟩
          · exact .inl ⟨hr, localPort, h0.modify _ fun _ => rfl⟩
          · exact .inr ⟨hr, h0⟩
      rcases hfin with ⟨rfl, port, hbec⟩ | ⟨hr, hbec⟩
      · exact ⟨_, _, .opened localPort port readings rfl hs, finishOpen_success hbec⟩
      · refine ⟨_, _, .openRefused localPort readings rfl hs, ?_⟩
        have hc := finishOpen_refused hr hbec
        rwa [show ({ (x.1.mem h).conn with port := 0#16 } : Handle n) =
          { (x.1.mem h).conn with port := 0#16, state := .closed } by rw [← hs]; rfl]
    · have h0 := (Untouched.refl x.1 h).modify hne fun k => { k with state := .idle, port := 0#16 }
      have hu : Untouched x.1 m h := by
        split_ifs at hb
        · exact h0.trans (openLoop_untouched hne readings hb)
        · have h₁ := bind_untouched
            (x.1.modify a fun k => { k with state := .idle, port := 0#16 }) 0#32
            localPort hne
          rw [Option.some.inj hb] at h₁
          exact h0.trans h₁
      exact (hu.trans (finishOpen_untouched hne)).steps
  · rw [if_neg hs] at ho
    obtain rfl := Option.some.inj ho
    exact (Untouched.refl x.1 h).steps

theorem bind_steps (a : Fin n) (address : Ipv4Address) (port : BitVec 16) :
    Steps x h (.bind a address port) (bind x.1 a address port).1 := by
  by_cases hne : h = a
  · subst hne
    rcases hb : bind x.1 h address port with ⟨m', ret⟩
    dsimp only
    rcases bind_cases hb with ⟨-, -, hs, rfl⟩ | ⟨-, rfl⟩
    · have hbec := (Untouched.refl x.1 h).becomes.modify
        (fun k => { k with ipv4Address := address, port := port }) fun _ => rfl
      exact ⟨_, _, .bound address port rfl hs, hbec⟩
    · exact (Untouched.refl x.1 h).steps
  · exact (bind_untouched _ _ _ hne).steps

theorem connect_steps (a : Fin n) (address : Ipv4Address) (port : BitVec 16) (lower : Lower) :
    Steps x h (.connect a address port lower) (connect x.1 a address port lower).1 := by
  unfold connect
  split_ifs with hs
  · dsimp only
    rw [sendControlFrame_eq]
    dsimp only
    by_cases hne : h = a
    · subst hne
      have h0 := (((Untouched.refl x.1 h).becomes.modify (fun k => { k with
        destIpv4Address := address, destPort := port, seqNumber := x.1.msCounter }) fun _ => rfl
        ).sendControlFrame (a := h) flagSyn lower)
      split_ifs with hr
      · refine ⟨_, _, .connected address port lower rfl hs, ?_⟩
        apply (h0.modify (fun k => { k with state := .synSent, seqNumber := k.seqNumber + 1#32 })
          fun _ => rfl).startTimeout_at
        exact sendControlFrame_time _ _ _ _ (by rwa [sendControlFrame_ret])
      · exact ⟨_, _, .connectRefused address port lower rfl hs, h0⟩
    · have h0 := ((Untouched.refl x.1 h).modify hne fun k => { k with
        destIpv4Address := address, destPort := port, seqNumber := x.1.msCounter }).sendControlFrame
        (a := a) flagSyn lower
      split_ifs
      · exact ((h0.modify hne _).startTimeout hne).steps
      · exact h0.steps
  · exact (Untouched.refl x.1 h).steps

theorem listen_steps (a : Fin n) : Steps x h (.listen a) (listen x.1 a).1 := by
  unfold listen
  split_ifs with hs
  · by_cases hne : h = a
    · subst hne
      exact ⟨_, _, .listening rfl hs, (Untouched.refl x.1 h).becomes.setState _⟩
    · exact ((Untouched.refl x.1 h).setState hne _).steps
  · exact (Untouched.refl x.1 h).steps

theorem sendFin_untouched {m : Stack n} {a : Fin n} (hne : h ≠ a) (lower : Lower) :
    Untouched m (sendFin m a lower) h := by
  unfold sendFin
  split_ifs
  · rw [sendControlFrame_eq]
    have h0 := (Untouched.refl m h).sendControlFrame (a := a) (flagFin ||| flagAck) lower
    dsimp only
    split_ifs
    · exact (h0.modify hne _).startTimeout hne
    · exact h0
  · exact Untouched.refl m h

theorem sendFin_becomes (m : Stack n) (h : Fin n) (lower : Lower) : ∃ s seqNumber timeout,
    Becomes m (sendFin m h lower) h { (m.mem h).conn with
      state := s, seqNumber := seqNumber, stateTimeout := timeout } [] ∧
    (s = (m.mem h).state ∨ (m.mem h).state = .established ∧ s = .finWait1) := by
  have h0 := (Untouched.refl m h).becomes
  unfold sendFin
  split_ifs with hs
  · rw [sendControlFrame_eq]
    dsimp only
    split_ifs
    · exact ⟨.finWait1, _, _, ((h0.sendControlFrame _ lower).modify _ fun _ => rfl).startTimeout,
        .inr ⟨hs, rfl⟩⟩
    · exact ⟨_, _, _, h0.sendControlFrame _ lower, .inl rfl⟩
  · exact ⟨_, _, _, h0, .inl rfl⟩

theorem close_steps (a : Fin n) (lower : Lower) :
    Steps x h (.close a lower) (close x.1 a lower).1 := by
  unfold close
  by_cases hne : h = a
  · subst hne
    obtain ⟨s, seqNumber, timeout, hb, hs⟩ := sendFin_becomes x.1 h lower
    have hst : ((sendFin x.1 h lower).mem h).state = s := congrArg Handle.state hb.1
    dsimp only
    split_ifs with hi
    · have hx : (x.1.mem h).state ≠ .idle := by
        rcases hs with rfl | ⟨he, -⟩
        · rwa [hst] at hi
        · rw [he]; decide
      exact ⟨_, _, .closedByCall lower seqNumber timeout rfl hx, (hb.setState _).removeHandle⟩
    · rcases hs with rfl | ⟨he, rfl⟩
      · have hidle : (x.1.mem h).state = .idle := by rw [← hst]; exact not_not.mp hi
        have hfin : sendFin x.1 h lower = x.1 := by
          rw [sendFin, if_neg]
          rw [hidle]; decide
        rw [hfin]
        exact (Untouched.refl x.1 h).steps
      · rw [hst] at hi
        exact absurd State.noConfusion hi
  · have hu := sendFin_untouched (m := x.1) hne lower
    dsimp only
    split_ifs
    · exact (hu.setState hne _).removeHandle.steps
    · exact hu.steps

theorem finalizeAndSendPacket_untouched (m : Stack n) (a : Fin n) (flags : Byte) (pid : PacketId)
    (lower : Lower) : Untouched m (finalizeAndSendPacket m a flags pid lower).1 h := by
  refine ⟨?_, finalizeAndSendPacket_eventsOf _ _ _ _ _ _⟩
  obtain ⟨ip, header, hm⟩ := finalizeAndSendPacket_mem m a flags pid lower
  rw [hm, Function.update_apply]
  split
  · next hk => rw [hk]; rfl
  · rfl

theorem keepPacket_mem (m : Stack n) (h : Fin n) (pid : PacketId) :
    (keepPacket m h pid).mem = Function.update m.mem h { m.mem h with
      lastTxPacket := some pid
      lastTxPacketPos := (m.packets pid).current
      lastTxPacketCount := (m.packets pid).count
      txRetryCount := 0#8 } := rfl

theorem keepPacket_untouched {m : Stack n} {a : Fin n} (hne : h ≠ a) (pid : PacketId) :
    Untouched m (keepPacket m a pid) h :=
  ⟨by rw [keepPacket_mem, Function.update_of_ne hne], Stack.eventsOf_congr rfl h⟩

theorem keepPacket_becomes (m : Stack n) (h : Fin n) (pid : PacketId) :
    Becomes m (keepPacket m h pid) h { (m.mem h).conn with
      lastTxPacket := some pid
      lastTxPacketPos := (m.packets pid).current
      lastTxPacketCount := (m.packets pid).count
      txRetryCount := 0#8 } [] :=
  ⟨by rw [keepPacket_mem, Function.update_self]; rfl,
    (Stack.eventsOf_congr rfl h).trans (List.append_nil _).symm⟩

theorem sendPacket_eq {m : Stack n} {a : Fin n} (pid : PacketId) (lower : Lower)
    (hl : (m.mem a).lastTxPacket = none) (hs : (m.mem a).state = .established) :
    sendPacket m a pid lower =
      let r := finalizeAndSendPacket (keepPacket m a pid) a (flagPsh ||| flagAck) pid lower
      (if r.2.accepted then
        r.1.modify a fun k => { k with
          seqNumber := k.seqNumber + k.lastTxPacketCount.zeroExtend 32 }
      else r.1, r.2) := by
  rw [sendPacket, if_neg (by rw [hl]; exact Bool.false_ne_true), if_pos hs]
  dsimp only
  split <;> rfl

theorem sendPacket_becomes {m : Stack n} {h : Fin n} (pid : PacketId) (lower : Lower)
    (hl : (m.mem h).lastTxPacket = none) (hs : (m.mem h).state = .established) :
    Becomes m (sendPacket m h pid lower).1 h { (m.mem h).conn with
      lastTxPacket := some pid
      lastTxPacketPos := (m.packets pid).current
      lastTxPacketCount := (m.packets pid).count
      txRetryCount := 0#8
      seqNumber := (m.mem h).seqNumber +
        if (sendPacket m h pid lower).2.accepted then (m.packets pid).count.zeroExtend 32 else
          0#32 } [] := by
  have h0 := (keepPacket_becomes m h pid).then_untouched
    (finalizeAndSendPacket_untouched (h := h) (keepPacket m h pid) h
      (flagPsh ||| flagAck) pid lower)
  rw [sendPacket_eq pid lower hl hs]
  dsimp only
  split_ifs
  · have hb := h0.modify (fun k => { k with
      seqNumber := k.seqNumber + k.lastTxPacketCount.zeroExtend 32 }) fun _ => rfl
    exact hb
  · rw [BitVec.add_zero]
    exact h0

theorem sendPacket_steps (a : Fin n) (pid : PacketId) (lower : Lower) :
    Steps x h (.sendPacket a pid lower) (sendPacket x.1 a pid lower).1 := by
  by_cases hl : (x.1.mem a).lastTxPacket.isSome = true
  · rw [sendPacket, if_pos hl]
    exact (Untouched.refl x.1 h).steps
  have hnone := Option.not_isSome_iff_eq_none.mp hl
  by_cases hs : (x.1.mem a).state = .established
  · by_cases hne : h = a
    · subst hne
      exact ⟨_, _, .sent pid lower rfl hnone hs, sendPacket_becomes pid lower hnone hs⟩
    · have h0 := (keepPacket_untouched (m := x.1) hne pid).trans
        (finalizeAndSendPacket_untouched (h := h) (keepPacket x.1 a pid) a
          (flagPsh ||| flagAck) pid lower)
      rw [sendPacket_eq pid lower hnone hs]
      dsimp only
      split_ifs
      · exact (h0.modify hne _).steps
      · exact h0.steps
  · rw [sendPacket, if_neg hl, if_neg hs]
    exact (Untouched.refl x.1 h).steps

end NanoIp.Tcp
