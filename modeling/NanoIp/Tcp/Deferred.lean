import NanoIp.Tcp.StepEffect

/-!
# A control frame queued until the ARP answer

The same reception is compared with itself: once its control frame is transmitted,
once it is queued. The connections and events agree unless the reception tests the
result of that frame.
-/
namespace NanoIp.Tcp

variable {n : Nat}

/-- What the IPv4 layer answered, frame by frame. -/
def Stack.results (m : Stack n) : List Err :=
  m.log.filterMap fun
    | .output _ _ ret => some ret
    | _ => none

/-- The two modules have the same list, the same connections and raised the same events. -/
structure Agreeing (m m' : Stack n) : Prop where
  handles : m'.handles = m.handles
  next : ∀ k, (m'.mem k).next = (m.mem k).next
  conn : ∀ k, (m'.mem k).conn = (m.mem k).conn
  events : ∀ k, m'.eventsOf k = m.eventsOf k

/-- The same input, with other answers of the layers below. -/
def Input.answered (lower : Lower) : Input n → Input n
  | .rxFrame seg _ => .rxFrame seg lower
  | .ret release accept _ => .ret release accept lower
  | i => i

/-- A segment whose control frame decides what becomes of the connection: the answer to
a SYN|ACK, to in-sequence data or to a FIN. -/
def Handle.TestsFrame (k : Handle n) (seg : Segment) : Prop :=
  seg.ackNumber = k.seqNumber ∧
    (k.state = .synSent ∧ seg.flags = flagSyn ||| flagAck ∨
      k.state = .established ∧ seg.payload ≠ [] ∧ seg.flags = flagPsh ||| flagAck ∧
        seg.seqNumber = k.ackNumber ∨
      (k.state = .established ∨ k.state = .finWait1 ∨ k.state = .finWait2) ∧
        seg.flags = flagFin ||| flagAck)

/-- The step tests the result of its control frame. -/
def TestsFrame (x : Stack n × Pc n) (i : Input n) : Prop :=
  match i, x.2 with
  | .rxFrame seg _, .ready => ∃ h, lookup x.1 seg = some h ∧ (x.1.mem h).TestsFrame seg
  | .ret _ _ _, .inReset h seg => (x.1.mem h).TestsFrame seg.1
  | .ret _ accept _, .inAccepting _ _ => ∃ a, accept = some a ∧ (x.1.mem a).state = .idle
  | _, _ => False

namespace Agreeing

variable {m m' m'' : Stack n} {h : Fin n}

theorem refl (m : Stack n) : Agreeing m m := ⟨rfl, fun _ => rfl, fun _ => rfl, fun _ => rfl⟩

theorem raise (ha : Agreeing m m') (event : Event) (error : Err) (packet : Option Segment) :
    Agreeing (m.raise h event error packet) (m'.raise h event error packet) :=
  ⟨ha.handles, ha.next, ha.conn,
    fun k => by rw [Stack.eventsOf_raise, Stack.eventsOf_raise, ha.events]⟩

theorem removeHandle (ha : Agreeing m m') : Agreeing (m.removeHandle h) (m'.removeHandle h) := by
  have hnext : (fun k => (m'.mem k).next) = fun k => (m.mem k).next := funext ha.next
  have hunlink : Lib.unlink (fun k => (m'.mem k).next) m'.handles h m'.registered =
      Lib.unlink (fun k => (m.mem k).next) m.handles h m.registered := by
    rw [Stack.registered, Stack.registered, hnext, ha.handles]
  refine ⟨?_, fun k => ?_, ha.conn, ha.events⟩
  · show (Lib.unlink _ _ _ _).1 = (Lib.unlink _ _ _ _).1
    rw [hunlink]
  · show (Lib.unlink _ _ _ _).2 k = (Lib.unlink _ _ _ _).2 k
    rw [hunlink]

theorem sendControlFrame (m : Stack n) (h : Fin n) (flags : Byte) (lower lower' : Lower) :
    Agreeing (sendControlFrame m h flags lower).1 (sendControlFrame m h flags lower').1 :=
  ⟨by rw [sendControlFrame_handles, sendControlFrame_handles],
    fun k => by rw [sendControlFrame_next, sendControlFrame_next],
    fun k => by rw [sendControlFrame_conn, sendControlFrame_conn],
    fun k => by rw [sendControlFrame_eventsOf, sendControlFrame_eventsOf]⟩

theorem state (ha : Agreeing m m') (k : Fin n) : (m'.mem k).state = (m.mem k).state := by
  rw [← Handle.conn_state, ha.conn, Handle.conn_state]

end Agreeing

theorem results_congr {m m' : Stack n} (hl : m'.log = m.log) : m'.results = m.results := by
  rw [Stack.results, Stack.results, hl]

theorem results_record (m : Stack n) (o : Obs n) (ho : ∀ k seg ret, o ≠ .output k seg ret) :
    (m.record o).results = m.results := by
  rw [Stack.results, Stack.record_log, List.filterMap_append]
  cases o with
  | output k seg ret => exact absurd rfl (ho k seg ret)
  | _ => exact List.append_nil _

theorem results_raise (m : Stack n) (h : Fin n) (event : Event) (error : Err)
    (packet : Option Segment) :
    (m.raise h event error packet).results = m.results := results_record m _ (fun _ _ _ => nofun)

theorem results_recordHanded (m : Stack n) (h : Fin n) (pid : PacketId) (sent : Ipv4.Sent) :
    (recordHanded m h pid sent).results = m.results := by
  unfold recordHanded
  split
  · exact results_record m _ (fun _ _ _ => nofun)
  · rfl

theorem results_releasePacket (m : Stack n) (pid : PacketId) :
    (m.releasePacket pid).results = m.results := by
  simp [Stack.results, Stack.releasePacket]

theorem finalizeAndSendPacket_results (m : Stack n) (h : Fin n) (flags : Byte) (pid : PacketId)
    (lower : Lower) :
    (finalizeAndSendPacket m h flags pid lower).1.results =
      m.results ++ [(finalizeAndSendPacket m h flags pid lower).2] := by
  unfold finalizeAndSendPacket
  dsimp only
  rw [results_recordHanded, Stack.results, Stack.record_log, List.filterMap_append]
  rfl

theorem sendControlFrame_result {m : Stack n} {h : Fin n} {flags : Byte} {lower : Lower} {e : Err}
    (hr : (sendControlFrame m h flags lower).1.results = m.results ++ [e]) :
    (sendControlFrame m h flags lower).2 = e := by
  rcases sendControlFrame_cases m h flags lower with ⟨e', -, he⟩ | ⟨pid, -, m', ret, hf, he⟩
  · rw [he] at hr
    simp at hr
  · have hret := finalizeAndSendPacket_results (allocatePacket m (.ok pid) 0#16).1 h flags pid lower
    rw [hf, results_congr (allocatePacket_log m _ _)] at hret
    rw [he] at hr ⊢
    dsimp only at hr ⊢
    have hm : (if ret.accepted then m' else m'.releasePacket pid).results = m'.results := by
      split
      · rfl
      · exact results_releasePacket m' pid
    rw [hm, hret] at hr
    simpa using hr

section Receive

variable {m : Stack n} {h : Fin n} {seg : Segment} {lower lower' : Lower}

theorem no_frame {m m' : Stack n} {e : Err} (hm : m'.results = m.results)
    (hr : m'.results = m.results ++ [e]) : False := by
  rw [hm] at hr
  simp at hr

def onSuccess (r : Stack n × Err) (f : Stack n → Stack n) (p q : Pc n) : Stack n × Pc n :=
  if r.2 = .success then (f r.1, p) else (r.1, q)

/-- A caller that goes on only after success does not treat both results alike. -/
theorem not_alike_of_tested {a : Fin n} {flags : Byte} {m₁ : Stack n} (f : Stack n → Stack n)
    (p q : Pc n) (hm : m₁.results = m.results) (hf : ∀ s, (f s).results = s.results)
    (hdiff : ∀ s, (s.mem a).conn = (m₁.mem a).conn → ¬ Agreeing (f s) s)
    (hr : (onSuccess (sendControlFrame m₁ a flags lower) f p q).1.results = m.results ++ [.success])
    (hr' : (onSuccess (sendControlFrame m₁ a flags lower') f p q).1.results =
      m.results ++ [.inProgress]) :
    ¬ Agreeing (onSuccess (sendControlFrame m₁ a flags lower) f p q).1
      (onSuccess (sendControlFrame m₁ a flags lower') f p q).1 := by
  have hresult {l : Lower} {e : Err}
      (h : (onSuccess (sendControlFrame m₁ a flags l) f p q).1.results = m.results ++ [e]) :
      (sendControlFrame m₁ a flags l).2 = e := by
    apply sendControlFrame_result
    rw [hm, ← h, onSuccess]
    split
    · exact (hf _).symm
    · rfl
  rw [onSuccess, onSuccess, if_pos (hresult hr), if_neg (by rw [hresult hr']; nofun)]
  intro ha
  have hs := Agreeing.sendControlFrame m₁ a flags lower lower'
  have hback : Agreeing (f (sendControlFrame m₁ a flags lower).1)
      (sendControlFrame m₁ a flags lower).1 := by
    refine ⟨?_, fun k => ?_, fun k => ?_, fun k => ?_⟩
    · exact hs.handles.symm.trans ha.handles
    · exact (hs.next k).symm.trans (ha.next k)
    · exact (hs.conn k).symm.trans (ha.conn k)
    · exact (hs.events k).symm.trans (ha.events k)
  exact hdiff _ (sendControlFrame_conn _ _ _ _ _) hback

theorem not_alike_of_state {m m' : Stack n} {a : Fin n} {s s' : State} (hs : (m.mem a).state = s)
    (hs' : (m'.mem a).state = s') (hne : s ≠ s') : ¬ Agreeing m m' := by
  intro ha
  exact hne (hs.symm.trans ((ha.state a).symm.trans hs'))

theorem finWaitFin_not_alike (hs : (m.mem h).state = .finWait1 ∨ (m.mem h).state = .finWait2)
    (hr : (finWaitFin m h seg lower).1.results = m.results ++ [.success])
    (hr' : (finWaitFin m h seg lower').1.results = m.results ++ [.inProgress]) :
    ¬ Agreeing (finWaitFin m h seg lower).1 (finWaitFin m h seg lower').1 := by
  have hgo (l : Lower) : finWaitFin m h seg l = onSuccess
      (sendControlFrame (m.modify h fun k => { k with ackNumber := seg.seqNumber + 1#32 })
        h flagAck l)
      (fun s => (s.setState h .timeWait).startTimeout h) .ready .ready := by
    unfold finWaitFin onSuccess
    dsimp only
    split <;> rfl
  rw [hgo] at hr hr' ⊢
  rw [hgo]
  refine not_alike_of_tested _ _ _ rfl (fun _ => rfl) ?_ hr hr'
  intro s hconn
  have hsame : (s.mem h).state = (m.mem h).state := by
    rw [← Handle.conn_state, hconn, Stack.modify_self]
    rfl
  refine not_alike_of_state (a := h) (s := .timeWait) ?_ hsame ?_
  · rw [Stack.startTimeout, Stack.modify_self, Stack.setState_self]
  · rcases hs with hs | hs <;> rw [hs] <;> exact nofun

theorem rxSynSent_not_alike (hs : (m.mem h).state = .synSent) (hf : seg.flags = flagSyn ||| flagAck)
    (hr : (rxSynSent m h seg lower).1.results = m.results ++ [.success])
    (hr' : (rxSynSent m h seg lower').1.results = m.results ++ [.inProgress]) :
    ¬ Agreeing (rxSynSent m h seg lower).1 (rxSynSent m h seg lower').1 := by
  have hgo (l : Lower) : rxSynSent m h seg l = onSuccess
      (sendControlFrame (m.modify h fun k => { k with ackNumber := seg.seqNumber + 1#32 })
        h flagAck l)
      (fun s => (s.setState h .established).raise h .connected .success none) .inCallback
        .ready := by
    unfold rxSynSent onSuccess
    rw [if_pos hf]
  rw [hgo] at hr hr' ⊢
  rw [hgo]
  refine not_alike_of_tested _ _ _ rfl (fun _ => results_raise _ _ _ _ _) ?_ hr hr'
  intro s hconn
  have hsame : (s.mem h).state = .synSent := by
    rw [← Handle.conn_state, hconn, Stack.modify_self]
    exact hs
  have hnew : (((s.setState h .established).raise h .connected .success none).mem h).state =
      .established := by
    show ((s.setState h .established).mem h).state = _
    rw [Stack.setState_self]
  exact not_alike_of_state hnew hsame nofun

theorem rxData_not_alike (hseq : seg.seqNumber = (m.mem h).ackNumber)
    (hr : (rxData m h seg lower).1.results = m.results ++ [.success])
    (hr' : (rxData m h seg lower').1.results = m.results ++ [.inProgress]) :
    ¬ Agreeing (rxData m h seg lower).1 (rxData m h seg lower').1 := by
  have hgo (l : Lower) : rxData m h seg l = onSuccess
      (sendControlFrame (m.modify h fun k => { k with ackNumber := seg.nextSeq }) h flagAck l)
      (fun s => s.raise h .rx .success (some seg)) (.inRx seg) .ready := by
    unfold rxData onSuccess
    rw [if_pos hseq]
  rw [hgo] at hr hr' ⊢
  rw [hgo]
  refine not_alike_of_tested _ _ _ rfl (fun _ => results_raise _ _ _ _ _) ?_ hr hr'
  intro s _ ha
  have hev := ha.events h
  rw [Stack.eventsOf_raise, if_pos rfl] at hev
  simp at hev

theorem rxFin_not_alike (hs : (m.mem h).state = .established)
    (hr : (rxFin m h seg lower).1.results = m.results ++ [.success])
    (hr' : (rxFin m h seg lower').1.results = m.results ++ [.inProgress]) :
    ¬ Agreeing (rxFin m h seg lower).1 (rxFin m h seg lower').1 := by
  have hgo (l : Lower) : rxFin m h seg l = onSuccess
      (sendControlFrame (m.modify h fun k => { k with ackNumber := seg.seqNumber + 1#32 }) h
        (flagFin ||| flagAck) l)
      (fun s => (s.modify h fun k => { k with
        state := .closeWait, seqNumber := k.seqNumber + 1#32 }).startTimeout h) .ready .ready := rfl
  rw [hgo] at hr hr' ⊢
  rw [hgo]
  refine not_alike_of_tested _ _ _ rfl (fun _ => rfl) ?_ hr hr'
  intro s hconn
  have hsame : (s.mem h).state = .established := by
    rw [← Handle.conn_state, hconn, Stack.modify_self]
    exact hs
  refine not_alike_of_state (s := .closeWait) ?_ hsame nofun
  rw [Stack.startTimeout, Stack.modify_self, Stack.modify_self]

theorem rxAccept_not_alike {a : Fin n} (hs : (m.mem a).state = .idle)
    (hr : (rxAccept m h seg (some a) lower).1.results = m.results ++ [.success])
    (hr' : (rxAccept m h seg (some a) lower').1.results = m.results ++ [.inProgress]) :
    ¬ Agreeing (rxAccept m h seg (some a) lower).1 (rxAccept m h seg (some a) lower').1 := by
  set f : Handle n → Handle n := fun k => { k with
    ipv4Address := seg.destAddress, port := seg.destPort
    destIpv4Address := seg.srcAddress, destPort := seg.srcPort }
  set m₁ := ((m.modify a f).modify h fun k => { k with seqNumber := m.msCounter }).modify a fun k =>
    { k with
    ackNumber := seg.seqNumber + 1#32 } with hm₁
  have hgo (l : Lower) : rxAccept m h seg (some a) l =
    onSuccess (sendControlFrame m₁ a (flagSyn ||| flagAck) l)
      (fun s => (s.modify a fun k => { k with
        state := .synReceived, seqNumber := k.seqNumber + 1#32 }).startTimeout a) .ready
          .ready := by
    unfold rxAccept onSuccess
    dsimp only
    rw [if_pos hs]
    rfl
  rw [hgo] at hr hr' ⊢
  rw [hgo]
  refine not_alike_of_tested _ _ _ rfl (fun _ => rfl) ?_ hr hr'
  intro s hconn
  have hsame : (s.mem a).state = .idle := by
    rw [← Handle.conn_state, hconn, hm₁, Stack.modify_self, Stack.modify_mem]
    split
    · next ha =>
      rw [← ha, Stack.modify_self]
      exact hs
    · rw [Stack.modify_self]
      exact hs
  refine not_alike_of_state (s := .synReceived) ?_ hsame nofun
  rw [Stack.startTimeout, Stack.modify_self, Stack.modify_self]

theorem resetConnection_alike :
    Agreeing (resetConnection m h lower).1 (resetConnection m h lower').1 :=
  (Agreeing.sendControlFrame _ h flagRst lower lower').removeHandle.raise _ _ _

/-- Behind the acknowledgement test the results matter where the frame is tested. -/
theorem rxStateMachine_alike_iff
    (hack : (m.mem h).state = .listen ∨ seg.ackNumber = (m.mem h).seqNumber)
    (hr : (rxStateMachine m h seg lower).1.results = m.results ++ [.success])
    (hr' : (rxStateMachine m h seg lower').1.results = m.results ++ [.inProgress]) :
    Agreeing (rxStateMachine m h seg lower).1 (rxStateMachine m h seg lower').1 ↔
      ¬ (m.mem h).TestsFrame seg := by
  have hnum (hne : (m.mem h).state ≠ .listen) := hack.resolve_left hne
  unfold rxStateMachine at hr hr' ⊢
  cases hs : (m.mem h).state with
  | listen =>
    rw [hs] at hr
    dsimp only at hr
    split_ifs at hr
    · exact (no_frame (results_raise _ _ _ _ _) hr).elim
    · exact (no_frame rfl hr).elim
  | synSent =>
    rw [hs] at hr hr'
    by_cases hf : seg.flags = flagSyn ||| flagAck
    · exact iff_of_false (rxSynSent_not_alike hs hf hr hr')
        (not_not_intro ⟨hnum (by rw [hs]; nofun), .inl ⟨hs, hf⟩⟩)
    · have hquiet : rxSynSent m h seg lower = (m, .ready) := if_neg hf
      exact (no_frame (congrArg (fun r => r.1.results) hquiet) hr).elim
  | established =>
    rw [hs] at hr hr'
    have hnum := hnum (by rw [hs]; nofun)
    dsimp only at hr hr' ⊢
    by_cases hdata : seg.payload.length ≠ 0 ∧ seg.flags = flagPsh ||| flagAck
    · simp only [rxEstablished, if_pos hdata] at hr hr' ⊢
      by_cases hseq : seg.seqNumber = (m.mem h).ackNumber
      · have hpay : seg.payload ≠ [] := fun hnil => hdata.1 (by rw [hnil]; rfl)
        exact iff_of_false (rxData_not_alike hseq hr hr')
          (not_not_intro ⟨hnum, .inr (.inl ⟨hs, hpay, hdata.2, hseq⟩)⟩)
      · have hquiet : rxData m h seg lower = (m, .ready) := if_neg hseq
        exact (no_frame (congrArg (fun r => r.1.results) hquiet) hr).elim
    · by_cases hack : (m.mem h).lastTxPacket.isSome = true ∧ seg.flags = flagAck
      · simp only [rxEstablished, if_neg hdata, if_pos hack] at hr
        rw [results_raise] at hr
        refine (no_frame ?_ hr).elim
        obtain ⟨pid, hpid⟩ := Option.isSome_iff_exists.mp hack.1
        rw [releaseLastTx, hpid]
        exact results_releasePacket m pid
      · simp only [rxEstablished, if_neg hdata, if_neg hack] at hr hr' ⊢
        by_cases hf : seg.flags = flagFin ||| flagAck
        · simp only [if_pos hf] at hr hr' ⊢
          exact iff_of_false (rxFin_not_alike hs hr hr')
            (not_not_intro ⟨hnum, .inr (.inr ⟨.inl hs, hf⟩)⟩)
        · rw [if_neg hf] at hr
          exact (no_frame rfl hr).elim
  | finWait1 =>
    rw [hs] at hr hr'
    dsimp only at hr hr' ⊢
    by_cases hack' : seg.flags = flagAck
    · rw [if_pos hack'] at hr
      exact (no_frame rfl hr).elim
    · simp only [if_neg hack'] at hr hr' ⊢
      by_cases hf : seg.flags = flagFin ||| flagAck
      · simp only [if_pos hf] at hr hr' ⊢
        exact iff_of_false (finWaitFin_not_alike (.inl hs) hr hr')
          (not_not_intro ⟨hnum (by rw [hs]; nofun), .inr (.inr ⟨.inr (.inl hs), hf⟩)⟩)
      · rw [if_neg hf] at hr
        exact (no_frame rfl hr).elim
  | finWait2 =>
    rw [hs] at hr hr'
    dsimp only at hr hr' ⊢
    by_cases hf : seg.flags = flagFin ||| flagAck
    · simp only [if_pos hf] at hr hr' ⊢
      exact iff_of_false (finWaitFin_not_alike (.inr hs) hr hr')
        (not_not_intro ⟨hnum (by rw [hs]; nofun), .inr (.inr ⟨.inr (.inr hs), hf⟩)⟩)
    · rw [if_neg hf] at hr
      exact (no_frame rfl hr).elim
  | synReceived | closeWait =>
    rw [hs] at hr
    dsimp only at hr
    split_ifs at hr
    · exact (no_frame (results_raise _ _ _ _ _) hr).elim
    · exact (no_frame rfl hr).elim
  | idle | closed =>
    rw [hs] at hr
    exact (no_frame rfl hr).elim
  | closing | lastAck | timeWait =>
    refine iff_of_true resetConnection_alike ?_
    rintro ⟨-, ht⟩
    simp [hs] at ht

theorem rxAcknowledge_alike_iff
    (hr : (rxAcknowledge m h seg lower).1.results = m.results ++ [.success])
    (hr' : (rxAcknowledge m h seg lower').1.results = m.results ++ [.inProgress]) :
    Agreeing (rxAcknowledge m h seg lower).1 (rxAcknowledge m h seg lower').1 ↔
      ¬ (m.mem h).TestsFrame seg := by
  unfold rxAcknowledge at hr hr' ⊢
  by_cases hack : (m.mem h).state = .listen ∨ seg.ackNumber = (m.mem h).seqNumber
  · simp only [if_pos hack] at hr hr' ⊢
    exact rxStateMachine_alike_iff hack hr hr'
  · have hno : ¬ (m.mem h).TestsFrame seg := fun ht => hack (.inr ht.1)
    simp only [if_neg hack] at hr hr' ⊢
    split_ifs at hr hr' ⊢ with hgt
    · exact iff_of_true resetConnection_alike hno
    · exact (no_frame rfl hr).elim

end Receive

/-- A reception whose control frame is queued instead of transmitted leaves the same
connections and events exactly if it does not test the result. -/
theorem deferred_alike_iff {x y y' : Stack n × Pc n} {i : Input n} (lower' : Lower)
    (hs : step x i = some y) (hs' : step x (i.answered lower') = some y')
    (hr : y.1.results = x.1.results ++ [.success])
    (hr' : y'.1.results = x.1.results ++ [.inProgress]) : Agreeing y.1 y'.1 ↔ ¬ TestsFrame x i := by
  obtain ⟨m, pc⟩ := x
  have hsame (hi : i.answered lower' = i) : False := by
    rw [hi] at hs'
    obtain rfl := Option.some.inj (hs.symm.trans hs')
    exact absurd (List.append_cancel_left (hr.symm.trans hr')) nofun
  cases i with
  | rxFrame seg lower =>
    cases step_move hs with
    | call _ _ _ hc => cases hc
    | rxFrame _ _ hpc =>
      obtain rfl : pc = .ready := hpc
      obtain rfl := Option.some.inj hs'
      unfold rxFrame at hr hr' ⊢
      cases hl : lookup m seg with
      | none =>
        rw [hl] at hr
        exact (no_frame rfl hr).elim
      | some h =>
        rw [hl] at hr hr'
        dsimp only at hr hr' ⊢
        by_cases hres : resets m h seg
        · rw [rxHandle, dif_pos hres] at hr
          exact (no_frame (results_raise _ _ _ _ _) hr).elim
        · simp only [rxHandle, dif_neg hres] at hr hr' ⊢
          rw [rxAcknowledge_alike_iff hr hr', not_iff_not]
          constructor
          · exact fun ht => ⟨h, hl, ht⟩
          · rintro ⟨h', hl', ht⟩
            obtain rfl := Option.some.inj (hl.symm.trans hl')
            exact ht
  | ret release accept lower =>
    cases pc with
    | inReset h seg =>
      obtain rfl := Option.some.inj hs
      obtain rfl := Option.some.inj hs'
      exact rxAcknowledge_alike_iff hr hr'
    | inAccepting h seg =>
      obtain rfl := Option.some.inj hs
      obtain rfl := Option.some.inj hs'
      cases accept with
      | none => exact (no_frame rfl hr).elim
      | some a =>
        by_cases hidle : (m.mem a).state = .idle
        · exact iff_of_false (rxAccept_not_alike hidle hr hr') (not_not_intro ⟨a, rfl, hidle⟩)
        · simp only [rxAccept, if_neg hidle] at hr
          exact (no_frame (results_raise _ _ _ _ _) hr).elim
    | inRx seg =>
      obtain rfl := Option.some.inj hs
      refine (no_frame ?_ hr).elim
      dsimp only
      split
      · rfl
      · exact results_record m _ fun _ _ _ => nofun
    | inCallback | inTick =>
      obtain rfl := Option.some.inj hs
      exact (no_frame rfl hr).elim
    | inTxFailed h timestamp =>
      obtain rfl := Option.some.inj hs
      exact (no_frame (results_raise _ _ _ _ _) hr).elim
    | ready | tick => cases hs
  | _ => exact (hsame rfl).elim

def queueing (pid : PacketId) : Lower := { transmitting pid with arp := fun _ => .pending }

/-- The RST that answers an invalid acknowledgement number is not tested. -/
theorem deferred_alike_reset : ∃ x y y' : Stack 1 × Pc 1,
    step x (.rxFrame (peerSegment 101#32 9#32 flagAck []) (transmitting 8)) = some y ∧
    step x (.rxFrame (peerSegment 101#32 9#32 flagAck []) (queueing 8)) = some y' ∧
    (Agreeing y.1 y'.1 ↔ ¬ TestsFrame x
      (.rxFrame (peerSegment 101#32 9#32 flagAck []) (transmitting 8))) := by
  obtain ⟨x, -, hx⟩ := Lib.exists_of_runInputs step Lib.anyStep
    (initial 1 (fun _ => blankPacket) portPoolStart 7) (handshake 0 7 100#32)
    (fun x => (step x (.rxFrame (peerSegment 101#32 9#32 flagAck []) (transmitting 8))).any
      (fun y =>
        y.1.results = x.1.results ++ [.success]) = true ∧
      (step x (.rxFrame (peerSegment 101#32 9#32 flagAck []) (queueing 8))).any (fun y' =>
        y'.1.results = x.1.results ++ [.inProgress]) = true) (by decide)
  obtain ⟨hy, hy'⟩ := of_decide_eq_true hx
  obtain ⟨y, hs, hr⟩ := (Option.any_eq_true _ _).mp hy
  obtain ⟨y', hs', hr'⟩ := (Option.any_eq_true _ _).mp hy'
  exact ⟨x, y, y', hs, hs',
    deferred_alike_iff (queueing 8) hs hs' (of_decide_eq_true hr) (of_decide_eq_true hr')⟩

/-- A SYN|ACK whose answer is queued leaves the connection in SYN_SENT. -/
theorem deferred_not_alike :
    ¬ ∀ (n : Nat) (packets : PacketId → Packet) (port : BitVec 16) (time : Nat)
    (x y y' : Stack n × Pc n) (i : Input n) (lower' : Lower),
    Lib.Reach step Lib.anyStep (initial n packets port time) x → step x i = some y →
    step x (i.answered lower') = some y' → y.1.results = x.1.results ++ [.success] →
    y'.1.results = x.1.results ++ [.inProgress] → Agreeing y.1 y'.1 := by
  intro hall
  obtain ⟨x, hreach, hx⟩ := Lib.exists_of_runInputs step Lib.anyStep
    (initial 1 (fun _ => blankPacket) portPoolStart 7)
    [.open_ 0 5000#16 [], .connect 0 0x0A000002#32 80#16 (transmitting 0)]
    (fun x => (step x (.rxFrame (peerSegment 100#32 8#32 (flagSyn ||| flagAck) [])
      (transmitting 1))).any (fun y =>
        y.1.results = x.1.results ++ [.success] ∧ (y.1.mem 0).state = .established) = true ∧
      (step x (.rxFrame (peerSegment 100#32 8#32 (flagSyn ||| flagAck) []) (queueing 1))).any
        (fun y' =>
        y'.1.results = x.1.results ++ [.inProgress] ∧ (y'.1.mem 0).state = .synSent) =
          true) (by decide)
  obtain ⟨hy, hy'⟩ := of_decide_eq_true hx
  obtain ⟨y, hs, hr⟩ := (Option.any_eq_true _ _).mp hy
  obtain ⟨y', hs', hr'⟩ := (Option.any_eq_true _ _).mp hy'
  obtain ⟨hres, hst⟩ := of_decide_eq_true hr
  obtain ⟨hres', hst'⟩ := of_decide_eq_true hr'
  exact not_alike_of_state hst hst' nofun
    (hall 1 _ _ _ x y y' _ (queueing 1) hreach hs hs' hres hres')

end NanoIp.Tcp
