import NanoIp.Lib.Parties
import NanoIp.Lib.StopAndWait
import NanoIp.Tcp.Exchange
import NanoIp.Tcp.Queued
import NanoIp.Tcp.Sent

/-!
# Two endpoints over an unreliable network

Each end runs the module with a handle of one connection. What a handle put on the
network may reach the other handle at any time, any number of times, in any order or
never; the modules may have other handles and other peers as well. This file says what
each end keeps by itself.
-/
namespace NanoIp.Tcp

open Lib (Side Transfer)

variable {n : Nat}

def Segment.span (seg : Segment) : Nat :=
  seg.payload.length + if seg.hasFlag flagSyn || seg.hasFlag flagFin then 1 else 0

/-- A frame of handle `h` is handed off successfully, its sequence numbers do not wrap and
it carries data if it is a data segment. -/
def Obs.Regular (h : Fin n) : Obs n → Prop
  | .output k seg ret => k = h → ret = .success ∧ seg.seqNumber.toNat + seg.span < 2 ^ 32 ∧
      (seg.isData = true → seg.payload ≠ [])
  | .resent k _ ret => k = h → ret = .success
  | _ => True

instance (h : Fin n) (o : Obs n) : Decidable (o.Regular h) := by
  rcases o with ⟨⟩ <;> unfold Obs.Regular <;> infer_instance

/-- The handle has sent the SYN of its connection. -/
def Opened (h : Fin n) (m : Stack n) : Prop := ∃ seg ∈ m.sent h, seg.hasFlag flagSyn = true

instance (h : Fin n) (m : Stack n) : Decidable (Opened h m) :=
  inferInstanceAs (Decidable (∃ seg ∈ _, _))

/-- What the handle receives, and the SYN it is given to answer, is on the network. -/
def FromPeer (h : Fin n) (carried : List Segment) (x : Stack n × Pc n) (i : Input n) : Prop :=
  match i, x.2 with
  | .rxFrame seg _, _ => lookup x.1 seg = some h → seg ∈ carried
  | .ret _ accept _, .inAccepting _ seg => accept = some h → seg ∈ carried
  | _, _ => True

/-- The handle is opened for one connection only. -/
def OpenedOnce (h : Fin n) (x : Stack n × Pc n) : Input n → Prop
  | .open_ a _ _ => a = h → ¬ Opened h x.1
  | _ => True

/-- The segments that a handle answers with a control frame while it is connected: the SYN|ACK it
waits for, data in sequence and a FIN, where they acknowledge everything it sent. -/
def Handle.Answers (k : Handle n) (seg : Segment) : Prop :=
  seg.ackNumber = k.seqNumber ∧
    (k.state = .synSent ∧ seg.flags = flagSyn ||| flagAck ∨
      k.state = .established ∧
        (seg.payload ≠ [] ∧ seg.flags = flagPsh ||| flagAck ∧ seg.seqNumber = k.ackNumber ∨
          seg.flags = flagFin ||| flagAck))

instance (k : Handle n) (seg : Segment) : Decidable (k.Answers seg) :=
  inferInstanceAs (Decidable (_ ∧ (_ ∧ _ ∨ _ ∧ (_ ∧ _ ∧ _ ∨ _))))

/-- Every frame of the handle is handed off; the answer to a received segment also finds a packet.
-/
def HandsOff (h : Fin n) (x : Stack n × Pc n) (i : Input n) : Prop :=
  (match i with
    | .rxFrame seg lower =>
      lookup x.1 seg = some h → (x.1.mem h).Answers seg → controlResult x.1 h lower = .success
    | _ => True) ∧
  ∀ y ∈ step x i, ∀ o ∈ newEntries x y, o.Regular h

instance (h : Fin n) (carried : List Segment) (x : Stack n × Pc n) (i : Input n) :
    Decidable (FromPeer h carried x i) := by
  obtain ⟨m, pc⟩ := x
  rcases i with ⟨⟩ <;> rcases pc with ⟨⟩ <;> unfold FromPeer <;> infer_instance

instance (h : Fin n) (x : Stack n × Pc n) (i : Input n) : Decidable (OpenedOnce h x i) := by
  rcases i with ⟨⟩ <;> unfold OpenedOnce <;> infer_instance

instance (h : Fin n) (x : Stack n × Pc n) (i : Input n) : Decidable (HandsOff h x i) := by
  rcases i with ⟨⟩ <;> unfold HandsOff <;> infer_instance

/-- The conditions on a step of one end: the segments it is given are those the other end put
on the network, it opens its handle once and hands off every frame. -/
def Exchanged (h : Side → Fin n) (d : Side → Stack n × Pc n) (i : Side × Input n) : Prop :=
  FromPeer (h i.1) ((d i.1.other).1.carried (h i.1.other)) (d i.1) i.2 ∧
    OpenedOnce (h i.1) (d i.1) i.2 ∧ HandsOff (h i.1) (d i.1) i.2

instance (h : Side → Fin n) (d : Side → Stack n × Pc n) (i : Side × Input n) :
    Decidable (Exchanged h d i) := inferInstanceAs (Decidable (_ ∧ _ ∧ _))

/-- The payloads of the packets that `NANO_IP_TCP_SendPacket` accepted for a handle. -/
def Stack.accepted (m : Stack n) (h : Fin n) : List (List Byte) :=
  ((m.sent h).filter Segment.isData).map Segment.payload

/-- The payloads that `TCP_EVENT_RX` gave to the application. -/
def Stack.delivered (m : Stack n) (h : Fin n) : List (List Byte) :=
  (received (m.eventsOf h)).map Segment.payload

/-- The number of packets confirmed by `TCP_EVENT_TX`. -/
def Stack.confirmed (m : Stack n) (h : Fin n) : Nat := (m.eventsOf h).countP fun e => e.1 = .tx

/-- The acknowledgement number of the handle counts what it received. -/
def State.receiving : State → Bool
  | .synReceived | .established => true
  | _ => false

/-- What an end keeps by itself about its handle. -/
structure Own (h : Fin n) (x : Stack n × Pc n) : Prop where
  regular : ∀ o ∈ x.1.log, o.Regular h
  queued : BusyLogged h x.1
  accepting : ∀ l seg, x.2 = .inAccepting l seg →
    seg.flags = flagSyn ∧ (l = h → (x.1.mem h).state.receiving = false)
  closing : (x.1.mem h).state ≠ .finWait1 ∧ (x.1.mem h).state ≠ .finWait2
  unopened : (x.1.mem h).state = .idle ∨ (x.1.mem h).state = .listen → ¬ Opened h x.1
  opened : (x.1.mem h).state = .synSent ∨ (x.1.mem h).state = .synReceived ∨
    (x.1.mem h).state = .established → Opened h x.1
  speaks : ∀ seg ∈ x.1.sent h, seg.isData = true ∨ seg.flags = flagAck → Opened h x.1
  pending : ¬ Opened h x.1 → (x.1.mem h).lastTxPacket = none
  waiting : ¬ Opened h x.1 ∨ (x.1.mem h).state = .synSent ∨ (x.1.mem h).state = .synReceived →
    x.1.delivered h = [] ∧ x.1.accepted h = []

section Own

variable {x y : Stack n × Pc n} {i : Input n} {h : Fin n}

theorem rxAcknowledge_accepting {m : Stack n} {h l : Fin n} {seg seg' : Segment} {lower : Lower}
    (hpc : (rxAcknowledge m h seg lower).2 = .inAccepting l seg') :
    seg'.flags = flagSyn ∧ (m.mem l).state = .listen := by
  rcases rxAcknowledge_settled m h seg lower with he | he | ⟨he, hl, hf⟩ | he
  · cases he.symm.trans hpc
  · cases he.symm.trans hpc
  · cases he.symm.trans hpc
    exact ⟨hf, hl⟩
  · cases he.symm.trans hpc

theorem visit_accepting {m : Stack n} {a l : Fin n} {seg : Segment} {timestamp : BitVec 32}
    {lower : Lower} :
    (visit m a timestamp lower).2 ≠ .inAccepting l seg := by
  intro hpc
  unfold visit at hpc
  cases hst : (m.mem a).state with
  | synSent | synReceived | closeWait | finWait1 | finWait2 | timeWait =>
    rw [hst] at hpc
    dsimp only at hpc
    split_ifs at hpc
  | closed | listen | closing | lastAck | idle =>
    rw [hst] at hpc
    cases hpc
  | established =>
    rw [hst] at hpc
    cases hl : (m.mem a).lastTxPacket with
    | none => rw [hl] at hpc; cases hpc
    | some pid =>
      rw [hl] at hpc
      dsimp only at hpc
      unfold retryPacket at hpc
      dsimp only at hpc
      split_ifs at hpc

theorem arpResponse_accepting {m : Stack n} {a l : Fin n} {mac : Option MacAddress} {driver : Err}
    {seg : Segment} :
    (arpResponse m a mac driver).2 ≠ .inAccepting l seg := by
  intro hpc
  rcases arpResponse_cases m a mac driver with he | ⟨m', error, -, he, -⟩
  · rw [he] at hpc
    cases hpc
  · rw [he] at hpc
    unfold ipv4ErrorCallback at hpc
    split_ifs at hpc

/-- The callback that accepts a SYN is entered for a listening handle and left by its return. -/
theorem step_accepting (hs : step x i = some y) {l : Fin n} {seg : Segment}
    (hpc : y.2 = .inAccepting l seg) :
    (x.2 = .inAccepting l seg ∧ ∃ m, call x.1 i = some m) ∨
      (seg.flags = flagSyn ∧ (x.1.mem l).state = .listen) := by
  cases step_move hs with
  | rxFrame seg' lower =>
    unfold rxFrame at hpc
    cases hl : lookup x.1 seg' with
    | none => rw [hl] at hpc; cases hpc
    | some a =>
      rw [hl] at hpc
      dsimp only at hpc
      unfold rxHandle at hpc
      split_ifs at hpc
      exact .inr (rxAcknowledge_accepting hpc)
  | arpResponse => exact absurd hpc arpResponse_accepting
  | periodicTask | visited => cases hpc
  | visit => exact absurd hpc visit_accepting
  | ret release accept lower _ hr =>
    cases hx : x.2 with
    | ready | tick => rw [hx] at hr; cases hr
    | inReset a seg' =>
      rw [hx] at hr
      obtain rfl := Option.some.inj hr
      exact .inr (rxAcknowledge_accepting hpc)
    | inAccepting a seg' =>
      rw [hx] at hr
      obtain rfl := Option.some.inj hr
      unfold rxAccept at hpc
      split at hpc
      · cases hpc
      · dsimp only at hpc
        split_ifs at hpc
    | inRx | inCallback | inTick | inTxFailed =>
      rw [hx] at hr
      obtain rfl := Option.some.inj hr
      cases hpc
  | releaseHandle a pending =>
    unfold releaseHandle at hpc
    split_ifs at hpc
    exact absurd hpc arpResponse_accepting
  | call _ m _ hc => exact .inl ⟨hpc, m, hc⟩

/-- A handle starts to count what it receives with the SYN|ACK that ends SYN_SENT or with the
SYN it is given to answer. -/
theorem step_receiving (hs : step x i = some y) (hy : (y.1.mem h).state.receiving = true) :
    (x.1.mem h).state.receiving = true ∨
    ((x.1.mem h).state = .synSent ∧ ∃ seg lower, Acknowledges x h i seg lower ∧
      seg.flags = flagSyn ||| flagAck ∧ (y.1.mem h).conn.ackNumber = seg.seqNumber + 1#32) ∨
    ((x.1.mem h).state = .idle ∧ (y.1.mem h).state = .synReceived ∧ ∃ l seg release lower,
      i = .ret release (some h) lower ∧ x.2 = .inAccepting l seg ∧
      (y.1.mem h).conn.ackNumber = seg.seqNumber + 1#32) := by
  obtain ⟨k, new, heff, hk, -⟩ := step_effect hs h
  have hst : (y.1.mem h).state = k.state := by rw [← hk]; rfl
  rw [hst] at hy ⊢
  rw [hk]
  cases heff with
  | synAcknowledged seg lower hack hx hf => exact .inr (.inl ⟨hx, seg, lower, hack, hf, rfl⟩)
  | answered l seg release lower _ hi hpc hx =>
      exact .inr (.inr ⟨hx, rfl, l, seg, release, lower, hi, hpc, rfl⟩)
  | accepted _ _ _ hx => exact .inl (by rw [hx]; rfl)
  | opened | connected | listening | closedByCall | reset | invalid | fin | closeAcknowledged |
      finAcknowledged
  | finWait | timedOut | exhausted => cases hy
  | _ => exact .inl hy

theorem delivered_append {new : List Raised} (he : y.1.eventsOf h = x.1.eventsOf h ++ new) :
    y.1.delivered h = x.1.delivered h ++ (received new).map Segment.payload := by
  rw [Stack.delivered, he, received, List.filterMap_append, List.map_append]
  rfl

theorem confirmed_append {new : List Raised} (he : y.1.eventsOf h = x.1.eventsOf h ++ new) :
    y.1.confirmed h = x.1.confirmed h + new.countP fun e => e.1 = .tx := by
  rw [Stack.confirmed, he, List.countP_append]
  rfl

theorem Opened.step (ho : Opened h x.1) (hs : step x i = some y) : Opened h y.1 := by
  obtain ⟨seg, hin, hf⟩ := ho
  exact ⟨seg, by rw [step_sent hs]; exact List.mem_append.mpr (.inl hin), hf⟩

theorem opened_of_logged {m : Stack n} {seg : Segment} {ret : Err} (hreg : ∀ o ∈ m.log, o.Regular h)
    (hlog : .output h seg ret ∈ m.log) (hf : seg.hasFlag flagSyn = true) : Opened h m := by
  obtain ⟨rfl, -, -⟩ := hreg _ hlog rfl
  exact ⟨seg, mem_sent.mpr hlog, hf⟩

/-- A handle begins to wait for an acknowledgement by sending its SYN. -/
theorem step_opened (ho : Own h x) (hreg : ∀ o ∈ y.1.log, o.Regular h) (hs : step x i = some y)
    (hy : (y.1.mem h).state = .synSent ∨ (y.1.mem h).state = .synReceived ∨ (y.1.mem h).state =
      .established) :
    Opened h y.1 := by
  have hold (hx : (x.1.mem h).state = .synSent ∨ (x.1.mem h).state = .synReceived ∨
      (x.1.mem h).state = .established) : Opened h y.1 := (ho.opened hx).step hs
  have hg := step_goes hs h
  generalize hx : (x.1.mem h).state = s at hg hold
  generalize hst : (y.1.mem h).state = s' at hg hy
  cases hg with
  | same => exact hold hy
  | connected address port lower hi =>
    subst hi
    cases step_move hs with
    | call _ m' _ hc =>
      obtain rfl := Option.some.inj hc
      obtain ⟨seg, ret, hf, hlog⟩ := connect_logged hx hst
      exact opened_of_logged hreg hlog (by rw [Segment.hasFlag, hf]; decide)
  | answered l seg release lower hi hpc =>
    subst hi
    cases step_move hs with
    | call _ _ _ hc => cases hc
    | ret _ _ _ _ hr =>
      rw [hpc] at hr
      obtain rfl := Option.some.inj hr
      obtain ⟨seg', ret, hf, hlog⟩ := rxAccept_logged hx hst
      exact opened_of_logged hreg hlog (by rw [Segment.hasFlag, hf]; decide)
  | accepted => exact hold (.inr (.inl rfl))
  | synAcknowledged => exact hold (.inl rfl)
  | closed | opened | listening | fin | finAcknowledged | finWait =>
      rcases hy with hy | hy | hy <;> cases hy

theorem step_regular (ho : Own h x) (hh : HandsOff h x i) (hs : step x i = some y) :
    ∀ o ∈ y.1.log, o.Regular h := by
  rw [step_log hs]
  intro o hin
  rcases List.mem_append.mp hin with hold | hnew
  · exact ho.regular o hold
  · exact hh.2 y hs o hnew

/-- Before it connects or accepts a handle has not sent its SYN. -/
theorem step_unopened (ho : Own h x) (h1 : OpenedOnce h x i) (hs : step x i = some y)
    (hy : (y.1.mem h).state = .idle ∨ (y.1.mem h).state = .listen) : ¬ Opened h y.1 := by
  rintro ⟨seg, hin, hf⟩
  rw [step_sent hs] at hin
  rcases List.mem_append.mp hin with hold | hnew
  · have hopen : Opened h x.1 := ⟨seg, hold, hf⟩
    have hg := step_goes hs h
    have hno := ho.unopened
    generalize (x.1.mem h).state = s at hg hno
    generalize (y.1.mem h).state = s' at hg hy
    cases hg with
    | same => exact hno hy hopen
    | opened localPort readings hi =>
      subst hi
      exact h1 rfl hopen
    | listening => exact hno (.inl rfl) hopen
    | closed | connected | answered | synAcknowledged | accepted | fin |
        finAcknowledged | finWait =>
      rcases hy with hy | hy <;> cases hy
  · obtain ⟨-, -, hst, -⟩ := syn_number hs (mem_newlySent.mp hnew) hf
    rcases hst with hst | hst <;> rw [hst] at hy <;> rcases hy with hy | hy <;> cases hy

theorem step_speaks (ho : Own h x) (hs : step x i = some y) {seg : Segment} (hin : seg ∈ y.1.sent h)
    (hf : seg.isData = true ∨ seg.flags = flagAck) : Opened h y.1 := by
  refine Opened.step ?_ hs
  rw [step_sent hs] at hin
  rcases List.mem_append.mp hin with hold | hnew
  · exact ho.speaks seg hold hf
  · rcases hf with hd | ha
    · obtain ⟨-, -, -, hx, -⟩ := data_sent hs (mem_newlySent.mp hnew) (of_decide_eq_true hd)
      exact ho.opened (.inr (.inr hx))
    · obtain ⟨-, -, hx | hx | hx | ⟨hx, -⟩⟩ := pureAck_number hs (mem_newlySent.mp hnew) ha
      · exact ho.opened (.inr (.inr hx))
      · exact absurd hx ho.closing.1
      · exact absurd hx ho.closing.2
      · exact ho.opened (.inl hx)

theorem own_accepting (ho : Own h x) (hs : step x i = some y) {l : Fin n} {seg : Segment}
    (hpc : y.2 = .inAccepting l seg) :
    seg.flags = flagSyn ∧ (l = h → (y.1.mem h).state.receiving = false) := by
  rcases step_accepting hs hpc with ⟨hx, m, hc⟩ | ⟨hf, hl⟩
  · obtain ⟨hf, hno⟩ := ho.accepting l seg hx
    refine ⟨hf, fun hlh => Bool.eq_false_iff.mpr fun hy => ?_⟩
    rcases step_receiving hs hy with hrec | ⟨-, seg', lower, hack, -⟩ |
      ⟨-, -, l', seg', release, lower, hi, -⟩
    · rw [hno hlh] at hrec
      cases hrec
    · rcases hack.1 with ⟨-, hready, -⟩ | ⟨_, _, _, -, hreset⟩
      · cases hx.symm.trans hready
      · cases hx.symm.trans hreset
    · rw [hi] at hc
      cases hc
  · refine ⟨hf, fun hlh => Bool.eq_false_iff.mpr fun hy => ?_⟩
    rw [hlh] at hl
    rcases step_receiving hs hy with hrec | ⟨hx, -⟩ | ⟨hx, -⟩
    · rw [hl] at hrec
      cases hrec
    · cases hl.symm.trans hx
    · cases hl.symm.trans hx

theorem step_accepted (hs : step x i = some y) (h : Fin n) : y.1.accepted h =
    x.1.accepted h ++ ((newlySent h x y).filter Segment.isData).map Segment.payload := by
  rw [Stack.accepted, step_sent hs, List.filter_append, List.map_append]
  rfl

theorem no_data (hs : step x i = some y) (hno : ¬ ∃ pid lower, i = .sendPacket h pid lower ∧
    (x.1.mem h).state = .established ∧ (x.1.mem h).lastTxPacket = none) :
    (newlySent h x y).filter Segment.isData = [] := by
  rw [List.filter_eq_nil_iff]
  intro seg hin hd
  obtain ⟨pid, lower, hi, hx⟩ := data_sent hs (mem_newlySent.mp hin) (of_decide_eq_true hd)
  exact hno ⟨pid, lower, hi, hx⟩

theorem step_data (hs : step x i = some y) (hx : (x.1.mem h).state ≠ .established) :
    y.1.delivered h = x.1.delivered h ∧ y.1.accepted h = x.1.accepted h := by
  obtain ⟨k, new, heff, -, he⟩ := step_effect hs h
  have hrx : received new = [] := by
    cases heff with
    | data _ _ _ hx' => exact absurd hx' hx
    | timedOut _ _ event _ _ _ hevent => rcases hevent with ⟨-, rfl⟩ | ⟨-, rfl⟩ | ⟨-, rfl⟩ <;> rfl
    | _ => rfl
  have hnone := no_data (h := h) hs fun ⟨_, _, _, hx', _⟩ => hx hx'
  rw [delivered_append he, hrx, step_accepted hs, hnone]
  exact ⟨List.append_nil _, List.append_nil _⟩

theorem own_closing (ho : Own h x) (hs : step x i = some y) :
    (y.1.mem h).state ≠ .finWait1 ∧ (y.1.mem h).state ≠ .finWait2 := by
  have hg := step_goes hs h
  have hclosing := ho.closing
  generalize (x.1.mem h).state = s at hg hclosing
  generalize (y.1.mem h).state = s' at hg ⊢
  cases hg with
  | same => exact hclosing
  | finAcknowledged => exact absurd rfl hclosing.1
  | _ => decide

theorem own_pending (ho : Own h x) (hs : step x i = some y) (hno : ¬ Opened h x.1) :
    (y.1.mem h).lastTxPacket = none := by
  obtain ⟨k, new, heff, hk, -⟩ := step_effect hs h
  have hlast : (y.1.mem h).lastTxPacket = k.lastTxPacket := by rw [← hk]; rfl
  have hpending := ho.pending hno
  rw [hlast]
  cases heff with
  | sent _ _ _ _ hx => exact absurd (ho.opened (.inr (.inr hx))) hno
  | acked | exhausted => rfl
  | _ => exact hpending

theorem waiting_before (ho : Own h x) (hs : step x i = some y) (hy : ¬ Opened h y.1 ∨
    (y.1.mem h).state = .synSent ∨ (y.1.mem h).state = .synReceived) : ¬ Opened h x.1 ∨
      (x.1.mem h).state = .synSent ∨ (x.1.mem h).state = .synReceived := by
  rcases hy with hno | hy
  · exact .inl fun hx => hno (hx.step hs)
  · have hg := step_goes hs h
    have hidle (hx : (x.1.mem h).state = .idle) : ¬ Opened h x.1 := ho.unopened (.inl hx)
    generalize (x.1.mem h).state = s at hg hidle ⊢
    generalize (y.1.mem h).state = s' at hg hy
    cases hg with
    | same => exact .inr hy
    | connected | answered => exact .inl (hidle rfl)
    | closed | opened | listening | synAcknowledged | accepted | fin | finAcknowledged | finWait =>
      rcases hy with hy | hy <;> cases hy

theorem own_waiting (ho : Own h x) (hs : step x i = some y) (hy : ¬ Opened h y.1 ∨
    (y.1.mem h).state = .synSent ∨ (y.1.mem h).state = .synReceived) :
    y.1.delivered h = [] ∧ y.1.accepted h = [] := by
  have hbefore := waiting_before ho hs hy
  obtain ⟨hdel, hacc⟩ := ho.waiting hbefore
  have hx : (x.1.mem h).state ≠ .established := by
    rintro hx
    rcases hbefore with hno | hx' | hx'
    · exact hno (ho.opened (.inr (.inr hx)))
    · cases hx.symm.trans hx'
    · cases hx.symm.trans hx'
  obtain ⟨hdely, haccy⟩ := step_data hs hx
  exact ⟨hdely.trans hdel, haccy.trans hacc⟩

theorem Own.step (ho : Own h x) (h1 : OpenedOnce h x i) (hh : HandsOff h x i)
    (hs : step x i = some y) :
    Own h y where
  regular := step_regular ho hh hs
  queued := busyLogged_step ho.queued hs
  accepting _ _ := own_accepting ho hs
  closing := own_closing ho hs
  unopened := step_unopened ho h1 hs
  opened := step_opened ho (step_regular ho hh hs) hs
  speaks _ := step_speaks ho hs
  pending hy := own_pending ho hs fun hx => hy (hx.step hs)
  waiting := own_waiting ho hs

end Own

end NanoIp.Tcp
