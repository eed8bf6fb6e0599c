import NanoIp.Tcp.Whole
import Mathlib.Data.Finset.Basic
import Mathlib.Data.Fintype.EquivFin

/-!
# Which handle a segment reaches

The lookup compares ports only. Here its loop is replaced by what it finds, and
the handles a reception can touch are determined: the one found, unless the
segment leaves it as it is, and the accept handle of a listening one.
-/
namespace NanoIp.Tcp

variable {n : Nat}

/-- The states of a handle with a peer. -/
def State.connected : State → Bool
  | .synSent | .synReceived | .established | .finWait1 | .finWait2 | .closeWait | .timeWait => true
  | .closed | .listen | .closing | .lastAck | .idle => false

/-- The segment comes from the handle's peer and is addressed to the handle. -/
def Handle.Matches (k : Handle n) (seg : Segment) : Prop :=
  k.port = seg.destPort ∧ k.destPort = seg.srcPort ∧ k.destIpv4Address = seg.srcAddress ∧
    (k.ipv4Address ≠ 0#32 → k.ipv4Address = seg.destAddress)

def onPort (m : Stack n) (seg : Segment) : List (Fin n) :=
  m.registered.filter fun h => (m.mem h).port = seg.destPort

/-- The first of them with the source port as peer port, else the last of them. -/
def designated (m : Stack n) (seg : Segment) : Option (Fin n) :=
  ((onPort m seg).find? fun h => (m.mem h).destPort = seg.srcPort).or (onPort m seg).getLast?

theorem lookupIn_eq (m : Stack n) (seg : Segment) (l : List (Fin n)) : ∀ could,
    lookupIn m seg could l =
      ((l.filter fun h => (m.mem h).port = seg.destPort).find? fun h => (m.mem h).destPort =
        seg.srcPort).or
        ((l.filter fun h => (m.mem h).port = seg.destPort).getLast?.or could) := by
  induction l with
  | nil => intro could; rfl
  | cons h l ih =>
    intro could
    rw [lookupIn]
    by_cases hp : (m.mem h).port = seg.destPort
    · rw [if_pos hp, List.filter_cons_of_pos (by simpa using hp)]
      by_cases hd : (m.mem h).destPort = seg.srcPort
      · rw [if_pos hd, List.find?_cons_of_pos (by simpa using hd)]
        rfl
      · rw [if_neg hd, List.find?_cons_of_neg (by simpa using hd), ih]
        congr 1
        rw [List.getLast?_cons]
        cases (l.filter fun h => decide ((m.mem h).port = seg.destPort)).getLast? <;> rfl
    · rw [if_neg hp, List.filter_cons_of_neg (by simpa using hp), ih]

theorem lookup_eq_designated (m : Stack n) (seg : Segment) : lookup m seg = designated m seg := by
  rw [lookup, lookupIn_eq, Option.or_none]
  rfl

/-- An acknowledgement that moves nothing: the IPv4 handle is busy, the number is
there already, and so is the saved header of a pending packet. -/
def Handle.Stuck (k : Handle n) (ack : BitVec 32) : Prop :=
  k.ipv4Handle.busy = true ∧ k.ackNumber = ack ∧
    (k.lastTxPacket.isSome = true → k.ipv4Address ≠ 0#32 ∧
      k.lastTxPacketIpv4Header = ⟨k.ipv4Address, k.destIpv4Address, protocol⟩)

/-- A segment that acknowledges all the handle sent, and to which it does not react. -/
def Handle.NoReaction (k : Handle n) (seg : Segment) : Prop :=
  match k.state with
  | .synSent => seg.flags = flagSyn ||| flagAck → k.Stuck (seg.seqNumber + 1#32)
  | .synReceived | .closeWait => seg.flags ≠ flagAck
  | .established =>
    (seg.payload.length ≠ 0 ∧ seg.flags = flagPsh ||| flagAck → seg.seqNumber ≠ k.ackNumber) ∧
    ¬ (k.lastTxPacket.isSome = true ∧ seg.flags = flagAck) ∧
    (seg.flags = flagFin ||| flagAck → k.Stuck (seg.seqNumber + 1#32))
  | .finWait1 =>
    seg.flags ≠ flagAck ∧ (seg.flags = flagFin ||| flagAck → k.Stuck (seg.seqNumber + 1#32))
  | .finWait2 => seg.flags = flagFin ||| flagAck → k.Stuck (seg.seqNumber + 1#32)
  | _ => False

/-- A segment that leaves the handle as it is whatever the layers below answer. -/
def Handle.Ignores (k : Handle n) (seg : Segment) : Prop :=
  seg.hasFlag flagRst = false ∧
    (seg.ackNumber < k.seqNumber ∨ seg.ackNumber = k.seqNumber ∧ k.NoReaction seg)

section Acknowledging

variable {m : Stack n} {h : Fin n}

theorem exists_free (l : List PacketId) : ∃ pid, pid ∉ l := by
  obtain ⟨pid, hp⟩ := Infinite.exists_notMem_finset l.toFinset
  exact ⟨pid, fun hm => hp (List.mem_toFinset.mpr hm)⟩

theorem controlResult_free (hb : (m.mem h).ipv4Handle.busy = false) {pid : PacketId}
    (hp : pid ∉ m.allocated) : controlResult m h (transmitting pid) = .success := by
  unfold controlResult Ipv4.sendResult
  simp only [transmitting, if_neg hp, hb]
  rfl

theorem Failure.ne_success (e : Failure) : e.1 ≠ .success := by
  intro he
  have hacc := e.2
  rw [he] at hacc
  cases hacc

theorem controlResult_busy (hb : (m.mem h).ipv4Handle.busy = true) (lower : Lower) :
    controlResult m h lower ≠ .success := by
  unfold controlResult
  cases lower.alloc with
  | error e => exact Failure.ne_success e
  | ok pid =>
    dsimp only
    split_ifs
    · exact nofun
    · rw [Ipv4.sendResult, if_pos hb]
      exact nofun

/-- What a control frame of a busy handle still does: it saves the header of a
pending packet. -/
theorem sendControlFrame_busy (hb : (m.mem h).ipv4Handle.busy = true) (flags : Byte) (lower : Lower)
    {pid : PacketId} (ha : lower.alloc = .ok pid) (hp : pid ∉ m.allocated) :
    (sendControlFrame m h flags lower).1.mem h = { m.mem h with
      lastTxPacketIpv4Header := if (m.mem h).lastTxPacket.isSome
        then outputHeader (m.mem h) lower (allocatedPacket 0#16 blankPacket)
        else (m.mem h).lastTxPacketIpv4Header } := by
  unfold sendControlFrame allocatePacket
  simp only [ha, if_neg hp]
  have hmem {m' : Stack n} {ret : Err} :
      (if ret.accepted = true then m' else m'.releasePacket pid).mem = m'.mem := by split <;> rfl
  rw [hmem]
  unfold finalizeAndSendPacket
  simp only [recordHanded_mem, Stack.record_mem, Stack.wait_mem]
  rw [Stack.modify_self, Ipv4.sendPacket_busy hb, Function.update_self]
  rfl

def acknowledge (m : Stack n) (h : Fin n) (ack : BitVec 32) (flags : Byte) (lower : Lower) :
    Stack n × Err :=
  sendControlFrame (m.modify h fun k => { k with ackNumber := ack }) h flags lower

variable {ack : BitVec 32}

theorem acknowledge_ackNumber (m : Stack n) (h : Fin n) (ack : BitVec 32) (flags : Byte)
    (lower : Lower) :
    ((acknowledge m h ack flags lower).1.mem h).ackNumber = ack := by
  have hc := sendControlFrame_conn (m.modify h fun k => { k with ackNumber := ack }) h flags lower h
  rw [Stack.modify_self] at hc
  exact congrArg Handle.ackNumber hc

theorem acknowledge_eventsOf (flags : Byte) (lower : Lower) :
    (acknowledge m h ack flags lower).1.eventsOf h = m.eventsOf h :=
  (sendControlFrame_eventsOf _ _ _ _ _).trans (Stack.eventsOf_congr rfl h)

theorem not_apart_of_ack {m' : Stack n} (ha : (m'.mem h).ackNumber ≠ (m.mem h).ackNumber) :
    ¬ Apart m m' h := by
  intro h'
  have he := congrArg Handle.ackNumber h'.1
  exact ha he

theorem not_apart_of_state {m' : Stack n} (hs : (m'.mem h).state ≠ (m.mem h).state) :
    ¬ Apart m m' h := by
  intro h'
  have he := congrArg Handle.state h'.1
  exact hs he

theorem not_apart_of_events {m' : Stack n} {e : Raised} {new : List Raised}
    (he : m'.eventsOf h = m.eventsOf h ++ e :: new) : ¬ Apart m m' h := by
  rintro ⟨-, h'⟩
  have hl := congrArg List.length (he.symm.trans h')
  simp at hl

/-- A stuck acknowledgement leaves the handle as it is. -/
theorem Handle.Stuck.apart (hs : (m.mem h).Stuck ack) (flags : Byte) (lower : Lower) :
    Apart m (acknowledge m h ack flags lower).1 h := by
  obtain ⟨hb, hack, hsaved⟩ := hs
  have hsame : (m.modify h fun k => { k with ackNumber := ack }).mem h = m.mem h := by
    rw [Stack.modify_self, ← hack]
  refine ⟨congrArg Handle.unlinked ?_, acknowledge_eventsOf flags lower⟩
  unfold acknowledge
  cases ha : lower.alloc with
  | error e => rw [sendControlFrame, ha]; exact hsame
  | ok pid =>
    by_cases hp : pid ∈ m.allocated
    · have hres : sendControlFrame (m.modify h fun k => { k with ackNumber := ack }) h flags lower =
          (m.modify h fun k => { k with ackNumber := ack }, .resource) := by
        unfold sendControlFrame allocatePacket
        simp only [ha, Stack.modify_allocated, hp, ↓reduceIte]
      rw [hres]
      exact hsame
    · have hmem := sendControlFrame_busy (m := m.modify h fun k => { k with ackNumber := ack })
        (by rwa [hsame]) flags lower ha hp
      rw [hmem, hsame]
      split_ifs with hl
      · obtain ⟨haddr, hheader⟩ := hsaved hl
        rw [outputHeader, if_neg haddr, ← hheader]
      · rfl

/-- Where an acknowledgement is not stuck, some answer of the layers below lets it out
or moves the handle. -/
theorem exists_moving (hs : ¬ (m.mem h).Stuck ack) : ∃ lower, controlResult m h lower = .success ∨
    (∀ flags, ¬ Apart m (acknowledge m h ack flags lower).1 h) := by
  obtain ⟨pid, hp⟩ := exists_free m.allocated
  cases hb : (m.mem h).ipv4Handle.busy with
  | false => exact ⟨transmitting pid, .inl (controlResult_free hb hp)⟩
  | true =>
    by_cases hack : (m.mem h).ackNumber = ack
    · have hsame : (m.modify h fun k => { k with ackNumber := ack }).mem h = m.mem h := by
        rw [Stack.modify_self, ← hack]
      let other : NetIf :=
        ⟨Vector.replicate 6 0#8, (m.mem h).lastTxPacketIpv4Header.srcAddress + 1#32, 0#32⟩
      let lower : Lower := { transmitting pid with route := fun _ => .ok (0#32, other) }
      refine ⟨lower, .inr fun flags hapart => hs ⟨hb, hack, fun hl => ?_⟩⟩
      have hmem := sendControlFrame_busy (m := m.modify h fun k => { k with ackNumber := ack })
        (by rwa [hsame]) flags lower rfl hp
      have hsaved := congrArg Handle.lastTxPacketIpv4Header hapart.1
      unfold acknowledge at hsaved
      rw [Handle.unlinked, hmem, hsame, if_pos hl] at hsaved
      change outputHeader (m.mem h) lower (allocatedPacket 0#16 blankPacket) =
        (m.mem h).lastTxPacketIpv4Header at hsaved
      by_cases haddr : (m.mem h).ipv4Address = 0#32
      · have hsrc := congrArg Ipv4Header.srcAddress hsaved
        rw [outputHeader, if_pos haddr] at hsrc
        change (m.mem h).lastTxPacketIpv4Header.srcAddress + 1#32 = _ at hsrc
        have hone := (BitVec.add_right_inj _).mp (hsrc.trans (BitVec.add_zero _).symm)
        exact absurd hone (by decide)
      · rw [outputHeader, if_neg haddr] at hsaved
        exact ⟨haddr, hsaved.symm⟩
    · exact ⟨transmitting pid, .inr fun flags =>
        not_apart_of_ack (by rw [acknowledge_ackNumber]; exact Ne.symm hack)⟩

/-- A branch that acknowledges with `ack` and reacts further only to success. -/
theorem apart_iff_stuck {F : Lower → Stack n} (flags : Byte)
    (hrefused : ∀ lower, controlResult m h lower ≠ .success →
      F lower = (acknowledge m h ack flags lower).1)
    (hsuccess : ∀ lower, controlResult m h lower = .success → ¬ Apart m (F lower) h) :
    (∀ lower, Apart m (F lower) h) ↔ (m.mem h).Stuck ack := by
  constructor
  · intro hall
    by_contra hs
    obtain ⟨lower, hr | hmove⟩ := exists_moving hs
    · exact hsuccess lower hr (hall lower)
    · by_cases hr : controlResult m h lower = .success
      · exact hsuccess lower hr (hall lower)
      · exact hmove flags (hrefused lower hr ▸ hall lower)
  · intro hs lower
    rw [hrefused lower (controlResult_busy hs.1 lower)]
    exact hs.apart flags lower

end Acknowledging

section Reactions

variable {m : Stack n} {h : Fin n} {seg : Segment}

theorem rxSynSent_apart_iff (hs : (m.mem h).state = .synSent) :
    (∀ lower, Apart m (rxSynSent m h seg lower).1 h) ↔
      (seg.flags = flagSyn ||| flagAck → (m.mem h).Stuck (seg.seqNumber + 1#32)) := by
  unfold rxSynSent
  by_cases hf : seg.flags = flagSyn ||| flagAck
  · simp only [if_pos hf]
    rw [apart_iff_stuck flagAck]
    · exact ⟨fun h _ => h, fun h => h hf⟩
    · intro lower hr
      rw [sendControlFrame_eq, controlResult_ack, if_neg hr]
      rfl
    · intro lower hr
      rw [sendControlFrame_eq, controlResult_ack, if_pos hr]
      refine not_apart_of_state ?_
      change ((Stack.setState _ h .established).mem h).state ≠ _
      rw [Stack.setState_self, hs]
      exact nofun
  · simp only [if_neg hf]
    exact iff_of_true (fun _ => Apart.refl m h) fun h => absurd h hf

theorem rxFin_apart_iff (hs : (m.mem h).state = .established) :
    (∀ lower, Apart m (rxFin m h seg lower).1 h) ↔ (m.mem h).Stuck (seg.seqNumber + 1#32) := by
  unfold rxFin
  refine apart_iff_stuck (flagFin ||| flagAck) (fun lower hr => ?_) (fun lower hr => ?_)
  · dsimp only
    rw [sendControlFrame_eq, controlResult_ack, if_neg hr]
    rfl
  · dsimp only
    rw [sendControlFrame_eq, controlResult_ack, if_pos hr]
    refine not_apart_of_state ?_
    dsimp only
    rw [Stack.startTimeout, Stack.modify_self, Stack.modify_self, hs]
    exact nofun

theorem finWaitFin_apart_iff (hs : (m.mem h).state ≠ .timeWait) :
    (∀ lower, Apart m (finWaitFin m h seg lower).1 h) ↔ (m.mem h).Stuck (seg.seqNumber + 1#32) := by
  unfold finWaitFin
  refine apart_iff_stuck flagAck (fun lower hr => ?_) (fun lower hr => ?_)
  · dsimp only
    rw [sendControlFrame_eq, controlResult_ack, if_neg hr]
    rfl
  · dsimp only
    rw [sendControlFrame_eq, controlResult_ack, if_pos hr]
    refine not_apart_of_state ?_
    rw [Stack.startTimeout, Stack.modify_self, Stack.setState_self]
    exact Ne.symm hs

theorem nextSeq_ne (hl : seg.payload.length ≠ 0) : seg.nextSeq ≠ seg.seqNumber := by
  intro he
  have h0 := (BitVec.add_right_inj _).mp (he.trans (BitVec.add_zero _).symm)
  have hn := congrArg BitVec.toNat h0
  rw [BitVec.toNat_ofNat, Nat.mod_eq_of_lt (Nat.lt_trans seg.payload_lt (by decide))] at hn
  exact hl hn

/-- Data in sequence always moves the acknowledgement number. -/
theorem rxData_apart_iff (hl : seg.payload.length ≠ 0) :
    (∀ lower, Apart m (rxData m h seg lower).1 h) ↔ seg.seqNumber ≠ (m.mem h).ackNumber := by
  constructor
  · intro hall he
    refine not_apart_of_ack ?_ (hall (transmitting 0))
    have hack := acknowledge_ackNumber m h seg.nextSeq flagAck (transmitting 0)
    unfold rxData
    rw [if_pos he]
    dsimp only
    rw [sendControlFrame_eq]
    dsimp only
    split_ifs
    · exact fun h => nextSeq_ne hl (hack.symm.trans (h.trans he.symm))
    · exact fun h => nextSeq_ne hl (hack.symm.trans (h.trans he.symm))
  · intro hne lower
    unfold rxData
    rw [if_neg hne]
    exact Apart.refl m h

theorem rxEstablished_apart_iff (hs : (m.mem h).state = .established) :
    (∀ lower, Apart m (rxEstablished m h seg lower).1 h) ↔
      (seg.payload.length ≠ 0 ∧ seg.flags = flagPsh ||| flagAck →
        seg.seqNumber ≠ (m.mem h).ackNumber) ∧
      ¬ ((m.mem h).lastTxPacket.isSome = true ∧ seg.flags = flagAck) ∧
      (seg.flags = flagFin ||| flagAck → (m.mem h).Stuck (seg.seqNumber + 1#32)) := by
  unfold rxEstablished
  by_cases hd : seg.payload.length ≠ 0 ∧ seg.flags = flagPsh ||| flagAck
  · simp only [if_pos hd]
    have h1 : seg.flags ≠ flagAck := by rw [hd.2]; decide
    have h2 : seg.flags ≠ flagFin ||| flagAck := by rw [hd.2]; decide
    rw [rxData_apart_iff hd.1]
    exact ⟨fun h => ⟨fun _ => h, fun h => h1 h.2, fun h => absurd h h2⟩, fun h => h.1 hd⟩
  · simp only [if_neg hd]
    by_cases ha : (m.mem h).lastTxPacket.isSome = true ∧ seg.flags = flagAck
    · simp only [if_pos ha]
      refine iff_of_false (fun hall => ?_) fun h => h.2.1 ha
      have hev := ((releaseLastTx_becomes m h).raise .tx .success none).2
      exact not_apart_of_events hev (hall (transmitting 0))
    · simp only [if_neg ha]
      by_cases hf : seg.flags = flagFin ||| flagAck
      · simp only [if_pos hf]
        rw [rxFin_apart_iff hs]
        exact ⟨fun h => ⟨fun h' => absurd h' hd, ha, fun _ => h⟩, fun h => h.2.2 hf⟩
      · simp only [if_neg hf]
        exact iff_of_true (fun _ => Apart.refl m h)
          ⟨fun h' => absurd h' hd, ha, fun h' => absurd h' hf⟩

theorem resetConnection_not_apart (lower : Lower) : ¬ Apart m (resetConnection m h lower).1 h :=
  not_apart_of_events (resetConnection_becomes m h lower).2

/-- The connected states react to a matching acknowledgement unless `NoReaction` holds. -/
theorem rxStateMachine_apart_iff (hc : (m.mem h).state.connected = true) :
    (∀ lower, Apart m (rxStateMachine m h seg lower).1 h) ↔ (m.mem h).NoReaction seg := by
  have h0 := Apart.refl m h
  have hb := (Untouched.refl m h).becomes
  unfold rxStateMachine Handle.NoReaction
  cases hs : (m.mem h).state with
  | synSent => exact rxSynSent_apart_iff hs
  | established => exact rxEstablished_apart_iff hs
  | synReceived =>
    dsimp only
    by_cases hf : seg.flags = flagAck
    · simp only [if_pos hf]
      exact iff_of_false
        (fun hall => not_apart_of_events ((hb.setState .established).raise _ _ _).2
          (hall (transmitting 0)))
        (not_not_intro hf)
    · simp only [if_neg hf]
      exact iff_of_true (fun _ => h0) hf
  | closeWait =>
    dsimp only
    by_cases hf : seg.flags = flagAck
    · simp only [if_pos hf]
      exact iff_of_false
        (fun hall => not_apart_of_events ((hb.setState .closed).removeHandle.raise _ _ _).2
          (hall (transmitting 0)))
        (not_not_intro hf)
    · simp only [if_neg hf]
      exact iff_of_true (fun _ => h0) hf
  | finWait1 =>
    dsimp only
    by_cases hf : seg.flags = flagAck
    · simp only [if_pos hf]
      refine iff_of_false (fun hall => not_apart_of_state ?_ (hall (transmitting 0))) fun h =>
        h.1 hf
      rw [Stack.startTimeout, Stack.modify_self, Stack.setState_self, hs]
      exact nofun
    · simp only [if_neg hf]
      by_cases hf' : seg.flags = flagFin ||| flagAck
      · simp only [if_pos hf']
        rw [finWaitFin_apart_iff (by rw [hs]; exact nofun)]
        exact ⟨fun h => ⟨hf, fun _ => h⟩, fun h => h.2 hf'⟩
      · simp only [if_neg hf']
        exact iff_of_true (fun _ => h0) ⟨hf, fun h => absurd h hf'⟩
  | finWait2 =>
    dsimp only
    by_cases hf : seg.flags = flagFin ||| flagAck
    · simp only [if_pos hf]
      rw [finWaitFin_apart_iff (by rw [hs]; exact nofun)]
      exact ⟨fun h _ => h, fun h => h hf⟩
    · simp only [if_neg hf]
      exact iff_of_true (fun _ => h0) fun h => absurd h hf
  | timeWait =>
    exact iff_of_false (fun hall => resetConnection_not_apart _ (hall (transmitting 0))) id
  | closed | listen | closing | lastAck | idle =>
    rw [hs] at hc
    cases hc

theorem connected_ne_listen (hc : (m.mem h).state.connected = true) :
    (m.mem h).state ≠ .listen := by
  intro hl
  rw [hl] at hc
  cases hc

theorem rxAcknowledge_apart_iff (hc : (m.mem h).state.connected = true) :
    (∀ lower, Apart m (rxAcknowledge m h seg lower).1 h) ↔
      (seg.ackNumber < (m.mem h).seqNumber ∨
        seg.ackNumber = (m.mem h).seqNumber ∧ (m.mem h).NoReaction seg) := by
  have hl := connected_ne_listen hc
  unfold rxAcknowledge
  by_cases ha : seg.ackNumber = (m.mem h).seqNumber
  · simp only [ha, or_true, ↓reduceIte]
    rw [rxStateMachine_apart_iff hc]
    exact ⟨fun h => .inr ⟨trivial, h⟩, fun h => (h.resolve_left (BitVec.lt_irrefl _)).2⟩
  · simp only [ha, hl, or_false, ↓reduceIte]
    by_cases hg : seg.ackNumber > (m.mem h).seqNumber
    · simp only [if_pos hg]
      refine iff_of_false (fun hall => resetConnection_not_apart _ (hall (transmitting 0))) ?_
      rintro (hlt | ⟨he, -⟩)
      · exact BitVec.lt_irrefl _ (BitVec.lt_trans hlt hg)
      · exact he
    · simp only [if_neg hg]
      refine iff_of_true (fun _ => Apart.refl m h) (.inl ?_)
      exact BitVec.lt_of_le_ne (BitVec.not_lt.mp hg) ha

end Reactions

section Receptions

variable {m : Stack n} {h a : Fin n} {seg : Segment}

theorem rxWhole_apart {lower : Lower} (hl : lookup m seg = some h) (hne : a ≠ h) :
    Apart m (rxWhole m seg lower).1 a := by
  rw [rxWhole_eq lower hl]
  refine Apart.trans ?_ (rxAcknowledge_apart hne)
  unfold beforeAcknowledge
  split_ifs
  · exact (((Apart.refl m a).setState hne .closed).removeHandle).raise hne _ _ _
  · exact Apart.refl m a

theorem rxWhole_apart_iff (hl : lookup m seg = some h) (hc : (m.mem h).state.connected = true) :
    (∀ lower, Apart m (rxWhole m seg lower).1 h) ↔ (m.mem h).Ignores seg := by
  simp only [rxWhole_eq _ hl]
  by_cases hr : seg.hasFlag flagRst = true
  · refine iff_of_false (fun hall => ?_) fun hi => Bool.noConfusion (hi.1.symm.trans hr)
    have hres : resets m h seg := by
      refine ⟨hr, connected_ne_listen hc, fun hi => ?_⟩
      rw [hi] at hc
      cases hc
    have hclosed := (((Untouched.refl m h).becomes.setState .closed).removeHandle (a := h)).raise
      .closed .connReset none
    have hp : Processes (beforeAcknowledge m h seg, .inReset h ⟨seg, hr⟩) h
      (.ret true none (transmitting 0))
        seg (transmitting 0) := .inr ⟨true, none, hr, rfl, rfl⟩
    obtain ⟨k, new, -, hb⟩ := rxAcknowledge_steps hp
    have hreset : (beforeAcknowledge m h seg).eventsOf h =
        m.eventsOf h ++ ([] ++ [(.closed, .connReset, none)]) := by
      rw [beforeAcknowledge, if_pos hres]
      exact hclosed.2
    have hev := hb.2
    dsimp only at hev
    rw [hreset, List.append_assoc] at hev
    exact not_apart_of_events hev (hall (transmitting 0))
  · have hb : beforeAcknowledge m h seg = m := if_neg fun hres => hr hres.1
    rw [hb, rxAcknowledge_apart_iff hc]
    exact ⟨fun h => ⟨Bool.eq_false_of_not_eq_true hr, h⟩, fun h => h.2⟩

/-- A reception asks for an accept handle only for a SYN that reaches a listening handle. -/
theorem rxAnswered_eq (accept : Option (Fin n)) (lower : Lower) (hl : lookup m seg = some h) :
    rxAnswered m seg accept lower =
      if (m.mem h).state = .listen ∧ seg.flags = flagSyn then
        rxAccept (m.raise h .accepting .success none) h seg accept lower
      else rxWhole m seg lower := by
  unfold rxAnswered
  split_ifs with hls
  · have hr : ¬ resets m h seg := fun hr => hr.2.1 hls.1
    have hw : rxWhole m seg lower = (m.raise h .accepting .success none, .inAccepting h seg) := by
      rw [rxWhole_eq lower hl, beforeAcknowledge, if_neg hr, rxAcknowledge, if_pos (.inl hls.1),
        rxStateMachine, hls.1]
      exact if_pos hls.2
    rw [hw]
  · rcases hw : rxWhole m seg lower with ⟨m', pc⟩
    have hset := rxAcknowledge_settled (beforeAcknowledge m h seg) h seg lower
    rw [← rxWhole_eq lower hl, hw] at hset
    rcases hset with he | he | ⟨he, hs, hf⟩ | he
    · dsimp only at he; rw [he]
    · dsimp only at he; rw [he]
    · refine absurd ⟨?_, hf⟩ hls
      unfold beforeAcknowledge at hs
      split_ifs at hs with hr
      · have hclosed : ((m.setState h .closed).mem h).state = .listen := hs
        rw [Stack.setState_self] at hclosed
        cases hclosed
      · exact hs
    · dsimp only at he; rw [he]

theorem rxAccept_apart {accept : Option (Fin n)} {lower : Lower} (hne : a ≠ h)
    (ha : accept ≠ some a) :
    Apart m (rxAccept m h seg accept lower).1 a := by
  have h0 := Apart.refl m a
  unfold rxAccept
  cases accept with
  | none => exact h0
  | some b =>
    have hb : a ≠ b := fun he => ha (congrArg some he.symm)
    dsimp only
    rw [sendControlFrame_eq]
    dsimp only
    set f : Handle n → Handle n := fun k => { k with
      ipv4Address := seg.destAddress, port := seg.destPort
      destIpv4Address := seg.srcAddress, destPort := seg.srcPort }
    have h1 := (((h0.modify hb f).modify hne fun k => { k with
      seqNumber := (m.modify b f).msCounter }).modify hb
      fun k => { k with ackNumber := seg.seqNumber + 1#32 }).sendControlFrame hb
        (flagSyn ||| flagAck) lower
    split_ifs
    · exact (h1.modify hb _).startTimeout hb
    · exact h1
    · exact h0.raise hb _ _ _

/-- Whom a reception that reaches handle `h` leaves alone. -/
theorem rxAnswered_apart_iff (accept : Option (Fin n)) (hl : lookup m seg = some h)
    (hc : (m.mem a).state.connected = true) :
    (∀ lower, Apart m (rxAnswered m seg accept lower).1 a) ↔
      (a = h → (m.mem h).Ignores seg) ∧
      ((m.mem h).state = .listen → seg.flags = flagSyn → accept ≠ some a) := by
  simp only [rxAnswered_eq accept _ hl]
  by_cases hls : (m.mem h).state = .listen ∧ seg.flags = flagSyn
  · simp only [if_pos hls]
    have hne : a ≠ h := by
      rintro rfl
      exact connected_ne_listen hc hls.1
    have hraise : Apart m (m.raise h .accepting .success none) a := (Apart.refl m a).raise hne _ _ _
    by_cases ha : accept = some a
    · subst ha
      have hidle : (m.mem a).state ≠ .idle := by
        intro hi
        rw [hi] at hc
        cases hc
      refine iff_of_false (fun hall => ?_) fun h => h.2 hls.1 hls.2 rfl
      have hacc : (rxAccept (m.raise h .accepting .success none) h seg (some a)
        (transmitting 0)).1 =
          (m.raise h .accepting .success none).raise a .acceptFailed .invalidTcpState none := by
        unfold rxAccept
        exact congrArg Prod.fst (if_neg hidle)
      have hev : ((m.raise h .accepting .success none).raise a .acceptFailed .invalidTcpState
        none).eventsOf a =
          m.eventsOf a ++ [(Event.acceptFailed, .invalidTcpState, none)] := by
        rw [Stack.eventsOf_raise, if_pos rfl, hraise.2]
      rw [← hacc] at hev
      exact not_apart_of_events hev (hall (transmitting 0))
    · exact iff_of_true (fun lower => hraise.trans (rxAccept_apart hne ha))
        ⟨fun he => absurd he hne, fun _ _ => ha⟩
  · simp only [if_neg hls]
    have hrest : (m.mem h).state = .listen → seg.flags = flagSyn → accept ≠ some a :=
      fun h1 h2 => absurd ⟨h1, h2⟩ hls
    by_cases hne : a = h
    · subst hne
      rw [rxWhole_apart_iff hl hc]
      exact ⟨fun h => ⟨fun _ => h, hrest⟩, fun h => h.1 rfl⟩
    · exact iff_of_true (fun lower => rxWhole_apart hl hne) ⟨fun he => absurd he hne, hrest⟩

end Receptions

/-- Only the peer's segments touch a connection, and a segment of no connection goes to
a listening handle of its port if there is one. -/
def OnlyThePeer (m : Stack n) (seg : Segment) (accept : Option (Fin n)) : Prop :=
  (∀ lower h, (m.mem h).state.connected = true →
    ¬ Apart m (rxAnswered m seg accept lower).1 h → (m.mem h).Matches seg) ∧
  ((∀ h ∈ m.registered, (m.mem h).state.connected = true → ¬ (m.mem h).Matches seg) →
    (∃ l ∈ m.registered, (m.mem l).state = .listen ∧ (m.mem l).port = seg.destPort) →
    ∃ l, lookup m seg = some l ∧ (m.mem l).state = .listen ∧ (m.mem l).port = seg.destPort)

/-- The condition: the designated handle has no peer, or the segment is its peer's, or it
ignores the segment; a listening one is not given a foreign connection to accept
with; and where only a listening handle is meant, it is the designated one. -/
def WellDesignated (m : Stack n) (seg : Segment) (accept : Option (Fin n)) : Prop :=
  ∀ h, designated m seg = some h →
    ((m.mem h).state.connected = true → (m.mem h).Matches seg ∨ (m.mem h).Ignores seg) ∧
    ((m.mem h).state = .listen → seg.flags = flagSyn →
      ∀ a, accept = some a → (m.mem a).state.connected = true → (m.mem a).Matches seg) ∧
    ((∀ c ∈ m.registered, (m.mem c).state.connected = true → ¬ (m.mem c).Matches seg) →
      (∃ l ∈ m.registered, (m.mem l).state = .listen ∧ (m.mem l).port = seg.destPort) →
      (m.mem h).state = .listen)

/-- The designated handle is registered on the segment's port, and there is one as
soon as a handle is. -/
theorem designated_port {m : Stack n} {seg : Segment} {h : Fin n} (hd : designated m seg = some h) :
    (m.mem h).port = seg.destPort := by
  have hmem : h ∈ onPort m seg := by
    rcases Option.or_eq_some_iff.mp hd with hf | ⟨-, hg⟩
    · exact List.mem_of_find?_eq_some hf
    · exact List.mem_of_getLast? hg
  simpa using (List.mem_filter.mp hmem).2

theorem designated_isSome {m : Stack n} {seg : Segment} {l : Fin n} (hl : l ∈ m.registered)
    (hp : (m.mem l).port = seg.destPort) : ∃ h, designated m seg = some h := by
  have hmem : l ∈ onPort m seg := List.mem_filter.mpr ⟨hl, by simpa using hp⟩
  cases hf : (onPort m seg).find? fun h => (m.mem h).destPort = seg.srcPort with
  | some h => exact ⟨h, by rw [designated, hf]; rfl⟩
  | none =>
    obtain ⟨h, hg⟩ := List.getLast?_isSome.mpr (List.ne_nil_of_mem hmem) |>
      Option.isSome_iff_exists.mp
    exact ⟨h, by rw [designated, hf, hg]; rfl⟩

/-- A reception touches nobody but the segment's own connection, and finds the listening
handle, exactly when the designated handle is the right one. -/
theorem onlyThePeer_iff (m : Stack n) (seg : Segment) (accept : Option (Fin n)) :
    OnlyThePeer m seg accept ↔ WellDesignated m seg accept := by
  constructor
  · rintro ⟨htouch, hlisten⟩ h hd
    have hl : lookup m seg = some h := (lookup_eq_designated m seg).trans hd
    have hmatch {a : Fin n} (hc : (m.mem a).state.connected = true) (hm : ¬ (m.mem a).Matches seg) :
        ∀ lower, Apart m (rxAnswered m seg accept lower).1 a :=
      fun lower => not_not.mp fun hna => hm (htouch lower a hc hna)
    refine ⟨fun hc => ?_, fun hs hf a ha hc => ?_, fun hno hex => ?_⟩
    · by_cases hm : (m.mem h).Matches seg
      · exact .inl hm
      · exact .inr (((rxAnswered_apart_iff accept hl hc).mp (hmatch hc hm)).1 rfl)
    · by_contra hm
      exact ((rxAnswered_apart_iff accept hl hc).mp (hmatch hc hm)).2 hs hf ha
    · obtain ⟨l, hl', hs, -⟩ := hlisten hno hex
      rw [hl] at hl'
      rwa [Option.some.inj hl']
  · intro hw
    constructor
    · intro lower a hc hna
      by_contra hm
      cases hd : designated m seg with
      | none =>
        refine hna ?_
        have hl : lookup m seg = none := (lookup_eq_designated m seg).trans hd
        have hwhole : rxWhole m seg lower = (m, .ready) := by unfold rxWhole rxFrame; rw [hl]
        rw [rxAnswered, hwhole]
        exact Apart.refl m a
      | some h =>
        obtain ⟨hpeer, haccept, -⟩ := hw h hd
        refine hna ((rxAnswered_apart_iff accept ((lookup_eq_designated m seg).trans hd) hc).mpr
          ⟨?_, ?_⟩ lower)
        · rintro rfl
          exact (hpeer hc).resolve_left hm
        · exact fun hs hf ha => hm (haccept hs hf a ha hc)
    · rintro hno ⟨l, hl, hs, hp⟩
      obtain ⟨h, hd⟩ := designated_isSome hl hp
      exact ⟨h, (lookup_eq_designated m seg).trans hd, (hw h hd).2.2 hno ⟨l, hl, hs, hp⟩,
        designated_port hd⟩

/-- A reset from a third host with the peer's port number closes the connection. -/
theorem foreign_reset_closes :
    ¬ ∀ (n : Nat) (packets : PacketId → Packet) (port : BitVec 16) (time : Nat)
    (m : Stack n) (seg : Segment) (accept : Option (Fin n)),
    Lib.Reach step Lib.anyStep (initial n packets port time) (m, .ready) →
      OnlyThePeer m seg accept := by
  intro hall
  let seg : Segment := { peerSegment 0#32 0#32 flagRst [] with srcAddress := 0x0A000009#32 }
  obtain ⟨⟨m, pc⟩, hr, hx⟩ := Lib.exists_of_runInputs step Lib.anyStep
    (initial 1 (fun _ => blankPacket) portPoolStart 7) (handshake 0 7 100#32)
    (fun x => x.2 = .ready ∧ (x.1.mem 0).state = .established ∧
      (x.1.mem 0).destIpv4Address = 0x0A000002#32 ∧
      ((rxAnswered x.1 seg none (transmitting 2)).1.mem 0).state = .closed) (by decide)
  obtain ⟨hpc, hs, hd, hclosed⟩ := of_decide_eq_true hx
  dsimp only at hpc hs hd hclosed
  subst hpc
  have hna : ¬ Apart m (rxAnswered m seg none (transmitting 2)).1 0 :=
    not_apart_of_state (by rw [hclosed, hs]; exact nofun)
  have hmatch := (hall 1 _ _ _ m seg none hr).1 (transmitting 2) 0 (by rw [hs]; rfl) hna
  have haddr := hmatch.2.2.1
  rw [hd] at haddr
  exact absurd haddr (by decide)

end NanoIp.Tcp
