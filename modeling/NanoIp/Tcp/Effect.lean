import NanoIp.Tcp.Machine

/-!
# What one step does to one handle

`Effect` lists every change a step can make to the connection of a handle,
together with the events it raises on it; `step_effect` says the list is complete.
Invariants of a connection are proved by cases on it, without unfolding the code.
-/
namespace NanoIp.Tcp

variable {n : Nat}

/-- An event as the callback of a handle receives it. -/
abbrev Raised := Event × Err × Option Segment

/-- The connection and the events of a handle are as before. -/
def Untouched (m m' : Stack n) (h : Fin n) : Prop :=
  (m'.mem h).conn = (m.mem h).conn ∧ m'.eventsOf h = m.eventsOf h

/-- Of a handle only the list pointer may have changed, and no event was raised on it. -/
def Apart (m m' : Stack n) (h : Fin n) : Prop :=
  (m'.mem h).unlinked = (m.mem h).unlinked ∧ m'.eventsOf h = m.eventsOf h

/-- The connection of a handle becomes `k` and the events `new` are raised on it. -/
def Becomes (m m' : Stack n) (h : Fin n) (k : Handle n) (new : List Raised) : Prop :=
  (m'.mem h).conn = k ∧ m'.eventsOf h = m.eventsOf h ++ new

namespace Untouched

variable {m m' m'' : Stack n} {h a : Fin n}

theorem refl (m : Stack n) (h : Fin n) : Untouched m m h := ⟨rfl, rfl⟩

theorem trans (h₁ : Untouched m m' h) (h₂ : Untouched m' m'' h) : Untouched m m'' h :=
  ⟨h₂.1.trans h₁.1, h₂.2.trans h₁.2⟩

theorem state (hu : Untouched m m' h) : (m'.mem h).state = (m.mem h).state := by
  change (m'.mem h).conn.state = _
  rw [hu.1]
  rfl

theorem becomes (hu : Untouched m m' h) : Becomes m m' h (m.mem h).conn [] :=
  ⟨hu.1, by rw [hu.2, List.append_nil]⟩

theorem then_becomes {k : Handle n} {new : List Raised} (hu : Untouched m m' h)
    (hb : Becomes m' m'' h k new) : Becomes m m'' h k new := ⟨hb.1, by rw [hb.2, hu.2]⟩

theorem modify (hne : h ≠ a) (f : Handle n → Handle n) (hu : Untouched m m' h) :
    Untouched m (m'.modify a f) h :=
  hu.trans ⟨by rw [Stack.modify_of_ne _ f hne], Stack.eventsOf_congr rfl h⟩

theorem setState (hne : h ≠ a) (s : State) (hu : Untouched m m' h) :
    Untouched m (m'.setState a s) h :=
  hu.modify hne _

theorem startTimeout (hne : h ≠ a) (hu : Untouched m m' h) : Untouched m (m'.startTimeout a) h :=
  hu.modify hne _

theorem raise (hne : h ≠ a) (event : Event) (error : Err) (packet : Option Segment)
    (hu : Untouched m m' h) : Untouched m (m'.raise a event error packet) h :=
  hu.trans ⟨rfl, by rw [Stack.eventsOf_raise, if_neg hne.symm, List.append_nil]⟩

theorem sendControlFrame (flags : Byte) (lower : Lower) (hu : Untouched m m' h) :
    Untouched m (sendControlFrame m' a flags lower).1 h :=
  hu.trans ⟨sendControlFrame_conn _ _ _ _ _, sendControlFrame_eventsOf _ _ _ _ _⟩

theorem removeHandle (hu : Untouched m m' h) : Untouched m (m'.removeHandle a) h :=
  hu.trans ⟨rfl, Stack.eventsOf_congr rfl h⟩

theorem releasePacket (pid : PacketId) (hu : Untouched m m' h) :
    Untouched m (m'.releasePacket pid) h :=
  hu.trans ⟨rfl, by simp [Stack.eventsOf, Stack.releasePacket]⟩

end Untouched

namespace Apart

variable {m m' m'' : Stack n} {h a : Fin n}

theorem refl (m : Stack n) (h : Fin n) : Apart m m h := ⟨rfl, rfl⟩

theorem trans (h₁ : Apart m m' h) (h₂ : Apart m' m'' h) : Apart m m'' h :=
  ⟨h₂.1.trans h₁.1, h₂.2.trans h₁.2⟩

theorem untouched (ha : Apart m m' h) : Untouched m m' h :=
  ⟨by rw [← Handle.conn_unlinked, ha.1, Handle.conn_unlinked], ha.2⟩

theorem modify (hne : h ≠ a) (f : Handle n → Handle n) (hu : Apart m m' h) :
    Apart m (m'.modify a f) h :=
  hu.trans ⟨by rw [Stack.modify_of_ne _ f hne], Stack.eventsOf_congr rfl h⟩

theorem setState (hne : h ≠ a) (s : State) (hu : Apart m m' h) : Apart m (m'.setState a s) h :=
  hu.modify hne _

theorem startTimeout (hne : h ≠ a) (hu : Apart m m' h) : Apart m (m'.startTimeout a) h :=
  hu.modify hne _

theorem raise (hne : h ≠ a) (event : Event) (error : Err) (packet : Option Segment)
    (hu : Apart m m' h) : Apart m (m'.raise a event error packet) h :=
  hu.trans ⟨rfl, by rw [Stack.eventsOf_raise, if_neg hne.symm, List.append_nil]⟩

theorem sendControlFrame (hne : h ≠ a) (flags : Byte) (lower : Lower) (hu : Apart m m' h) :
    Apart m (sendControlFrame m' a flags lower).1 h := by
  obtain ⟨ip, header, hm⟩ := sendControlFrame_mem m' a flags lower
  exact hu.trans ⟨by rw [hm, Function.update_of_ne hne], sendControlFrame_eventsOf _ _ _ _ _⟩

theorem removeHandle (hu : Apart m m' h) : Apart m (m'.removeHandle a) h :=
  hu.trans ⟨rfl, Stack.eventsOf_congr rfl h⟩

theorem releasePacket (pid : PacketId) (hu : Apart m m' h) : Apart m (m'.releasePacket pid) h :=
  hu.trans ⟨rfl, by simp [Stack.eventsOf, Stack.releasePacket]⟩

end Apart

namespace Becomes

variable {m m' m'' : Stack n} {h : Fin n} {k : Handle n} {new : List Raised}

theorem then_untouched (hb : Becomes m m' h k new) (hu : Untouched m' m'' h) :
    Becomes m m'' h k new := ⟨hu.1.trans hb.1, by rw [hu.2, hb.2]⟩

theorem append {k' : Handle n} {new' : List Raised} (hb : Becomes m m' h k new)
    (hb' : Becomes m' m'' h k' new') : Becomes m m'' h k' (new ++ new') :=
  ⟨hb'.1, by rw [hb'.2, hb.2, List.append_assoc]⟩

theorem modify (f : Handle n → Handle n) (hf : ∀ k, (f k).conn = (f k.conn).conn)
    (hb : Becomes m m' h k new) : Becomes m (m'.modify h f) h (f k).conn new :=
  ⟨by rw [Stack.modify_self, hf, hb.1], by rw [← hb.2]; exact Stack.eventsOf_congr rfl h⟩

theorem setState (s : State) (hb : Becomes m m' h k new) :
    Becomes m (m'.setState h s) h { k.conn with state := s } new :=
  hb.modify (fun k => { k with state := s }) fun _ => rfl

theorem startTimeout (hb : Becomes m m' h k new) : Becomes m (m'.startTimeout h) h
    { k.conn with stateTimeout := m'.msCounter + stateTimeoutMs } new :=
  hb.modify (fun k => { k with stateTimeout := m'.msCounter + stateTimeoutMs }) fun _ => rfl

theorem startTimeout_at {time : Nat} (hb : Becomes m m' h k new) (ht : m'.time = time) :
    Becomes m (m'.startTimeout h) h
      { k.conn with stateTimeout := BitVec.ofNat 32 time + stateTimeoutMs } new := by
  rw [← ht]
  exact hb.startTimeout

theorem raise (event : Event) (error : Err) (packet : Option Segment) (hb : Becomes m m' h k new) :
    Becomes m (m'.raise h event error packet) h k (new ++ [(event, error, packet)]) :=
  ⟨hb.1, by rw [Stack.eventsOf_raise, if_pos rfl, hb.2, List.append_assoc]⟩

theorem sendControlFrame {a : Fin n} (flags : Byte) (lower : Lower) (hb : Becomes m m' h k new) :
    Becomes m (sendControlFrame m' a flags lower).1 h k new :=
  hb.then_untouched ((Untouched.refl m' h).sendControlFrame flags lower)

theorem removeHandle {a : Fin n} (hb : Becomes m m' h k new) :
    Becomes m (m'.removeHandle a) h k new := hb.then_untouched (Untouched.refl m' h).removeHandle

end Becomes

/-- `i` makes the module process segment `seg` for handle `h`: after the lookup, or
after the callback of a reset. -/
def Processes (x : Stack n × Pc n) (h : Fin n) (i : Input n) (seg : Segment) (lower : Lower) :
    Prop :=
  (i = .rxFrame seg lower ∧ x.2 = .ready ∧ lookup x.1 seg = some h ∧ ¬ resets x.1 h seg) ∨
  ∃ release accept hr, i = .ret release accept lower ∧ x.2 = .inReset h ⟨seg, hr⟩

/-- The handle and segment that `i` makes the module process. -/
def processed (x : Stack n × Pc n) (i : Input n) : Option (Fin n × Segment) :=
  match i, x.2 with
  | .rxFrame seg _, .ready => (lookup x.1 seg).bind fun h =>
      if resets x.1 h seg then none else some (h, seg)
  | .ret _ _ _, .inReset h seg => some (h, seg.1)
  | _, _ => none

theorem Processes.processed {x : Stack n × Pc n} {h : Fin n} {i : Input n} {seg : Segment}
    {lower : Lower} (hp : Processes x h i seg lower) : processed x i = some (h, seg) := by
  obtain ⟨m, pc⟩ := x
  rcases hp with ⟨rfl, rfl, hl, hr⟩ | ⟨release, accept, hf, rfl, rfl⟩
  · show (lookup m seg).bind _ = _
    rw [hl]
    exact if_neg hr
  · rfl

/-- The segment makes the module reset the connection: it acknowledges what was never
sent, or comes in a state that knows no segment. -/
def Rejects (m : Stack n) (h : Fin n) (seg : Segment) : Prop :=
  (m.mem h).state ≠ .listen ∧ (seg.ackNumber > (m.mem h).seqNumber ∨
    seg.ackNumber = (m.mem h).seqNumber ∧
      ((m.mem h).state = .closing ∨ (m.mem h).state = .lastAck ∨ (m.mem h).state = .timeWait))

instance (m : Stack n) (h : Fin n) (seg : Segment) : Decidable (Rejects m h seg) :=
  inferInstanceAs (Decidable (_ ∧ (_ ∨ _ ∧ _)))

/-- `seg` is processed for `h` and acknowledges all it sent. -/
def Acknowledges (x : Stack n × Pc n) (h : Fin n) (i : Input n) (seg : Segment) (lower : Lower) :
    Prop :=
  Processes x h i seg lower ∧ seg.ackNumber = (x.1.mem h).seqNumber

/-- The changes of one handle's connection by one step, and the events raised on it. -/
inductive Effect (x : Stack n × Pc n) (h : Fin n) (i : Input n) : Handle n → List Raised → Prop
  | same : Effect x h i (x.1.mem h).conn []
  | opened (localPort port : BitVec 16) (readings : List Nat) :
      i = .open_ h localPort readings → (x.1.mem h).state = .closed →
      Effect x h i { (x.1.mem h).conn with state := .idle, ipv4Address := 0#32, port := port } []
  | openRefused (localPort : BitVec 16) (readings : List Nat) :
      i = .open_ h localPort readings → (x.1.mem h).state = .closed →
      Effect x h i { (x.1.mem h).conn with port := 0#16 } []
  | bound (address : Ipv4Address) (port : BitVec 16) :
      i = .bind h address port → (x.1.mem h).state = .idle →
      Effect x h i { (x.1.mem h).conn with ipv4Address := address, port := port } []
  | connected (address : Ipv4Address) (port : BitVec 16) (lower : Lower) :
      i = .connect h address port lower → (x.1.mem h).state = .idle →
      Effect x h i { (x.1.mem h).conn with
        destIpv4Address := address, destPort := port, seqNumber := x.1.msCounter + 1#32
        state := .synSent
        stateTimeout := BitVec.ofNat 32 (x.1.time + lower.elapsed) + stateTimeoutMs } []
  | connectRefused (address : Ipv4Address) (port : BitVec 16) (lower : Lower) :
      i = .connect h address port lower → (x.1.mem h).state = .idle →
      Effect x h i { (x.1.mem h).conn with
        destIpv4Address := address, destPort := port, seqNumber := x.1.msCounter } []
  | listening : i = .listen h → (x.1.mem h).state = .idle →
      Effect x h i { (x.1.mem h).conn with state := .listen } []
  | closedByCall (lower : Lower) (seqNumber timeout : BitVec 32) :
      i = .close h lower → (x.1.mem h).state ≠ .idle →
      Effect x h i { (x.1.mem h).conn with
        state := .closed, seqNumber := seqNumber, stateTimeout := timeout } []
  | sent (pid : PacketId) (lower : Lower) :
      i = .sendPacket h pid lower → (x.1.mem h).lastTxPacket = none →
      (x.1.mem h).state = .established →
      Effect x h i { (x.1.mem h).conn with
        lastTxPacket := some pid
        lastTxPacketPos := (x.1.packets pid).current
        lastTxPacketCount := (x.1.packets pid).count
        txRetryCount := 0#8
        seqNumber := (x.1.mem h).seqNumber +
          if (sendPacket x.1 h pid lower).2.accepted then (x.1.packets pid).count.zeroExtend
            32 else 0#32 } []
  | reset (seg : Segment) (lower : Lower) :
      i = .rxFrame seg lower → x.2 = .ready → lookup x.1 seg = some h → resets x.1 h seg →
      Effect x h i { (x.1.mem h).conn with state := .closed } [(.closed, .connReset, none)]
  | invalid (seg : Segment) (lower : Lower) :
      Processes x h i seg lower → Rejects x.1 h seg →
      Effect x h i { (x.1.mem h).conn with state := .closed } [(.closed, .failure, none)]
  | accepting (seg : Segment) (lower : Lower) :
      Processes x h i seg lower → (x.1.mem h).state = .listen → seg.flags = flagSyn →
      Effect x h i (x.1.mem h).conn [(.accepting, .success, none)]
  | accepted (seg : Segment) (lower : Lower) :
      Acknowledges x h i seg lower → (x.1.mem h).state = .synReceived → seg.flags = flagAck →
      Effect x h i { (x.1.mem h).conn with state := .established } [(.accepted, .success, none)]
  | synAcknowledged (seg : Segment) (lower : Lower) :
      Acknowledges x h i seg lower → (x.1.mem h).state = .synSent →
        seg.flags = flagSyn ||| flagAck →
      controlResult x.1 h lower = .success →
      Effect x h i { (x.1.mem h).conn with
        ackNumber := seg.seqNumber + 1#32,
        state := .established }
        [(.connected, .success, none)]
  | synRefused (seg : Segment) (lower : Lower) :
      Acknowledges x h i seg lower → (x.1.mem h).state = .synSent →
        seg.flags = flagSyn ||| flagAck →
      controlResult x.1 h lower ≠ .success →
      Effect x h i { (x.1.mem h).conn with ackNumber := seg.seqNumber + 1#32 } []
  | data (seg : Segment) (lower : Lower) :
      Acknowledges x h i seg lower → (x.1.mem h).state = .established → seg.payload.length ≠ 0 →
      seg.flags = flagPsh ||| flagAck → seg.seqNumber = (x.1.mem h).ackNumber →
      controlResult x.1 h lower = .success →
      Effect x h i { (x.1.mem h).conn with ackNumber := seg.nextSeq } [(.rx, .success, some seg)]
  | dataRefused (seg : Segment) (lower : Lower) :
      Acknowledges x h i seg lower → (x.1.mem h).state = .established → seg.payload.length ≠ 0 →
      seg.flags = flagPsh ||| flagAck → seg.seqNumber = (x.1.mem h).ackNumber →
      controlResult x.1 h lower ≠ .success →
      Effect x h i { (x.1.mem h).conn with ackNumber := seg.nextSeq } []
  | acked (seg : Segment) (lower : Lower) (pid : PacketId) :
      Acknowledges x h i seg lower → (x.1.mem h).state = .established →
      (x.1.mem h).lastTxPacket = some pid → seg.flags = flagAck →
      Effect x h i { (x.1.mem h).conn with lastTxPacket := none } [(.tx, .success, none)]
  | fin (seg : Segment) (lower : Lower) (timeout : BitVec 32) :
      Acknowledges x h i seg lower → (x.1.mem h).state = .established →
        seg.flags = flagFin ||| flagAck →
      controlResult x.1 h lower = .success →
      Effect x h i { (x.1.mem h).conn with
        ackNumber := seg.seqNumber + 1#32, state := .closeWait
        seqNumber := (x.1.mem h).seqNumber + 1#32, stateTimeout := timeout } []
  | finRefused (seg : Segment) (lower : Lower) :
      Acknowledges x h i seg lower → (x.1.mem h).state = .established →
        seg.flags = flagFin ||| flagAck →
      controlResult x.1 h lower ≠ .success →
      Effect x h i { (x.1.mem h).conn with ackNumber := seg.seqNumber + 1#32 } []
  | closeAcknowledged (seg : Segment) (lower : Lower) :
      Acknowledges x h i seg lower → (x.1.mem h).state = .closeWait → seg.flags = flagAck →
      Effect x h i { (x.1.mem h).conn with state := .closed } [(.closed, .success, none)]
  | finAcknowledged (seg : Segment) (lower : Lower) (timeout : BitVec 32) :
      Acknowledges x h i seg lower → (x.1.mem h).state = .finWait1 → seg.flags = flagAck →
      Effect x h i { (x.1.mem h).conn with state := .finWait2, stateTimeout := timeout } []
  | finWait (seg : Segment) (lower : Lower) (timeout : BitVec 32) :
      Acknowledges x h i seg lower → (x.1.mem h).state = .finWait1 ∨ (x.1.mem h).state = .finWait2 →
      seg.flags = flagFin ||| flagAck → controlResult x.1 h lower = .success →
      Effect x h i { (x.1.mem h).conn with
        ackNumber := seg.seqNumber + 1#32, state := .timeWait, stateTimeout := timeout } []
  | finWaitRefused (seg : Segment) (lower : Lower) :
      Acknowledges x h i seg lower → (x.1.mem h).state = .finWait1 ∨ (x.1.mem h).state = .finWait2 →
      seg.flags = flagFin ||| flagAck → controlResult x.1 h lower ≠ .success →
      Effect x h i { (x.1.mem h).conn with ackNumber := seg.seqNumber + 1#32 } []
  | listener (seg : Segment) (release : Bool) (accept : Option (Fin n)) (lower : Lower)
      (seqNumber : BitVec 32) : i = .ret release accept lower → x.2 = .inAccepting h seg →
      accept ≠ some h → Effect x h i { (x.1.mem h).conn with seqNumber := seqNumber } []
  | answered (l : Fin n) (seg : Segment) (release : Bool) (lower : Lower) (seqNumber : BitVec 32) :
      i = .ret release (some h) lower → x.2 = .inAccepting l seg → (x.1.mem h).state = .idle →
      Effect x h i { (x.1.mem h).conn with
        ipv4Address := seg.destAddress, port := seg.destPort
        destIpv4Address := seg.srcAddress, destPort := seg.srcPort
        seqNumber := seqNumber, ackNumber := seg.seqNumber + 1#32
        state := .synReceived
        stateTimeout := BitVec.ofNat 32 (x.1.time + lower.elapsed) + stateTimeoutMs } []
  | answerRefused (l : Fin n) (seg : Segment) (release : Bool) (lower : Lower)
      (seqNumber : BitVec 32) :
      i = .ret release (some h) lower → x.2 = .inAccepting l seg → (x.1.mem h).state = .idle →
      Effect x h i { (x.1.mem h).conn with
        ipv4Address := seg.destAddress, port := seg.destPort
        destIpv4Address := seg.srcAddress, destPort := seg.srcPort
        seqNumber := seqNumber, ackNumber := seg.seqNumber + 1#32 } []
  | acceptFailed (l : Fin n) (seg : Segment) (release : Bool) (lower : Lower) :
      i = .ret release (some h) lower → x.2 = .inAccepting l seg → (x.1.mem h).state ≠ .idle →
      Effect x h i (x.1.mem h).conn [(.acceptFailed, .invalidTcpState, none)]
  | arpSent (mac : Option MacAddress) (driver : Err) : i = .arpResponse h mac driver →
      (x.1.mem h).state = .established → Effect x h i (x.1.mem h).conn [(.tx, .success, none)]
  | arpFailed (mac : Option MacAddress) (driver error : Err) : i = .arpResponse h mac driver →
      Effect x h i (x.1.mem h).conn [(.txFailed, error, none)]
  | cancelled : i = .releaseHandle h true → (x.1.mem h).ipv4Handle.busy = true →
      (x.1.mem h).state = .closed → Effect x h i (x.1.mem h).conn [(.txFailed, .arpFailure, none)]
  | timedOut (timestamp : BitVec 32) (lower : Lower) (event : Event) :
      i = .visit lower → x.2 = .tick (some h) timestamp → (x.1.mem h).stateTimeout ≤ timestamp →
      (x.1.mem h).state = .synSent ∧ event = .connectTimeout ∨
      (x.1.mem h).state = .synReceived ∧ event = .acceptFailed ∨
      ((x.1.mem h).state = .closeWait ∨ (x.1.mem h).state = .finWait1 ∨
        (x.1.mem h).state = .finWait2 ∨ (x.1.mem h).state = .timeWait) ∧ event = .closed →
      Effect x h i { (x.1.mem h).conn with state := .closed } [(event, .timeout, none)]
  | exhausted (timestamp : BitVec 32) (lower : Lower) (pid : PacketId) :
      i = .visit lower → x.2 = .tick (some h) timestamp → (x.1.mem h).stateTimeout ≤ timestamp →
      (x.1.mem h).state = .established → (x.1.mem h).lastTxPacket = some pid →
      (x.1.mem h).txRetryCount + 1#8 = maxRetryCount →
      Effect x h i { (x.1.mem h).conn with
        txRetryCount := (x.1.mem h).txRetryCount + 1#8, lastTxPacket := none, state := .closed }
        [(.txFailed, .timeout, none)]
  | resent (timestamp : BitVec 32) (lower : Lower) (pid : PacketId) :
      i = .visit lower → x.2 = .tick (some h) timestamp → (x.1.mem h).stateTimeout ≤ timestamp →
      (x.1.mem h).state = .established → (x.1.mem h).lastTxPacket = some pid →
      (x.1.mem h).txRetryCount + 1#8 ≠ maxRetryCount →
      Effect x h i { (x.1.mem h).conn with
        txRetryCount := (x.1.mem h).txRetryCount + 1#8
        stateTimeout := (x.1.mem h).stateTimeout + stateTimeoutMs } []
  | failedClosed (timestamp : BitVec 32) (release : Bool) (accept : Option (Fin n))
      (lower : Lower) :
      i = .ret release accept lower → x.2 = .inTxFailed h timestamp →
      Effect x h i (x.1.mem h).conn [(.closed, .timeout, none)]

end NanoIp.Tcp
