import NanoIp.Tcp.Whole

/-!
# Closing an established connection

What `NANO_IP_TCP_Close` starts and the receive path and the periodic task carry
on is stated as a handshake over the runs that follow the call. The second test of
the call closes the handle before any of it, so that no run ever sees a handle in
one of the waiting states.
-/
namespace NanoIp.Tcp

variable {n : Nat}

/-- The input opens or closes handle `h`. -/
def Input.reopens (h : Fin n) : Input n → Bool
  | .open_ a _ _ => a = h
  | .close a _ => a = h
  | _ => false

/-- What may take a closing handle off the list: an RST, an acknowledgement of what was
not sent, or the state timeout. -/
def LeavesProperly (h : Fin n) (y : Stack n × Pc n) (i : Input n) : Prop :=
  (∃ seg lower, i = .rxFrame seg lower ∧ lookup y.1 seg = some h ∧
    (resets y.1 h seg ∨ seg.ackNumber > (y.1.mem h).seqNumber)) ∨
  (∃ lower timestamp, i = .visit lower ∧ y.2 = .tick (some h) timestamp ∧
    (y.1.mem h).stateTimeout ≤ timestamp ∧
    ((y.1.mem h).state = .finWait1 ∨ (y.1.mem h).state = .finWait2 ∨ (y.1.mem h).state = .timeWait))

/-- An in-sequence FIN|ACK for a handle in FIN_WAIT_1 or FIN_WAIT_2. -/
def ExpectedFin (h : Fin n) (y : Stack n × Pc n) (seg : Segment) : Prop :=
  lookup y.1 seg = some h ∧ ((y.1.mem h).state = .finWait1 ∨ (y.1.mem h).state = .finWait2) ∧
    seg.flags = flagFin ||| flagAck ∧ seg.ackNumber = (y.1.mem h).seqNumber ∧
    seg.seqNumber = (y.1.mem h).ackNumber

/-- The number of `TCP_EVENT_CLOSED` in a list of events. -/
def closedCount (events : List Raised) : Nat := (events.filter fun e => e.1 = .closed).length

/-- The handshake of an active close, over every run that follows the call until the
application opens or closes the handle again. -/
structure FollowsHandshake (x : Stack n × Pc n) (h : Fin n) (lower : Lower) : Prop where
  waits : ((close x.1 h lower).1.mem h).state = .finWait1
  stays : h ∈ (close x.1 h lower).1.registered
  leaves : ∀ y i z, Lib.Reach step (fun _ i => i.reopens h = false) ((close x.1 h lower).1, x.2) y →
    i.reopens h = false → step y i = some z → h ∈ y.1.registered → h ∉ z.1.registered →
    LeavesProperly h y i
  answers : ∀ y seg lower' z,
    Lib.Reach step (fun _ i => i.reopens h = false) ((close x.1 h lower).1, x.2) y →
    step y (.rxFrame seg lower') = some z → ExpectedFin h y seg →
    ∃ out ret, .output h out ret ∈ z.1.log.drop y.1.log.length ∧ out.flags = flagAck ∧
      out.ackNumber = seg.seqNumber + 1#32
  notifies : ∀ y, Lib.Reach step (fun _ i => i.reopens h = false) ((close x.1 h lower).1, x.2) y →
    closedCount (y.1.eventsOf h) ≤ closedCount (x.1.eventsOf h) + 1 ∧
    (h ∉ y.1.registered → closedCount (y.1.eventsOf h) = closedCount (x.1.eventsOf h) + 1)

theorem close_established_state {m : Stack n} {h : Fin n} (lower : Lower)
    (hs : (m.mem h).state = .established) : ((close m h lower).1.mem h).state = .closed := by
  obtain ⟨s, seqNumber, timeout, hb, hor⟩ := sendFin_becomes m h lower
  have hst : ((sendFin m h lower).mem h).state = s := congrArg Handle.state hb.1
  have hne : s ≠ .idle := by
    rcases hor with rfl | ⟨-, rfl⟩
    · rw [hs]; exact nofun
    · exact nofun
  unfold close
  dsimp only
  rw [if_pos (by rwa [hst])]
  change (((sendFin m h lower).setState h .closed).mem h).state = .closed
  rw [Stack.setState_self]

/-- The handshake is followed on no input: with the FIN accepted or not, the same call
closes the handle. -/
theorem never_followsHandshake (x : Stack n × Pc n) (h : Fin n) (lower : Lower)
    (hs : (x.1.mem h).state = .established) :
    ((close x.1 h lower).1.mem h).state = .closed ∧ ¬ FollowsHandshake x h lower := by
  have hc := close_established_state lower hs
  refine ⟨hc, fun hf => ?_⟩
  have hw := hf.waits
  rw [hc] at hw
  cases hw

/-- A client that closes after its handshake, the FIN being transmitted. -/
theorem never_followsHandshake_client : ∃ x : Stack 1 × Pc 1, (x.1.mem 0).state = .established ∧
    controlResult x.1 0 (transmitting 2) = .success ∧
    ((close x.1 0 (transmitting 2)).1.mem 0).state = .closed ∧
      ¬ FollowsHandshake x 0 (transmitting 2) := by
  obtain ⟨x, -, hx⟩ := Lib.exists_of_runInputs step Lib.anyStep
    (initial 1 (fun _ => blankPacket) portPoolStart 7) (handshake 0 7 100#32)
    (fun x => (x.1.mem 0).state = .established ∧ controlResult x.1 0 (transmitting 2) = .success)
    (by decide)
  obtain ⟨hs, hc⟩ := of_decide_eq_true hx
  exact ⟨x, hs, hc, never_followsHandshake x 0 (transmitting 2) hs⟩

/-- The FIN of that client is on its way, and the handle does not wait for the answer. -/
theorem close_does_not_wait :
    ¬ ∀ (n : Nat) (packets : PacketId → Packet) (port : BitVec 16) (time : Nat)
    (x : Stack n × Pc n) (h : Fin n) (lower : Lower),
    Lib.Reach step Lib.anyStep (initial n packets port time) x → (x.1.mem h).state = .established →
    (controlResult x.1 h lower).accepted = true → FollowsHandshake x h lower := by
  intro hall
  obtain ⟨x, hr, hx⟩ := Lib.exists_of_runInputs step Lib.anyStep
    (initial 1 (fun _ => blankPacket) portPoolStart 7) (handshake 0 7 100#32)
    (fun x => (x.1.mem 0).state = .established ∧ controlResult x.1 0 (transmitting 2) = .success)
    (by decide)
  obtain ⟨hs, hc⟩ := of_decide_eq_true hx
  have hw := (hall 1 _ _ _ x 0 (transmitting 2) hr hs (by rw [hc]; rfl)).waits
  rw [close_established_state (transmitting 2) hs] at hw
  cases hw

/-- The states between a FIN sent and the end of the connection. -/
def State.waiting : State → Bool
  | .finWait1 | .finWait2 | .timeWait | .closing | .lastAck => true
  | _ => false

theorem step_waiting {x y : Stack n × Pc n} {i : Input n} (hs : step x i = some y) (h : Fin n)
    (hw : (x.1.mem h).state.waiting = false) : (y.1.mem h).state.waiting = false := by
  have hg := step_goes hs h
  generalize (x.1.mem h).state = s at hg hw
  generalize (y.1.mem h).state = s' at hg ⊢
  cases hg with
  | same => exact hw
  | finAcknowledged => cases hw
  | finWait _ hx => rcases hx with rfl | rfl <;> cases hw
  | _ => rfl

theorem never_waiting (packets : PacketId → Packet) (port : BitVec 16) (time : Nat)
    {x : Stack n × Pc n} (hr : Lib.Reach step Lib.anyStep (initial n packets port time) x)
    (h : Fin n) :
    (x.1.mem h).state.waiting = false :=
  hr.invariant (I := fun x => (x.1.mem h).state.waiting = false) rfl fun _ _ _ hw _ hs =>
    step_waiting hs h hw

end NanoIp.Tcp
