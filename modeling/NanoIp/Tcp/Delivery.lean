import NanoIp.Tcp.StepEffect

/-!
# What an established connection acknowledges

An observer beside the module follows one handle: it notes the sequence number of
the SYN that the handle answered, and the segments its application was given
since. The acknowledgement number is compared with these.
-/
namespace NanoIp.Tcp

variable {n : Nat}

/-- The current connection of a handle: the peer's initial sequence number and the
segments passed to the application with `TCP_EVENT_RX`. -/
structure Track where
  isn : BitVec 32
  delivered : List Segment

def bytesOf (segs : List Segment) : List Byte := segs.flatMap Segment.payload

/-- The segments of `TCP_EVENT_RX` events. -/
def received (events : List Raised) : List Segment :=
  events.filterMap fun
    | (.rx, _, packet) => packet
    | _ => none

/-- The SYN that opens the handle's side of a connection: the SYN|ACK that ends
SYN_SENT, or the SYN for which a listening handle's accept handle answers. -/
def answeredSyn (h : Fin n) (x : Stack n × Pc n) (i : Input n) (y : Stack n × Pc n) :
    Option Segment :=
  match i, x.2 with
  | .rxFrame seg _, _ =>
    if (x.1.mem h).state = .synSent ∧ (y.1.mem h).state = .established then some seg else none
  | .ret _ _ _, .inAccepting _ seg =>
    if (x.1.mem h).state = .idle ∧ (y.1.mem h).state = .synReceived then some seg else none
  | _, _ => none

/-- One step as the observer of handle `h` sees it. -/
def Track.see (h : Fin n) (t : Track) (x : Stack n × Pc n) (i : Input n) (y : Stack n × Pc n) :
    Track :=
  match answeredSyn h x i y with
  | some seg => ⟨seg.seqNumber, []⟩
  | none =>
    { t with delivered := t.delivered ++ received ((y.1.eventsOf h).drop (x.1.eventsOf h).length) }

/-- Each segment continues the sequence space where the one before it ended. -/
def InOrder : BitVec 32 → List Segment → Prop
  | _, [] => True
  | next, seg :: segs => seg.seqNumber = next ∧ InOrder seg.nextSeq segs

/-- A segment carries the bytes of the peer's stream that its sequence number names. -/
def Carries (stream : List Byte) (isn : BitVec 32) (seg : Segment) : Prop :=
  ∃ offset, seg.seqNumber = isn + 1#32 + BitVec.ofNat 32 offset ∧ offset ≤ stream.length ∧
    seg.payload <+: stream.drop offset

theorem nextSeq_of_offset {seg : Segment} {isn : BitVec 32} {offset : Nat}
    (h : seg.seqNumber = isn + 1#32 + BitVec.ofNat 32 offset) :
    seg.nextSeq = isn + 1#32 + BitVec.ofNat 32 (offset + seg.payload.length) := by
  rw [Segment.nextSeq, h, BitVec.ofNat_add, BitVec.add_assoc (isn + 1#32)]

theorem ofNat_inj {a b : Nat} (ha : a < 2 ^ 32) (hb : b < 2 ^ 32) {c : BitVec 32}
    (h : c + BitVec.ofNat 32 a = c + BitVec.ofNat 32 b) : a = b := by
  have he := congrArg BitVec.toNat ((BitVec.add_right_inj c).mp h)
  rwa [BitVec.toNat_ofNat, BitVec.toNat_ofNat, Nat.mod_eq_of_lt ha, Nat.mod_eq_of_lt hb] at he

/-- In-order segments of a stream are a stretch of it, without gap or repetition. -/
theorem InOrder.stretch {stream : List Byte} {isn : BitVec 32} (hlen : stream.length < 2 ^ 32)
    {segs : List Segment} : ∀ {offset : Nat}, InOrder (isn + 1#32 + BitVec.ofNat 32 offset) segs →
      offset ≤ stream.length → (∀ seg ∈ segs, Carries stream isn seg) →
      bytesOf segs <+: stream.drop offset := by
  induction segs with
  | nil => intro offset _ _ _; exact List.nil_prefix
  | cons seg segs ih =>
    intro offset ho hle hc
    obtain ⟨hseq, hrest⟩ := ho
    obtain ⟨offset', hseq', hle', hpre⟩ := hc seg List.mem_cons_self
    have hoff : offset' = offset :=
      ofNat_inj (Nat.lt_of_le_of_lt hle' hlen) (Nat.lt_of_le_of_lt hle hlen) (hseq'.symm.trans hseq)
    subst hoff
    have hl := hpre.length_le
    rw [List.length_drop] at hl
    rw [nextSeq_of_offset hseq] at hrest
    have hr := ih hrest (by omega) fun s hs => hc s (List.mem_cons_of_mem _ hs)
    obtain ⟨tail, htail⟩ := hpre
    rw [← List.drop_drop, ← htail, List.drop_left] at hr
    rw [← htail, bytesOf, List.flatMap_cons]
    exact (List.prefix_append_right_inj _).mpr hr

theorem InOrder.append {seg : Segment} {segs : List Segment} :
    ∀ {next : BitVec 32}, InOrder next segs →
      seg.seqNumber = next + BitVec.ofNat 32 (bytesOf segs).length →
        InOrder next (segs ++ [seg]) := by
  induction segs with
  | nil => intro next _ hs; exact ⟨by rw [hs]; exact BitVec.add_zero next, trivial⟩
  | cons s segs ih =>
    intro next ho hs
    refine ⟨ho.1, ih ho.2 ?_⟩
    rw [hs, Segment.nextSeq, ho.1, bytesOf, List.flatMap_cons, List.length_append, BitVec.ofNat_add,
      BitVec.add_assoc]
    rfl

/-- The acknowledgement number of an established handle stands right behind what
its application was given, which is a stretch of the peer's stream. -/
def Delivered (h : Fin n) (z : (Stack n × Pc n) × Track) : Prop :=
  (z.1.1.mem h).state = .established →
    (z.1.1.mem h).ackNumber = z.2.isn + 1#32 + BitVec.ofNat 32 (bytesOf z.2.delivered).length ∧
    InOrder (z.2.isn + 1#32) z.2.delivered ∧
    ∀ stream : List Byte, stream.length < 2 ^ 32 →
      (∀ seg ∈ z.2.delivered, Carries stream z.2.isn seg) →
      bytesOf z.2.delivered <+: stream

/-- A FIN that a handle in ESTABLISHED processes moves the acknowledgement number only
from the FIN's own sequence number to the one behind it. -/
def FinInOrder (h : Fin n) (x : Stack n × Pc n) (i : Input n) (y : Stack n × Pc n) : Prop :=
  ∀ seg lower, i = .rxFrame seg lower → seg.hasFlag flagFin = true → (x.1.mem h).state =
    .established →
    (y.1.mem h).ackNumber ≠ (x.1.mem h).ackNumber →
    seg.nextSeq = (x.1.mem h).ackNumber ∧ (y.1.mem h).ackNumber = seg.nextSeq + 1#32

/-- The condition on a step: the acknowledgement of in-sequence data of an established
connection is transmitted at once; so is that of an in-sequence FIN without
payload, and no other FIN arrives but one that leaves the number as it is. -/
def AckGoesOut (h : Fin n) (x : Stack n × Pc n) : Input n → Prop
  | .rxFrame seg lower =>
    x.2 = .ready → lookup x.1 seg = some h → (x.1.mem h).state = .established →
      seg.ackNumber = (x.1.mem h).seqNumber →
      (seg.payload ≠ [] → seg.flags = flagPsh ||| flagAck → seg.seqNumber = (x.1.mem h).ackNumber →
        controlResult x.1 h lower = .success) ∧
      (seg.flags = flagFin ||| flagAck →
        seg.seqNumber + 1#32 = (x.1.mem h).ackNumber ∨
        seg.seqNumber = (x.1.mem h).ackNumber ∧ seg.payload = [] ∧
          controlResult x.1 h lower = .success)
  | _ => True

instance (h : Fin n) (x : Stack n × Pc n) (i : Input n) : Decidable (AckGoesOut h x i) := by
  rcases i with ⟨⟩ <;> unfold AckGoesOut <;> infer_instance

theorem Processes.received {x : Stack n × Pc n} {h : Fin n} {i : Input n} {seg : Segment}
    {lower : Lower} (hp : Processes x h i seg lower) (hr : seg.hasFlag flagRst = false) :
    i = .rxFrame seg lower ∧ x.2 = .ready ∧ lookup x.1 seg = some h := by
  rcases hp with ⟨hi, hpc, hl, -⟩ | ⟨_, _, hf, -⟩
  · exact ⟨hi, hpc, hl⟩
  · rw [hr] at hf
    cases hf

/-- What the run lemma carries: it also covers SYN_RECEIVED, which leads to ESTABLISHED. -/
def Tracked (h : Fin n) (z : (Stack n × Pc n) × Track) : Prop :=
  (z.1.1.mem h).state = .established ∨ (z.1.1.mem h).state = .synReceived →
    (z.1.1.mem h).ackNumber = z.2.isn + 1#32 + BitVec.ofNat 32 (bytesOf z.2.delivered).length ∧
    InOrder (z.2.isn + 1#32) z.2.delivered

theorem Tracked.delivered {h : Fin n} {z : (Stack n × Pc n) × Track} (ht : Tracked h z) :
    Delivered h z := by
  intro hs
  obtain ⟨hack, hord⟩ := ht (.inl hs)
  refine ⟨hack, hord, fun stream hlen hc => ?_⟩
  have h0 : InOrder (z.2.isn + 1#32 + BitVec.ofNat 32 0) z.2.delivered := by
    rw [show BitVec.ofNat 32 0 = 0#32 from rfl, BitVec.add_zero]
    exact hord
  have hp := h0.stretch hlen (Nat.zero_le _) hc
  rwa [List.drop_zero] at hp

section Step

variable {x y : Stack n × Pc n} {h : Fin n} {i : Input n}

theorem answeredSyn_none (h₁ : ¬ ((x.1.mem h).state = .synSent ∧ (y.1.mem h).state = .established))
    (h₂ : ¬ ((x.1.mem h).state = .idle ∧ (y.1.mem h).state = .synReceived)) :
    answeredSyn h x i y = none := by
  unfold answeredSyn
  split
  · rw [if_neg h₁]
  · rw [if_neg h₂]
  · rfl

theorem see_none {t : Track} {new : List Raised} (he : y.1.eventsOf h = x.1.eventsOf h ++ new)
    (hn : answeredSyn h x i y = none) :
    Track.see h t x i y = { t with delivered := t.delivered ++ received new } := by
  rw [Track.see, hn, he, List.drop_left]

theorem see_some {t : Track} {seg : Segment} (hn : answeredSyn h x i y = some seg) :
    Track.see h t x i y = ⟨seg.seqNumber, []⟩ := by
  rw [Track.see, hn]

theorem tracked_start (seg : Segment) {t : Track} (hn : answeredSyn h x i y = some seg)
    (ha : (y.1.mem h).ackNumber = seg.seqNumber + 1#32) : Tracked h (y, Track.see h t x i y) := by
  intro _
  rw [see_some hn]
  exact ⟨ha.trans (BitVec.add_zero _).symm, trivial⟩

/-- The tracked equation survives a step that leaves the acknowledgement number and
delivers nothing. -/
theorem Tracked.keep {t : Track} {new : List Raised} (ht : Tracked h (x, t))
    (he : y.1.eventsOf h = x.1.eventsOf h ++ new) (hnew : received new = [])
    (ha : (y.1.mem h).ackNumber = (x.1.mem h).ackNumber)
    (hs : (y.1.mem h).state = (x.1.mem h).state ∨
      (x.1.mem h).state = .synReceived ∧ (y.1.mem h).state = .established) :
    Tracked h (y, Track.see h t x i y) := by
  have hn : answeredSyn h x i y = none := by
    apply answeredSyn_none <;> rcases hs with hs | ⟨hx, hy⟩ <;> grind
  rw [see_none he hn, hnew, List.append_nil]
  intro hy
  have hx : (x.1.mem h).state = .established ∨ (x.1.mem h).state = .synReceived := by
    rcases hs with hs | ⟨hx, -⟩
    · rwa [hs] at hy
    · exact .inr hx
  exact ⟨ha.trans (ht hx).1, (ht hx).2⟩

theorem Tracked.deliver {t : Track} {seg : Segment} (ht : Tracked h (x, t))
    (hx : (x.1.mem h).state = .established) (he : y.1.eventsOf h = x.1.eventsOf h ++
      [(.rx, .success, some seg)]) (hseq : seg.seqNumber = (x.1.mem h).ackNumber)
    (ha : (y.1.mem h).ackNumber = seg.nextSeq) : Tracked h (y, Track.see h t x i y) := by
  have hn : answeredSyn h x i y = none := by
    apply answeredSyn_none <;> rw [hx] <;> rintro ⟨h, -⟩ <;> cases h
  obtain ⟨hack, hord⟩ := ht (.inl hx)
  rw [see_none he hn]
  intro _
  have hs := hseq.trans hack
  refine ⟨?_, hord.append hs⟩
  change _ = t.isn + 1#32 + BitVec.ofNat 32 (bytesOf (t.delivered ++ [seg])).length
  rw [ha, nextSeq_of_offset hs, bytesOf, bytesOf, List.flatMap_append, List.length_append]
  simp

theorem tracked_step {t : Track} (ht : Tracked h (x, t)) (hok : AckGoesOut h x i)
    (hs : step x i = some y) : Tracked h (y, Track.see h t x i y) := by
  obtain ⟨k, new, heff, hk, he⟩ := step_effect hs h
  have hst : (y.1.mem h).state = k.state := by rw [← hk]; rfl
  have hak : (y.1.mem h).ackNumber = k.ackNumber := by rw [← hk]; rfl
  have hout (hne : k.state ≠ .established ∧ k.state ≠ .synReceived) :
      Tracked h (y, Track.see h t x i y) := by
    intro hor
    rw [hst] at hor
    exact (hor.elim hne.1 hne.2).elim
  cases heff with
  | opened | connected | listening | closedByCall | reset | invalid | fin | closeAcknowledged
  | finAcknowledged | finWait | timedOut | exhausted => exact hout (by simp)
  | openRefused _ _ _ hx | cancelled _ _ hx | bound _ _ _ hx | connectRefused _ _ _ _ hx =>
    exact hout (by simp [hx])
  | synRefused _ _ _ hx | answerRefused _ _ _ _ _ _ _ hx => exact hout (by simp [hx])
  | finWaitRefused _ _ _ hx => exact hout (by rcases hx with hx | hx <;> simp [hx])
  | same | sent | accepting | acked | listener | acceptFailed | arpSent | arpFailed | resent
  | failedClosed => exact ht.keep he rfl hak (.inl hst)
  | accepted _ _ _ hx => exact ht.keep he rfl hak (.inr ⟨hx, hst⟩)
  | synAcknowledged seg lower hp hx hf =>
    obtain ⟨rfl, -, -⟩ := hp.1.received (by rw [Segment.hasFlag, hf]; decide)
    refine tracked_start seg ?_ hak
    exact if_pos ⟨hx, hst⟩
  | answered l seg release lower _ hi hpc hx =>
    subst hi
    refine tracked_start seg ?_ hak
    unfold answeredSyn
    rw [hpc]
    exact if_pos ⟨hx, hst⟩
  | data seg lower hp hx _ _ hseq => exact ht.deliver hx he hseq hak
  | dataRefused seg lower hp hx hl hf hseq hr =>
    obtain ⟨hi, hpc, hlook⟩ := hp.1.received (by rw [Segment.hasFlag, hf]; decide)
    have hne : seg.payload ≠ [] := fun h => hl (by rw [h]; rfl)
    subst hi
    exact absurd ((hok hpc hlook hx hp.2).1 hne hf hseq) hr
  | finRefused seg lower hp hx hf hr =>
    obtain ⟨hi, hpc, hlook⟩ := hp.1.received (by rw [Segment.hasFlag, hf]; decide)
    subst hi
    rcases (hok hpc hlook hx hp.2).2 hf with hseq | ⟨-, -, hr'⟩
    · exact ht.keep he rfl (hak.trans hseq) (.inl hst)
    · exact absurd hr' hr

/-- On a step that meets the condition a FIN moves the number in order. -/
theorem finInOrder_step (hok : AckGoesOut h x i) (hs : step x i = some y) : FinInOrder h x i y := by
  intro seg lower hi hfin hx hne
  subst hi
  obtain ⟨k, new, heff, hk, he⟩ := step_effect hs h
  have hak : (y.1.mem h).ackNumber = k.ackNumber := by rw [← hk]; rfl
  have hkeep (hsame : k.ackNumber = (x.1.mem h).ackNumber) : False := hne (hak.trans hsame)
  cases heff with
  | synAcknowledged _ _ _ hs | synRefused _ _ _ hs => rw [hx] at hs; cases hs
  | finWait _ _ _ _ hs | finWaitRefused _ _ _ hs =>
      rw [hx] at hs; rcases hs with hs | hs <;> cases hs
  | answered _ _ _ _ _ hi | answerRefused _ _ _ _ _ hi => cases hi
  | data seg' lower' hp _ _ hf | dataRefused seg' lower' hp _ _ hf =>
    obtain ⟨hi, -, -⟩ := hp.1.received (by rw [Segment.hasFlag, hf]; decide)
    obtain ⟨rfl, rfl⟩ := Input.rxFrame.inj hi
    rw [Segment.hasFlag, hf] at hfin
    exact absurd hfin (by decide)
  | fin seg' lower' _ hp _ hf | finRefused seg' lower' hp _ hf =>
    obtain ⟨hi, hpc, hlook⟩ := hp.1.received (by rw [Segment.hasFlag, hf]; decide)
    obtain ⟨rfl, rfl⟩ := Input.rxFrame.inj hi
    rcases (hok hpc hlook hx hp.2).2 hf with hseq | ⟨hseq, hempty, -⟩
    · exact (hkeep hseq).elim
    · have hnext : seg.nextSeq = seg.seqNumber := by
        rw [Segment.nextSeq, hempty]
        exact BitVec.add_zero _
      rw [hnext]
      exact ⟨hseq, hak⟩
  | _ => exact (hkeep rfl).elim

end Step

def Track.none : Track := ⟨0#32, []⟩

/-- In every run whose steps meet the condition, an established handle acknowledges
exactly what it delivered, and a FIN only in its turn. -/
theorem acknowledged_is_delivered (h : Fin n) (packets : PacketId → Packet) (port : BitVec 16)
    (time : Nat) {z : (Stack n × Pc n) × Track}
    (hr : Lib.Reach (Lib.observe step (Track.see h)) (fun z i => AckGoesOut h z.1 i)
      (initial n packets port time, Track.none) z) :
    Delivered h z ∧ ∀ i y, AckGoesOut h z.1 i → step z.1 i = some y → FinInOrder h z.1 i y := by
  have ht : Tracked h z := by
    refine hr.invariant ?_ fun z i z' ht hok hs => ?_
    · intro hs
      rcases hs with hs | hs <;> cases hs
    · obtain ⟨hstep, hsee⟩ := Lib.observe_some.mp hs
      have ht' := tracked_step ht hok hstep
      rwa [← hsee] at ht'
  exact ⟨ht.delivered, fun i y hok hs => finInOrder_step hok hs⟩

/-- A handshake and five bytes that are acknowledged and delivered. -/
theorem acknowledged_is_delivered_echo : ∃ z : (Stack 1 × Pc 1) × Track,
    (z.1.1.mem 0).state = .established ∧ bytesOf z.2.delivered = [1, 2, 3, 4, 5] ∧
    Delivered 0 z ∧ ∀ i y, AckGoesOut 0 z.1 i → step z.1 i = some y → FinInOrder 0 z.1 i y := by
  obtain ⟨z, hr, hz⟩ := Lib.exists_of_runInputs (Lib.observe step (Track.see 0))
    (fun z i => AckGoesOut 0 z.1 i) (initial 1 (fun _ => blankPacket) portPoolStart 7, Track.none)
    (handshake 0 7 100#32 ++
      [.rxFrame (peerSegment 101#32 8#32 (flagPsh ||| flagAck) [1, 2]) (transmitting 2),
        .ret true none (transmitting 0),
        .rxFrame (peerSegment 103#32 8#32 (flagPsh ||| flagAck) [3, 4, 5]) (transmitting 3)])
    (fun z => (z.1.1.mem 0).state = .established ∧ bytesOf z.2.delivered =
      [1, 2, 3, 4, 5]) (by decide)
  obtain ⟨hs, hb⟩ := of_decide_eq_true hz
  exact ⟨z, hs, hb, acknowledged_is_delivered 0 _ _ _ hr⟩

/-- Data whose acknowledgement waits for ARP is acknowledged and never delivered. -/
theorem acknowledged_not_delivered : ¬ ∀ (n : Nat) (h : Fin n) (packets : PacketId → Packet)
    (port : BitVec 16) (time : Nat) (z : (Stack n × Pc n) × Track),
    Lib.Reach (Lib.observe step (Track.see h)) Lib.anyStep
      (initial n packets port time, Track.none) z →
      Delivered h z ∧ ∀ i y, step z.1 i = some y → FinInOrder h z.1 i y := by
  intro hall
  obtain ⟨z, hr, hz⟩ := Lib.exists_of_runInputs (Lib.observe step (Track.see 0)) Lib.anyStep
    (initial 1 (fun _ => blankPacket) portPoolStart 7, Track.none)
    (handshake 0 7 100#32 ++
      [.rxFrame (peerSegment 101#32 8#32 (flagPsh ||| flagAck) [1, 2])
        { transmitting 2 with arp := fun _ => .pending }])
    (fun z => (z.1.1.mem 0).state = .established ∧ (z.1.1.mem 0).ackNumber = 103#32 ∧
      z.2.isn = 100#32 ∧ bytesOf z.2.delivered = []) (by decide)
  obtain ⟨hs, hack, hisn, hb⟩ := of_decide_eq_true hz
  have hd := ((hall 1 0 _ _ _ z hr).1 hs).1
  rw [hack, hisn, hb] at hd
  exact absurd hd (by decide)

end NanoIp.Tcp
