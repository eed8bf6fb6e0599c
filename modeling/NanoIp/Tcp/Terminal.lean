import NanoIp.Tcp.Listed
import NanoIp.Tcp.Trace

/-!
# How a connection ends

An observer beside the module counts the terminal events of one handle since it
left IDLE or LISTEN. What a step may do at the end of a connection is `Ends`.
-/
namespace NanoIp.Tcp

variable {n : Nat}

/-- The events that tell the application that a connection is over. -/
def Event.terminal : Event → Bool
  | .closed | .connectTimeout | .acceptFailed => true
  | _ => false

def terminals (events : List Raised) : Nat := events.countP fun e => e.1.terminal

/-- The states in which a handle has no connection. -/
def State.atRest : State → Bool
  | .closed | .idle | .listen => true
  | _ => false

/-- The events a step raised on `h`. -/
def newEvents (h : Fin n) (x y : Stack n × Pc n) : List Raised :=
  (y.1.eventsOf h).drop (x.1.eventsOf h).length

/-- One step as the observer of handle `h` counts it. -/
def countTerminals (h : Fin n) (t : Nat) (x : Stack n × Pc n) (_ : Input n) (y : Stack n × Pc n) :
    Nat :=
  (if (x.1.mem h).state = .idle ∨ (x.1.mem h).state = .listen then 0 else t) +
    terminals (newEvents h x y)

/-- A frame given to the IPv4 layer or to the driver for `h`. -/
def Obs.frameOf (h : Fin n) : Obs n → Bool
  | .output k _ _ | .handed k _ _ | .resent k _ _ => k = h
  | _ => false

/-- The received segment that a step deals with. -/
def received? (x : Stack n × Pc n) (i : Input n) : Option Segment :=
  match i, x.2 with
  | .rxFrame seg _, .ready => some seg
  | .ret _ _ _, .inReset _ seg => some seg.1
  | _, _ => none

/-- What one step may do to `h` at the end of a connection. -/
structure Ends (h : Fin n) (x : Stack n × Pc n) (i : Input n) (y : Stack n × Pc n) : Prop where
  /-- A closed handle is silent. A transmission given up is reported in two callbacks,
  and only the second of these events may still follow. -/
  silent : (x.1.mem h).state = .closed →
    (newEvents h x y = [] ∨
      ∃ timestamp, x.2 = .inTxFailed h timestamp ∧ newEvents h x y = [(.closed, .timeout, none)]) ∧
    ∀ o ∈ newEntries x y, o.frameOf h = false
  /-- No received segment closes an idle handle. -/
  idle : (x.1.mem h).state = .idle → received? x i ≠ none → (y.1.mem h).state ≠ .closed
  /-- No RST is answered by an RST. -/
  reset : ∀ seg, received? x i = some seg → seg.hasFlag flagRst = true →
    ∀ answer ret, .output h answer ret ∈ newEntries x y → answer.hasFlag flagRst = false
  /-- The closed event of a state timeout carries success exactly in CLOSE_WAIT. -/
  timeout : ∀ timestamp, x.2 = .tick (some h) timestamp → ∀ error packet,
    (.closed, error, packet) ∈ newEvents h x y → (error = .success ↔ (x.1.mem h).state = .closeWait)

/-- The condition on a step. No segment that would reset the connection reaches an idle
handle, nor a handle whose reset has just been reported; no handle times out in
CLOSE_WAIT; no ARP request of a closed handle is still answered or cancelled; the
application accepts a connection with a handle that is idle or listens, and does not
begin a connection while it is told that the last one failed to transmit. -/
def EndsOnce (h : Fin n) (x : Stack n × Pc n) (i : Input n) : Prop :=
  match i, x.2 with
  | .rxFrame seg _, .ready =>
    lookup x.1 seg = some h → Rejects x.1 h seg → (x.1.mem h).state ≠ .idle
  | .ret _ _ _, .inReset k seg => k = h → ¬ Rejects x.1 h seg.1
  | .ret _ accept _, .inAccepting _ _ =>
    accept = some h → (x.1.mem h).state = .idle ∨ (x.1.mem h).state = .listen
  | .ret _ _ _, .inTxFailed k _ => k = h → (x.1.mem h).state.atRest = true
  | .visit _, .tick current timestamp =>
    current = some h → ¬ ((x.1.mem h).state = .closeWait ∧ (x.1.mem h).stateTimeout ≤ timestamp)
  | .arpResponse k _ _, _ => k = h → (x.1.mem h).state ≠ .closed
  | .releaseHandle k pending, _ =>
    k = h → pending = true → ¬ ((x.1.mem h).state = .closed ∧ (x.1.mem h).ipv4Handle.busy = true)
  | _, _ => True

instance (h : Fin n) (x : Stack n × Pc n) (i : Input n) : Decidable (EndsOnce h x i) := by
  rcases x with ⟨m, ⟨⟩⟩ <;> rcases i with ⟨⟩ <;> unfold EndsOnce <;> infer_instance

section Step

variable {x y : Stack n × Pc n} {i : Input n} {h : Fin n}

theorem newEvents_eq {new : List Raised} (he : y.1.eventsOf h = x.1.eventsOf h ++ new) :
    newEvents h x y = new := by
  rw [newEvents, he, List.drop_left]

theorem Processes.rejected {seg : Segment} {lower : Lower} (ht : Tidy x.1) (hok : EndsOnce h x i)
    (hp : Processes x h i seg lower) (hr : Rejects x.1 h seg) :
    (x.1.mem h).state.atRest = false ∧ i = .rxFrame seg lower ∧ ¬ resets x.1 h seg := by
  obtain ⟨m, pc⟩ := x
  rcases hp with ⟨rfl, rfl, hl, hres⟩ | ⟨release, accept, hf, rfl, rfl⟩
  · refine ⟨?_, rfl, hres⟩
    have hidle := hok hl hr
    have hclosed := ht.lookup_open hl
    have hlisten := hr.1
    dsimp only at hidle hclosed hlisten ⊢
    cases hs : (m.mem h).state with
    | closed => exact absurd hs hclosed
    | idle => exact absurd hs hidle
    | listen => exact absurd hs hlisten
    | _ => rfl
  · exact absurd hr (hok rfl)

theorem atRest_false {s : State} (hs : s.atRest = false) :
    s ≠ .closed ∧ s ≠ .idle ∧ s ≠ .listen := by
  cases s with
  | closed | idle | listen => cases hs
  | _ => exact ⟨nofun, nofun, nofun⟩

theorem frames_open {flags : Byte} (ht : Tidy x.1) (hok : EndsOnce h x i)
    (hf : Frames x i h flags) :
    (x.1.mem h).state ≠ .closed := by
  intro hc
  cases hf with
  | connect _ _ _ _ hs | close _ _ hs | sendPacket _ _ _ hs | accept _ _ _ _ _ _ hs =>
    rw [hc] at hs
    cases hs
  | acknowledge _ _ _ _ hs => simp [hc] at hs
  | reset seg lower hp hr => exact (atRest_false (hp.rejected ht hok hr).1).1 hc

theorem silent_frames (ht : Tidy x.1) (hok : EndsOnce h x i) (hs : step x i = some y)
    (hc : (x.1.mem h).state = .closed) : ∀ o ∈ newEntries x y, o.frameOf h = false := by
  intro o ho
  by_contra hframe
  have hmay := (step_writes hs).entries ho
  cases hmay with
  | output k flags seg ret hf =>
    obtain rfl : k = h := of_decide_eq_true ((Bool.not_eq_false _).mp hframe)
    exact frames_open ht hok hf hc
  | handed k flags pid ret hf =>
    obtain rfl : k = h := of_decide_eq_true ((Bool.not_eq_false _).mp hframe)
    exact frames_open ht hok hf hc
  | resent k pid timestamp lower ret he =>
    obtain rfl : k = h := of_decide_eq_true ((Bool.not_eq_false _).mp hframe)
    cases hc.symm.trans he.state
  | resentHanded k pid timestamp lower ret he =>
    obtain rfl : k = h := of_decide_eq_true ((Bool.not_eq_false _).mp hframe)
    cases hc.symm.trans he.state
  | deferred k mac driver pid ret hi =>
    obtain rfl : k = h := of_decide_eq_true ((Bool.not_eq_false _).mp hframe)
    subst hi
    exact hok rfl hc
  | _ => exact hframe rfl

theorem Effect.of_call {k : Handle n} {new : List Raised} {m : Stack n} (he : Effect x h i k new)
    (hc : call x.1 i = some m) : new = [] := by
  have hnot {seg : Segment} {lower : Lower} (hp : Processes x h i seg lower) : False := by
    rcases hp with ⟨rfl, -⟩ | ⟨release, accept, -, rfl, -⟩ <;> cases hc
  cases he with
  | reset _ _ hi | timedOut _ _ _ hi | exhausted _ _ _ hi | failedClosed _ _ _ _ hi
  | acceptFailed _ _ _ _ hi | arpSent _ _ hi | arpFailed _ _ _ hi | cancelled hi =>
    subst hi
    cases hc
  | invalid _ _ hp | accepting _ _ hp => exact (hnot hp).elim
  | accepted _ _ ha | synAcknowledged _ _ ha | data _ _ ha | acked _ _ _ ha | closeAcknowledged _ _ ha =>
    exact (hnot ha.1).elim
  | _ => rfl

/-- Only the periodic task enters the callback of a transmission given up. -/
theorem enters_inTxFailed {timestamp : BitVec 32} (hs : step x i = some y)
    (hy : y.2 = .inTxFailed h timestamp) :
    x.2 = .inTxFailed h timestamp ∧ (∃ m, call x.1 i = some m) ∨
    x.2 = .tick (some h) timestamp ∧ (x.1.mem h).state = .established := by
  have hsettled {m : Stack n} {a : Fin n} {seg : Segment} {pc : Pc n} (hp : Settled m a seg pc)
      (hpc : pc = .inTxFailed h timestamp) : False := by
    rcases hp with rfl | rfl | ⟨rfl, -⟩ | rfl <;> cases hpc
  have harp {m : Stack n} {a : Fin n} {mac : Option MacAddress} {driver : Err}
      (hpc : (arpResponse m a mac driver).2 = .inTxFailed h timestamp) : False := by
    rcases arpResponse_cases m a mac driver with he | ⟨m', error, -, he, -⟩
    · rw [he] at hpc
      cases hpc
    · rw [he] at hpc
      unfold ipv4ErrorCallback at hpc
      split_ifs at hpc
  cases step_move hs with
  | rxFrame seg lower =>
    refine absurd hy fun hy => ?_
    unfold rxFrame at hy
    split at hy
    · unfold rxHandle at hy
      split_ifs at hy
      exact hsettled (rxAcknowledge_settled _ _ _ _) hy
    · cases hy
  | arpResponse a mac driver => exact (harp hy).elim
  | periodicTask => cases hy
  | visit lower a ts hpc =>
    refine .inr ?_
    unfold visit at hy
    cases hst : (x.1.mem a).state with
    | established =>
      rw [hst] at hy
      dsimp only at hy
      split at hy
      · split_ifs at hy
        · unfold retryPacket at hy
          dsimp only at hy
          split_ifs at hy
          obtain ⟨rfl, rfl⟩ := Pc.inTxFailed.inj hy
          exact ⟨hpc, hst⟩
      · cases hy
    | synSent | synReceived | closeWait | finWait1 | finWait2 | timeWait =>
      rw [hst] at hy
      dsimp only at hy
      split_ifs at hy
    | closed | listen | closing | lastAck | idle =>
      rw [hst] at hy
      cases hy
  | visited => cases hy
  | ret release accept lower _ hr =>
    cases hpc : x.2 with
    | inReset a seg =>
      rw [hpc] at hr
      obtain rfl := Option.some.inj hr
      exact (hsettled (rxAcknowledge_settled _ _ _ _) hy).elim
    | inAccepting l seg =>
      rw [hpc] at hr
      obtain rfl := Option.some.inj hr
      unfold rxAccept at hy
      dsimp only at hy
      split at hy
      · cases hy
      · split_ifs at hy
    | inRx | inCallback | inTick | inTxFailed =>
      rw [hpc] at hr
      obtain rfl := Option.some.inj hr
      cases hy
    | ready | tick =>
      rw [hpc] at hr
      cases hr
  | releaseHandle a pending =>
    unfold releaseHandle at hy
    split_ifs at hy
    exact (harp hy).elim
  | call _ m _ hc => exact .inl ⟨hy, m, hc⟩

theorem not_processes {seg : Segment} {lower : Lower} {current : Option (Fin n)}
    {timestamp : BitVec 32} (hpc : x.2 = .tick current timestamp) (hp : Processes x h i seg lower) :
    False := by
  rcases hp with ⟨-, hx, -⟩ | ⟨_, _, _, -, hx⟩
  · cases hpc.symm.trans hx
  · cases hpc.symm.trans hx

theorem Effect.of_visit {k : Handle n} {new : List Raised} {current : Option (Fin n)}
    {timestamp : BitVec 32} (he : Effect x h i k new) (hpc : x.2 = .tick current timestamp)
    (hst : (x.1.mem h).state = .established) : terminals new = 0 := by
  cases he with
  | reset _ _ _ hx | acceptFailed _ _ _ _ _ hx | failedClosed _ _ _ _ _ hx =>
      cases hpc.symm.trans hx
  | invalid _ _ hp => exact (not_processes hpc hp).elim
  | closeAcknowledged _ _ _ hs => cases hst.symm.trans hs
  | timedOut _ _ _ _ _ _ hs =>
    rcases hs with ⟨hs, -⟩ | ⟨hs, -⟩ | ⟨hs | hs | hs | hs, -⟩ <;> cases hst.symm.trans hs
  | _ => rfl

/-- A terminal event ends a connection, once, or is the second event of a transmission
given up. -/
theorem Effect.ends {k : Handle n} {new : List Raised} (ht : Tidy x.1) (hok : EndsOnce h x i)
    (he : Effect x h i k new) :
    terminals new = 0 ∧ (k.state.atRest = false → (x.1.mem h).state ≠ .closed) ∨
    terminals new = 1 ∧ k.state.atRest = true ∧
      ((x.1.mem h).state ≠ .closed ∨ ∃ timestamp, x.2 = .inTxFailed h timestamp) := by
  have hsame {s : State} (hs : (x.1.mem h).state = s) (hk : s.atRest = false) :
      (x.1.mem h).state ≠ .closed := by
    rw [hs]
    rintro rfl
    cases hk
  have hopen {s : State} (hs : (x.1.mem h).state = s) (hne : s ≠ .closed) :
      (x.1.mem h).state ≠ .closed := by rwa [hs]
  cases he with
  | same | accepting | arpSent | arpFailed | cancelled | openRefused | bound |
      connectRefused | synRefused
  | data | dataRefused | acked | finRefused | finWaitRefused | listener | answerRefused |
      resent | sent =>
    exact .inl ⟨rfl, hsame rfl⟩
  | opened => exact .inl ⟨rfl, nofun⟩
  | listening => exact .inl ⟨rfl, nofun⟩
  | closedByCall | exhausted => exact .inl ⟨rfl, nofun⟩
  | connected _ _ _ _ hs | answered _ _ _ _ _ _ _ hs | accepted _ _ _ hs | synAcknowledged _ _ _ hs
  | fin _ _ _ _ hs | finAcknowledged _ _ _ _ hs =>
    exact .inl ⟨rfl, fun _ => hopen hs nofun⟩
  | finWait _ _ _ _ hs =>
    refine .inl ⟨rfl, fun _ => ?_⟩
    rcases hs with hs | hs
    · exact hopen hs nofun
    · exact hopen hs nofun
  | reset seg lower _ _ hl => exact .inr ⟨rfl, rfl, .inl (ht.lookup_open hl)⟩
  | invalid seg lower hp hr =>
      exact .inr ⟨rfl, rfl, .inl (atRest_false (hp.rejected ht hok hr).1).1⟩
  | closeAcknowledged _ _ _ hs => exact .inr ⟨rfl, rfl, .inl (hopen hs nofun)⟩
  | acceptFailed l seg release lower hi hpc hs =>
    obtain ⟨m, pc⟩ := x
    subst hi hpc
    have hlisten := (hok rfl).resolve_left hs
    refine .inr ⟨rfl, ?_, .inl (hopen hlisten nofun)⟩
    rw [Handle.conn_state, hlisten]
    rfl
  | timedOut timestamp lower event _ _ _ hs =>
    refine .inr ⟨?_, rfl, .inl ?_⟩
    · rcases hs with ⟨-, rfl⟩ | ⟨-, rfl⟩ | ⟨-, rfl⟩ <;> rfl
    · rcases hs with ⟨hs, -⟩ | ⟨hs, -⟩ | ⟨hs | hs | hs | hs, -⟩ <;> exact hopen hs nofun
  | failedClosed timestamp release accept lower hi hpc =>
    obtain ⟨m, pc⟩ := x
    subst hi hpc
    exact .inr ⟨rfl, hok rfl, .inr ⟨timestamp, rfl⟩⟩

/-- The count is one only after the connection ended, and not yet one in the first
callback of a transmission given up. -/
structure Ending (h : Fin n) (x : Stack n × Pc n) (t : Nat) : Prop where
  tidy : Tidy x.1
  once : t ≤ 1
  running : (x.1.mem h).state.atRest = false → t = 0
  failing : ∀ timestamp, x.2 = .inTxFailed h timestamp → t = 0

theorem Ending.step {t : Nat} (ht : Ending h x t) (hok : EndsOnce h x i) (hs : step x i = some y) :
    Ending h y (countTerminals h t x i y) := by
  obtain ⟨k, new, heff, hk, he⟩ := step_effect hs h
  have hstate : (y.1.mem h).state = k.state := by rw [← hk, Handle.conn_state]
  -- a handle that is not closed has not had its terminal event yet
  have hfresh (hc : (x.1.mem h).state ≠ .closed) :
      (if (x.1.mem h).state = .idle ∨ (x.1.mem h).state = .listen then 0 else t) = 0 := by
    split_ifs with hrest
    · rfl
    · refine ht.running ?_
      obtain ⟨hidle, hlisten⟩ := not_or.mp hrest
      cases hst : (x.1.mem h).state with
      | closed => exact absurd hst hc
      | idle => exact absurd hst hidle
      | listen => exact absurd hst hlisten
      | _ => rfl
  have hbase : (if (x.1.mem h).state = .idle ∨ (x.1.mem h).state = .listen then 0 else t) ≤ t := by
    split_ifs <;> omega
  have hfailing {timestamp : BitVec 32} (hpc : x.2 = .inTxFailed h timestamp) :
      (if (x.1.mem h).state = .idle ∨ (x.1.mem h).state = .listen then 0 else t) = 0 := by
    have := ht.failing timestamp hpc
    omega
  have honce := ht.once
  have hends := heff.ends ht.tidy hok
  have hcount : countTerminals h t x i y =
      (if (x.1.mem h).state = .idle ∨ (x.1.mem h).state = .listen then 0 else t) +
        terminals new := by
    rw [countTerminals, newEvents_eq he]
  refine ⟨tidy_step ht.tidy hs, ?_, fun hrun => ?_, fun timestamp hpc => ?_⟩
  · rcases hends with ⟨hz, -⟩ | ⟨hz, -, hc | ⟨timestamp, hpc⟩⟩
    · omega
    · have := hfresh hc
      omega
    · have := hfailing hpc
      omega
  · rw [hstate] at hrun
    rcases hends with ⟨hz, hc⟩ | ⟨-, hrest, -⟩
    · have := hfresh (hc hrun)
      omega
    · rw [hrest] at hrun
      cases hrun
  · rcases enters_inTxFailed hs hpc with ⟨hx, m, hcall⟩ | ⟨hx, hst⟩
    · have := hfailing hx
      rw [heff.of_call hcall] at hcount
      exact hcount.trans (by rw [this]; rfl)
    · have := hfresh (by rw [hst]; nofun)
      have := heff.of_visit hx hst
      omega

theorem Effect.silent {k : Handle n} {new : List Raised} (ht : Tidy x.1) (hok : EndsOnce h x i)
    (he : Effect x h i k new) (hc : (x.1.mem h).state = .closed) :
    new = [] ∨ ∃ timestamp, x.2 = .inTxFailed h timestamp ∧ new = [(.closed, .timeout, none)] := by
  cases he with
  | reset seg lower _ _ hl => exact absurd hc (ht.lookup_open hl)
  | invalid seg lower hp hr => exact absurd hc (atRest_false (hp.rejected ht hok hr).1).1
  | accepting _ _ _ hs | accepted _ _ _ hs | synAcknowledged _ _ _ hs | data _ _ _ hs | acked _ _ _ _ hs
  | closeAcknowledged _ _ _ hs | arpSent _ _ _ hs | exhausted _ _ _ _ _ _ hs =>
      cases hc.symm.trans hs
  | acceptFailed l seg release lower hi hpc hs =>
    obtain ⟨m, pc⟩ := x
    subst hi hpc
    cases hc.symm.trans ((hok rfl).resolve_left hs)
  | arpFailed mac driver error hi =>
    subst hi
    exact absurd hc (hok rfl)
  | cancelled hi hb hs =>
    subst hi
    exact absurd ⟨hs, hb⟩ (hok rfl rfl)
  | timedOut _ _ _ _ _ _ hs =>
    rcases hs with ⟨hs, -⟩ | ⟨hs, -⟩ | ⟨hs | hs | hs | hs, -⟩ <;> cases hc.symm.trans hs
  | failedClosed timestamp release accept lower _ hpc => exact .inr ⟨timestamp, hpc, rfl⟩
  | _ => exact .inl rfl

theorem received_some {seg : Segment} (hr : received? x i = some seg) :
    (∃ lower, i = .rxFrame seg lower) ∨
    ∃ a hf release accept lower, i = .ret release accept lower ∧ x.2 = .inReset a ⟨seg, hf⟩ := by
  obtain ⟨m, pc⟩ := x
  unfold received? at hr
  split at hr
  · next seg' lower hpc =>
    obtain rfl := Option.some.inj hr
    exact .inl ⟨lower, rfl⟩
  · next release accept lower a seg' hpc =>
    obtain rfl := Option.some.inj hr
    exact .inr ⟨a, seg'.2, release, accept, lower, rfl, hpc⟩
  · cases hr

theorem Effect.idle {k : Handle n} {new : List Raised} (ht : Tidy x.1) (hok : EndsOnce h x i)
    (he : Effect x h i k new) (hi : (x.1.mem h).state = .idle) {seg : Segment}
    (hr : received? x i = some seg) : k.state ≠ .closed := by
  intro hk
  cases he with
  | reset _ _ _ _ _ hres => exact hres.2.2 hi
  | invalid seg lower hp hrej => exact (atRest_false (hp.rejected ht hok hrej).1).2.1 hi
  | closedByCall lower seqNumber timeout hcall =>
    rcases received_some hr with ⟨_, rfl⟩ | ⟨_, _, _, _, _, rfl, -⟩ <;> cases hcall
  | closeAcknowledged _ _ _ hs | exhausted _ _ _ _ _ _ hs | openRefused _ _ _ hs =>
      cases hi.symm.trans hs
  | timedOut _ _ _ _ _ _ hs =>
    rcases hs with ⟨hs, -⟩ | ⟨hs, -⟩ | ⟨hs | hs | hs | hs, -⟩ <;> cases hi.symm.trans hs
  | _ =>
    first
    | cases hk
    | cases hi.symm.trans hk

theorem Frames.answer {flags : Byte} {seg : Segment} (ht : Tidy x.1) (hok : EndsOnce h x i)
    (hf : Frames x i h flags) (hr : received? x i = some seg) (hrst : seg.hasFlag flagRst = true) :
    flags &&& flagRst = 0#8 := by
  cases hf with
  | connect | close | sendPacket | accept => rfl
  | acknowledge _ _ _ _ _ hfl => rcases hfl with rfl | rfl <;> rfl
  | reset seg' lower hp hrej =>
    obtain ⟨hopen, rfl, hres⟩ := hp.rejected ht hok hrej
    obtain ⟨-, hidle, hlisten⟩ := atRest_false hopen
    obtain ⟨_, hi⟩ | ⟨_, _, _, _, _, hi, -⟩ := received_some hr
    · obtain ⟨rfl, -⟩ := Input.rxFrame.inj hi
      exact absurd ⟨hrst, hlisten, hidle⟩ hres
    · cases hi

theorem Effect.timeout {k : Handle n} {new : List Raised} (hok : EndsOnce h x i) (he : Effect x h i k new)
    {timestamp : BitVec 32} (hpc : x.2 = .tick (some h) timestamp) {error : Err} {packet : Option Segment}
    (hm : (.closed, error, packet) ∈ new) : error = .timeout ∧ (x.1.mem h).state ≠ .closeWait := by
  cases he with
  | reset _ _ _ hx | acceptFailed _ _ _ _ _ hx | failedClosed _ _ _ _ _ hx => cases hpc.symm.trans hx
  | invalid _ _ hp | accepting _ _ hp => exact (not_processes hpc hp).elim
  | accepted _ _ ha | synAcknowledged _ _ ha | data _ _ ha | acked _ _ _ ha | closeAcknowledged _ _ ha =>
    exact (not_processes hpc ha.1).elim
  | arpSent | arpFailed | cancelled | exhausted => cases List.mem_singleton.mp hm
  | timedOut timestamp' lower event hi hx hexp =>
    obtain ⟨-, rfl, -⟩ : _ ∧ error = .timeout ∧ packet = none := by
      simpa only [Prod.mk.injEq] using List.mem_singleton.mp hm
    refine ⟨rfl, fun hcw => ?_⟩
    obtain ⟨m, pc⟩ := x
    subst hi hx
    exact hok rfl ⟨hcw, hexp⟩
  | _ => cases hm

theorem step_ends (ht : Tidy x.1) (hok : EndsOnce h x i) (hs : step x i = some y) :
    Ends h x i y := by
  obtain ⟨k, new, heff, hk, he⟩ := step_effect hs h
  have hnew := newEvents_eq he
  refine ⟨fun hc => ⟨?_, silent_frames ht hok hs hc⟩, fun hi hr => ?_,
    fun seg hr hrst answer ret ho => ?_,
    fun timestamp hpc error packet hm => ?_⟩
  · rw [hnew]
    exact heff.silent ht hok hc
  · obtain ⟨seg, hseg⟩ := Option.ne_none_iff_exists'.mp hr
    rw [← Handle.conn_state, hk]
    exact heff.idle ht hok hi hseg
  · cases (step_writes hs).entries ho with
    | output _ flags _ _ hf hfl =>
      show decide (answer.flags &&& flagRst ≠ 0#8) = false
      rw [hfl, hf.answer ht hok hr hrst]
      rfl
  · rw [hnew] at hm
    obtain ⟨rfl, hne⟩ := heff.timeout hok hpc hm
    exact ⟨nofun, fun hcw => absurd hcw hne⟩

end Step

/-- In every run whose steps meet the condition, a connection ends with at most one
terminal event, and the next step ends it as `Ends` says. -/
theorem ends_once (h : Fin n) (packets : PacketId → Packet) (port : BitVec 16) (time : Nat)
    {z : (Stack n × Pc n) × Nat}
    (hr : Lib.Reach (Lib.observe step (countTerminals h)) (fun z i => EndsOnce h z.1 i)
      (initial n packets port time, 0) z) :
    z.2 ≤ 1 ∧ ∀ i y, EndsOnce h z.1 i → step z.1 i = some y → Ends h z.1 i y := by
  have hinv : Ending h z.1 z.2 := by
    refine hr.invariant (I := fun z => Ending h z.1 z.2)
      ⟨tidy_initial packets port time, Nat.zero_le _, fun _ => rfl, fun _ _ =>
        rfl⟩ fun z i z' hi hok hstep => ?_
    obtain ⟨hs, ht⟩ := Lib.observe_some.mp hstep
    rw [ht]
    exact hi.step hok hs
  exact ⟨hinv.once, fun i y hok hs => step_ends hinv.tidy hok hs⟩

/-- A connection that the peer resets ends with one event. -/
theorem ends_once_reset : ∃ z : (Stack 1 × Pc 1) × Nat, z.2 = 1 ∧ (z.1.1.mem 0).state = .closed ∧
    z.1.2 = .ready ∧ z.2 ≤ 1 ∧ ∀ i y, EndsOnce 0 z.1 i → step z.1 i = some y → Ends 0 z.1 i y := by
  obtain ⟨z, hr, hz⟩ := Lib.exists_of_runInputs (Lib.observe step (countTerminals 0))
    (fun z i => EndsOnce 0 z.1 i) (initial 1 (fun _ => blankPacket) portPoolStart 7, 0)
    (handshake 0 7 100#32 ++
      [.rxFrame (peerSegment 101#32 8#32 flagRst []) (transmitting 8),
        .ret true none (transmitting 8)])
    (fun z => z.2 = 1 ∧ (z.1.1.mem 0).state = .closed ∧ z.1.2 = .ready) (by decide)
  obtain ⟨hone, hclosed, hready⟩ := of_decide_eq_true hz
  exact ⟨z, hone, hclosed, hready, ends_once 0 _ _ _ hr⟩

/-- An RST that acknowledges one byte too much ends its connection twice. -/
theorem reset_ends_twice :
    ¬ ∀ (n : Nat) (h : Fin n) (packets : PacketId → Packet) (port : BitVec 16)
    (time : Nat) (z : (Stack n × Pc n) × Nat),
    Lib.Reach (Lib.observe step (countTerminals h)) Lib.anyStep (initial n packets port time, 0) z →
    z.2 ≤ 1 ∧ ∀ i y, step z.1 i = some y → Ends h z.1 i y := by
  intro hall
  obtain ⟨z, hr, hz⟩ := Lib.exists_of_runInputs (Lib.observe step (countTerminals 0)) Lib.anyStep
    (initial 1 (fun _ => blankPacket) portPoolStart 7, 0)
    (handshake 0 7 100#32 ++
      [.rxFrame (peerSegment 101#32 9#32 flagRst []) (transmitting 8),
        .ret true none (transmitting 8)])
    (fun z => z.2 = 2) (by decide)
  have hone := (hall 1 0 _ _ _ z hr).1
  rw [of_decide_eq_true hz] at hone
  exact absurd hone (by decide)

end NanoIp.Tcp
