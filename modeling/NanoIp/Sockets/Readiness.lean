import NanoIp.Sockets.Poll

/-!
# What Poll reports

Each entry of a call is filled from the flags of its socket, which reading resets, and from what
else stands there. The report of input leaves out accepted connections, and the report of output
takes the error code of `NANO_IP_UDP_HandleIsReady` for a truth value and the flag of an earlier
event for the present state of a connection.
-/
namespace NanoIp.Sockets

variable {n k : Nat}

/-- What the layers below know of a socket: its IPv4 handle resolves an address, or a packet sent
on its connection is not acknowledged. -/
structure Lower (n : Nat) where
  busy : Fin n → Bool
  unacknowledged : Fin n → Bool

/-- `NANO_IP_UDP_HandleIsReady`, as `NANO_IP_IPV4_HandleIsReady` answers. -/
def Lower.handleIsReady (lower : Lower n) (i : Fin n) : Err :=
  if lower.busy i then .busy else .success

/-- A packet or a connection is there for the socket, or the event of one has not been read. -/
def Socket.hasInput (s : Socket n k) : Prop :=
  s.rxPackets ≠ [] ∨ s.accepted ≠ none ∨ s.syncFlags &&& eventRx ≠ 0#32

/-- A send on the socket would not be refused as busy. -/
def CanSend (m : Module n k) (lower : Lower n) (i : Fin n) : Prop :=
  match (m.sockets i).type with
  | .udp => lower.busy i = false
  | .tcp => (m.sockets i).tcp.state = .established ∧ lower.unacknowledged i = false

/-- What an entry reports about its socket is what the module holds. -/
structure PollData.Truthful (m : Module n k) (lower : Lower n) (i : Fin n) (d : PollData) :
    Prop where
  requested : d.retEvents &&& d.reqEvents = d.retEvents
  input : d.retEvents &&& pollIn ≠ 0#16 ↔ d.reqEvents &&& pollIn ≠ 0#16 ∧ (m.sockets i).hasInput
  output : d.retEvents &&& pollOut ≠ 0#16 → CanSend m lower i

/-- What a call reports about the module it found, with `*poll_count`. -/
structure Truthful (m : Module n k) (lower : Lower n) (ds : List PollData) (pollCount : Nat) :
    Prop where
  entries : ∀ d ∈ ds, ∃ i, m.get d.socketId = some i ∧ d.Truthful m lower i
  counted : pollCount = ds.countP fun d => d.retEvents ≠ 0#16

/-- What must hold of a socket for its report to be true; `fresh` says that no earlier entry has
read its flags. -/
structure Reportable (m : Module n k) (lower : Lower n) (fresh : Prop) (i : Fin n)
    (req : BitVec 16) : Prop where
  input : req &&& pollIn ≠ 0#16 → (m.sockets i).rxPackets = [] →
    ((m.sockets i).syncFlags &&& eventRx ≠ 0#32 → fresh) ∧
      ((m.sockets i).syncFlags &&& eventRx = 0#32 → (m.sockets i).accepted = none)
  output : req &&& pollOut ≠ 0#16 →
    match (m.sockets i).type with
    | .udp => lower.busy i = false
    | .tcp => fresh → (m.sockets i).syncFlags &&& eventTx ≠ 0#32 →
      (m.sockets i).tcp.state = .established ∧ lower.unacknowledged i = false

section Events

variable {req : BitVec 16} {s : Socket n k} {handleIsReady : Err} {flags : BitVec 32}

theorem pollEvents_requested :
    pollEvents s handleIsReady flags req &&& req = pollEvents s handleIsReady flags req := by
  have hbit : ∀ (bit : BitVec 16) (j : Nat), bit = BitVec.twoPow 16 j → ∀ {p : Prop} [Decidable p],
      (if req &&& bit ≠ 0#16 ∧ p then bit else 0#16) &&& req = if req &&& bit ≠ 0#16 ∧
        p then bit else 0#16 := by
    intro bit j hbit p _
    split_ifs with h
    · have hand := BitVec.and_twoPow req j
      rw [← hbit] at hand
      rw [BitVec.and_comm, hand, if_pos]
      by_contra hno
      rw [if_neg hno] at hand
      exact h.1 hand
    · exact BitVec.zero_and
  simp only [pollEvents, BitVec.and_or_distrib_right]
  rw [hbit pollIn 0 rfl, hbit pollOut 1 rfl, hbit pollErr 2 rfl]

theorem pollBits (p q r : Prop) [Decidable p] [Decidable q] [Decidable r] :
    (((if p then pollIn else 0#16) ||| (if q then pollOut else 0#16) |||
      if r then pollErr else 0#16) &&& pollIn ≠ 0#16
      ↔ p) ∧
    (((if p then pollIn else 0#16) ||| (if q then pollOut else 0#16) |||
      if r then pollErr else 0#16) &&& pollOut ≠ 0#16
      ↔ q) := by
  by_cases hp : p <;> by_cases hq : q <;> by_cases hr :
    r <;> simp only [hp, hq, hr, if_true, if_false] <;> decide

theorem pollEvents_in : pollEvents s handleIsReady flags req &&& pollIn ≠ 0#16 ↔
    req &&& pollIn ≠ 0#16 ∧ (flags &&& eventRx ≠ 0#32 ∨ s.rxPackets ≠ []) := by
  rw [← List.isEmpty_eq_false_iff]
  exact (pollBits _ _ _).1

theorem pollEvents_out : pollEvents s handleIsReady flags req &&& pollOut ≠ 0#16 ↔
    req &&& pollOut ≠ 0#16 ∧
      (flags &&& eventTx ≠ 0#32 ∨ s.type = .udp ∧ handleIsReady ≠ .success) :=
  (pollBits _ _ _).2

end Events

section Entries

variable {m m' : Module n k} {lower : Lower n} {seen : List (BitVec 32)} {q : Fin k} {i : Fin n}
  {d : PollData}

theorem eventAll_and {flags bit : BitVec 32} (hbit : eventAll &&& bit = bit) :
    flags &&& eventAll &&& bit = flags &&& bit := by
  rw [BitVec.and_assoc, hbit]

/-- The entry of a socket, whose flags were read before or not. -/
theorem entry_truthful {flags : BitVec 32} {fresh : Prop}
    (hflags : fresh → flags = (m.sockets i).syncFlags &&& eventAll)
    (hread : ¬fresh → flags = 0#32) :
    ({ d with retEvents := pollEvents (m.sockets i) (lower.handleIsReady i) flags d.reqEvents } :
      PollData).Truthful
        m lower i ↔ Reportable m lower fresh i d.reqEvents := by
  have hrx : flags &&& eventRx ≠ 0#32 ↔ fresh ∧ (m.sockets i).syncFlags &&& eventRx ≠ 0#32 := by
    by_cases hf : fresh
    · rw [hflags hf, eventAll_and (by decide)]
      simp [hf]
    · simp [hread hf, hf]
  have htx : flags &&& eventTx ≠ 0#32 ↔ fresh ∧ (m.sockets i).syncFlags &&& eventTx ≠ 0#32 := by
    by_cases hf : fresh
    · rw [hflags hf, eventAll_and (by decide)]
      simp [hf]
    · simp [hread hf, hf]
  have hbusy : lower.handleIsReady i ≠ .success ↔ lower.busy i = true := by
    unfold Lower.handleIsReady
    cases lower.busy i <;> simp
  constructor
  · rintro ⟨-, hin, hout⟩
    rw [pollEvents_in, hrx, Socket.hasInput] at hin
    rw [pollEvents_out, htx, hbusy] at hout
    refine ⟨fun hreq hempty => ⟨fun hflag => ?_, fun hflag => ?_⟩, fun hreq => ?_⟩
    · have hreported := hin.mpr ⟨hreq, .inr (.inr hflag)⟩
      exact (hreported.2.resolve_right (not_not.mpr hempty)).1
    · by_contra haccepted
      have hreported := hin.mpr ⟨hreq, .inr (.inl haccepted)⟩
      exact (hreported.2.resolve_right (not_not.mpr hempty)).2 hflag
    · unfold CanSend at hout
      cases ht : (m.sockets i).type with
      | udp =>
        rw [ht] at hout
        cases hb : lower.busy i with
        | false => rfl
        | true => exact hb.symm.trans (hout ⟨hreq, .inr ⟨rfl, hb⟩⟩)
      | tcp =>
        rw [ht] at hout
        exact fun hfresh hflag => hout ⟨hreq, .inl ⟨hfresh, hflag⟩⟩
  · rintro ⟨hin, hout⟩
    refine ⟨pollEvents_requested, ?_, ?_⟩
    · rw [pollEvents_in, hrx, Socket.hasInput, and_congr_right_iff]
      intro hreq
      by_cases hempty : (m.sockets i).rxPackets = []
      · obtain ⟨hfresh, hnone⟩ := hin hreq hempty
        simp only [hempty, ne_eq, not_true_eq_false, or_false, false_or]
        constructor
        · exact fun h => .inr h.2
        · rintro (haccepted | hflag)
          · by_contra hno
            exact haccepted (hnone (by_contra fun hflag => hno ⟨hfresh hflag, hflag⟩))
          · exact ⟨hfresh hflag, hflag⟩
      · simp [hempty]
    · rw [pollEvents_out, htx, hbusy]
      rintro ⟨hreq, hreported⟩
      have hsocket := hout hreq
      unfold CanSend
      cases ht : (m.sockets i).type with
      | udp =>
        rw [ht] at hsocket
        exact hsocket
      | tcp =>
        rw [ht] at hsocket hreported
        rcases hreported with ⟨hfresh, hflag⟩ | ⟨htype, -⟩
        · exact hsocket hfresh hflag
        · cases htype

/-- A module whose sockets differ from those of `m` in that the flags of the seen ones were read. -/
structure Consumed (m : Module n k) (seen : List (BitVec 32)) (m' : Module n k) : Prop where
  same : ∀ i, (m'.sockets i).isFree = (m.sockets i).isFree ∧ (m'.sockets i).rxPackets =
    (m.sockets i).rxPackets ∧
    (m'.sockets i).type = (m.sockets i).type
  unread : ∀ i id, m.get id = some i → id ∉ seen →
    (m'.sockets i).syncFlags &&& eventAll = (m.sockets i).syncFlags &&& eventAll
  read : ∀ i id, m.get id = some i → id ∈ seen → (m'.sockets i).syncFlags &&& eventAll = 0#32

theorem Consumed.refl (m : Module n k) : Consumed m [] m :=
  ⟨fun _ => ⟨rfl, rfl, rfl⟩, fun _ _ _ _ => rfl, fun _ _ _ h => absurd h List.not_mem_nil⟩

theorem Consumed.get (h : Consumed m seen m') (id : BitVec 32) : m'.get id = m.get id := by
  unfold Module.get
  simp only [(h.same _).1]

theorem Consumed.readEntry (h : Consumed m seen m') (hi : m.get d.socketId = some i)
    (handleIsReady : Err) :
    Consumed m (seen ++ [d.socketId]) (pollSocket m' q i handleIsReady d).1 := by
  have hsocket : ∀ j, j ≠ i → (pollSocket m' q i handleIsReady d).1.sockets j = m'.sockets j := by
    intro j hj
    rw [pollSocket, Module.modify_of_ne _ _ hj]
    exact Module.modify_of_ne _ _ hj
  have hself : (pollSocket m' q i handleIsReady d).1.sockets i = { m'.sockets i with
      syncFlags := (m'.sockets i).syncFlags &&& ~~~((m'.sockets i).syncFlags &&& eventAll),
        poll := some q } := by
    simp [pollSocket, Module.resetFlags]
  have hone : ∀ id j, m.get id = some j → (id = d.socketId ↔ j = i) := by
    intro id j hj
    constructor
    · rintro rfl
      exact Option.some.inj (hj.symm.trans hi)
    · rintro rfl
      exact BitVec.eq_of_toNat_eq ((Module.get_some hj).1.symm.trans (Module.get_some hi).1)
  refine ⟨fun j => ?_, fun j id hj hid => ?_, fun j id hj hid => ?_⟩
  · by_cases hji : j = i
    · rw [hji, hself]
      exact h.same i
    · rw [hsocket j hji]
      exact h.same j
  · have hne : j ≠ i := fun hji => hid (by simp [(hone id j hj).mpr hji])
    rw [hsocket j hne]
    exact h.unread j id hj fun hin => hid (List.mem_append_left _ hin)
  · by_cases hji : j = i
    · rw [hji, hself]
      change (m'.sockets i).syncFlags &&& ~~~((m'.sockets i).syncFlags &&& eventAll) &&&
        eventAll = 0#32
      rw [BitVec.and_assoc, BitVec.and_comm _ eventAll, ← BitVec.and_assoc, BitVec.and_not_self]
      rfl
    · rw [hsocket j hji]
      refine h.read j id hj ((List.mem_append.mp hid).resolve_right fun hin => hji ?_)
      exact (hone id j hj).mp (List.mem_singleton.mp hin)

theorem pollEvents_congr {s s' : Socket n k} (hpackets : s'.rxPackets = s.rxPackets)
    (htype : s'.type = s.type) (handleIsReady : Err) (flags : BitVec 32) (req : BitVec 16) :
    pollEvents s' handleIsReady flags req = pollEvents s handleIsReady flags req := by
  unfold pollEvents
  rw [hpackets, htype]

theorem forall_places_cons {α : Type} {P : List α → α → Prop} {a : α} {l : List α} :
    (∀ pre x post, a :: l = pre ++ x :: post → P pre x) ↔
      P [] a ∧ ∀ pre x post, l = pre ++ x :: post → P (a :: pre) x := by
  constructor
  · exact fun h => ⟨h [] a l rfl, fun pre x post he => h (a :: pre) x post (by rw [he]; rfl)⟩
  · rintro ⟨hfirst, hrest⟩ pre x post he
    cases pre with
    | nil =>
      obtain ⟨rfl, -⟩ := List.cons.inj he
      exact hfirst
    | cons b pre =>
      obtain ⟨rfl, hl⟩ := List.cons.inj he
      exact hrest pre x post hl

/-- A round over the entries reports the truth exactly when each of its sockets lets it. -/
theorem pollSockets_truthful {ds : List PollData} :
    ∀ {m' : Module n k} {seen : List (BitVec 32)}, Consumed m seen m' →
    (pollSockets m' q lower.handleIsReady ds).2.2.2 = .success →
      ((∀ d ∈ (pollSockets m' q lower.handleIsReady ds).2.1, ∃ i, m.get d.socketId = some i ∧
        d.Truthful m lower i) ↔
        ∀ pre d post, ds = pre ++ d :: post → ∀ i, m.get d.socketId = some i →
          Reportable m lower (d.socketId ∉ seen ++ pre.map PollData.socketId) i d.reqEvents) := by
  induction ds with
  | nil =>
    intro m' seen _ _
    exact iff_of_true (fun d hd => absurd hd List.not_mem_nil)
      fun pre d post he => absurd he.symm
        (List.append_ne_nil_of_right_ne_nil _ (List.cons_ne_nil d post))
  | cons d ds ih =>
    intro m' seen hc hret
    unfold pollSockets at hret ⊢
    rw [hc.get] at hret ⊢
    cases hi : m.get d.socketId with
    | none =>
      rw [hi] at hret
      cases hret
    | some i =>
      simp only [hi] at hret ⊢
      have hrest := ih (hc.readEntry hi _) hret
      have hentry : (pollSocket m' q i (lower.handleIsReady i) d).2.Truthful m lower i ↔
          Reportable m lower (d.socketId ∉ seen) i d.reqEvents := by
        rw [pollSocket, pollEvents_congr (hc.same i).2.1 (hc.same i).2.2]
        exact entry_truthful (hc.unread i _ hi) fun hseen => hc.read i _ hi (not_not.mp hseen)
      rw [List.forall_mem_cons, hrest, forall_places_cons]
      refine and_congr ?_ ?_
      · simp only [List.map_nil, List.append_nil, hi, Option.some.injEq, forall_eq']
        refine Iff.trans ?_ hentry
        constructor
        · rintro ⟨j, hj, htruthful⟩
          obtain rfl := Option.some.inj (hi.symm.trans hj)
          exact htruthful
        · exact fun htruthful => ⟨i, hi, htruthful⟩
      · simp only [List.map_cons, List.append_assoc, List.singleton_append]

theorem pollSockets_counted {handleIsReady : Fin n → Err} {ds : List PollData} : ∀ {m : Module n k},
    (pollSockets m q handleIsReady ds).2.2.2 = .success →
      (pollSockets m q handleIsReady ds).2.2.1 =
        (pollSockets m q handleIsReady ds).2.1.countP fun d => d.retEvents ≠ 0#16 := by
  induction ds with
  | nil => exact fun _ => rfl
  | cons d ds ih =>
    intro m h
    unfold pollSockets at h ⊢
    cases hi : m.get d.socketId with
    | none =>
      rw [hi] at h
      cases h
    | some i =>
      simp only [hi] at h ⊢
      rw [ih h, List.countP_cons, Nat.add_comm]
      simp only [decide_eq_true_eq]

end Entries

/-- Every entry of a call lets its report be true: an entry for input whose socket has no packet
is the first to read a flag of reception, and without that flag no connection is there; an entry
for output is for a UDP handle that is not busy, or for a connection whose flag is not left over.
-/
def AllReportable (m : Module n k) (lower : Lower n) (ds : List PollData) : Prop :=
  ∀ pre d post, ds = pre ++ d :: post → ∀ i, m.get d.socketId = some i →
    Reportable m lower (d.socketId ∉ pre.map PollData.socketId) i d.reqEvents

section Calls

variable {m : Module n k} {lower : Lower n} {ds ds' : List PollData} {pollCount : Nat}

theorem pollTurn_truthful {q : Fin k}
    (h : (pollTurn m q lower.handleIsReady ds).2 = .returns .success ds' pollCount) :
    Truthful m lower ds' pollCount ↔ AllReportable m lower ds := by
  simp only [pollTurn] at h
  split_ifs at h with hwaits
  obtain ⟨hret, rfl, rfl⟩ := Polled.returns.inj h
  have hentries := pollSockets_truthful (Consumed.refl m) hret
  simp only [List.nil_append] at hentries
  rw [AllReportable, ← hentries]
  exact ⟨fun ht => ht.entries, fun he => ⟨he, pollSockets_counted hret⟩⟩

/-- A call that succeeds, at once or behind a wait, reports the truth about the module it finds
exactly when all its entries let it. -/
theorem reports_iff (h : (poll m lower.handleIsReady ds).2 = .returns .success ds' pollCount ∨
    ∃ q ret, (pollWake m q lower.handleIsReady ds ret).2 = .returns .success ds' pollCount) :
    Truthful m lower ds' pollCount ↔ AllReportable m lower ds := by
  rcases h with h | ⟨q, ret, h⟩
  · unfold poll at h
    split_ifs at h
    · cases h
    · cases hq : m.freePoll with
      | none =>
        rw [hq] at h
        cases h
      | some q =>
        rw [hq] at h
        exact pollTurn_truthful h
  · unfold pollWake at h
    split_ifs at h with hret
    · exact pollTurn_truthful h
    · exact absurd (Polled.returns.inj h).1 hret

end Calls

/-- A UDP socket that was allocated, and the same once its first event, that it can send, was
polled. -/
def allocatedOnce : Module 1 1 := (allocate Module.init .udp .success).1
def polledOnce : Module 1 1 := (poll allocatedOnce (fun _ => .success) [⟨0#32, pollOut, 0#16⟩]).1

theorem reports_iff_allocated :
    Truthful allocatedOnce ⟨fun _ => false, fun _ => false⟩ [⟨0#32, pollOut, pollOut⟩] 1 := by
  have hpoll : (poll allocatedOnce (Lower.handleIsReady ⟨fun _ => false, fun _ => false⟩)
    [⟨0#32, pollOut, 0#16⟩]).2 =
      .returns .success [⟨0#32, pollOut, pollOut⟩] 1 := rfl
  refine (reports_iff (.inl hpoll)).mpr (forall_places_cons.mpr ⟨fun i _ => ?_, ?_⟩)
  · obtain rfl : i = ⟨0, Nat.zero_lt_one⟩ := Subsingleton.elim _ _
    exact ⟨fun h => absurd (by decide) h, fun _ => rfl⟩
  · exact fun pre d post he =>
      absurd he.symm (List.append_ne_nil_of_right_ne_nil _ (List.cons_ne_nil d post))

/-- The handle is busy, and for that it is reported that it can send. -/
theorem busy_reported_ready :
    (poll polledOnce (Lower.handleIsReady ⟨fun _ => true, fun _ => false⟩)
      [⟨0#32, pollOut, 0#16⟩]).2 =
      .returns .success [⟨0#32, pollOut, pollOut⟩] 1 ∧
    ¬Truthful polledOnce ⟨fun _ => true, fun _ => false⟩ [⟨0#32, pollOut, pollOut⟩] 1 := by
  refine ⟨rfl, fun h => ?_⟩
  obtain ⟨i, -, htruthful⟩ := h.entries _ List.mem_cons_self
  obtain rfl : i = ⟨0, Nat.zero_lt_one⟩ := Subsingleton.elim _ _
  have hidle : true = false := htruthful.output (by decide)
  cases hidle

end NanoIp.Sockets
