import NanoIp.Dhcp.Offer

/-!
# A leased address

From its acknowledgement on a lease is followed beside the client. The address is kept for the
lease as long as each renewal is answered within its timeout, or the timeout lasts until the
rebinding time and runs out with the lease. A renewal that is not answered in time is not tried
again: a discover message goes out, nothing is listened to, and the address is cleared one
timeout later.
-/
namespace NanoIp.Dhcp

def State.address (s : State) : Option Ipv4Address :=
  ((s.calls.filter fun call => call.ret = .success).getLast?).map SetIpv4Address.address

/-- A lease: since when it counts, its address, its length and its rebinding time in ms, and the
transaction of the request it was asked for with. -/
structure Held where
  since : Nat
  address : Ipv4Address
  length : Nat
  rebinding : Nat
  transactionId : BitVec 32
  deriving DecidableEq

/-- The lease that is acknowledged to a client in `DCS_REQUESTING`. -/
def Client.granted (c : Client) (now : Nat) : Held :=
  ⟨now, c.leaseAddress, c.leaseTime.toNat * 1000,
    if c.leaseTime1 = 0#32 ∨ c.leaseTime2 = 0#32 then c.leaseTime.toNat * (t2Percentage.toNat * 10)
    else c.leaseTime2.toNat * 1000,
    c.transactionId⟩

/-- A lease begins with its acknowledgement, counts from the latest one, and ends when the
address is given up. -/
def follow (held : Option Held) (s : State) (_ : Input) (s' : State) : Option Held :=
  match s.client.state, s'.client.state with
  | .requesting, .bound => some (s.client.granted s'.clock)
  | .renewing, .bound | .rebinding, .bound => held.map fun h => { h with since := s'.clock }
  | .bound, .renewing => held.map fun h => { h with transactionId := s'.client.transactionId }
  | .rebinding, .selecting => none
  | _, _ => held

/-- The message acknowledges the lease: it answers the request for it, or what was sent last. -/
def acknowledges (fuel : Nat) (c : Client) (h : Held) (p : Packet) : Bool :=
  (decodeMessage p).any fun (msg, q) =>
    msg.chaddr.take 6 = c.macAddress.toList && msg.op = bootReply &&
      (msg.transactionId = h.transactionId || msg.transactionId = c.transactionId) &&
      optionLoop ackOption fuel ⟨0#8, false⟩ q = some ⟨ackMsgType, true⟩

/-- What is asked of a step. -/
structure Kept (fuel : Nat) (x : State × Option Held) (i : Input) (s' : State) : Prop where
  held : x.1.client.state = .bound ∨ x.1.client.state = .renewing ∨ x.1.client.state = .rebinding →
    ∃ h, x.2 = some h ∧ x.1.address = some h.address
  cleared : ∀ call ∈ s'.calls.drop x.1.calls.length, call.address = 0#32 →
    ∃ h, x.2 = some h ∧ h.since + h.length ≤ i.now
  retried : ∀ layers setRet now, i = .timerCallback layers setRet now →
    x.1.client.state = .renewing →
    ∀ h ∈ x.2, now < h.since + h.rebinding → s'.client.state = .renewing ∧ (layers.accepts = true →
      ∃ transactionId serverAddress, s'.sent =
        x.1.sent ++ [.request transactionId serverAddress h.address true])
  renewed : ∀ p layers setRet now, i = .udpEvent p layers setRet now →
    x.1.client.state = .renewing ∨ x.1.client.state = .rebinding →
    ∀ h ∈ x.2, acknowledges fuel x.1.client h p = true → s'.client.state = .bound ∧
      s'.address = some h.address

/-- A renewal stays without an answer at most once: its timeout does not run out before the
rebinding time, and the next one not before the lease. And no answer comes in between. -/
def Timely (fuel : Nat) (x : State × Option Held) : Input → Prop
  | .timerCallback _ _ now => x.1.client.state = .renewing →
      ∀ h ∈ x.2, h.since + h.rebinding ≤ now ∧
      ∀ due ∈ timerStart x.1.client.timeout now, h.since + h.length ≤ due
  | .udpEvent p _ _ _ => x.1.client.state = .rebinding →
      ∀ h ∈ x.2, acknowledges fuel x.1.client h p = false

instance (fuel : Nat) (x : State × Option Held) : ∀ i, Decidable (Timely fuel x i)
  | .timerCallback _ _ now => inferInstanceAs (Decidable (x.1.client.state = .renewing → ∀ h ∈ x.2,
      h.since + h.rebinding ≤ now ∧ ∀ due ∈ timerStart x.1.client.timeout now,
        h.since + h.length ≤ due))
  | .udpEvent p _ _ _ => inferInstanceAs (Decidable (x.1.client.state = .rebinding → ∀ h ∈ x.2,
      acknowledges fuel x.1.client h p = false))

section Steps

variable {fuel : Nat} {s s' : State} {i : Input} {x : State × Option Held}

/-- What a step is for the lease. -/
inductive Effect (s : State) (i : Input) : State → Prop
  | nothing : Effect s i { s with clock := i.now }
  | selects {s' : State} (hs : s.client.state = .selecting ∨ s.client.state = .requesting)
      (hs' : s'.client.state = .selecting) (hcalls : s'.calls = s.calls) : Effect s i s'
  | requests {s' : State} (hs : s.client.state = .selecting) (hs' : s'.client.state = .requesting)
      (hcalls : s'.calls = s.calls) (haddress : s'.client.leaseAddress ≠ 0#32) : Effect s i s'
  | refused {call : SetIpv4Address} (hs : s.client.state = .requesting)
      (haddress : call.address = s.client.leaseAddress) (hret : call.ret ≠ .success) :
      Effect s i { s with clock := i.now, calls := s.calls ++ [call] }
  | applied {s' : State} {call : SetIpv4Address} (hs : s.client.state = .requesting)
      (hs' : s'.client.state = .bound)
      (hcalls : s'.calls = s.calls ++ [call]) (haddress : call.address = s.client.leaseAddress)
      (hret : call.ret = .success) : Effect s i s'
  | renewed (hs : s.client.state = .renewing) : Effect s i (State.bound { s with clock := i.now })
  | renews {s' : State} (hs : s.client.state = .bound) (hs' : s'.client.state = .renewing)
      (hcalls : s'.calls = s.calls) (htimeout : s'.client.currentTimeout = s'.client.timeout) :
        Effect s i s'
  | rebinds {s' : State} {layers : Layers} {setRet : Err} {now : Nat}
      (hi : i = .timerCallback layers setRet now)
      (hs : s.client.state = .renewing) (hs' : s'.client.state = .rebinding)
        (hcalls : s'.calls = s.calls)
      (htimer : s'.client.timer = timerStart s.client.currentTimeout now) : Effect s i s'
  | clears {s' : State} {call : SetIpv4Address} {due : Nat} (hs : s.client.state = .rebinding)
      (hs' : s'.client.state = .selecting) (hcalls : s'.calls = s.calls ++ [call])
      (hdue : s.client.timer = some due) (hnow : due ≤ i.now) : Effect s i s'

theorem timerCallback_effect {layers : Layers} {setRet : Err} {now : Nat}
    (hs : step fuel s (.timerCallback layers setRet now) = some s') :
    Effect s (.timerCallback layers setRet now) s' := by
  obtain ⟨-, ⟨due, hdue, hnow⟩, rfl⟩ := step_timerCallback hs
  cases hstate : s.client.state with
  | stopped | init =>
    simp only [timerCallback, hstate]
    exact .nothing
  | selecting =>
    simp only [timerCallback, hstate]
    exact .selects (.inl hstate) rfl rfl
  | requesting =>
    simp only [timerCallback, hstate]
    exact .selects (.inr hstate) rfl rfl
  | bound =>
    simp only [timerCallback, hstate]
    exact .renews hstate rfl rfl rfl
  | renewing =>
    simp only [timerCallback, hstate]
    exact .rebinds rfl hstate rfl rfl rfl
  | rebinding =>
    simp only [timerCallback, hstate]
    exact .clears hstate rfl rfl hdue hnow

theorem acknowledged_effect {setRet : Err}
    (hstate : s.client.state = .requesting ∨ s.client.state = .renewing) :
    Effect s i (acknowledged { s with clock := i.now } setRet) := by
  rcases hstate with hstate | hstate
  · rw [acknowledged, if_pos hstate]
    dsimp only
    by_cases hret : setRet = .success
    · rw [if_pos hret]
      exact .applied hstate rfl rfl rfl hret
    · rw [if_neg hret]
      exact .refused hstate rfl hret
  · rw [acknowledged, if_neg (by rw [hstate]; decide)]
    exact .renewed hstate

theorem udpEvent_effect {p : Packet} {layers : Layers} {setRet : Err} {now : Nat}
    (hs : step fuel s (.udpEvent p layers setRet now) = some s') :
    Effect s (.udpEvent p layers setRet now) s' := by
  obtain ⟨-, hs⟩ := step_udpEvent hs
  rcases udpEvent_cases hs with rfl | ⟨msg, q, -, -, hs⟩
  · exact .nothing
  · rw [processMessage] at hs
    cases hstate : s.client.state with
    | stopped | init | bound | rebinding =>
      simp only [hstate] at hs
      obtain rfl := Option.some.inj hs
      exact .nothing
    | selecting =>
      simp only [hstate] at hs
      obtain ⟨x, -, rfl | rfl | ⟨⟨-, hne⟩, rfl⟩⟩ := processOfferMessage_cases hs
      · exact .selects (.inl hstate) hstate rfl
      · exact .selects (.inl hstate) hstate rfl
      · exact .requests hstate rfl rfl hne
    | requesting =>
      simp only [hstate] at hs
      rcases processAckMessage_cases hs with rfl | ⟨-, rfl⟩
      · exact .nothing
      · exact acknowledged_effect (.inl hstate)
    | renewing =>
      simp only [hstate] at hs
      rcases processAckMessage_cases hs with rfl | ⟨-, rfl⟩
      · exact .nothing
      · exact acknowledged_effect (.inr hstate)

theorem step_effect (hs : step fuel s i = some s') : Effect s i s' := by
  cases i with
  | udpEvent p layers setRet now => exact udpEvent_effect hs
  | timerCallback layers setRet now => exact timerCallback_effect hs

/-- What is true of the client and its lease in a run whose steps are timely. -/
structure Tracked (x : State × Option Held) : Prop where
  asked : x.1.client.state = .requesting → x.1.client.leaseAddress ≠ 0#32
  held : x.1.client.state = .bound ∨ x.1.client.state = .renewing ∨ x.1.client.state = .rebinding →
    ∃ h, x.2 = some h ∧ x.1.address = some h.address
  timeout : x.1.client.state = .renewing → x.1.client.currentTimeout = x.1.client.timeout
  transaction : x.1.client.state = .renewing → ∀ h ∈ x.2, h.transactionId = x.1.client.transactionId
  rebinding : x.1.client.state = .rebinding →
    ∀ h ∈ x.2, ∀ due ∈ x.1.client.timer, h.since + h.length ≤ due

theorem start_tracked (macAddress : MacAddress) (timeout : BitVec 32) (layers : Layers)
    (now : Nat) :
    Tracked (start macAddress timeout layers now, none) where
  asked := nofun
  held := by rintro (h | h | h) <;> cases h
  timeout := nofun
  transaction := nofun
  rebinding := nofun

theorem address_of_calls (h : s'.calls = s.calls) : s'.address = s.address := by
  rw [State.address, State.address, h]

theorem address_of_success {call : SetIpv4Address} (h : s'.calls = s.calls ++ [call])
    (hret : call.ret = .success) :
    s'.address = some call.address := by
  rw [State.address, h, List.filter_append, List.filter_cons_of_pos (by simp [hret]),
    List.filter_nil,
    List.getLast?_concat, Option.map_some]

theorem Tracked.step (h : Tracked x) (hok : Timely fuel x i) (he : Effect x.1 i s') :
    Tracked (s', follow x.2 x.1 i s') := by
  obtain ⟨s, held⟩ := x
  dsimp only at he ⊢
  cases he with
  | nothing =>
    have hsame : follow held s i { s with clock := i.now } = held := by
      cases hstate : s.client.state <;> simp only [follow, hstate]
    rw [hsame]
    exact ⟨h.asked, h.held, h.timeout, h.transaction, h.rebinding⟩
  | selects hs hs' hcalls =>
    constructor
    all_goals simp [hs']
  | requests hs hs' hcalls haddress =>
    refine ⟨fun _ => haddress, ?_, ?_, ?_, ?_⟩
    all_goals simp [hs']
  | refused hs haddress hret =>
    refine ⟨h.asked, ?_, ?_, ?_, ?_⟩
    all_goals simp [hs]
  | applied hs hs' hcalls haddress hret =>
    refine ⟨?_, fun _ => ⟨s.client.granted s'.clock, ?_, ?_⟩, ?_, ?_, ?_⟩
    case refine_2 => simp only [follow, hs, hs']
    case refine_3 =>
      rw [address_of_success hcalls hret, haddress]
      rfl
    all_goals simp [hs']
  | renewed hs =>
    obtain ⟨l, hl, haddress⟩ := h.held (.inr (.inl hs))
    refine ⟨nofun, fun _ => ⟨{ l with since := i.now }, ?_, haddress⟩, nofun, nofun, nofun⟩
    dsimp only at hl
    simp only [follow, hs, hl]
    rfl
  | renews hs hs' hcalls htimeout =>
    obtain ⟨l, hl, haddress⟩ := h.held (.inl hs)
    have hfollow : follow held s i s' = some
        { l with transactionId := s'.client.transactionId } := by
      dsimp only at hl
      simp only [follow, hs, hs', hl]
      rfl
    rw [hfollow]
    refine ⟨?_, fun _ => ⟨_, rfl, (address_of_calls hcalls).trans haddress⟩, fun _ =>
      htimeout, ?_, ?_⟩
    · simp [hs']
    · intro _ l' hl'
      obtain rfl := Option.some.inj hl'
      rfl
    · simp [hs']
  | rebinds hi hs hs' hcalls htimer =>
    have hsame : follow held s i s' = held := by simp only [follow, hs, hs']
    rw [hsame]
    subst hi
    refine ⟨?_, fun _ => ?_, ?_, ?_, ?_⟩
    · simp [hs']
    · obtain ⟨l, hl, haddress⟩ := h.held (.inr (.inl hs))
      exact ⟨l, hl, (address_of_calls hcalls).trans haddress⟩
    · simp [hs']
    · simp [hs']
    · intro _ l hl due hdue
      dsimp only at hl hdue
      rw [htimer, h.timeout hs] at hdue
      exact (hok hs l hl).2 due hdue
  | clears hs hs' hcalls hdue hnow =>
    constructor
    all_goals simp [hs']

theorem renewing_acknowledged {h : Held} {p : Packet} {layers : Layers} {setRet : Err} {now : Nat}
    (hs : step fuel s (.udpEvent p layers setRet now) = some s')
    (hstate : s.client.state = .renewing) (htransaction : h.transactionId = s.client.transactionId)
    (hack : acknowledges fuel s.client h p = true) :
    s' = State.bound { s with clock := now } := by
  obtain ⟨-, hs⟩ := step_udpEvent hs
  obtain ⟨⟨msg, q⟩, hdecode, hmsg⟩ := (Option.any_eq_true _ _).mp hack
  simp only [htransaction, Bool.or_self, Bool.and_eq_true, decide_eq_true_eq] at hmsg
  obtain ⟨⟨⟨hchaddr, hop⟩, hid⟩, hloop⟩ := hmsg
  have hmeant : s.client.meant msg = true := by simp [Client.meant, hchaddr, hop, hid]
  rw [udpEvent, hdecode] at hs
  dsimp only at hs
  rw [if_pos hmeant, processMessage] at hs
  simp only [hstate, processAckMessage, hloop, Option.map_some, if_true] at hs
  rw [acknowledged, if_neg (by rw [hstate]; decide)] at hs
  exact (Option.some.inj hs).symm

/-- A timely step clears no address before its lease has run out. -/
theorem Tracked.cleared (h : Tracked x) (he : Effect x.1 i s') :
    ∀ call ∈ s'.calls.drop x.1.calls.length, call.address = 0#32 →
      ∃ l, x.2 = some l ∧ l.since + l.length ≤ i.now := by
  intro call' hcall hzero
  have hnone : s'.calls = x.1.calls → False := by
    intro hcalls
    rw [hcalls, List.drop_length] at hcall
    cases hcall
  have hone : ∀ call, s'.calls = x.1.calls ++ [call] → call' = call := by
    intro call hcalls
    rw [hcalls, List.drop_left] at hcall
    exact List.mem_singleton.mp hcall
  cases he with
  | nothing => exact (hnone rfl).elim
  | selects _ _ hcalls | requests _ _ hcalls _ | renews _ _ hcalls _ | rebinds _ _ _ hcalls _ =>
    exact (hnone hcalls).elim
  | renewed _ => exact (hnone rfl).elim
  | refused hs haddress _ =>
    obtain rfl := hone _ rfl
    exact (h.asked hs (haddress.symm.trans hzero)).elim
  | applied hs _ hcalls haddress _ =>
    obtain rfl := hone _ hcalls
    exact (h.asked hs (haddress.symm.trans hzero)).elim
  | clears hs _ _ hdue hnow =>
    obtain ⟨l, hl, -⟩ := h.held (.inr (.inr hs))
    exact ⟨l, hl, (h.rebinding hs l hl _ hdue).trans hnow⟩

theorem Tracked.kept (h : Tracked x) (hok : Timely fuel x i) (hs : Dhcp.step fuel x.1 i = some s') :
    Kept fuel x i s' := by
  refine ⟨h.held, h.cleared (step_effect hs), ?_, ?_⟩
  · rintro layers setRet now rfl hstate l hl hlt
    have hle := (hok hstate l hl).1
    omega
  · rintro p layers setRet now rfl hstate l hl hack
    rcases hstate with hstate | hstate
    · obtain rfl := renewing_acknowledged hs hstate (h.transaction hstate l hl) hack
      obtain ⟨l', hl', haddress⟩ := h.held (.inr (.inl hstate))
      obtain rfl := Option.some.inj (hl.symm.trans hl')
      exact ⟨rfl, haddress⟩
    · rw [hok hstate l hl] at hack
      cases hack

theorem tracked_of_reach {macAddress : MacAddress} {timeout : BitVec 32} {layers : Layers}
    {now : Nat}
    (hr : Lib.Reach (Lib.observe (step fuel) follow) (Timely fuel)
      (start macAddress timeout layers now, none) x) :
    Tracked x := by
  refine hr.invariant (start_tracked macAddress timeout layers now) ?_
  intro x i y h hok hs
  obtain ⟨hstep, hfollow⟩ := Lib.observe_some.mp hs
  have htracked := h.step hok (step_effect hstep)
  rwa [← hfollow] at htracked

/-- In every run of a client whose steps are timely, each step keeps the lease. -/
theorem lease_kept (macAddress : MacAddress) (timeout : BitVec 32) (layers : Layers) (now : Nat)
    (hr : Lib.Reach (Lib.observe (step fuel) follow) (Timely fuel)
      (start macAddress timeout layers now, none) x) (hok : Timely fuel x i)
    (hs : step fuel x.1 i = some s') : Kept fuel x i s' :=
  (tracked_of_reach hr).kept hok hs

theorem renewing_expired {layers : Layers} {setRet : Err} {now : Nat}
    (hs : step fuel s (.timerCallback layers setRet now) = some s')
    (hstate : s.client.state = .renewing) :
    s' = sendDiscover { s with clock := now, client := { s.client with state := .rebinding } }
      layers := by
  obtain ⟨-, -, rfl⟩ := step_timerCallback hs
  simp only [timerCallback, hstate]

theorem rebinding_udpEvent {p : Packet} {layers : Layers} {setRet : Err} {now : Nat}
    (hs : step fuel s (.udpEvent p layers setRet now) = some s')
    (hstate : s.client.state = .rebinding) :
    s' = { s with clock := now } := by
  obtain ⟨-, hs⟩ := step_udpEvent hs
  rcases udpEvent_cases hs with rfl | ⟨msg, q, -, -, hs⟩
  · rfl
  · rw [processMessage] at hs
    simp only [hstate] at hs
    exact (Option.some.inj hs).symm

theorem timerStart_due {period : BitVec 32} {now due : Nat} (h : timerStart period now = some due) :
    now ≤ due := by
  rw [timerStart] at h
  split_ifs at h
  obtain rfl := Option.some.inj h
  exact Nat.le_add_right _ _

theorem rebinding_expired {due : Nat} (hstate : s.client.state = .rebinding)
    (htimer : s.client.timer = some due) (hclock : s.clock ≤ due) (layers : Layers) (setRet : Err) :
    ∃ s', step fuel s (.timerCallback layers setRet due) = some s' ∧
      s'.calls = s.calls ++ [⟨0#32, 0#32, s.client.gateway, setRet⟩] := by
  refine ⟨_, (if_pos hclock).trans (if_pos ⟨due, htimer, Nat.le_refl due⟩), ?_⟩
  simp only [timerCallback, hstate]
  rfl

/-- A step that is not timely loses the lease, at once or when the timer it starts runs out. -/
theorem lease_lost (h : Tracked x) (hnot : ¬Timely fuel x i) (hs : step fuel x.1 i = some s') :
    ¬Kept fuel x i s' ∨
      ∃ j s'', step fuel s' j = some s'' ∧ ¬Kept fuel (s', follow x.2 x.1 i s') j s'' := by
  cases i with
  | udpEvent p layers setRet now =>
    simp only [Timely, not_forall, Bool.not_eq_false] at hnot
    obtain ⟨hstate, l, hl, hack⟩ := hnot
    left
    intro hkept
    have hbound := (hkept.renewed p layers setRet now rfl (.inr hstate) l hl hack).1
    rw [rebinding_udpEvent hs hstate] at hbound
    cases hstate.symm.trans hbound
  | timerCallback layers setRet now =>
    simp only [Timely, not_forall] at hnot
    obtain ⟨hstate, l, hl, hlate⟩ := hnot
    have hs' := renewing_expired hs hstate
    have hrebinds : s'.client.state = .rebinding := by rw [hs']; rfl
    by_cases hrebinding : l.since + l.rebinding ≤ now
    · right
      simp only [hrebinding, true_and, not_forall, Nat.not_le] at hlate
      obtain ⟨due, hdue, hlt⟩ := hlate
      have htimer : s'.client.timer = some due := by
        rw [hs', ← hdue, ← h.timeout hstate]
        rfl
      have hclock : s'.clock ≤ due := by
        rw [hs']
        exact timerStart_due hdue
      obtain ⟨s'', hs'', hcalls⟩ := rebinding_expired hrebinds htimer hclock layers .success
      refine ⟨.timerCallback layers .success due, s'', hs'', fun hkept => ?_⟩
      obtain ⟨l', hl', hle⟩ := hkept.cleared ⟨0#32, 0#32, s'.client.gateway, .success⟩
        (by rw [hcalls, List.drop_left]; exact List.mem_singleton_self _) rfl
      simp only [follow, hstate, hrebinds] at hl'
      obtain rfl := Option.some.inj (hl.symm.trans hl')
      exact absurd hle (Nat.not_le.mpr hlt)
    · left
      intro hkept
      have hrenewing := (hkept.retried layers setRet now rfl hstate l hl
        (Nat.not_le.mp hrebinding)).1
      cases hrebinds.symm.trans hrenewing

end Steps

def offered : Input := .udpEvent completeOffer working .success 7
def expiry (now : Nat) : Input := .timerCallback working .success now

/-- The answer to the first renewal. -/
def renewalAck : Input :=
  .udpEvent (reply (transactionIdAt 600008#32) sampleMac 0x0A000014#32
    [0x35#8, 1#8, 5#8, 0xFF#8, 0#8]) working .success
    600100

/-- With a timeout of 50 minutes: a renewal that is answered, and one that is not. The address is
cleared 110 minutes after the acknowledgement, of a lease of one hour. -/
theorem lease_kept_renewed :
    ∃ x s', Lib.Reach (Lib.observe (step 8) follow) (Timely 8)
      (start sampleMac 3000000#32 working 5, none) x ∧
      x.2.map Held.since = some 600100 ∧ step 8 x.1 (expiry 7200100) = some s' ∧
        s'.address = some 0#32 ∧
      Kept 8 x (expiry 7200100) s' := by
  obtain ⟨x, hreach, hx⟩ := Lib.exists_of_runInputs (Lib.observe (step 8) follow) (Timely 8)
    (start sampleMac 3000000#32 working 5, none)
    [offered, sampleAck, expiry 600008, renewalAck, expiry 1200100, expiry 4200100]
    (fun x => x.1.client.state = .rebinding && x.2.map Held.since = some 600100 &&
      (step 8 x.1 (expiry 7200100)).any fun s' => s'.address = some 0#32) (by decide +kernel)
  simp only [Bool.and_eq_true, decide_eq_true_eq, Option.any_eq_true] at hx
  obtain ⟨⟨hstate, hsince⟩, s', hs, haddress⟩ := hx
  have hok : Timely 8 x (expiry 7200100) := fun hrenewing => by cases hstate.symm.trans hrenewing
  exact ⟨x, s', hreach, hsince, hs, haddress, lease_kept sampleMac 3000000#32 working 5
    hreach hok hs⟩

/-- With a timeout of one second: the renewal is not answered within it, and two seconds after
the renewal began the address is cleared, 50 minutes before the lease ends. -/
theorem unanswered_renewal_cleared : ¬∀ (x : State × Option Held) (i : Input) (s' : State),
    Lib.Reach (Lib.observe (step 8) follow) Lib.anyStep (sampleStart, none) x →
      step 8 x.1 i = some s' →
    Kept 8 x i s' := by
  intro hkept
  obtain ⟨x, hreach, hx⟩ := Lib.exists_of_runInputs (Lib.observe (step 8) follow) Lib.anyStep
    (sampleStart, none)
    [offered, sampleAck, expiry 600008, expiry 601008]
    (fun x => x.2.any (fun h => h.since + h.length = 3600008) &&
      (step 8 x.1 (expiry 602008)).any fun s' =>
      s'.calls.drop x.1.calls.length = [⟨0#32, 0#32, 0#32, .success⟩]) (by decide +kernel)
  simp only [Bool.and_eq_true, decide_eq_true_eq, Option.any_eq_true] at hx
  obtain ⟨⟨h, hheld, hend⟩, s', hs, hcalls⟩ := hx
  obtain ⟨h', hheld', hle⟩ :=
    (hkept x (expiry 602008) s' hreach hs).cleared ⟨0#32, 0#32, 0#32, .success⟩
    (by rw [hcalls]; exact List.mem_singleton_self _) rfl
  obtain rfl := Option.some.inj (hheld.symm.trans hheld')
  rw [hend] at hle
  cases hle.not_gt (by decide)

end NanoIp.Dhcp
