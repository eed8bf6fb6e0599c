import NanoIp.Dhcp.Client

/-!
# Leases and the offers they come from

An offer is parsed into the client itself. Its address, netmask and gateway are reset before,
the identifier of the server and the times are not: what the offer does not carry is taken from
an earlier lease or from an offer that was turned down.
-/
namespace NanoIp.Dhcp

section Loop

variable {α β : Type}

theorem optionLoop_map {handle : α → MsgOption → Option α} {handle' : β → MsgOption → Option β}
    (f : α → β) (h : ∀ a o, handle' (f a) o = (handle a o).map f) (fuel : Nat) :
    ∀ (a : α) (p : Packet), optionLoop handle' fuel (f a) p =
      (optionLoop handle fuel a p).map f := by
  induction fuel with
  | zero => exact fun _ _ => rfl
  | succ fuel ih =>
    intro a p
    rw [optionLoop, optionLoop]
    cases parseMessageOption p with
    | none => rfl
    | some x =>
      dsimp only
      rw [h]
      cases handle a x.1 with
      | none => rfl
      | some a' => exact ih a' x.2

theorem ite_map {c : Prop} [Decidable c] {f : α → β} {a b : Option α} {a' b' : Option β}
    (ha : a' = a.map f) (hb : b' = b.map f) :
    (if c then a' else b') = (if c then a else b).map f := by
  rw [ha, hb]
  exact (apply_ite (Option.map f) c a b).symm

theorem store_map (o : MsgOption) (size : Byte) (read : Packet → BitVec w) (f : α → β) {a : α}
    {set : BitVec w → α} {set' : BitVec w → β} (h : ∀ v, set' v = f (set v)) :
    o.store size read (f a) set' = (o.store size read a set).map f := by
  rw [MsgOption.store, MsgOption.store]
  by_cases hs : o.size = size
  · rw [if_pos hs, if_pos hs, Option.map_map]
    exact congrArg (Option.map · o.data) (funext fun q => h (read q))
  · rw [if_neg hs, if_neg hs]
    rfl

end Loop

/-- What the options of an offer say; of an option that comes twice, the last. -/
structure Options where
  msgType : Byte
  ended : Bool
  serverId : Option Ipv4Address
  netmask : Option Ipv4Address
  gateway : Option Ipv4Address
  leaseTime : Option (BitVec 32)
  renewalTime : Option (BitVec 32)
  rebindingTime : Option (BitVec 32)
  deriving DecidableEq

def Options.read (x : Options) (o : MsgOption) : Option Options :=
  if o.option = requestTypeOption then
    o.store requestTypeOptionSize (Packet.byteAt · 0) x fun v => { x with msgType := v }
  else if o.option = serverIdOption then
    o.store serverIdOptionSize (Packet.longAt · 0) x fun v => { x with serverId := some v }
  else if o.option = subnetMaskOption then
    o.store subnetMaskOptionSize (Packet.longAt · 0) x fun v => { x with netmask := some v }
  else if o.option = routerOption then
    o.store routerOptionSize (Packet.longAt · 0) x fun v => { x with gateway := some v }
  else if o.option = leaseTimeOption then
    o.store leaseTimeOptionSize (Packet.longAt · 0) x fun v => { x with leaseTime := some v }
  else if o.option = renewalTimeOption then
    o.store renewalTimeOptionSize (Packet.longAt · 0) x fun v => { x with renewalTime := some v }
  else if o.option = rebindingTimeOption then
    o.store rebindingTimeOptionSize (Packet.longAt · 0) x fun v =>
      { x with rebindingTime := some v }
  else if o.option = endFlagOption then some { x with ended := true }
  else some x

def noOptions : Options := ⟨0#8, false, none, none, none, none, none, none⟩

def optionsAt (fuel : Nat) (p : Packet) : Option Options := optionLoop Options.read fuel noOptions p

def optionsOf (fuel : Nat) (p : Packet) : Option Options :=
  (decodeMessage p).bind fun x => optionsAt fuel x.2

/-- The client with what options say; what they do not say stays. -/
def Client.taking (c : Client) (x : Options) : Client :=
  { c with
    serverAddress := x.serverId.getD c.serverAddress
    netmask := x.netmask.getD c.netmask
    gateway := x.gateway.getD c.gateway
    leaseTime := x.leaseTime.getD c.leaseTime
    leaseTime1 := x.renewalTime.getD c.leaseTime1
    leaseTime2 := x.rebindingTime.getD c.leaseTime2 }

theorem offerOption_taking (c : Client) (x : Options) (o : MsgOption) :
    offerOption ⟨c.taking x, x.msgType, x.ended⟩ o =
      (x.read o).map fun x => ⟨c.taking x, x.msgType, x.ended⟩ := by
  let f (x : Options) : Offer := ⟨c.taking x, x.msgType, x.ended⟩
  rw [offerOption, Options.read]
  refine ite_map ?_ (ite_map ?_
    (ite_map ?_ (ite_map ?_ (ite_map ?_ (ite_map ?_ (ite_map ?_ (ite_map rfl rfl)))))))
  · exact store_map o _ _ f fun v => rfl
  · exact store_map o _ _ f fun v => rfl
  · exact store_map o _ _ f fun v => rfl
  · exact store_map o _ _ f fun v => rfl
  · exact store_map o _ _ f fun v => rfl
  · exact store_map o _ _ f fun v => rfl
  · exact store_map o _ _ f fun v => rfl

theorem offerLoop (fuel : Nat) (c : Client) (p : Packet) :
    optionLoop offerOption fuel ⟨c, 0#8, false⟩ p =
      (optionsAt fuel p).map fun x => ⟨c.taking x, x.msgType, x.ended⟩ :=
  optionLoop_map (fun x : Options => (⟨c.taking x, x.msgType, x.ended⟩ : Offer))
    (fun x o => offerOption_taking c x o) fuel noOptions p

/-- The offer says all that its lease depends on: the server, and the times that are used. -/
def Options.Complete (x : Options) : Prop :=
  x.serverId.isSome ∧ ((∃ t₁ t₂, x.renewalTime = some t₁ ∧ x.rebindingTime = some t₂ ∧ t₁ ≠ 0#32 ∧
    t₂ ≠ 0#32) ∨
    x.leaseTime.isSome ∧ (x.renewalTime = some 0#32 ∨ x.rebindingTime = some 0#32))

/-- What becomes of an accepted offer: what its request asks for, what is given to the interface
and the times until the renewal and the rebinding. -/
structure Lease where
  serverId : Ipv4Address
  requestedAddress : Ipv4Address
  address : Ipv4Address
  netmask : Ipv4Address
  gateway : Ipv4Address
  renewal : BitVec 32
  rebinding : BitVec 32
  deriving DecidableEq

/-- The lease of an offer to a client. -/
def leaseOf (c : Client) (yiaddr : Ipv4Address) (x : Options) : Lease :=
  let c := (c.offered yiaddr).taking x
  ⟨c.serverAddress, c.leaseAddress, c.leaseAddress, c.netmask, c.gateway, c.renewalTimes.leaseTime1,
    c.renewalTimes.leaseTime2⟩

theorem leaseOf_renewal (c : Client) (yiaddr : Ipv4Address) (x : Options) :
    (leaseOf c yiaddr x).renewal =
    if x.renewalTime.getD c.leaseTime1 = 0#32 ∨ x.rebindingTime.getD c.leaseTime2 = 0#32 then
      x.leaseTime.getD c.leaseTime * t1Percentage * 10#32
    else x.renewalTime.getD c.leaseTime1 * 1000#32 :=
  apply_ite Client.leaseTime1 _ _ _

theorem leaseOf_rebinding (c : Client) (yiaddr : Ipv4Address) (x : Options) :
    (leaseOf c yiaddr x).rebinding =
    if x.renewalTime.getD c.leaseTime1 = 0#32 ∨ x.rebindingTime.getD c.leaseTime2 = 0#32 then
      x.leaseTime.getD c.leaseTime * t2Percentage * 10#32
    else x.rebindingTime.getD c.leaseTime2 * 1000#32 :=
  apply_ite Client.leaseTime2 _ _ _

/-- A complete offer gives every client the same lease. -/
theorem leaseOf_complete {x : Options} (h : x.Complete) (c c' : Client) (yiaddr : Ipv4Address) :
    leaseOf c yiaddr x = leaseOf c' yiaddr x := by
  obtain ⟨hserver, htimes⟩ := h
  obtain ⟨server, hserver⟩ := Option.isSome_iff_exists.mp hserver
  have htake : ∀ c : Client, leaseOf c yiaddr x =
      ⟨server, yiaddr, yiaddr, x.netmask.getD 0#32, x.gateway.getD 0#32,
        (leaseOf c yiaddr x).renewal,
        (leaseOf c yiaddr x).rebinding⟩ := by
    intro c
    simp only [leaseOf, Client.taking, hserver, Option.getD_some, Client.offered]
  rw [htake c, htake c', leaseOf_renewal, leaseOf_renewal, leaseOf_rebinding, leaseOf_rebinding]
  rcases htimes with ⟨t₁, t₂, h₁, h₂, hne₁, hne₂⟩ | ⟨hlease, hzero⟩
  · have hne : ¬(t₁ = 0#32 ∨ t₂ = 0#32) := not_or.mpr ⟨hne₁, hne₂⟩
    simp only [h₁, h₂, Option.getD_some, if_neg hne]
  · obtain ⟨t, hlease⟩ := Option.isSome_iff_exists.mp hlease
    rcases hzero with hzero | hzero
    · simp only [hlease, hzero, Option.getD_some, true_or, if_true]
    · simp only [hlease, hzero, Option.getD_some, or_true, if_true]

/-- Of any other offer two clients can get different leases. -/
theorem complete_of_leaseOf {x : Options} {yiaddr : Ipv4Address}
    (h : ∀ c c' : Client, leaseOf c yiaddr x = leaseOf c' yiaddr x) : x.Complete := by
  -- clients that differ in one field the offer does not reset
  let client (server leaseTime t₁ t₂ : BitVec 32) : Client :=
    { init (Vector.replicate 6 0#8) 1#32 with
      serverAddress := server, leaseTime := leaseTime, leaseTime1 := t₁, leaseTime2 := t₂ }
  refine ⟨?_, ?_⟩
  · have hserver : x.serverId.getD 0#32 = x.serverId.getD 1#32 :=
      congrArg Lease.serverId (h (client 0#32 1#32 1#32 1#32) (client 1#32 1#32 1#32 1#32))
    cases hx : x.serverId with
    | some _ => rfl
    | none => simp [hx] at hserver
  · by_cases hzero : x.renewalTime = some 0#32 ∨ x.rebindingTime = some 0#32
    · have htime := congrArg Lease.renewal
        (h (client 0#32 1#32 1#32 1#32) (client 0#32 2#32 1#32 1#32))
      rw [leaseOf_renewal, leaseOf_renewal] at htime
      refine .inr ⟨?_, hzero⟩
      cases hx : x.leaseTime with
      | some _ => rfl
      | none => rcases hzero with hzero | hzero <;> simp [client, hx, hzero, t1Percentage] at htime
    · have htime₁ := congrArg Lease.renewal
        (h (client 0#32 1#32 1#32 1#32) (client 0#32 1#32 2#32 1#32))
      have htime₂ := congrArg Lease.rebinding
        (h (client 0#32 1#32 1#32 1#32) (client 0#32 1#32 1#32 2#32))
      rw [leaseOf_renewal, leaseOf_renewal] at htime₁
      rw [leaseOf_rebinding, leaseOf_rebinding] at htime₂
      obtain ⟨hne₁, hne₂⟩ := not_or.mp hzero
      refine .inl ?_
      cases hx₁ : x.renewalTime with
      | none =>
        cases hx₂ : x.rebindingTime with
        | none => simp [client, hx₁, hx₂] at htime₁
        | some t₂ =>
          have hne₂ : t₂ ≠ 0#32 := fun h => hne₂ (h ▸ hx₂)
          simp [client, hx₁, hx₂, hne₂] at htime₁
      | some t₁ =>
        have hne₁ : t₁ ≠ 0#32 := fun h => hne₁ (h ▸ hx₁)
        cases hx₂ : x.rebindingTime with
        | none => simp [client, hx₁, hx₂, hne₁] at htime₂
        | some t₂ => exact ⟨t₁, t₂, rfl, rfl, hne₁, fun h => hne₂ (h ▸ hx₂)⟩

section Steps

variable {fuel : Nat} {s s' : State} {p : Packet} {layers : Layers} {setRet : Err}
  {now : Nat} {i : Input}

theorem renewalTimes_with (c : Client) (state : ClientState) (timer : Option Nat) :
    ({ c with state := state, timer := timer } : Client).renewalTimes =
      { c.renewalTimes with state := state, timer := timer } := by
  rw [Client.renewalTimes, Client.renewalTimes]
  by_cases h : c.leaseTime1 = 0#32 ∨ c.leaseTime2 = 0#32
  · rw [if_pos h, if_pos (by exact h)]
  · rw [if_neg h, if_neg (by exact h)]

/-- An offer leaves the client with what it says, and may be accepted. -/
theorem processOfferMessage_cases {msg : Msg}
    (hs : processOfferMessage fuel s p msg layers = some s') :
    ∃ x, optionsAt fuel p = some x ∧
      (s' = { s with client := (s.client.offered msg.yiaddr).taking x } ∨
        s' = (sendRequest { s with client := (s.client.offered msg.yiaddr).taking x }
          false layers).1 ∨
        (layers.accepts = true ∧ msg.yiaddr ≠ 0#32) ∧ s' =
          let s := (sendRequest { s with client := (s.client.offered msg.yiaddr).taking x }
            false layers).1
          { s with client := { s.client with state := .requesting } }) := by
  rw [processOfferMessage, offerLoop, Option.map_map] at hs
  obtain ⟨x, hx, rfl⟩ := Option.map_eq_some_iff.mp hs
  refine ⟨x, hx, ?_⟩
  dsimp only [Function.comp_apply]
  by_cases hvalid : (⟨(s.client.offered msg.yiaddr).taking x, x.msgType, x.ended⟩ : Offer).valid =
    true
  · rw [if_pos hvalid]
    cases hacc : layers.accepts with
    | true =>
      simp only [Offer.valid, Bool.and_eq_true, decide_eq_true_eq] at hvalid
      exact .inr (.inr ⟨⟨rfl, hvalid.1.1.2⟩, if_pos hacc⟩)
    | false => exact .inr (.inl (if_neg (by rw [Bool.not_eq_true]; exact hacc)))
  · exact .inl (if_neg hvalid)

/-- An offer that is accepted: its request is sent, with the lease it leads to. -/
theorem offer_accepted (hsel : s.client.state = .selecting)
    (hs : step fuel s (.udpEvent p layers setRet now) = some s')
    (hreq : s'.client.state = .requesting) :
    ∃ yiaddr x timer, optionsOf fuel p = some x ∧ (decodeMessage p).map (fun m => m.1.yiaddr) =
      some yiaddr ∧
      s'.client = { (s.client.offered yiaddr).taking x with state := .requesting, timer := timer } ∧
      s'.sent = s.sent ++ [.request s.client.transactionId (leaseOf s.client yiaddr x).serverId
        (leaseOf s.client yiaddr x).requestedAddress false] := by
  obtain ⟨-, hs⟩ := step_udpEvent hs
  rcases udpEvent_cases hs with rfl | ⟨msg, q, hdecode, -, hs⟩
  · cases hsel.symm.trans hreq
  · rw [processMessage] at hs
    simp only [hsel] at hs
    obtain ⟨x, hx, hcases⟩ := processOfferMessage_cases hs
    refine ⟨msg.yiaddr, x, timerStart s.client.currentTimeout now, ?_, ?_, ?_⟩
    · rw [optionsOf, hdecode]
      exact hx
    · rw [hdecode]
      rfl
    · rcases hcases with rfl | rfl | ⟨⟨hacc, -⟩, rfl⟩
      · cases hsel.symm.trans hreq
      · cases hsel.symm.trans hreq
      · refine ⟨rfl, ?_⟩
        dsimp only [sendRequest]
        rw [if_pos hacc]
        rfl

/-- A client that goes on waiting for the acknowledgement keeps all it has. -/
theorem requesting_same (hreq : s.client.state = .requesting) (hs : step fuel s i = some s')
    (hreq' : s'.client.state = .requesting) : s'.client = s.client := by
  cases i with
  | timerCallback layers setRet now =>
    obtain ⟨-, -, rfl⟩ := step_timerCallback hs
    rw [timerCallback] at hreq'
    simp only [hreq] at hreq'
    cases hreq'
  | udpEvent p layers setRet now =>
    obtain ⟨-, hs⟩ := step_udpEvent hs
    rcases udpEvent_cases hs with rfl | ⟨msg, q, -, -, hs⟩
    · rfl
    · rw [processMessage] at hs
      simp only [hreq] at hs
      rcases processAckMessage_cases hs with rfl | ⟨-, rfl⟩
      · rfl
      · rw [acknowledged, if_pos hreq] at hreq' ⊢
        dsimp only at hreq' ⊢
        by_cases hset : setRet = .success
        · rw [if_pos hset] at hreq'
          cases hreq'
        · rw [if_neg hset]

/-- The acknowledgement that the client waits for is applied. -/
theorem ack_applied (hreq : s.client.state = .requesting) (hs : step fuel s i = some s')
    (hbound : s'.client.state = .bound) :
    s'.calls = s.calls ++ [⟨s.client.leaseAddress, s.client.netmask, s.client.gateway, .success⟩] ∧
      s'.client.leaseTime1 = s.client.renewalTimes.leaseTime1 ∧
      s'.client.leaseTime2 = s.client.renewalTimes.leaseTime2 := by
  cases i with
  | timerCallback layers setRet now =>
    obtain ⟨-, -, rfl⟩ := step_timerCallback hs
    rw [timerCallback] at hbound
    simp only [hreq] at hbound
    cases hbound
  | udpEvent p layers setRet now =>
    obtain ⟨-, hs⟩ := step_udpEvent hs
    rcases udpEvent_cases hs with rfl | ⟨msg, q, -, -, hs⟩
    · cases hreq.symm.trans hbound
    · rw [processMessage] at hs
      simp only [hreq] at hs
      rcases processAckMessage_cases hs with rfl | ⟨-, rfl⟩
      · cases hreq.symm.trans hbound
      · rw [acknowledged, if_pos hreq] at hbound ⊢
        dsimp only at hbound ⊢
        by_cases hset : setRet = .success
        · subst hset
          rw [if_pos rfl]
          exact ⟨rfl, rfl, rfl⟩
        · rw [if_neg hset] at hbound
          cases hreq.symm.trans hbound

/-- A step of a client that goes on waiting for the acknowledgement. -/
def waiting (fuel : Nat) (s : State) (i : Input) : Option State :=
  (step fuel s i).bind fun s' => if s'.client.state = .requesting then some s' else none

theorem waiting_some (hs : waiting fuel s i = some s') :
    step fuel s i = some s' ∧ s'.client.state = .requesting := by
  obtain ⟨t, ht, hs⟩ := Option.bind_eq_some_iff.mp hs
  by_cases hreq : t.client.state = .requesting
  · rw [if_pos hreq] at hs
    obtain rfl := Option.some.inj hs
    exact ⟨ht, hreq⟩
  · rw [if_neg hreq] at hs
    cases hs

/-- In a run from `s₀` the offer `p` is accepted, and then acknowledged: with anything before,
and anything between that does not give the request up, this lease comes of it. -/
structure Leased (fuel : Nat) (s₀ : State) (p : Packet) (lease : Lease) : Prop where
  run : ∃ (s₁ s₂ s₃ s₄ : State) (layers : Layers) (setRet : Err) (now : Nat) (ack : Input)
      (transactionId : BitVec 32),
    Lib.Reach (step fuel) Lib.anyStep s₀ s₁ ∧
    s₁.client.state = .selecting ∧ step fuel s₁ (.udpEvent p layers setRet now) = some s₂ ∧
    s₂.client.state = .requesting ∧
    s₂.sent.getLast? = some (.request transactionId lease.serverId lease.requestedAddress false) ∧
    Lib.Reach (waiting fuel) Lib.anyStep s₂ s₃ ∧
    step fuel s₃ ack = some s₄ ∧ s₄.client.state = .bound ∧
    s₄.calls.getLast? = some ⟨lease.address, lease.netmask, lease.gateway, .success⟩ ∧
    s₄.client.leaseTime1 = lease.renewal ∧ s₄.client.leaseTime2 = lease.rebinding

/-- A lease is that of its offer, in a client of this run. -/
theorem Leased.eq_leaseOf {s₀ : State} {lease : Lease} (h : Leased fuel s₀ p lease) :
    ∃ c yiaddr x, optionsOf fuel p = some x ∧ (decodeMessage p).map (fun m => m.1.yiaddr) =
      some yiaddr ∧
      lease = leaseOf c yiaddr x := by
  obtain ⟨s₁, s₂, s₃, s₄, layers, setRet, now, ack, transactionId, -, hsel, hoffer, hreq, hsent,
    hbetween, hack, hbound,
    hcalls, ht₁, ht₂⟩ := h.run
  obtain ⟨yiaddr, x, timer, hx, hy, hclient, hsent'⟩ := offer_accepted hsel hoffer hreq
  have hsame : s₃.client = s₂.client ∧ s₃.client.state = .requesting := by
    refine hbetween.invariant (I := fun s => s.client = s₂.client ∧ s.client.state = .requesting)
      ⟨rfl, hreq⟩ ?_
    intro s i s' hI _ hs
    obtain ⟨hstep, hreq'⟩ := waiting_some hs
    exact ⟨(requesting_same hI.2 hstep hreq').trans hI.1, hreq'⟩
  obtain ⟨hcalls', ht₁', ht₂'⟩ := ack_applied hsame.2 hack hbound
  refine ⟨s₁.client, yiaddr, x, hx, hy, ?_⟩
  rw [hsent', List.getLast?_concat] at hsent
  rw [hcalls', List.getLast?_concat, hsame.1, hclient] at hcalls
  rw [ht₁', hsame.1, hclient, renewalTimes_with] at ht₁
  rw [ht₂', hsame.1, hclient, renewalTimes_with] at ht₂
  simp only [Option.some.injEq, Sent.request.injEq] at hsent
  simp only [Option.some.injEq, SetIpv4Address.mk.injEq] at hcalls
  obtain ⟨-, hserver, hrequested, -⟩ := hsent
  obtain ⟨haddress, hnetmask, hgateway, -⟩ := hcalls
  cases lease
  dsimp only at hserver hrequested haddress hnetmask hgateway ht₁ ht₂
  subst hserver hrequested haddress hnetmask hgateway ht₁ ht₂
  rfl

/-- The lease of an offer that says all its lease depends on is the same in every two runs, of
any two clients and whatever was received before and meanwhile. -/
theorem lease_same {s s' : State} {lease lease' : Lease}
    (hcomplete : ∀ x ∈ optionsOf fuel p, x.Complete) (h : Leased fuel s p lease)
    (h' : Leased fuel s' p lease') : lease = lease' := by
  obtain ⟨c, yiaddr, x, hx, hy, rfl⟩ := h.eq_leaseOf
  obtain ⟨c', yiaddr', x', hx', hy', rfl⟩ := h'.eq_leaseOf
  obtain rfl : x = x' := Option.some.inj (hx.symm.trans hx')
  obtain rfl : yiaddr = yiaddr' := Option.some.inj (hy.symm.trans hy')
  exact leaseOf_complete (hcomplete x hx) c c' yiaddr

end Steps

/-- Whether the client, after these inputs, accepts the offer and gets this lease with the next. -/
def leases (fuel : Nat) (s₀ : State) (before : List Input) (p : Packet) (layers : Layers)
    (now : Nat) (ack : Input) (lease : Lease) : Bool :=
  (Lib.runInputs (step fuel) Lib.anyStep s₀ before).any fun s₁ =>
    s₁.client.state = .selecting && (step fuel s₁ (.udpEvent p layers .success now)).any fun s₂ =>
      s₂.client.state = .requesting &&
      s₂.sent.getLast? = some (.request s₁.client.transactionId lease.serverId
        lease.requestedAddress false) &&
      (step fuel s₂ ack).any fun s₄ =>
        s₄.client.state = .bound && s₄.calls.getLast? =
          some ⟨lease.address, lease.netmask, lease.gateway, .success⟩ &&
        s₄.client.leaseTime1 = lease.renewal && s₄.client.leaseTime2 = lease.rebinding

theorem leased_of_leases {fuel : Nat} {s₀ : State} {before : List Input} {p : Packet}
    {layers : Layers} {now : Nat} {ack : Input} {lease : Lease}
    (h : leases fuel s₀ before p layers now ack lease = true) :
    Leased fuel s₀ p lease := by
  obtain ⟨s₁, hbefore, h⟩ := (Option.any_eq_true _ _).mp h
  simp only [Bool.and_eq_true, decide_eq_true_eq, Option.any_eq_true] at h
  obtain ⟨hsel, s₂, hoffer, ⟨hreq, hsent⟩, s₄, hack, ⟨⟨hbound, hcalls⟩, ht₁⟩, ht₂⟩ := h
  exact ⟨s₁, s₂, s₂, s₄, layers, .success, now, ack, s₁.client.transactionId,
    Lib.reach_of_runInputs hbefore, hsel,
    hoffer, hreq, hsent, .refl, hack, hbound, hcalls, ht₁, ht₂⟩

/-- A reply to a client, as UDP delivers it. -/
def reply (transactionId : BitVec 32) (macAddress : MacAddress) (yiaddr : Ipv4Address)
    (options : List Byte) : Packet :=
  let payload := [bootReply, htypeField, macAddressSize, 0#8] ++ Packet.be32 transactionId ++
    List.replicate 8 0#8 ++
    Packet.be32 yiaddr ++ List.replicate 8 0#8 ++ macAddress.toList ++ List.replicate
      (10 + bootpPaddingSize) 0#8 ++
    Packet.be32 magicCookie ++ options
  ⟨fun i => payload.getD i 0#8, 0, BitVec.ofNat 16 payload.length,
    BitVec.ofNat 16 payload.length, 0#32, none⟩

def working : Layers := ⟨.ok (), .success⟩
def sampleMac : MacAddress := Vector.replicate 6 2#8

def sampleStart : State := start sampleMac 1000#32 working 5

/-- An offer of 10.0.0.20 with netmask and lease time, and what else it carries. -/
def offer (options : List Byte) : Packet :=
  reply (transactionIdAt 5#32) sampleMac 0x0A000014#32
    ([0x35#8, 1#8, 2#8, 0x01#8, 4#8, 255#8, 255#8, 255#8, 0#8, 0x33#8, 4#8, 0#8, 0#8, 14#8,
      16#8] ++ options ++
      [0xFF#8, 0#8])

def sampleAck : Input :=
  .udpEvent (reply (transactionIdAt 5#32) sampleMac 0x0A000014#32 [0x35#8, 1#8, 5#8, 0xFF#8, 0#8])
    working .success 8

/-- An offer from 10.0.0.9 without a netmask, which is turned down. -/
def rejected : Input :=
  .udpEvent (reply (transactionIdAt 5#32) sampleMac 0x0A000015#32
    [0x35#8, 1#8, 2#8, 0x36#8, 4#8, 10#8, 0#8, 0#8, 9#8, 0xFF#8, 0#8]) working .success 6

/-- From 10.0.0.1, with a renewal after 10 minutes and a rebinding after 20. -/
def completeOffer : Packet :=
  offer [0x36#8, 4#8, 10#8, 0#8, 0#8, 1#8, 0x3A#8, 4#8, 0#8, 0#8, 2#8, 88#8, 0x3B#8, 4#8, 0#8,
    0#8, 4#8, 176#8]

def completeOptions : Options :=
  ⟨offerMsgType, true, some 0x0A000001#32, some 0xFFFFFF00#32, none, some 3600#32, some 600#32,
    some 1200#32⟩

def sampleLease : Lease :=
  ⟨0x0A000001#32, 0x0A000014#32, 0x0A000014#32, 0xFFFFFF00#32, 0#32, 600000#32, 1200000#32⟩

/-- What the client would make of the complete offer after it turned the other down. -/
def leaseAfterRejected : Lease :=
  leaseOf { sampleStart.client with serverAddress := 0x0A000009#32 } 0x0A000014#32 completeOptions

/-- The complete offer is accepted with and without another one before. -/
theorem lease_same_rejected :
    completeOptions.Complete ∧ Leased 8 sampleStart completeOffer sampleLease ∧
      Leased 8 sampleStart completeOffer leaseAfterRejected ∧ sampleLease = leaseAfterRejected := by
  have hoptions : optionsOf 8 completeOffer = some completeOptions := by decide +kernel
  have hcomplete : completeOptions.Complete :=
    ⟨rfl, .inl ⟨600#32, 1200#32, rfl, rfl, by decide, by decide⟩⟩
  have hfirst : leases 8 sampleStart [] completeOffer working 7 sampleAck sampleLease = true := by
    decide +kernel
  have hsecond : leases 8 sampleStart [rejected] completeOffer working 7 sampleAck
      leaseAfterRejected = true := by
    decide +kernel
  refine ⟨hcomplete, leased_of_leases hfirst, leased_of_leases hsecond,
    lease_same ?_ (leased_of_leases hfirst) (leased_of_leases hsecond)⟩
  intro x hx
  obtain rfl := Option.some.inj (hoptions.symm.trans hx)
  exact hcomplete

/-- An offer without the identifier of its server and without renewal and rebinding times. -/
def anonymousOffer : Packet := offer []

/-- The request for it names no server, or the one whose offer was turned down before. -/
def anonymousLease (serverId : Ipv4Address) : Lease :=
  ⟨serverId, 0x0A000014#32, 0x0A000014#32, 0xFFFFFF00#32, 0#32, 1800000#32, 3240000#32⟩

/-- The same offer and the same acknowledgement, with and without a rejected offer before: the
request is sent with the server of the offer that was turned down. -/
theorem rejected_server_requested :
    leases 8 sampleStart [] anonymousOffer working 7 sampleAck (anonymousLease 0xFFFFFFFF#32) =
      true ∧
      leases 8 sampleStart [rejected] anonymousOffer working 7 sampleAck
        (anonymousLease 0x0A000009#32) = true ∧
      anonymousLease 0xFFFFFFFF#32 ≠ anonymousLease 0x0A000009#32 := by
  decide +kernel

end NanoIp.Dhcp
