import NanoIp.Core.Ipv4
import NanoIp.Dhcp.Messages
import NanoIp.Lib.Run

/-!
# The DHCP client

The functions of `nano_ip_dhcp_client.c` from the start on. The client is given received
messages and expiries of its timer, in any order; what it sends and the addresses it gives to
its interface are recorded. Time is in milliseconds and goes on without end; the counter of
the module shows its last 32 bits.

A message is parsed with as many options as the fuel allows. There is no step for one that has
more, nor for one whose last option has a size but no data, which the code reads at `NULL`.
-/
namespace NanoIp.Dhcp

/-- `DHCP_BOOT_REPLY`, `DHCP_OFFER_MSG_TYPE` and `DHCP_ACK_MSG_TYPE`. -/
def bootReply : Byte := 0x02#8
def offerMsgType : Byte := 0x02#8
def ackMsgType : Byte := 0x05#8

/-- The sizes of the options of an offer. -/
def subnetMaskOptionSize : Byte := 4#8
def routerOptionSize : Byte := 4#8
def leaseTimeOptionSize : Byte := 4#8
def renewalTimeOptionSize : Byte := 4#8
def rebindingTimeOptionSize : Byte := 4#8

/-- `NANO_IP_DHCP_T1_PERCENTAGE` and `NANO_IP_DHCP_T2_PERCENTAGE`. -/
def t1Percentage : BitVec 32 := 50#32
def t2Percentage : BitVec 32 := 90#32

/-- `nano_ip_dhcp_client_state_t`. -/
inductive ClientState where
  | stopped | init | selecting | requesting | bound | renewing | rebinding
  deriving DecidableEq

/-- `nano_ip_dhcp_client_t`, with the MAC address of its interface, and when the timer is due
if it runs. -/
structure Client where
  state : ClientState
  serverAddress : Ipv4Address
  timeout : BitVec 32
  currentTimeout : BitVec 32
  timer : Option Nat
  macAddress : MacAddress
  transactionId : BitVec 32
  leaseAddress : Ipv4Address
  netmask : Ipv4Address
  gateway : Ipv4Address
  leaseTime : BitVec 32
  leaseTime1 : BitVec 32
  leaseTime2 : BitVec 32
  deriving DecidableEq

/-- What UDP answers to an allocation and to a send. -/
structure Layers where
  alloc : Except Failure Unit
  send : Err

/-- What the client sends to `IPV4_BROADCAST_ADDRESS`. -/
inductive Sent where
  | discover (now : BitVec 32)
  | request (transactionId : BitVec 32) (serverAddress leaseAddress : Ipv4Address)
      (sendLeaseAddress : Bool)
  deriving DecidableEq

/-- The message of a client with this MAC address. -/
def Sent.message (macAddress : MacAddress) : Sent → Message
  | .discover now => discoverMessage now macAddress
  | .request transactionId serverAddress leaseAddress sendLeaseAddress =>
    requestMessage transactionId macAddress serverAddress leaseAddress sendLeaseAddress

/-- A call of `NANO_IP_NET_IFACES_SetIpv4Address`, and its answer. -/
structure SetIpv4Address where
  address : Ipv4Address
  netmask : Ipv4Address
  gateway : Ipv4Address
  ret : Err
  deriving DecidableEq

structure State where
  client : Client
  clock : Nat
  calls : List SetIpv4Address
  sent : List Sent
  deriving DecidableEq

/-- `NANO_IP_OAL_TIME_GetMsCounter`. -/
def State.msCounter (s : State) : BitVec 32 := BitVec.ofNat 32 s.clock

/-- `NANO_IP_OAL_TIMER_Start` of a stopped timer; no period is zero. -/
def timerStart (period : BitVec 32) (clock : Nat) : Option Nat :=
  if period = 0#32 then none else some (clock + period.toNat)

/-- Hand a message to UDP, if it can be allocated: whether it was accepted. -/
def Layers.accepts (layers : Layers) : Bool :=
  match layers.alloc with
  | .ok () => layers.send.accepted
  | .error _ => false

/-- `NANO_IP_DHCP_CLIENT_SendDiscover`; no caller looks at its answer. The transaction id is new
if a packet can be allocated. -/
def sendDiscover (s : State) (layers : Layers) : State :=
  { s with
    client := { s.client with
      transactionId := match layers.alloc with
        | .ok () => transactionIdAt s.msCounter
        | .error _ => s.client.transactionId
      timer := timerStart s.client.currentTimeout s.clock }
    sent := if layers.accepts then s.sent ++ [.discover s.msCounter] else s.sent }

/-- `NANO_IP_DHCP_CLIENT_SendRequest`. -/
def sendRequest (s : State) (sendLeaseAddress : Bool) (layers : Layers) : State × Bool :=
  ({ s with
    client := { s.client with timer := timerStart s.client.currentTimeout s.clock }
    sent := if layers.accepts then
        s.sent ++ [.request s.client.transactionId s.client.serverAddress s.client.leaseAddress
          sendLeaseAddress]
      else s.sent },
    layers.accepts)

/-- `nano_ip_dhcp_msg_t`. -/
structure Msg where
  op : Byte
  htype : Byte
  hlen : Byte
  hops : Byte
  transactionId : BitVec 32
  flags : BitVec 32
  ciaddr : Ipv4Address
  yiaddr : Ipv4Address
  siaddr : Ipv4Address
  giaddr : Ipv4Address
  chaddr : List Byte

/-- `NANO_IP_DHCP_CLIENT_DecodeMessage`, with the packet behind the magic cookie. -/
def decodeMessage (p : Packet) : Option (Msg × Packet) :=
  if minMsgSize ≤ p.count then
    let (op, p) := p.read8bits
    let (htype, p) := p.read8bits
    let (hlen, p) := p.read8bits
    let (hops, p) := p.read8bits
    let (transactionId, p) := p.read32bits
    let (flags, p) := p.read32bits
    let (ciaddr, p) := p.read32bits
    let (yiaddr, p) := p.read32bits
    let (siaddr, p) := p.read32bits
    let (giaddr, p) := p.read32bits
    let (chaddr, p) := p.readBuffer 16#16
    let p := p.readSkipBytes (BitVec.ofNat 16 bootpPaddingSize)
    let (cookie, p) := p.read32bits
    if cookie = magicCookie then
      some (⟨op, htype, hlen, hops, transactionId, flags, ciaddr, yiaddr, siaddr,
        giaddr, chaddr⟩, p)
    else none
  else none

/-- An option of a message, and where its data begin: `none` is `NULL`. -/
structure MsgOption where
  option : Byte
  size : Byte
  data : Option Packet

/-- `NANO_IP_DHCP_CLIENT_ParseMessageOption`. The data pointer of an option without a size is not
written, and not read either. -/
def parseMessageOption (p : Packet) : Option (MsgOption × Packet) :=
  if 1#16 ≤ p.count then
    let (option, p) := p.read8bits
    if 1#16 ≤ p.count then
      let (size, p) := p.read8bits
      let data := if 1#16 ≤ p.count then some p else none
      some (⟨option, size, data⟩, p.readSkipBytes (size.zeroExtend 16))
    else some (⟨option, 0#8, none⟩, p.readSkipBytes 0#16)
  else none

/-- The loops over the options of a message. -/
def optionLoop {α : Type} (handle : α → MsgOption → Option α) : Nat → α → Packet → Option α
  | 0, _, _ => none
  | fuel + 1, a, p =>
    match parseMessageOption p with
    | none => some a
    | some (o, p) => (handle a o).bind fun a => optionLoop handle fuel a p

def MsgOption.store {α β : Type} (o : MsgOption) (size : Byte) (read : Packet → β) (a : α)
    (set : β → α) : Option α :=
  if o.size = size then o.data.map fun q => set (read q) else some a

/-- The variables of the loop in `NANO_IP_DHCP_CLIENT_ProcessOfferMessage`. -/
structure Offer where
  client : Client
  msgType : Byte
  ended : Bool

/-- The body of that loop. -/
def offerOption (x : Offer) (o : MsgOption) : Option Offer :=
  if o.option = requestTypeOption then
    o.store requestTypeOptionSize (Packet.byteAt · 0) x fun v => { x with msgType := v }
  else if o.option = serverIdOption then
    o.store serverIdOptionSize (Packet.longAt · 0) x fun v =>
      { x with client := { x.client with serverAddress := v } }
  else if o.option = subnetMaskOption then
    o.store subnetMaskOptionSize (Packet.longAt · 0) x fun v =>
      { x with client := { x.client with netmask := v } }
  else if o.option = routerOption then
    o.store routerOptionSize (Packet.longAt · 0) x fun v =>
      { x with client := { x.client with gateway := v } }
  else if o.option = leaseTimeOption then
    o.store leaseTimeOptionSize (Packet.longAt · 0) x fun v =>
      { x with client := { x.client with leaseTime := v } }
  else if o.option = renewalTimeOption then
    o.store renewalTimeOptionSize (Packet.longAt · 0) x fun v =>
      { x with client := { x.client with leaseTime1 := v } }
  else if o.option = rebindingTimeOption then
    o.store rebindingTimeOptionSize (Packet.longAt · 0) x fun v =>
      { x with client := { x.client with leaseTime2 := v } }
  else if o.option = endFlagOption then some { x with ended := true }
  else some x

/-- `Retrieve IP address`. -/
def Client.offered (c : Client) (yiaddr : Ipv4Address) : Client :=
  { c with leaseAddress := yiaddr, netmask := 0#32, gateway := 0#32 }

/-- `Check values`. -/
def Offer.valid (x : Offer) : Bool :=
  x.msgType = offerMsgType && x.ended && x.client.leaseAddress ≠ 0#32 && x.client.netmask ≠ 0#32 &&
    x.client.leaseTime ≠ 0#32

/-- `NANO_IP_DHCP_CLIENT_ProcessOfferMessage`. -/
def processOfferMessage (fuel : Nat) (s : State) (p : Packet) (msg : Msg) (layers : Layers) :
    Option State :=
  (optionLoop offerOption fuel ⟨s.client.offered msg.yiaddr, 0#8, false⟩ p).map fun x =>
    let s := { s with client := x.client }
    if x.valid then
      let (s, ret) := sendRequest s false layers
      if ret then { s with client := { s.client with state := .requesting } } else s
    else s

/-- The variables of the loop in `NANO_IP_DHCP_CLIENT_ProcessAckMessage`. -/
structure Ack where
  msgType : Byte
  ended : Bool
  deriving DecidableEq

/-- The body of that loop. -/
def ackOption (x : Ack) (o : MsgOption) : Option Ack :=
  if o.option = requestTypeOption then
    o.store requestTypeOptionSize (Packet.byteAt · 0) x fun v => { x with msgType := v }
  else if o.option = endFlagOption then some { x with ended := true }
  else some x

/-- `Compute renewing and rebinding times`. -/
def Client.renewalTimes (c : Client) : Client :=
  if c.leaseTime1 = 0#32 ∨ c.leaseTime2 = 0#32 then
    { c with leaseTime1 := c.leaseTime * t1Percentage * 10#32,
             leaseTime2 := c.leaseTime * t2Percentage * 10#32 }
  else { c with leaseTime1 := c.leaseTime1 * 1000#32, leaseTime2 := c.leaseTime2 * 1000#32 }

/-- `Next state` and `Restart timer`. -/
def State.bound (s : State) : State :=
  { s with
    client := { s.client with
      state := .bound
      currentTimeout := s.client.leaseTime1
      timer := timerStart s.client.leaseTime1 s.clock } }

/-- What `NANO_IP_DHCP_CLIENT_ProcessAckMessage` does on an acknowledgement; `setRet` is the
answer of `NANO_IP_NET_IFACES_SetIpv4Address`. -/
def acknowledged (s : State) (setRet : Err) : State :=
  if s.client.state = .requesting then
    let s := { s with
      calls := s.calls ++ [⟨s.client.leaseAddress, s.client.netmask, s.client.gateway, setRet⟩] }
    if setRet = .success then State.bound { s with client := s.client.renewalTimes } else s
  else s.bound

/-- `NANO_IP_DHCP_CLIENT_ProcessAckMessage`. -/
def processAckMessage (fuel : Nat) (s : State) (p : Packet) (setRet : Err) : Option State :=
  (optionLoop ackOption fuel ⟨0#8, false⟩ p).map fun x =>
    if x = ⟨ackMsgType, true⟩ then acknowledged s setRet else s

/-- `NANO_IP_DHCP_CLIENT_ProcessMessage`. -/
def processMessage (fuel : Nat) (s : State) (p : Packet) (msg : Msg) (layers : Layers)
    (setRet : Err) : Option State :=
  match s.client.state with
  | .selecting => processOfferMessage fuel s p msg layers
  | .requesting | .renewing => processAckMessage fuel s p setRet
  | .stopped | .init | .bound | .rebinding => some s

def Client.meant (c : Client) (msg : Msg) : Bool :=
  msg.chaddr.take 6 = c.macAddress.toList && msg.transactionId = c.transactionId &&
    msg.op = bootReply

/-- `NANO_IP_DHCP_CLIENT_UdpEvent`. -/
def udpEvent (fuel : Nat) (s : State) (p : Packet) (layers : Layers) (setRet : Err) :
    Option State :=
  match decodeMessage p with
  | none => some s
  | some (msg, p) => if s.client.meant msg then processMessage fuel s p msg layers
      setRet else some s

/-- The cases `DCS_REQUESTING` and `DCS_SELECTING` of `NANO_IP_DHCP_CLIENT_TimerCallback`. -/
def reselect (s : State) (layers : Layers) : State :=
  sendDiscover { s with client := { s.client with
    state := .selecting,
    currentTimeout := s.client.timeout } } layers

/-- `NANO_IP_DHCP_CLIENT_TimerCallback`. -/
def timerCallback (s : State) (layers : Layers) (setRet : Err) : State :=
  match s.client.state with
  | .rebinding => reselect { s with
      calls := s.calls ++ [⟨0#32, 0#32, s.client.gateway, setRet⟩] } layers
  | .requesting | .selecting => reselect s layers
  | .bound =>
    (sendRequest
      { s with
        client := { s.client with
          state := .renewing, currentTimeout := s.client.timeout,
            transactionId := transactionIdAt s.msCounter } }
      true layers).1
  | .renewing => sendDiscover { s with client := { s.client with state := .rebinding } } layers
  | .stopped | .init => s

/-- What the client is given, and when. -/
inductive Input where
  | udpEvent (p : Packet) (layers : Layers) (setRet : Err) (now : Nat)
  | timerCallback (layers : Layers) (setRet : Err) (now : Nat)

def Input.now : Input → Nat
  | .udpEvent _ _ _ now | .timerCallback _ _ now => now

/-- Time does not go back, and a timer is not early. -/
def step (fuel : Nat) (s : State) (i : Input) : Option State :=
  if s.clock ≤ i.now then
    match i with
    | .udpEvent p layers setRet now => udpEvent fuel { s with clock := now } p layers setRet
    | .timerCallback layers setRet now =>
      if ∃ due ∈ s.client.timer, due ≤ now then
        some (timerCallback { s with clock := now } layers setRet) else none
  else none

section Inversion

variable {fuel : Nat} {s s' : State} {p : Packet} {layers : Layers} {setRet : Err} {now : Nat}

theorem step_udpEvent (hs : step fuel s (.udpEvent p layers setRet now) = some s') :
    s.clock ≤ now ∧ udpEvent fuel { s with clock := now } p layers setRet = some s' := by
  rw [step] at hs
  by_cases hclock : s.clock ≤ now
  · exact ⟨hclock, by rwa [if_pos (by exact hclock)] at hs⟩
  · rw [if_neg (by exact hclock)] at hs
    cases hs

theorem step_timerCallback (hs : step fuel s (.timerCallback layers setRet now) = some s') :
    s.clock ≤ now ∧ (∃ due, s.client.timer = some due ∧ due ≤ now) ∧
      s' = timerCallback { s with clock := now } layers setRet := by
  rw [step] at hs
  by_cases hclock : s.clock ≤ now
  · rw [if_pos (by exact hclock)] at hs
    by_cases hdue : ∃ due ∈ s.client.timer, due ≤ now
    · rw [if_pos hdue] at hs
      exact ⟨hclock, hdue, (Option.some.inj hs).symm⟩
    · rw [if_neg hdue] at hs
      cases hs
  · rw [if_neg (by exact hclock)] at hs
    cases hs

theorem udpEvent_cases (hs : udpEvent fuel s p layers setRet = some s') : s' = s ∨
    ∃ msg q, decodeMessage p = some (msg, q) ∧ s.client.meant msg = true ∧
      processMessage fuel s q msg layers setRet = some s' := by
  rw [udpEvent] at hs
  cases hdecode : decodeMessage p with
  | none =>
    rw [hdecode] at hs
    exact .inl (Option.some.inj hs).symm
  | some m =>
    obtain ⟨msg, q⟩ := m
    rw [hdecode] at hs
    dsimp only at hs
    by_cases hmeant : s.client.meant msg = true
    · exact .inr ⟨msg, q, rfl, hmeant, by rwa [if_pos hmeant] at hs⟩
    · rw [if_neg hmeant] at hs
      exact .inl (Option.some.inj hs).symm

theorem processAckMessage_cases (hs : processAckMessage fuel s p setRet = some s') :
    s' = s ∨ optionLoop ackOption fuel ⟨0#8, false⟩ p = some ⟨ackMsgType, true⟩ ∧
      s' = acknowledged s setRet := by
  rw [processAckMessage] at hs
  obtain ⟨x, hx, rfl⟩ := Option.map_eq_some_iff.mp hs
  by_cases hack : x = ⟨ackMsgType, true⟩
  · subst hack
    exact .inr ⟨hx, if_pos rfl⟩
  · exact .inl (if_neg hack)

end Inversion

/-- `NANO_IP_DHCP_CLIENT_Init`: the client of an interface. -/
def init (macAddress : MacAddress) (timeout : BitVec 32) : Client :=
  ⟨.stopped, 0xFFFFFFFF#32, timeout, 0#32, none, macAddress, 0#32, 0#32, 0#32, 0#32,
    0#32, 0#32, 0#32⟩

/-- `NANO_IP_DHCP_CLIENT_Start`, once the port is bound. -/
def start (macAddress : MacAddress) (timeout : BitVec 32) (layers : Layers) (now : Nat) : State :=
  reselect ⟨init macAddress timeout, now, [], []⟩ layers

end NanoIp.Dhcp
