import NanoIp.Tcp.StepEffect
import Mathlib.Data.Option.Basic

/-!
# What a retransmission puts on the wire

A data packet is followed from the application's buffer through the IPv4 and
Ethernet layers, once for its first transmission and once as the periodic task
restores it. Position and count are saved when the packet is sent and do not change
while it is pending.
-/
namespace NanoIp.Tcp

variable {n : Nat}

/-- The pending packet as the periodic task gives it to the IPv4 layer. -/
def restored (m : Stack n) (h : Fin n) (pid : PacketId) : Packet :=
  { m.packets pid with current := (m.mem h).lastTxPacketPos, count := (m.mem h).lastTxPacketCount }

/-- A retransmission, over an interface and to an address the layers below find. -/
def againSent (m : Stack n) (h : Fin n) (pid : PacketId) (netIf : NetIf) (mac : MacAddress)
    (driver : Err) :
    Ipv4.Sent :=
  Ipv4.finalizeSendPacket
    { (m.mem h).ipv4Handle.prepare (m.mem h).lastTxPacketIpv4Header netIf pid with
      arpMac := mac } driver
    (restored m h pid)

def arpTarget (m : Stack n) (h : Fin n) (gateway : Ipv4Address) : Ipv4Address :=
  if gateway ≠ 0#32 then gateway else (m.mem h).lastTxPacketIpv4Header.destAddress

/-- The packet as it is handed on when the ARP request completes that it waits for itself: the
IPv4 handle is busy, but the tick has restored the packet before it asks. -/
def lateSent (m : Stack n) (h : Fin n) (pid : PacketId) (mac : MacAddress) (driver : Err) :
    Ipv4.Sent :=
  Ipv4.finalizeSendPacket { (m.mem h).ipv4Handle with arpMac := mac } driver (restored m h pid)

/-- Two frames have the same length and agree from the IPv4 header to the end of a
payload of `len` bytes. -/
def SameFrame (len : Nat) (frame frame' : List Byte) : Prop :=
  frame'.length = frame.length ∧ (frame'.drop 14).take (40 + len) = (frame.drop 14).take (40 + len)

/-- These are the frames of the code: that of the tick if the address is at hand, else that of
the ARP response behind it. -/
structure Hands (m : Stack n) (h : Fin n) (pid : PacketId) (lower : Lower) : Prop where
  resolved : ∀ gateway netIf mac, (m.mem h).ipv4Handle.busy = false →
    Ipv4.chooseRoute lower (m.mem h).lastTxPacketIpv4Header.destAddress (restored m h pid) =
      .ok (gateway, netIf) →
    lower.arp (arpTarget m h gateway) = .resolved mac →
    (resendPacket m h pid lower).packets pid = (againSent m h pid netIf mac lower.driver).packet
  pending : ∀ gateway netIf, (m.mem h).ipv4Handle.busy = false →
    Ipv4.chooseRoute lower (m.mem h).lastTxPacketIpv4Header.destAddress (restored m h pid) =
      .ok (gateway, netIf) →
    lower.arp (arpTarget m h gateway) = .pending →
    ∀ mac driver, (arpResponse (resendPacket m h pid lower) h (some mac) driver).1.packets pid =
      (againSent m h pid netIf mac driver).packet
  waiting : (m.mem h).ipv4Handle.busy = true → (m.mem h).ipv4Handle.packet = some pid →
    ∀ mac driver, (arpResponse (resendPacket m h pid lower) h (some mac) driver).1.packets pid =
      (lateSent m h pid mac driver).packet

theorem recordHanded_packets (m : Stack n) (h : Fin n) (pid : PacketId) (sent : Ipv4.Sent) :
    (recordHanded m h pid sent).packets = m.packets := by
  unfold recordHanded
  split <;> rfl

theorem resendPacket_handle (m : Stack n) (h : Fin n) (pid : PacketId) (lower : Lower) :
    (resendPacket m h pid lower).mem = Function.update m.mem h { m.mem h with
      ipv4Handle := (Ipv4.sendPacket lower (m.mem h).ipv4Handle (m.mem h).lastTxPacketIpv4Header pid
        (restored m h pid)).handle
      stateTimeout := (m.mem h).stateTimeout + stateTimeoutMs } := by
  unfold resendPacket
  simp only [recordHanded_mem, Stack.record_mem, Stack.wait_mem]
  rfl

theorem resendPacket_leaves {m : Stack n} {h : Fin n} {pid : PacketId} {lower : Lower}
    {sent : Ipv4.Sent}
    (hsent : Ipv4.sendPacket lower (m.mem h).ipv4Handle (m.mem h).lastTxPacketIpv4Header pid
      (restored m h pid) = sent) :
    (resendPacket m h pid lower).packets pid = sent.packet ∧
      ((resendPacket m h pid lower).mem h).ipv4Handle = sent.handle := by
  subst hsent
  constructor
  · unfold resendPacket
    rw [recordHanded_packets]
    exact Function.update_self _ _ _
  · rw [resendPacket_handle, Function.update_self]

theorem finalizeSendPacket_busy (handle : Ipv4.Handle) (driver : Err) (p : Packet) (busy : Bool) :
    (Ipv4.finalizeSendPacket { handle with busy := busy } driver p).packet =
      (Ipv4.finalizeSendPacket handle driver p).packet := by
  unfold Ipv4.finalizeSendPacket
  dsimp only
  cases Ipv4.fillHeader handle.header p with
  | error e => rfl
  | ok q =>
    cases handle.netIf with
    | none | some netIf => rfl

theorem arpResponse_packet {m : Stack n} {h : Fin n} {pid : PacketId}
    (hp : (m.mem h).ipv4Handle.packet = some pid) (mac : MacAddress) (driver : Err) :
    (arpResponse m h (some mac) driver).1.packets pid =
      (Ipv4.finalizeSendPacket { (m.mem h).ipv4Handle with arpMac := mac } driver
        (m.packets pid)).packet := by
  have herror (m' : Stack n) (error : Err) : (ipv4ErrorCallback m' h error).1.packets =
      m'.packets := by
    unfold ipv4ErrorCallback
    split_ifs <;> rfl
  unfold arpResponse
  rw [hp]
  dsimp only
  rw [herror, recordHanded_packets]
  exact Function.update_self _ _ _

theorem sendPacket_resolved {m : Stack n} {h : Fin n} {pid : PacketId} {lower : Lower}
    {gateway : Ipv4Address} {netIf : NetIf} {mac : MacAddress}
    (hb : (m.mem h).ipv4Handle.busy = false)
    (hc : Ipv4.chooseRoute lower (m.mem h).lastTxPacketIpv4Header.destAddress (restored m h pid) =
      .ok (gateway, netIf)) (ha : lower.arp (arpTarget m h gateway) = .resolved mac) :
    Ipv4.sendPacket lower (m.mem h).ipv4Handle (m.mem h).lastTxPacketIpv4Header pid
      (restored m h pid) =
      Ipv4.finalizeSendPacket
        { (m.mem h).ipv4Handle.prepare (m.mem h).lastTxPacketIpv4Header netIf pid with
          arpMac := mac }
        lower.driver (restored m h pid) := by
  rw [arpTarget] at ha
  rw [Ipv4.sendPacket, if_neg (by rw [hb]; exact Bool.false_ne_true), hc]
  dsimp only
  rw [ha]

theorem sendPacket_pending {m : Stack n} {h : Fin n} {pid : PacketId} {lower : Lower}
    {gateway : Ipv4Address} {netIf : NetIf} (hb : (m.mem h).ipv4Handle.busy = false)
    (hc : Ipv4.chooseRoute lower (m.mem h).lastTxPacketIpv4Header.destAddress (restored m h pid) =
      .ok (gateway, netIf)) (ha : lower.arp (arpTarget m h gateway) = .pending) :
    Ipv4.sendPacket lower (m.mem h).ipv4Handle (m.mem h).lastTxPacketIpv4Header pid
      (restored m h pid) =
      ⟨{ (m.mem h).ipv4Handle.prepare (m.mem h).lastTxPacketIpv4Header netIf pid with
        busy := true },
        restored m h pid, .inProgress, false⟩ := by
  rw [arpTarget] at ha
  rw [Ipv4.sendPacket, if_neg (by rw [hb]; exact Bool.false_ne_true), hc]
  dsimp only
  rw [ha]

theorem hands (m : Stack n) (h : Fin n) (pid : PacketId) (lower : Lower) : Hands m h pid lower := by
  constructor
  · intro gateway netIf mac hb hc ha
    exact (resendPacket_leaves (sendPacket_resolved hb hc ha)).1
  · intro gateway netIf hb hc ha mac driver
    obtain ⟨hpacket, hhandle⟩ := resendPacket_leaves (sendPacket_pending hb hc ha)
    have hwaits : ((resendPacket m h pid lower).mem h).ipv4Handle.packet = some pid := by
      rw [hhandle]; rfl
    rw [arpResponse_packet hwaits, hpacket, hhandle]
    exact finalizeSendPacket_busy
      { (m.mem h).ipv4Handle.prepare (m.mem h).lastTxPacketIpv4Header netIf pid with
        arpMac := mac } driver
      (restored m h pid) true
  · intro hb hp mac driver
    have hsent : Ipv4.sendPacket lower (m.mem h).ipv4Handle (m.mem h).lastTxPacketIpv4Header pid
        (restored m h pid) = _ := Ipv4.sendPacket_busy hb
    obtain ⟨hpacket, hhandle⟩ := resendPacket_leaves hsent
    have hwaits : ((resendPacket m h pid lower).mem h).ipv4Handle.packet = some pid := by
      rw [hhandle]; exact hp
    rw [arpResponse_packet hwaits, hpacket, hhandle]
    rfl

theorem SameFrame.byte {len : Nat} {frame frame' : List Byte} (hs : SameFrame len frame frame')
    {i : Nat} (h₁ : 14 ≤ i) (h₂ : i < 54 + len) : frame'[i]? = frame[i]? := by
  have he := congrArg (fun l : List Byte => l[i - 14]?) hs.2
  have hi : 14 + (i - 14) = i := by omega
  simp only [List.getElem?_take, List.getElem?_drop, hi] at he
  rwa [if_pos (by omega), if_pos (by omega)] at he

/-- What is saved with a pending packet stays while no other one is sent. -/
structure Kept (pid : PacketId) (pos : Nat) (count : BitVec 16) (k : Handle n) : Prop where
  packet : k.lastTxPacket = none ∨ k.lastTxPacket = some pid
  pos : k.lastTxPacketPos = pos
  count : k.lastTxPacketCount = count

def asking (pid : PacketId) : Lower := { transmitting pid with arp := fun _ => .pending }

end NanoIp.Tcp
