import NanoIp.Arp.Module
import NanoIp.Core.Ipv4
import NanoIp.Lib.Run

/-!
# IPv4 handles over the ARP module

The handles `Fin n` of a program send through one ARP module; each has its request
object. A packet whose next hop has to be asked for stays with its handle until the
module calls the request back. The log shows what becomes of it.
-/
namespace NanoIp.Ipv4

variable {c n : Nat}

/-- The upper protocol of a handle, as its error callback sees it: a TCP handle is
established or not, an ICMP handle belongs to a request or to the module. -/
inductive Upper where
  | udp
  | tcp (established : Bool)
  | icmp (request : Bool)

/-- What an error callback does: an event for the application, or the flag of a ping. -/
inductive Notice where
  | tx | txFailed | pingFailure | pingArpError
  deriving DecidableEq

/-- `NANO_IP_UDP_Ipv4ErrorCallback`, `NANO_IP_TCP_Ipv4ErrorCallback` and
`NANO_IP_ICMP_Ipv4ErrorCallback`; the packet is out of their reach. -/
def Upper.errorCallback : Upper → Err → Option Notice
  | .udp, error => some (if error = .success then .tx else .txFailed)
  | .tcp established, error =>
    if error = .success then if established then some .tx else none else some .txFailed
  | .icmp request, error =>
    if request then some (if error = .arpFailure then .pingArpError else .pingFailure) else none

/-- What a run shows of the packets and callbacks. -/
inductive Obs (n : Nat) where
  /-- `NANO_IP_IPV4_SendPacket` returned `NIP_ERR_IN_PROGRESS`; the request is due at a time -/
  | inProgress (h : Fin n) (pid : PacketId) (due : Nat)
  /-- `NANO_IP_IPV4_SendPacket` gave the packet to the driver at once -/
  | sent (h : Fin n) (pid : PacketId) (ret : Err)
  /-- the request's callback was called -/
  | called (h : Fin n) (success : Bool)
  /-- the callback gave the packet to the driver -/
  | handed (h : Fin n) (pid : PacketId) (ret : Err)
  /-- the callback released the packet -/
  | released (h : Fin n) (pid : PacketId)
  /-- the handle's error callback was called -/
  | errorCallback (h : Fin n) (error : Err) (notice : Option Notice)
  deriving DecidableEq

/-- The ARP module, the handles, the packet objects, the milliseconds since start and
the log. -/
structure Node (c n : Nat) where
  arp : Arp.Module c n
  handle : Fin n → Handle
  packets : PacketId → Packet
  time : Nat
  log : List (Obs n)

namespace Node

/-- `NANO_IP_OAL_TIME_GetMsCounter`. -/
def msCounter (x : Node c n) : BitVec 32 := BitVec.ofNat 32 x.time

def record (x : Node c n) (os : List (Obs n)) : Node c n := { x with log := x.log ++ os }

def setHandle (x : Node c n) (h : Fin n) (k : Handle) : Node c n :=
  { x with handle := Function.update x.handle h k }

@[simp] theorem record_handle (x : Node c n) (os : List (Obs n)) :
    (x.record os).handle = x.handle := rfl

@[simp] theorem setHandle_self (x : Node c n) (h : Fin n) (k : Handle) :
    (x.setHandle h k).handle h = k :=
  Function.update_self _ _ _

theorem setHandle_of_ne (x : Node c n) {h k : Fin n} (v : Handle) (hk : k ≠ h) :
    (x.setHandle h v).handle k = x.handle k := Function.update_of_ne hk _ _

def init (c n : Nat) (packets : PacketId → Packet) (time : Nat) : Node c n :=
  ⟨Arp.Module.init c n, fun _ => Handle.init, packets, time, []⟩

end Node

/-- A driver's answer as an error code. -/
def driverErr : Except Failure Unit → Err
  | .ok () => .success
  | .error e => e

/-- What a send meets: the routes, what ARP meets when it sends, and the driver's answer. -/
structure Below where
  route : Ipv4Address → Except Failure (Ipv4Address × NetIf)
  link : Arp.Link
  driver : Except Failure Unit

def Below.lower (below : Below) (answer : ArpAnswer) : Lower :=
  ⟨.error ⟨.resource, rfl⟩, below.route, fun _ => answer, driverErr below.driver,
    below.link.elapsed⟩

/-- What the callbacks of requests meet: the driver's answer for each handle's packet and
the protocol above the handle. -/
structure Reply (n : Nat) where
  driver : Fin n → Except Failure Unit
  upper : Fin n → Upper

/-- What a send shows: it has given the packet to the driver, or queued it, or neither. -/
def sendLog (h : Fin n) (pid : PacketId) (due : Nat) (sent : Sent) : List (Obs n) :=
  (if sent.handed then [.sent h pid sent.ret] else []) ++
    (if sent.ret = .inProgress then [.inProgress h pid due] else [])

/-- `NANO_IP_IPV4_SendPacket`. -/
def Node.sendPacket (x : Node c n) (h : Fin n) (header : Ipv4Header) (pid : PacketId)
    (below : Below) :
    Node c n :=
  let p := x.packets pid
  if (x.handle h).busy then x
  else
    match chooseRoute (below.lower .pending) header.destAddress p with
    | .error _ => x
    | .ok (gateway, netIf) =>
      let nextHop := if gateway ≠ 0#32 then gateway else header.destAddress
      let requested := Arp.request x.arp netIf h nextHop below.link x.msCounter
      let sent := Ipv4.sendPacket (below.lower requested.answer) (x.handle h) header pid p
      let due := x.time + below.link.elapsed + Arp.requestTimeout.toNat
      { x with
        arp := requested.module
        handle := Function.update x.handle h sent.handle
        packets := Function.update x.packets pid sent.packet
        time := x.time + below.link.elapsed
        log := x.log ++ sendLog h pid due sent }

/-- `NANO_IP_IPV4_ARPResponseCallback` of handle `h`. -/
def Node.arpResponseCallback (x : Node c n) (success : Bool) (reply : Reply n) (h : Fin n) :
    Node c n :=
  let k := x.handle h
  let x := x.record [.called h success]
  -- a queued handle always holds a packet
  match k.packet with
  | none => x
  | some pid =>
    if success then
      let k := { k with arpMac := (x.arp.mem h).macAddress }
      let sent := finalizeSendPacket k (driverErr (reply.driver h)) (x.packets pid)
      let x := { x with packets := Function.update x.packets pid sent.packet }
      let x := x.record (if sent.handed then [.handed h pid sent.ret] else [])
      (x.setHandle h { k with busy := false }).record
        [.errorCallback h sent.ret ((reply.upper h).errorCallback sent.ret)]
    else
      ((x.record [.released h pid]).setHandle h { k with busy := false }).record
        [.errorCallback h .arpFailure ((reply.upper h).errorCallback .arpFailure)]

/-- The callbacks of one pass over the requests, one after the other. -/
def Node.callBack (x : Node c n) (success : Bool) (reply : Reply n) (calls : List (Fin n)) :
    Node c n :=
  calls.foldl (fun x h => x.arpResponseCallback success reply h) x

/-- `NANO_IP_IPV4_ReleaseHandle`. -/
def Node.releaseHandle (x : Node c n) (h : Fin n) (reply : Reply n) : Node c n :=
  if (x.handle h).busy then
    let cancelled := Arp.cancelRequest x.arp h
    { x with arp := cancelled.1 }.callBack false reply (if cancelled.2 then [h] else [])
  else x

/-- The calls that reach the handles and the module. -/
inductive Input (c n : Nat) where
  | sendPacket (h : Fin n) (header : Ipv4Header) (pid : PacketId) (below : Below)
  | releaseHandle (h : Fin n) (reply : Reply n)
  | rxFrame (netIf : NetIf) (p : Packet) (link : Arp.Link) (reply : Reply n)
  | periodicTask (reply : Reply n)
  | elapse (ms : Nat)
  /-- the application fills a packet object -/
  | compose (pid : PacketId) (p : Packet)

def step (x : Node c n) : Input c n → Option (Node c n)
  | .sendPacket h header pid below => some (x.sendPacket h header pid below)
  | .releaseHandle h reply => some (x.releaseHandle h reply)
  | .rxFrame netIf p link reply =>
    let received := Arp.rxFrame x.arp netIf p link x.msCounter
    some ({ x with arp := received.module, time := x.time + link.elapsed }.callBack true reply
      received.calls)
  | .periodicTask reply =>
    let swept := Arp.periodicTask x.arp x.msCounter
    some ({ x with arp := swept.1 }.callBack false reply swept.2)
  | .elapse ms => some { x with time := x.time + ms }
  | .compose pid p => some { x with packets := Function.update x.packets pid p }

end NanoIp.Ipv4
