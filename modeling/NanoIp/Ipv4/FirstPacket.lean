import NanoIp.Arp.Exchange
import NanoIp.Core.Carried
import NanoIp.Ipv4.Settled

/-!
# The first packet to a neighbour

A packet for a neighbour that the ARP table does not know waits with its handle. The question of
the node is answered by the neighbour, the answer calls the request back, and the packet goes out
as it would have gone at once. Its protocol is called at the other end with what was written into
it.
-/
namespace NanoIp.Ipv4

open Ethernet (Framed Received)

variable {c n c' n' : Nat} {γ : Type}

/-- The packet waits with its handle for the MAC address of a neighbour. -/
structure Waits (x : Node c n) (h : Fin n) (pid : PacketId) (header : Ipv4Header) (netIf : NetIf)
    (payload : List Byte) : Prop where
  listed : Arp.Listed x.arp x.arp.pending
  pending : h ∈ x.arp.pending
  asked : (x.arp.mem h).ipv4Address = header.destAddress
  header : (x.handle h).header = header
  netIf : (x.handle h).netIf = some netIf
  packet : (x.handle h).packet = some pid
  framed : ∃ room, room.length = minHeaderSize ∧ Framed (x.packets pid) (room ++ payload)
  alone : ∀ k ∈ x.arp.pending, (x.handle k).packet = some pid → k = h

section Callbacks

variable {x : Node c n} {h k : Fin n} {pid : PacketId}

theorem arpResponseCallback_apart (success : Bool) (reply : Reply n)
    (hk : (x.handle k).packet ≠ some pid) :
    (x.arpResponseCallback success reply k).packets pid = x.packets pid ∧
      x.log <+: (x.arpResponseCallback success reply k).log := by
  cases hp : (x.handle k).packet with
  | none =>
    simp only [Node.arpResponseCallback, hp]
    exact ⟨rfl, List.prefix_append _ _⟩
  | some pid' =>
    rw [arpResponseCallback_log success reply hp]
    refine ⟨?_, List.prefix_append _ _⟩
    have hne : pid ≠ pid' := fun he => hk (hp.trans (congrArg some he.symm))
    simp only [Node.arpResponseCallback, hp]
    cases success with
    | true => exact Function.update_of_ne hne _ _
    | false => rfl

theorem arpResponseCallback_packet (reply : Reply n) (hp : (x.handle h).packet = some pid) :
    (x.arpResponseCallback true reply h).packets pid = (x.finalize reply h pid).packet := by
  unfold Node.arpResponseCallback
  dsimp only
  split
  · next he => cases hp.symm.trans he
  · next pid' he =>
    obtain rfl := Option.some.inj (hp.symm.trans he)
    exact Function.update_self _ _ _

theorem callBack_apart (success : Bool) (reply : Reply n) :
    ∀ {calls : List (Fin n)} {x : Node c n}, h ∉ calls →
    (∀ k ∈ calls, (x.handle k).packet ≠ some pid) → calls.Nodup →
    (x.callBack success reply calls).packets pid = x.packets pid ∧
      (x.callBack success reply calls).handle h = x.handle h ∧
        x.log <+: (x.callBack success reply calls).log := by
  intro calls
  induction calls with
  | nil => exact fun _ _ _ => ⟨rfl, rfl, List.prefix_refl _⟩
  | cons k calls ih =>
    intro x hnot hapart hnodup
    obtain ⟨hk, hcalls⟩ := List.forall_mem_cons.mp hapart
    rw [List.mem_cons, not_or] at hnot
    obtain ⟨hpackets, hlog⟩ := arpResponseCallback_apart success reply hk
    have hothers : ∀ j ∈ calls, ((x.arpResponseCallback success reply k).handle j).packet ≠
        some pid := by
      intro j hj
      have hne : j ≠ k := fun he => (List.nodup_cons.mp hnodup).1 (he ▸ hj)
      rw [arpResponseCallback_other x success reply k hne]
      exact hcalls j hj
    obtain ⟨hpackets', hhandle', hlog'⟩ := ih hnot.2 hothers (List.nodup_cons.mp hnodup).2
    refine ⟨hpackets'.trans hpackets, hhandle'.trans ?_, hlog.trans hlog'⟩
    exact arpResponseCallback_other x success reply k hnot.1

/-- The packet of a handle that is called back goes to the driver, whichever handles are called
with it. -/
theorem callBack_handed (reply : Reply n) :
    ∀ {calls : List (Fin n)} {x : Node c n}, h ∈ calls → calls.Nodup →
    (x.handle h).packet = some pid → (∀ k ∈ calls, (x.handle k).packet = some pid → k = h) →
    (x.finalize reply h pid).handed = true →
    (x.callBack true reply calls).packets pid = (x.finalize reply h pid).packet ∧
      ((x.callBack true reply calls).handle h).busy = false ∧
      .handed h pid (x.finalize reply h pid).ret ∈ (x.callBack true reply calls).log := by
  intro calls
  induction calls with
  | nil => exact fun hin => (List.not_mem_nil hin).elim
  | cons k calls ih =>
    intro x hin hnodup hp halone hhanded
    obtain ⟨hnot, hrest⟩ := List.nodup_cons.mp hnodup
    by_cases hk : k = h
    · subst hk
      have hlog := arpResponseCallback_log true reply hp
      have hothers : ∀ j ∈ calls, ((x.arpResponseCallback true reply k).handle j).packet ≠
          some pid := by
        intro j hj hpj
        have hne : j ≠ k := fun he => hnot (he ▸ hj)
        rw [arpResponseCallback_other x true reply k hne] at hpj
        exact hne (halone j (List.mem_cons_of_mem _ hj) hpj)
      obtain ⟨hpackets, hhandle, hprefix⟩ := callBack_apart true reply hnot hothers hrest
      refine ⟨hpackets.trans ?_, ?_, hprefix.subset ?_⟩
      · exact arpResponseCallback_packet reply hp
      · change ((Node.callBack _ true reply calls).handle k).busy = false
        rw [hhandle]
        exact arpResponseCallback_idle true reply hp
      · rw [hlog, callbackLog, if_pos rfl, if_pos hhanded]
        exact List.mem_append_right _ (List.mem_cons_of_mem _ List.mem_cons_self)
    · have hne : h ≠ k := fun he => hk he.symm
      have hkp : (x.handle k).packet ≠ some pid := fun hpk => hk (halone k List.mem_cons_self hpk)
      obtain ⟨hpackets, -⟩ := arpResponseCallback_apart true reply hkp
      have hsame : (x.arpResponseCallback true reply k).finalize reply h pid =
          x.finalize reply h pid := by
        rw [Node.finalize, Node.finalize, arpResponseCallback_other x true reply k hne,
          arpResponseCallback_arp,
          hpackets]
      have hp' : ((x.arpResponseCallback true reply k).handle h).packet = some pid := by
        rw [arpResponseCallback_other x true reply k hne]
        exact hp
      have halone' : ∀ j ∈ calls, ((x.arpResponseCallback true reply k).handle j).packet =
          some pid → j = h := by
        intro j hj hpj
        have hjk : j ≠ k := fun he => hnot (he ▸ hj)
        rw [arpResponseCallback_other x true reply k hjk] at hpj
        exact halone j (List.mem_cons_of_mem _ hj) hpj
      have hnext := ih ((List.mem_cons.mp hin).resolve_left hne) hrest hp' halone'
        (by rw [hsame]; exact hhanded)
      rw [hsame] at hnext
      exact hnext

end Callbacks

section Question

variable {x : Node c n} {h : Fin n} {pid : PacketId} {below : Below} {netIf : NetIf}
  {header : Ipv4Header}
  {room payload : List Byte}

/-- A packet for a neighbour that is not known stays with its handle. -/
theorem sendPacket_waits_for
    (hasks : Arp.Asks x.arp h x.arp.pending header.destAddress below.link x.msCounter)
    (hfree : (x.handle h).busy = false) (hframed : Framed (x.packets pid) (room ++ payload))
    (hroom : room.length = minHeaderSize) (hnetIf : (x.packets pid).netIf = none)
    (halone : ∀ k ∈ x.arp.pending, (x.handle k).packet ≠ some pid)
    (hroute : below.route header.destAddress = .ok (0#32, netIf)) :
    Waits (x.sendPacket h header pid below) h pid (sentHeader header netIf) netIf payload := by
  obtain ⟨p, hanswer, -, hlisted, hasked, -⟩ := hasks.question netIf
  have hchosen : chooseRoute (below.lower .pending) header.destAddress (x.packets pid) =
      .ok (0#32, netIf) := by
    rw [chooseRoute, hnetIf]
    exact hroute
  have hsent : sendPacket (below.lower .pending) (x.handle h) header pid (x.packets pid) =
      ⟨{ (x.handle h).prepare header netIf pid with busy := true }, x.packets pid, .inProgress,
        false⟩ := by
    rw [Ipv4.sendPacket, hfree, hchosen]
    rfl
  have hnext : x.sendPacket h header pid below =
      { x with
        arp := (Arp.request x.arp netIf h header.destAddress below.link x.msCounter).module
        handle := Function.update x.handle h
          { (x.handle h).prepare header netIf pid with busy := true }
        packets := Function.update x.packets pid (x.packets pid)
        time := x.time + below.link.elapsed
        log := x.log ++ [.inProgress h pid
          (x.time + below.link.elapsed + Arp.requestTimeout.toNat)] } := by
    simp only [Node.sendPacket, hfree, Bool.false_eq_true, if_false, hchosen, ne_eq,
      not_true_eq_false, hanswer, hsent]
    rfl
  have hpending := hlisted.pending
  rw [hnext]
  refine ⟨?_, ?_, hasked, ?_, ?_, ?_, ⟨room, hroom, ?_⟩, ?_⟩
  · rw [hpending]
    exact hlisted
  · rw [hpending]
    exact List.mem_cons_self
  · simp only [Function.update_self]
    rfl
  · simp only [Function.update_self]
    rfl
  · simp only [Function.update_self]
    rfl
  · simp only [Function.update_self]
    exact hframed
  · intro k hk hpacket
    by_contra hne
    rw [hpending] at hk
    simp only [Function.update_of_ne hne] at hpacket
    exact halone k ((List.mem_cons.mp hk).resolve_left hne) hpacket

end Question

/-- The neighbour: what it receives ARP with, and a protocol above IPv4 in the lists of the layers
below. -/
structure Peer (c n : Nat) (γ : Type) extends Arp.Receiver c n where
  protocol : Protocol γ
  ipv4Protocols : List (Protocol γ)
  ethProtocols : List (Ethernet.Protocol (Except Err γ))
  protocol_registered : ipv4Protocols.find? (fun p => p.protocol = protocol.protocol) =
    some protocol
  ipv4_registered : ethProtocols.find? (fun p => p.etherType = ipProtocol) =
    some (ethernetProtocol ipv4Protocols)

/-- The protocol is called for the frame, with the payload. -/
def Peer.Delivers (b : Peer c n γ) (sender : NetIf) (header : Ipv4Header) (payload : List Byte)
    (q : Packet) : Prop :=
  ∃ p, Ethernet.rxFrame b.ethProtocols b.netIf q = .ok (.ok (b.protocol.rxFrame b.netIf
      ⟨header, ⟨b.netIf.macAddress, sender.macAddress, ipProtocol⟩,
        BitVec.ofNat 16 payload.length⟩ p)) ∧
    p.Holds 0 payload ∧ payload.length ≤ p.count.toNat

def Node.arpProtocol (x : Node c n) (link : Arp.Link) (reply : Reply n) :
    Ethernet.Protocol (Option (Node c n)) :=
  ⟨Arp.arpProtocol, fun netIf _ p => step x (.rxFrame netIf p link reply)⟩

section Answer

variable {x : Node c n} {h : Fin n} {pid : PacketId} {netIf : NetIf} {header : Ipv4Header}
  {payload : List Byte}

theorem Waits.finalized (hw : Waits x h pid header netIf payload) {y : Node c n} {mac : MacAddress}
    (hhandle : y.handle = x.handle) (hpackets : y.packets = x.packets)
    (hmac : (y.arp.mem h).macAddress = mac) (reply : Reply n) :
    ∃ q, Framed q (packetBytes header payload) ∧ (y.finalize reply h pid).handed = true ∧
      (y.finalize reply h pid).ret = driverErr (reply.driver h) ∧
      (y.finalize reply h pid).packet = Ethernet.sendPacket netIf
        ⟨mac, netIf.macAddress, ipProtocol⟩ q := by
  obtain ⟨room, hroom, hframed⟩ := hw.framed
  obtain ⟨q, hfill, hq, -⟩ := fillHeader_framed header hframed hroom
  refine ⟨q, hq, ?_⟩
  have hsent : y.finalize reply h pid = ⟨{ x.handle h with arpMac := mac },
      Ethernet.sendPacket netIf ⟨mac, netIf.macAddress, ipProtocol⟩ q,
        driverErr (reply.driver h), true⟩ := by
    rw [Node.finalize, hhandle, hpackets, hmac, finalizeSendPacket]
    simp only [hw.header, hfill, hw.netIf]
  rw [hsent]
  exact ⟨rfl, rfl, rfl⟩

/-- A frame with a header for the neighbour comes to its protocol. -/
theorem Peer.delivers (b : Peer c' n' γ) {p q : Packet}
    (hframed : Framed p (packetBytes header payload))
    (hq : Ethernet.Arrived netIf ⟨b.netIf.macAddress, netIf.macAddress, ipProtocol⟩ p q)
    (hgood : ¬ Arp.Misplaced netIf b.netIf) (hdest : header.destAddress = b.netIf.ipv4Address)
    (hprotocol : header.protocol = b.protocol.protocol) : b.Delivers netIf header payload q := by
  obtain ⟨hbytes, -, hcount⟩ := hq.behind hframed
  rw [packetBytes_length, minHeaderSize] at hcount
  have hcontains : Contains (Ethernet.behindHeader q) header payload := by
    refine ⟨hbytes, ?_⟩
    rw [minHeaderSize]
    omega
  have hforUs : Ethernet.isForUs b.netIf b.netIf.macAddress = true := by simp [Ethernet.isForUs]
  have hours : isForUs b.netIf header.destAddress = true := by simp [isForUs, hdest]
  have hfound := b.protocol_registered
  rw [← hprotocol] at hfound
  have hspoils : ¬ (Ethernet.Spoils netIf (packetBytes header payload) ∧
      b.netIf.has netdrvCapEthCsCheck = false) := fun hbad => hgood ⟨hbad.1.1, hbad.1.2.1, hbad.2⟩
  obtain ⟨-, -, -, hholds⟩ := hcontains.fields ⟨b.netIf.macAddress, netIf.macAddress, ipProtocol⟩
  refine ⟨behindHeader (Ethernet.behindHeader q), ?_, hholds, ?_⟩
  · rw [Ethernet.rxFrame_arrived hq hframed, if_neg hspoils, if_pos hforUs,
      Ethernet.dispatch_found b.ipv4_registered]
    exact congrArg Except.ok (rxFrame_contains hcontains hfound hours _)
  · change _ ≤ ((Ethernet.behindHeader q).count - 20#16).toNat
    rw [BitVec.toNat_sub_of_le (by rw [BitVec.le_def]; change 20 ≤ _; omega), hcount]
    change _ ≤ _ - 20
    omega

/-- When the frame comes, the packet goes to the driver, and with it the payload to the
neighbour's protocol; all handles that asked are called back. -/
def Node.Releases (x : Node c n) (h : Fin n) (pid : PacketId) (netIf : NetIf) (header : Ipv4Header)
    (payload : List Byte) (b : Peer c' n' γ) (q : Packet) : Prop :=
  ∀ (link : Arp.Link) (reply : Reply n) (protocols : List (Ethernet.Protocol (Option (Node c n)))),
    protocols.find? (fun p => p.etherType = Arp.arpProtocol) = some (x.arpProtocol link reply) →
    ∃ z, Ethernet.rxFrame protocols netIf q = .ok (some z) ∧ (z.handle h).busy = false ∧
      .handed h pid (driverErr (reply.driver h)) ∈ z.log ∧
      (Waiting [] x → callsBetween x z =
        (x.arp.pending.filter fun k => (x.arp.mem k).ipv4Address = header.destAddress).map
          (·, true)) ∧
      ∀ q', Received (Ethernet.transmit netIf (z.packets pid).frame) q' →
        b.Delivers netIf header payload q'

/-- The answer of the neighbour comes while the packet waits. -/
theorem Waits.released (hw : Waits x h pid header netIf payload) {b : Peer c' n' γ}
    (hdest : header.destAddress = b.netIf.ipv4Address)
    (hprotocol : header.protocol = b.protocol.protocol) (hgood : ¬ Arp.Misplaced netIf b.netIf)
    (hgood' : ¬ Arp.Misplaced b.netIf netIf) {p q : Packet}
    (hq : Arp.Came b.netIf (Arp.responseHeader b.netIf (Arp.requestFrame netIf b.netIf.ipv4Address))
      (Arp.responseFrame b.netIf (Arp.requestFrame netIf b.netIf.ipv4Address)) p q) :
    x.Releases h pid netIf header payload b q := by
  intro link reply protocols hregistered
  obtain ⟨hdecode, hcount⟩ := hq.behind
  have hours : Ethernet.isForUs netIf
      (Arp.responseHeader b.netIf (Arp.requestFrame netIf b.netIf.ipv4Address)).destAddress =
        true := by
    simp [Ethernet.isForUs, Arp.responseHeader, Arp.requestFrame]
  have hspoils : ¬ (Ethernet.Spoils b.netIf (Arp.frameBytes (Arp.responseFrame b.netIf
      (Arp.requestFrame netIf b.netIf.ipv4Address))) ∧ netIf.has netdrvCapEthCsCheck = false) :=
    fun hbad => hgood' ⟨hbad.1.1, hbad.1.2.1, hbad.2⟩
  have hframe := Ethernet.rxFrame_arrived hq (Arp.writeFrame_framed p _) protocols netIf
  rw [if_neg hspoils, if_pos hours, Ethernet.dispatch_found hregistered] at hframe
  have hresponse : Arp.rxFrame x.arp netIf (Ethernet.behindHeader q) link x.msCounter =
      Arp.handleResponse x.arp netIf
        (Arp.responseFrame b.netIf (Arp.requestFrame netIf b.netIf.ipv4Address))
        x.msCounter := by
    rw [Arp.rxFrame_response hcount (by rw [hdecode]; rfl) (by rw [hdecode]; rfl), hdecode]
  obtain ⟨-, hcalls, hmem⟩ := hw.listed.handleResponse netIf
    (Arp.responseFrame b.netIf (Arp.requestFrame netIf b.netIf.ipv4Address)) x.msCounter rfl
  have hcalled : h ∈ (Arp.handleResponse x.arp netIf
      (Arp.responseFrame b.netIf (Arp.requestFrame netIf b.netIf.ipv4Address))
        x.msCounter).calls := by
    rw [hcalls]
    exact List.mem_filter.mpr ⟨hw.pending, decide_eq_true (hw.asked.trans hdest)⟩
  have hmac := hmem h
  rw [if_pos hcalled] at hmac
  let y : Node c n :=
    { x with
      arp := (Arp.handleResponse x.arp netIf
        (Arp.responseFrame b.netIf (Arp.requestFrame netIf b.netIf.ipv4Address)) x.msCounter).module
      time := x.time + link.elapsed }
  have hmac : (y.arp.mem h).macAddress = b.netIf.macAddress := congrArg Arp.Request.macAddress hmac
  obtain ⟨q₀, hframed, hhanded, hret, hpacket⟩ := hw.finalized (y := y) rfl rfl hmac reply
  have hnodup : (Arp.handleResponse x.arp netIf
      (Arp.responseFrame b.netIf (Arp.requestFrame netIf b.netIf.ipv4Address))
        x.msCounter).calls.Nodup := by
    rw [hcalls]
    exact hw.listed.nodup.filter _
  obtain ⟨hpackets, hidle, hlog⟩ := callBack_handed reply (x := y) hcalled hnodup hw.packet
    (fun k hk hpk => hw.alone k (List.mem_of_mem_filter (hcalls ▸ hk)) hpk) hhanded
  refine ⟨_, hframe.trans (congrArg (fun z => Except.ok (some z)) ?_), hidle, hret ▸ hlog,
    fun hwaiting => ?_,
    fun q' hq' => ?_⟩
  · rw [hresponse]
  · obtain ⟨hanswered, -, hpass⟩ := hwaiting.takeAnswered netIf (Ethernet.behindHeader q) link
    rw [hresponse] at hanswered hpass
    rw [← hanswered] at hpass
    rw [hdest]
    exact (hpass.pass_calls true reply rfl).trans (congrArg (List.map _) hcalls)
  · rw [hpackets, hpacket] at hq'
    exact b.delivers hframed hq' hgood hdest hprotocol

end Answer

/-- The first packet to a neighbour arrives: the neighbour learns who asks and answers, and when
its answer comes in whatever state the packet waits, the packet goes out and its payload comes to
the protocol at the other end. -/
theorem first_packet_arrives {x : Node c n} {h : Fin n} {pid : PacketId} {below : Below}
    {netIf : NetIf} {header : Ipv4Header} {room payload : List Byte} {b : Peer c' n' γ}
    (hasks : Arp.Asks x.arp h x.arp.pending b.netIf.ipv4Address below.link x.msCounter)
    (hfree : (x.handle h).busy = false) (hframed : Framed (x.packets pid) (room ++ payload))
    (hroom : room.length = minHeaderSize) (hnetIf : (x.packets pid).netIf = none)
    (halone : ∀ k ∈ x.arp.pending, (x.handle k).packet ≠ some pid)
    (hroute : below.route b.netIf.ipv4Address = .ok (0#32, netIf))
    (hdest : header.destAddress = b.netIf.ipv4Address)
    (hprotocol : header.protocol = b.protocol.protocol)
    (hlearn : Arp.CanLearn b.module.entries netIf.ipv4Address) (hworks : b.link.Works)
    (hne : netIf.ipv4Address ≠ 0#32) (hgood : ¬ Arp.Misplaced netIf b.netIf)
    (hgood' : ¬ Arp.Misplaced b.netIf netIf) :
    Waits (x.sendPacket h header pid below) h pid (sentHeader header netIf) netIf payload ∧
      ∃ question, (Arp.request x.arp netIf h b.netIf.ipv4Address below.link x.msCounter).handed =
        some question ∧
        ∀ q, Received (Ethernet.transmit netIf question.frame) q → ∃ received answer,
          b.rxFrame q = .ok received ∧ received.handed = some answer ∧
          Arp.Learned b.module.entries received.module.entries netIf.ipv4Address
            netIf.macAddress b.now ∧
          ∀ q', Received (Ethernet.transmit b.netIf answer.frame) q' → ∀ y : Node c n,
            Waits y h pid (sentHeader header netIf) netIf payload →
            y.Releases h pid netIf (sentHeader header netIf) payload b q' := by
  rw [← hdest] at hasks hroute
  refine ⟨sendPacket_waits_for hasks hfree hframed hroom hnetIf halone hroute, ?_⟩
  obtain ⟨p, -, hhanded, -⟩ := hasks.question netIf
  rw [hdest] at hhanded
  refine ⟨_, hhanded, fun q hq => ?_⟩
  have hours : Ethernet.isForUs b.netIf (Arp.requestHeader netIf).destAddress = true := by
    rw [Ethernet.isForUs, Bool.or_eq_true, decide_eq_true_eq]
    exact .inr rfl
  have hframe := b.rxFrame_came hq hours rfl
  obtain ⟨hdecode, hcount⟩ := Arp.Came.behind hq
  obtain ⟨p', hresponse⟩ := Arp.handleRequest_target b.module b.now hworks
    (show b.netIf.ipv4Address =
      (Arp.requestFrame netIf b.netIf.ipv4Address).targetProtoAddress from rfl)
  rw [if_neg hgood, Arp.rxFrame_request hcount (by rw [hdecode]; rfl) (by rw [hdecode]; rfl),
    hdecode,
    hresponse] at hframe
  exact ⟨_, _, hframe, rfl, Arp.learned_addEntry hne hlearn.room hlearn.noStatic _ _,
    fun q' hq' y hy =>
    hy.released hdest hprotocol hgood hgood' hq'⟩

/-- The first node before it has sent anything, with three bytes to send in a packet. -/
def silentNode : Node 1 1 := Node.init 1 1 (fun _ => ⟨fun _ => 5#8, 37, 64#16, 37#16, 0#32, none⟩) 0
def straight : Below := ⟨fun _ => .ok (0#32, Arp.firstNetIf 0#32), Arp.sampleLink, .ok ()⟩
def toSecond : Ipv4Header := ⟨0#32, 0xC0A80102#32, 17#8⟩

/-- The second node, on which a protocol tells the length of what it is given. -/
def secondPeer : Peer 1 1 (BitVec 16) where
  toReceiver := Arp.station (Arp.Module.init 1 1) (Arp.secondNetIf 0#32)
  protocol := ⟨17#8, fun _ header _ => header.dataLength⟩
  ipv4Protocols := [⟨17#8, fun _ header _ => header.dataLength⟩]
  ethProtocols := [ethernetProtocol [⟨17#8, fun _ header _ => header.dataLength⟩]]
  protocol_registered := rfl
  ipv4_registered := rfl

/-- The node when it waits with its packet, and the frames that are exchanged until it is called
back. -/
def askingNode : Node 1 1 := silentNode.sendPacket ⟨0, Nat.one_pos⟩ toSecond 0 straight

def firstQuestion : Option Packet :=
  (Arp.request silentNode.arp (Arp.firstNetIf 0#32) ⟨0, Nat.one_pos⟩ 0xC0A80102#32 Arp.sampleLink
    silentNode.msCounter).handed.map fun p =>
      Ethernet.filled (Ethernet.transmit (Arp.firstNetIf 0#32) p.frame)

def secondAnswer : Option Packet :=
  firstQuestion.bind fun q => (secondPeer.rxFrame q).toOption.bind fun received =>
    received.handed.map fun p =>
    Ethernet.filled (Ethernet.transmit secondPeer.netIf p.frame)

def calledNode : Option (Node 1 1) :=
  secondAnswer.bind fun q => (Ethernet.rxFrame
    [askingNode.arpProtocol Arp.sampleLink ⟨fun _ => .ok (), fun _ => .udp⟩] (Arp.firstNetIf 0#32)
      q).toOption.join

theorem filled_of_length {bs : List Byte} (h : bs.length = 64) : Received bs (Ethernet.filled bs) :=
  Ethernet.filled_received (by rw [h]; decide) (by rw [h]; decide)

/-- Three bytes to a node that nothing is known of. -/
theorem first_packet_arrives_three :
    Waits askingNode ⟨0, Nat.one_pos⟩ 0 (sentHeader toSecond (Arp.firstNetIf 0#32))
      (Arp.firstNetIf 0#32)
        [5#8, 5#8, 5#8] ∧
      (∃ question received, firstQuestion = some question ∧ secondPeer.rxFrame question =
        .ok received ∧
        Arp.Learned secondPeer.module.entries received.module.entries
          (Arp.firstNetIf 0#32).ipv4Address
          (Arp.firstNetIf 0#32).macAddress secondPeer.now) ∧
      ∃ z, calledNode = some z ∧ (z.handle ⟨0, Nat.one_pos⟩).busy = false ∧
        .handed ⟨0, Nat.one_pos⟩ 0 .success ∈ z.log ∧
        callsBetween askingNode z = [(⟨0, Nat.one_pos⟩, true)] ∧
        secondPeer.Delivers (Arp.firstNetIf 0#32) (sentHeader toSecond (Arp.firstNetIf 0#32))
          [5#8, 5#8, 5#8]
          (Ethernet.filled (Ethernet.transmit (Arp.firstNetIf 0#32) (z.packets 0).frame)) := by
  have hframed : Framed (silentNode.packets 0) (List.replicate 20 5#8 ++ [5#8, 5#8, 5#8]) :=
    ⟨by decide, by decide, by decide, by decide⟩
  have hroute : straight.route secondPeer.netIf.ipv4Address = .ok (0#32, Arp.firstNetIf 0#32) := rfl
  have harrives : Waits askingNode ⟨0, Nat.one_pos⟩ 0 (sentHeader toSecond (Arp.firstNetIf 0#32))
      (Arp.firstNetIf 0#32) [5#8, 5#8, 5#8] ∧ _ :=
    first_packet_arrives (b := secondPeer) Arp.init_asks rfl hframed rfl rfl
      (fun k hk => (List.not_mem_nil hk).elim) hroute rfl rfl (Arp.init_canLearn _)
        ⟨⟨_, rfl⟩, rfl⟩ (by decide)
      (by decide) (by decide)
  obtain ⟨hwaits, question, hquestion, hrest⟩ := harrives
  have hfirst : firstQuestion =
      some (Ethernet.filled (Ethernet.transmit (Arp.firstNetIf 0#32) question.frame)) :=
    congrArg (Option.map _) hquestion
  have hlength : (Ethernet.transmit (Arp.firstNetIf 0#32) question.frame).length = 64 := by
    have hall : ((Arp.request silentNode.arp (Arp.firstNetIf 0#32) ⟨0, Nat.one_pos⟩ 0xC0A80102#32
      Arp.sampleLink
        silentNode.msCounter).handed.all fun p =>
          (Ethernet.transmit (Arp.firstNetIf 0#32) p.frame).length = 64) =
          true := by decide +kernel
    rw [show (Arp.request silentNode.arp (Arp.firstNetIf 0#32) ⟨0, Nat.one_pos⟩ 0xC0A80102#32
      Arp.sampleLink
        silentNode.msCounter).handed = some question from hquestion] at hall
    exact of_decide_eq_true hall
  obtain ⟨received, answer, hreceived, hanswer, hlearned, hreleased⟩ :=
    hrest _ (filled_of_length hlength)
  have hsecond : secondAnswer =
      some (Ethernet.filled (Ethernet.transmit secondPeer.netIf answer.frame)) := by
    rw [secondAnswer, hfirst, Option.bind_some, hreceived]
    exact congrArg (Option.map _) hanswer
  have hlength' : (Ethernet.transmit secondPeer.netIf answer.frame).length = 64 := by
    have hall : ((firstQuestion.bind fun q => (secondPeer.rxFrame q).toOption.bind fun r =>
      r.handed).all fun p =>
        (Ethernet.transmit secondPeer.netIf p.frame).length = 64) = true := by decide +kernel
    rw [hfirst, Option.bind_some, hreceived] at hall
    change received.handed.all _ = true at hall
    rw [hanswer] at hall
    exact of_decide_eq_true hall
  obtain ⟨z, hz, hidle, hlog, hcalls, hdelivers⟩ :=
    hreleased _ (filled_of_length hlength') askingNode hwaits
    Arp.sampleLink ⟨fun _ => .ok (), fun _ => .udp⟩ [askingNode.arpProtocol Arp.sampleLink _] rfl
  have hcalled : calledNode = some z := by
    rw [calledNode, hsecond, Option.bind_some]
    exact congrArg (fun r => (Except.toOption r).join) hz
  have hlength'' : (Ethernet.transmit (Arp.firstNetIf 0#32) (z.packets 0).frame).length = 64 := by
    have hall : (calledNode.all fun z =>
        (Ethernet.transmit (Arp.firstNetIf 0#32) (z.packets 0).frame).length = 64) =
          true := by decide +kernel
    rw [hcalled] at hall
    exact of_decide_eq_true hall
  have hpending : (askingNode.arp.pending.filter fun k => (askingNode.arp.mem k).ipv4Address =
    0xC0A80102#32) =
      [⟨0, Nat.one_pos⟩] := by decide +kernel
  have hcallsAll := hcalls ((waiting_init _ 0).sendPacket _ _ _ _)
  rw [show (sentHeader toSecond (Arp.firstNetIf 0#32)).destAddress = 0xC0A80102#32 from rfl,
    hpending] at hcallsAll
  exact ⟨hwaits, ⟨_, received, hfirst, hreceived, hlearned⟩, z, hcalled, hidle, hlog, hcallsAll,
    hdelivers _ (filled_of_length hlength'')⟩

end NanoIp.Ipv4
