import NanoIp.Core.Accepted
import NanoIp.Tcp.Sent
import NanoIp.Tcp.Whole

/-!
# The passive open

Between `TCP_EVENT_ACCEPTING` and the SYN|ACK two handles are written: the accept handle gets
the endpoint of the client, and the sequence number is taken for the listening handle. What
the first of the two keeps when the SYN|ACK is refused, and what both hold when it is sent.
-/
namespace NanoIp.Tcp

variable {n : Nat}

/-- A free packet is there and the layers below accept the control frame of `a` towards `dest`. -/
def AcceptsControl (m : Stack n) (a : Fin n) (dest : Ipv4Address) (lower : Lower) : Prop :=
  ∃ pid, lower.alloc = .ok pid ∧ pid ∉ m.allocated ∧
    Ipv4.Accepts lower (m.mem a).ipv4Handle dest (allocatedPacket 0#16 (m.packets pid))

/-- The same, and it is sent at once. -/
def TransmitsControl (m : Stack n) (a : Fin n) (dest : Ipv4Address) (lower : Lower) : Prop :=
  ∃ pid, lower.alloc = .ok pid ∧ pid ∉ m.allocated ∧
    Ipv4.Transmits lower (m.mem a).ipv4Handle dest (allocatedPacket 0#16 (m.packets pid))

/-- A control frame that is refused leaves its handle alone: no packet was there for it, or the
IPv4 handle keeps no mark and the header saved for a pending packet is the same again. -/
def UnmarkedControl (m : Stack n) (a : Fin n) (lower : Lower) : Prop :=
  ∀ pid, lower.alloc = .ok pid → pid ∉ m.allocated →
    let p := allocatedPacket 0#16 (m.packets pid)
    let header := outputHeader (m.mem a) lower p
    Ipv4.Unmarked lower (m.mem a).ipv4Handle header pid p ∧
      ((m.mem a).lastTxPacket.isSome → header = (m.mem a).lastTxPacketIpv4Header)

section Control

variable (m : Stack n) (a : Fin n) (flags : Byte) (lower : Lower)

/-- A control frame asks the layers below only when there is a packet for it. -/
theorem controlResult_iff {P : Err → Prop} (hno : ∀ e : Err, e.accepted = false → ¬ P e) :
    P (controlResult m a lower) ↔ ∃ pid, lower.alloc = .ok pid ∧ pid ∉ m.allocated ∧
      P (Ipv4.sendResult lower (m.mem a).ipv4Handle (m.mem a).destIpv4Address
        (allocatedPacket 0#16 (m.packets pid))) := by
  unfold controlResult
  cases lower.alloc with
  | error e => exact iff_of_false (hno e e.2) fun ⟨pid, he, _⟩ => nomatch he
  | ok pid =>
    dsimp only
    split_ifs with hp
    · refine iff_of_false (hno _ rfl) ?_
      rintro ⟨pid', he, hp', -⟩
      rw [← Except.ok.inj he] at hp'
      exact hp' hp
    · constructor
      · exact fun hP => ⟨pid, rfl, hp, hP⟩
      · rintro ⟨pid', he, -, hP⟩
        rwa [← Except.ok.inj he] at hP

theorem controlResult_accepted_iff :
    (controlResult m a lower).accepted = true ↔
      AcceptsControl m a (m.mem a).destIpv4Address lower := by
  rw [controlResult_iff m a lower (P := fun e => e.accepted = true)
    fun e he hacc => Bool.noConfusion (he.symm.trans hacc)]
  simp only [Ipv4.sendResult_accepted_iff, AcceptsControl]

theorem controlResult_success_iff :
    controlResult m a lower = .success ↔ TransmitsControl m a (m.mem a).destIpv4Address lower := by
  rw [controlResult_iff m a lower (P := fun e => e = .success)
    fun e he hs => by rw [hs] at he; cases he]
  simp only [Ipv4.sendResult_success_iff, TransmitsControl]

/-- The handle as a transmission with this header leaves it. -/
def Handle.sends (k : Handle n) (lower : Lower) (flags : Byte) (header : Ipv4Header)
    (pid : PacketId) (p : Packet) :
    Handle n :=
  { k with
    ipv4Handle := (Ipv4.sendPacket lower k.ipv4Handle header pid
      (completePacket k flags header p)).handle
    lastTxPacketIpv4Header := if k.lastTxPacket.isSome then header else k.lastTxPacketIpv4Header }

theorem finalizeAndSendPacket_self (pid : PacketId) :
    (finalizeAndSendPacket m a flags pid lower).1.mem a =
    (m.mem a).sends lower flags (outputHeader (m.mem a) lower (m.packets pid)) pid
      (m.packets pid) := by
  unfold finalizeAndSendPacket
  dsimp only
  rw [recordHanded_mem, Stack.record_mem, Stack.wait_mem, Stack.modify_self]
  rfl

theorem sendControlFrame_without (hno : ∀ pid, lower.alloc = .ok pid → pid ∈ m.allocated) :
    (sendControlFrame m a flags lower).1 = m := by
  unfold sendControlFrame allocatePacket
  cases halloc : lower.alloc with
  | error e => rfl
  | ok pid => simp only [if_pos (hno pid halloc)]

theorem sendControlFrame_self {pid : PacketId} (halloc : lower.alloc = .ok pid)
    (hp : pid ∉ m.allocated) :
    (sendControlFrame m a flags lower).1.mem a =
      (m.mem a).sends lower flags
        (outputHeader (m.mem a) lower (allocatedPacket 0#16 (m.packets pid))) pid
        (allocatedPacket 0#16 (m.packets pid)) := by
  have hself := finalizeAndSendPacket_self (allocatePacket m (.ok pid) 0#16).1 a flags lower pid
  have hpacket : (allocatePacket m (.ok pid) 0#16).1.packets pid =
      allocatedPacket 0#16 (m.packets pid) := by
    simp only [allocatePacket, if_neg hp, Function.update_self]
  rw [allocatePacket_mem, hpacket] at hself
  rw [← hself]
  unfold sendControlFrame
  simp only [halloc, allocatePacket, if_neg hp]
  split <;> rfl

theorem sendControlFrame_unmarked_iff (hno : ¬ (controlResult m a lower).accepted = true) :
    (sendControlFrame m a flags lower).1.mem a = m.mem a ↔ UnmarkedControl m a lower := by
  by_cases hfree : ∀ pid, lower.alloc = .ok pid → pid ∈ m.allocated
  · rw [sendControlFrame_without m a flags lower hfree]
    exact iff_of_true rfl fun pid he hp => absurd (hfree pid he) hp
  · obtain ⟨pid, hpid⟩ := not_forall.mp hfree
    obtain ⟨halloc, hp⟩ := Classical.not_imp.mp hpid
    have honly {pid' : PacketId} (he : lower.alloc = .ok pid') : pid' = pid :=
      Except.ok.inj (he.symm.trans halloc)
    rw [sendControlFrame_self m a flags lower halloc hp, Handle.sends, UnmarkedControl]
    set p := allocatedPacket 0#16 (m.packets pid)
    set header := outputHeader (m.mem a) lower p
    have hret : (Ipv4.sendPacket lower (m.mem a).ipv4Handle header pid
        (completePacket (m.mem a) flags header p)).ret = controlResult m a lower := by
      rw [Ipv4.sendPacket_ret _ _ _ _ (control_size _ _ _ _), controlResult, halloc]
      exact (if_neg hp).symm
    have hmark := Ipv4.sendPacket_handle_iff (by rw [hret]; exact hno)
    constructor
    · intro hsame pid' he hp'
      obtain rfl := honly he
      refine ⟨hmark.mp (congrArg Handle.ipv4Handle hsame), fun hpending => ?_⟩
      have hheader := congrArg Handle.lastTxPacketIpv4Header hsame
      dsimp only at hheader
      rwa [if_pos hpending] at hheader
    · intro hum
      obtain ⟨hhandle, hheader⟩ := hum pid halloc hp
      rw [hmark.mpr hhandle]
      by_cases hpending : (m.mem a).lastTxPacket.isSome = true
      · rw [if_pos hpending, show header = (m.mem a).lastTxPacketIpv4Header from hheader hpending]
      · rw [if_neg hpending]

end Control

section Accept

variable {m m' : Stack n} {l a : Fin n} {seg : Segment} {accept : Option (Fin n)} {lower : Lower}

/-- The endpoint of the client and its acknowledgement number, as the accept handle takes them. -/
def Handle.meets (k : Handle n) (seg : Segment) : Handle n :=
  { k with
    ipv4Address := seg.destAddress, port := seg.destPort
    destIpv4Address := seg.srcAddress, destPort := seg.srcPort
    ackNumber := seg.seqNumber + 1#32 }

/-- The module when the SYN|ACK is built. -/
def greeting (m : Stack n) (l a : Fin n) (seg : Segment) : Stack n :=
  ((m.modify a fun k => { k with
    ipv4Address := seg.destAddress, port := seg.destPort
    destIpv4Address := seg.srcAddress, destPort := seg.srcPort }).modify l fun k => { k with
      seqNumber := m.msCounter }).modify a fun k => { k with ackNumber := seg.seqNumber + 1#32 }

theorem rxAccept_idle (ha : (m.mem a).state = .idle) : rxAccept m l seg (some a) lower =
    match sendControlFrame (greeting m l a seg) a (flagSyn ||| flagAck) lower with
    | (m, ret) =>
      if ret = .success then
        ((m.modify a fun k => { k with state := .synReceived,
                                       seqNumber := k.seqNumber + 1#32 }).startTimeout a, .ready)
      else (m, .ready) := by
  rw [rxAccept]
  exact if_pos ha

theorem greeting_accept (hne : a ≠ l) : (greeting m l a seg).mem a = (m.mem a).meets seg := by
  rw [greeting, Stack.modify_self, Stack.modify_of_ne _ _ hne, Stack.modify_self]
  rfl

theorem greeting_listen (hne : a ≠ l) :
    (greeting m l a seg).mem l = { m.mem l with seqNumber := m.msCounter } := by
  rw [greeting, Stack.modify_of_ne _ _ hne.symm, Stack.modify_self, Stack.modify_of_ne _ _ hne.symm]

theorem greeting_other {k : Fin n} (ha : k ≠ a) (hl : k ≠ l) :
    (greeting m l a seg).mem k = m.mem k := by
  rw [greeting, Stack.modify_of_ne _ _ ha, Stack.modify_of_ne _ _ hl, Stack.modify_of_ne _ _ ha]

theorem greeting_writes (P : Obs n → Prop) (m : Stack n) (l a : Fin n) (seg : Segment) :
    Writes P m (greeting m l a seg) := (((Writes.refl P m).modify _).modify _).modify _

theorem greeting_accepted_iff (hne : a ≠ l) :
    (controlResult (greeting m l a seg) a lower).accepted = true ↔
    AcceptsControl m a seg.srcAddress lower := by
  rw [controlResult_accepted_iff, AcceptsControl, greeting_accept hne]
  rfl

theorem greeting_success_iff (hne : a ≠ l) : controlResult (greeting m l a seg) a lower = .success ↔
    TransmitsControl m a seg.srcAddress lower := by
  rw [controlResult_success_iff, TransmitsControl, greeting_accept hne]
  rfl

theorem rxFrame_listen (hl : lookup m seg = some l) (hs : (m.mem l).state = .listen)
    (lower : Lower) :
    rxFrame m seg lower =
      if seg.flags = flagSyn then (m.raise l .accepting .success none, .inAccepting l seg) else
        (m, .ready) := by
  have hr : ¬ resets m l seg := fun hr => hr.2.1 hs
  rw [rxFrame, hl]
  dsimp only
  rw [rxHandle, dif_neg hr, rxAcknowledge, if_pos (.inl hs), rxStateMachine, hs]

theorem rxAccept_listen (ha : (m.mem a).state = .idle) (hne : a ≠ l) :
    (rxAccept m l seg (some a) lower).1.mem l = { m.mem l with seqNumber := m.msCounter } := by
  obtain ⟨ip, header, hm⟩ := sendControlFrame_mem (greeting m l a seg) a (flagSyn ||| flagAck) lower
  have hsent : (sendControlFrame (greeting m l a seg) a (flagSyn ||| flagAck) lower).1.mem l =
      { m.mem l with seqNumber := m.msCounter } := by
    rw [hm, Function.update_of_ne hne.symm, greeting_listen hne]
  rw [rxAccept_idle ha, sendControlFrame_eq]
  dsimp only
  split_ifs
  · rw [Stack.startTimeout, Stack.modify_of_ne _ _ hne.symm, Stack.modify_of_ne _ _ hne.symm, hsent]
  · exact hsent

theorem rxAccept_seqNumber (ha : (m.mem a).state = .idle) (hne : a ≠ l) :
    ((rxAccept m l seg (some a) lower).1.mem a).seqNumber =
      if controlResult (greeting m l a seg) a lower = .success then (m.mem a).seqNumber + 1#32
      else (m.mem a).seqNumber := by
  have hseq := (sendControlFrame_fields (greeting m l a seg) a (flagSyn ||| flagAck) lower).2.1
  rw [greeting_accept hne] at hseq
  rw [rxAccept_idle ha, sendControlFrame_eq]
  dsimp only
  split_ifs
  · rw [Stack.startTimeout, Stack.modify_self, Stack.modify_self]
    exact congrArg (· + 1#32) hseq
  · exact hseq

/-- The SYN|ACK carries the number that the accept handle has from before. -/
theorem rxAccept_outputs (ha : (m.mem a).state = .idle) (hne : a ≠ l) {answer : Segment} {ret : Err}
    (ho : .output a answer ret ∈
      newEntries (m, .inAccepting l seg) (rxAccept m l seg (some a) lower)) :
    answer.seqNumber = (m.mem a).seqNumber ∧ ret = controlResult (greeting m l a seg) a lower := by
  let P : Obs n → Prop := fun o => ∀ answer ret, o = .output a answer ret →
    answer.seqNumber = (m.mem a).seqNumber ∧ ret = controlResult (greeting m l a seg) a lower
  have hsent : Writes P m (sendControlFrame (greeting m l a seg) a (flagSyn ||| flagAck)
      lower).1 := by
    refine (greeting_writes P m l a seg).trans (sendControlFrame_logs (greeting m l a seg) a _ lower
      (fun header p answer ret he => ?_) (fun _ _ _ _ => nofun) fun _ _ _ _ => nofun)
    obtain ⟨-, rfl, rfl⟩ := Obs.output.inj he
    refine ⟨?_, rfl⟩
    change ((greeting m l a seg).mem a).seqNumber = _
    rw [greeting_accept hne]
    rfl
  have hw : Writes P m (rxAccept m l seg (some a) lower).1 := by
    rw [rxAccept_idle ha, sendControlFrame_eq]
    dsimp only
    split_ifs
    · exact (hsent.modify _).startTimeout
    · exact hsent
  exact Writes.entries (x := (m, .inAccepting l seg)) hw ho answer ret rfl

theorem rxAccept_output (ha : (m.mem a).state = .idle)
    (hacc : (controlResult (greeting m l a seg) a lower).accepted = true) : ∃ answer,
    .output a answer (controlResult (greeting m l a seg) a lower) ∈
      newEntries (m, .inAccepting l seg) (rxAccept m l seg (some a) lower) := by
  obtain ⟨header, p, rest, hlog⟩ := sendControlFrame_log (greeting m l a seg) a
    (flagSyn ||| flagAck) lower hacc
  have hy : (rxAccept m l seg (some a) lower).1.log =
      (sendControlFrame (greeting m l a seg) a (flagSyn ||| flagAck) lower).1.log := by
    rw [rxAccept_idle ha, sendControlFrame_eq]
    dsimp only
    split_ifs <;> rfl
  refine ⟨outputSegment ((greeting m l a seg).mem a) (flagSyn ||| flagAck) header p, ?_⟩
  rw [newEntries_eq (x := (m, .inAccepting l seg)) (hy.trans hlog)]
  exact List.mem_cons_self

end Accept

/-- Handle `a` is opened to accept with, and handle `l` listens. -/
def awaitClient (l a : Fin n) : List (Input n) :=
  [.open_ a 6000#16 [], .open_ l 5000#16 [], .listen l]

def clientSegment (srcPort : BitVec 16) : Segment :=
  { peerSegment 9#32 0#32 flagSyn [] with srcPort := srcPort }

theorem accepted_resource : Err.resource.accepted = false := rfl

def exhausted : Lower := { transmitting 0 with alloc := .error ⟨.resource, accepted_resource⟩ }

/-- A passive open whose SYN|ACK is refused is undone: the accept handle has the fields from before,
or is closed and told so, and when the client tries again the listening handle asks anew. -/
structure Undone (m : Stack n) (l a : Fin n) (seg : Segment) (lower : Lower) : Prop where
  reclaimed : (rxAccept m l seg (some a) lower).1.mem a = m.mem a ∨
    ((rxAccept m l seg (some a) lower).1.mem a).state = .closed ∧ ∃ error packet,
      .raised a .acceptFailed error packet ∈
        newEntries (m, .inAccepting l seg) (rxAccept m l seg (some a) lower)
  again : ∀ ms lower', (rxFrame ((rxAccept m l seg (some a) lower).1.wait ms) seg lower').2 =
    .inAccepting l seg

/-- The condition: the accept handle carries the client's endpoint and acknowledges its SYN
already, and the layers below refuse without a mark. -/
def Unaltered (m : Stack n) (a : Fin n) (seg : Segment) (lower : Lower) : Prop :=
  (m.mem a).meets seg = m.mem a ∧ UnmarkedControl m a lower

section Refusal

variable {m : Stack n} {l a : Fin n} {seg : Segment} {lower : Lower}

theorem rxAccept_refused (ha : (m.mem a).state = .idle) (hne : a ≠ l)
    (hno : ¬ AcceptsControl m a seg.srcAddress lower) : rxAccept m l seg (some a) lower =
      ((sendControlFrame (greeting m l a seg) a (flagSyn ||| flagAck) lower).1, .ready) := by
  rw [rxAccept_idle ha, sendControlFrame_eq]
  refine if_neg fun hok => hno ((greeting_accepted_iff hne).mp ?_)
  rw [hok]
  rfl

theorem lookup_congr {m m' : Stack n} (hh : m'.handles = m.handles)
    (hk : ∀ k, (m'.mem k).next = (m.mem k).next ∧ (m'.mem k).port = (m.mem k).port ∧
      (m'.mem k).destPort = (m.mem k).destPort) (seg : Segment) : lookup m' seg = lookup m seg := by
  have hreg : m'.registered = m.registered := by
    rw [Stack.registered, Stack.registered, hh]
    exact congrArg (Lib.chain · n m.handles) (funext fun k => (hk k).1)
  have hin (l : List (Fin n)) : ∀ could, lookupIn m' seg could l = lookupIn m seg could l := by
    induction l with
    | nil => exact fun _ => rfl
    | cons k l ih => intro could; simp only [lookupIn, (hk k).2.1, (hk k).2.2, ih]
  rw [lookup, lookup, hreg, hin]

theorem Handle.meets_of_conn {k : Handle n} (hk : (k.meets seg).conn = k.conn) :
    k.meets seg = k := by
  simp only [Handle.meets, Handle.conn, Handle.mk.injEq] at hk
  obtain ⟨h1, h2, h3, h4, -, -, -, h8, -⟩ := hk
  rw [Handle.meets, h1, h2, h3, h4, h8]

/-- Where nothing but the number of the listening handle changed, the client's next SYN reaches
it. -/
theorem rxFrame_again (hl : lookup m seg = some l) (hs : (m.mem l).state = .listen)
    (hf : seg.flags = flagSyn) {m' : Stack n} (hh : m'.handles = m.handles)
    (ha : m'.mem a = m.mem a) (hlisten : m'.mem l = { m.mem l with seqNumber := m.msCounter })
    (hother : ∀ k, k ≠ a → k ≠ l → m'.mem k = m.mem k) (lower : Lower) :
    (rxFrame m' seg lower).2 = .inAccepting l seg := by
  have hl' : lookup m' seg = some l := by
    rw [lookup_congr hh fun k => ?_, hl]
    by_cases hka : k = a
    · rw [hka, ha]
      exact ⟨rfl, rfl, rfl⟩
    by_cases hkl : k = l
    · rw [hkl, hlisten]
      exact ⟨rfl, rfl, rfl⟩
    · rw [hother k hka hkl]
      exact ⟨rfl, rfl, rfl⟩
  have hs' : (m'.mem l).state = .listen := by rw [hlisten]; exact hs
  rw [rxFrame_listen hl' hs', if_pos hf]

/-- A refused SYN|ACK is undone exactly when there was nothing to undo. -/
theorem undone_iff (hl : lookup m seg = some l) (hs : (m.mem l).state = .listen)
    (hf : seg.flags = flagSyn) (ha : (m.mem a).state = .idle)
    (hno : ¬ AcceptsControl m a seg.srcAddress lower) :
    Undone m l a seg lower ↔ Unaltered m a seg lower := by
  have hne : a ≠ l := by
    rintro rfl
    cases ha.symm.trans hs
  have hy := rxAccept_refused (l := l) ha hne hno
  have hrefused : ¬ (controlResult (greeting m l a seg) a lower).accepted = true :=
    fun hacc => hno ((greeting_accepted_iff hne).mp hacc)
  have hmark := sendControlFrame_unmarked_iff (greeting m l a seg) a (flagSyn ||| flagAck)
    lower hrefused
  have hconn := sendControlFrame_conn (greeting m l a seg) a (flagSyn ||| flagAck) lower a
  rw [greeting_accept hne] at hmark hconn
  constructor
  · rintro ⟨hre | ⟨hclosed, -⟩, -⟩
    · rw [hy] at hre
      dsimp only at hre
      rw [hre] at hconn hmark
      have hmeets := Handle.meets_of_conn hconn.symm
      rw [hmeets] at hmark
      refine ⟨hmeets, fun pid halloc hp => ?_⟩
      have hum := hmark.mp rfl pid halloc hp
      rw [greeting_accept hne, hmeets] at hum
      exact hum
    · have hstate := congrArg Handle.state hconn
      rw [hy] at hclosed
      rw [Handle.conn_state, hclosed] at hstate
      cases hstate.trans ha
  · rintro ⟨hmeets, hum⟩
    rw [hmeets] at hmark
    have hsame : (rxAccept m l seg (some a) lower).1.mem a = m.mem a := by
      rw [hy]
      refine hmark.mpr fun pid halloc hp => ?_
      rw [greeting_accept hne, hmeets]
      exact hum pid halloc hp
    refine ⟨.inl hsame, fun ms lower' => ?_⟩
    apply rxFrame_again (a := a) hl hs hf
    · change (rxAccept m l seg (some a) lower).1.handles = _
      rw [hy]
      exact sendControlFrame_handles _ _ _ _
    · exact hsame
    · exact rxAccept_listen ha hne
    · intro k hka hkl
      obtain ⟨ip, header, hm⟩ := sendControlFrame_mem (greeting m l a seg) a
        (flagSyn ||| flagAck) lower
      rw [hy, Stack.wait_mem]
      dsimp only
      rw [hm, Function.update_of_ne hka, greeting_other hka hkl]

end Refusal

/-- A client with source port zero tries again: the listening handle is its perfect match, and the
accept handle carries its endpoint from the first time. -/
theorem undone_iff_again : ∃ m : Stack 2, Lib.Reach step Lib.anyStep
    (initial 2 (fun _ => blankPacket) portPoolStart 7) (m, .inAccepting 0 (clientSegment 0#16)) ∧
      Undone m 0 1 (clientSegment 0#16) exhausted := by
  obtain ⟨⟨m, pc⟩, hr, hx⟩ := Lib.exists_of_runInputs step Lib.anyStep
    (initial 2 (fun _ => blankPacket) portPoolStart 7) (awaitClient 0 1 ++
      [.rxFrame (clientSegment 0#16) exhausted, .ret true (some 1) exhausted,
        .rxFrame (clientSegment 0#16) exhausted])
    (fun x => x.2 = .inAccepting 0 (clientSegment 0#16) ∧ lookup x.1 (clientSegment 0#16) = some 0 ∧
      (x.1.mem 0).state = .listen ∧ (x.1.mem 1).state = .idle ∧ (x.1.mem 1).ipv4Address =
        0x0A000001#32 ∧
      (x.1.mem 1).port = 5000#16 ∧ (x.1.mem 1).destIpv4Address = 0x0A000002#32 ∧
        (x.1.mem 1).destPort = 0#16 ∧
      (x.1.mem 1).ackNumber = 10#32) (by decide)
  obtain ⟨hpc, hl, hs, hidle, h1, h2, h3, h4, h5⟩ := of_decide_eq_true hx
  dsimp only at hpc hl hs hidle h1 h2 h3 h4 h5
  subst hpc
  have hno : ¬ AcceptsControl m 1 (clientSegment 0#16).srcAddress exhausted :=
    fun ⟨_, he, _⟩ => nomatch he
  refine ⟨m, hr, (undone_iff hl hs rfl hidle hno).mpr ⟨?_, fun _ he => nomatch he⟩⟩
  have hmeets : (m.mem 1).meets (clientSegment 0#16) = { m.mem 1 with
      ipv4Address := 0x0A000001#32, port := 5000#16,
        destIpv4Address := 0x0A000002#32, destPort := 0#16,
      ackNumber := 10#32 } := rfl
  rw [hmeets, ← h1, ← h2, ← h3, ← h4, ← h5]

/-- A first SYN that finds no packet leaves the accept handle on the client's ports. -/
theorem refused_open_kept :
    ¬ ∀ (n : Nat) (packets : PacketId → Packet) (port : BitVec 16) (time : Nat)
    (m : Stack n) (l a : Fin n) (seg : Segment) (lower : Lower),
    Lib.Reach step Lib.anyStep (initial n packets port time) (m, .inAccepting l seg) →
    lookup m seg = some l → (m.mem l).state = .listen → seg.flags = flagSyn →
      (m.mem a).state = .idle →
    ¬ AcceptsControl m a seg.srcAddress lower → Undone m l a seg lower := by
  intro hall
  obtain ⟨⟨m, pc⟩, hr, hx⟩ := Lib.exists_of_runInputs step Lib.anyStep
    (initial 2 (fun _ => blankPacket) portPoolStart 7)
    (awaitClient 0 1 ++ [Input.rxFrame (clientSegment 80#16) exhausted])
    (fun x => x.2 = .inAccepting 0 (clientSegment 80#16) ∧
      lookup x.1 (clientSegment 80#16) = some 0 ∧
      (x.1.mem 0).state = .listen ∧ (x.1.mem 1).state = .idle ∧ (x.1.mem 1).port =
        6000#16) (by decide)
  obtain ⟨hpc, hl, hs, hidle, hport⟩ := of_decide_eq_true hx
  dsimp only at hpc hl hs hidle hport
  subst hpc
  have hno : ¬ AcceptsControl m 1 (clientSegment 80#16).srcAddress exhausted :=
    fun ⟨_, he, _⟩ => nomatch he
  have hkept : (rxAccept m 0 (clientSegment 80#16) (some 1) exhausted).1.mem 1 =
      (m.mem 1).meets (clientSegment 80#16) := by
    rw [rxAccept_refused hidle (by decide) hno]
    exact greeting_accept (by decide)
  rcases (hall 2 _ _ _ m 0 1 _ exhausted hr hl hs rfl hidle hno).reclaimed with hsame | ⟨hclosed, -⟩
  · have h5000 := congrArg Handle.port (hkept.symm.trans hsame)
    rw [hport] at h5000
    cases h5000
  · rw [hkept] at hclosed
    exact absurd (hidle.symm.trans hclosed) (by decide)

/-- What `NANO_IP_TCP_RxFrame` itself does on a listening handle, `m` being the module at its call
and `m'` the one to which the callback returns: the listening handle keeps every field, and a
SYN|ACK that the layers below accept carries the reading of the counter, one below the number of
the accept handle. -/
structure TouchesAccepted (m m' : Stack n) (l : Fin n) (seg : Segment) (accept : Option (Fin n))
    (lower : Lower) :
    Prop where
  asking : (rxFrame m seg lower).1.mem l = m.mem l
  answering : (rxFrame m seg lower).2 = .inAccepting l seg →
    (rxAccept m' l seg accept lower).1.mem l = m'.mem l
  numbered : (rxFrame m seg lower).2 = .inAccepting l seg → ∀ a answer ret, accept = some a →
    .output a answer ret ∈ newEntries (m', .inAccepting l seg) (rxAccept m' l seg accept lower) →
    ret.accepted = true → answer.seqNumber = m'.msCounter ∧
      ((rxAccept m' l seg accept lower).1.mem a).seqNumber = answer.seqNumber + 1#32

/-- The condition: the client is not answered; or the listening handle holds the reading already,
and so does the accept handle if the SYN|ACK is accepted, which then is sent at once. -/
def AlreadyNumbered (m' : Stack n) (l : Fin n) (seg : Segment) (accept : Option (Fin n))
    (lower : Lower) : Prop :=
  seg.flags = flagSyn → ∀ a, accept = some a → (m'.mem a).state = .idle →
    (m'.mem l).seqNumber = m'.msCounter ∧ (AcceptsControl m' a seg.srcAddress lower →
      (m'.mem a).seqNumber = m'.msCounter ∧ TransmitsControl m' a seg.srcAddress lower)

/-- The reading goes to the wrong handle, so a reception touches the accepted connection alone, and
numbers it by the reading, exactly when the reading is there already. -/
theorem touchesAccepted_iff {m m' : Stack n} {l : Fin n} {seg : Segment} (accept : Option (Fin n))
    (lower : Lower) (hl : lookup m seg = some l) (hs : (m.mem l).state = .listen)
    (hs' : (m'.mem l).state = .listen) :
    TouchesAccepted m m' l seg accept lower ↔ AlreadyNumbered m' l seg accept lower := by
  have hrx := rxFrame_listen hl hs lower
  by_cases hf : seg.flags = flagSyn
  swap
  · rw [if_neg hf] at hrx
    have hno : (rxFrame m seg lower).2 ≠ .inAccepting l seg := by rw [hrx]; exact nofun
    exact iff_of_true ⟨by rw [hrx], fun h => absurd h hno, fun h => absurd h hno⟩ fun h =>
      absurd h hf
  rw [if_pos hf] at hrx
  have hpc : (rxFrame m seg lower).2 = .inAccepting l seg := by rw [hrx]
  have hask : (rxFrame m seg lower).1.mem l = m.mem l := by rw [hrx]; rfl
  cases accept with
  | none => exact iff_of_true ⟨hask, fun _ => rfl, fun _ a _ _ he => nomatch he⟩ fun _ a he =>
      nomatch he
  | some a =>
    by_cases ha : (m'.mem a).state = .idle
    swap
    · have hraise : rxAccept m' l seg (some a) lower =
          (m'.raise a .acceptFailed .invalidTcpState none, .inCallback) := by
        rw [rxAccept]
        exact if_neg ha
      refine iff_of_true ⟨hask, fun _ => by rw [hraise]; rfl, fun _ b answer ret _ ho => ?_⟩
        fun _ b hb hidle => ?_
      · rw [hraise, newEntries_eq (x := (m', .inAccepting l seg)) (Stack.record_log _ _)] at ho
        cases List.mem_singleton.mp ho
      · exact absurd (Option.some.inj hb ▸ hidle) ha
    have hne : a ≠ l := by
      rintro rfl
      cases ha.symm.trans hs'
    constructor
    · rintro ⟨-, hanswer, hnumber⟩ - b hb -
      obtain rfl := Option.some.inj hb
      have hlisten := hanswer hpc
      rw [rxAccept_listen ha hne] at hlisten
      refine ⟨(congrArg Handle.seqNumber hlisten).symm, fun hacc => ?_⟩
      have hres := (greeting_accepted_iff hne).mpr hacc
      obtain ⟨answer, ho⟩ := rxAccept_output ha hres
      obtain ⟨hread, hone⟩ := hnumber hpc a answer _ rfl ho hres
      obtain ⟨hseq, -⟩ := rxAccept_outputs ha hne ho
      refine ⟨hseq.symm.trans hread, (greeting_success_iff hne).mp ?_⟩
      rw [rxAccept_seqNumber ha hne, hseq] at hone
      by_contra hno
      rw [if_neg hno] at hone
      bv_omega
    · intro hnum
      obtain ⟨hlisten, hsent⟩ := hnum hf a rfl ha
      refine ⟨hask, fun _ => ?_, fun _ b answer ret hb ho hret => ?_⟩
      · rw [rxAccept_listen ha hne, ← hlisten]
      · obtain rfl := Option.some.inj hb
        obtain ⟨hseq, rfl⟩ := rxAccept_outputs ha hne ho
        obtain ⟨hread, htransmit⟩ := hsent ((greeting_accepted_iff hne).mp hret)
        rw [rxAccept_seqNumber ha hne, if_pos ((greeting_success_iff hne).mpr htransmit), hseq]
        exact ⟨hread, rfl⟩

/-- On freshly opened handles at start, when the counter reads zero, the answer is right. -/
theorem touchesAccepted_iff_zero : ∃ m : Stack 2,
    Lib.Reach step Lib.anyStep (initial 2 (fun _ => blankPacket) portPoolStart 0) (m, .ready) ∧
      TouchesAccepted m (m.raise 0 .accepting .success none) 0 (clientSegment 80#16) (some 1)
        (transmitting 3) := by
  obtain ⟨⟨m, pc⟩, hr, hx⟩ := Lib.exists_of_runInputs step Lib.anyStep
    (initial 2 (fun _ => blankPacket) portPoolStart 0) (awaitClient 0 1)
    (fun x => x.2 = .ready ∧ lookup x.1 (clientSegment 80#16) = some 0 ∧
      (x.1.mem 0).state = .listen ∧ (x.1.mem 0).seqNumber = 0#32 ∧ (x.1.mem 1).seqNumber = 0#32 ∧
        x.1.time = 0 ∧
      (x.1.mem 1).ipv4Handle.busy = false ∧ x.1.allocated = []) (by decide)
  obtain ⟨hpc, hl, hs, hseq, hseq', ht, hb, hall⟩ := of_decide_eq_true hx
  dsimp only at hpc hl hs hseq hseq' ht hb hall
  subst hpc
  have hms : m.msCounter = 0#32 := by rw [Stack.msCounter, ht]
  have hs' : ((m.raise 0 .accepting .success none).mem 0).state = .listen := hs
  refine ⟨m, hr, (touchesAccepted_iff (some 1) (transmitting 3) hl hs hs').mpr fun _ a ha _ => ?_⟩
  obtain rfl := Option.some.inj ha
  refine ⟨hseq.trans hms.symm, fun _ => ⟨hseq'.trans hms.symm, 3, rfl, ?_, hb, _, rfl, rfl⟩⟩
  change 3 ∉ m.allocated
  rw [hall]
  exact List.not_mem_nil

/-- Seven milliseconds later the listening handle is renumbered by its first client. -/
theorem listening_renumbered :
    ¬ ∀ (n : Nat) (packets : PacketId → Packet) (port : BitVec 16) (time : Nat)
    (m m' : Stack n) (l : Fin n) (seg : Segment) (accept : Option (Fin n)) (lower : Lower),
    Lib.Reach step Lib.anyStep (initial n packets port time) (m, .ready) →
    Lib.Reach step Lib.anyStep (rxFrame m seg lower) (m', .inAccepting l seg) →
    lookup m seg = some l → (m.mem l).state = .listen → (m'.mem l).state = .listen →
    TouchesAccepted m m' l seg accept lower := by
  intro hall
  obtain ⟨⟨m, pc⟩, hr, hx⟩ := Lib.exists_of_runInputs step Lib.anyStep
    (initial 2 (fun _ => blankPacket) portPoolStart 7) (awaitClient 0 1)
    (fun x => x.2 = .ready ∧ lookup x.1 (clientSegment 80#16) = some 0 ∧
      (x.1.mem 0).state = .listen ∧ (x.1.mem 0).seqNumber = 0#32 ∧ (x.1.mem 1).state = .idle ∧
        x.1.time = 7)
    (by decide)
  obtain ⟨hpc, hl, hs, hseq, hidle, ht⟩ := of_decide_eq_true hx
  dsimp only at hpc hl hs hseq hidle ht
  subst hpc
  have hrx := (rxFrame_listen hl hs (transmitting 3)).trans (if_pos rfl)
  have hkeep := (hall 2 _ _ _ m (m.raise 0 .accepting .success none) 0 _ (some 1)
    (transmitting 3) hr
    (hrx ▸ .refl) hl hs hs).answering (by rw [hrx])
  rw [rxAccept_listen (m := m.raise 0 .accepting .success none) hidle (by decide)] at hkeep
  have hnum : m.msCounter = 0#32 := (congrArg Handle.seqNumber hkeep).trans hseq
  rw [Stack.msCounter, ht] at hnum
  exact absurd hnum (by decide)

end NanoIp.Tcp
