import NanoIp.Arp.Resolve
import NanoIp.Ipv4.Settled

/-!
# What becomes of a queued packet

The log of a handle is read as a sequence of sends: a packet is queued, later called
back, given to the driver or released, and then the error callback is called. A packet
that the callback cannot send is neither; this happens when the driver refuses it or
when it is too short for its header.
-/
namespace NanoIp.Ipv4

variable {c n : Nat}

/-- The entries about the queued sends of a handle. -/
def Obs.isAbout (h : Fin n) : Obs n → Bool
  | .inProgress k _ _ | .called k _ | .handed k _ _ | .released k _ | .errorCallback k _ _ => k = h
  | .sent _ _ _ => false

def Node.entries (x : Node c n) (h : Fin n) : List (Obs n) := x.log.filter (Obs.isAbout h)

def Node.kept (x : Node c n) (h : Fin n) : Option PacketId :=
  if (x.handle h).busy then (x.handle h).packet else none

/-- The entries of a handle, each queued packet accepted by the driver or released, once,
before the error callback is called, once; and the packet that is still queued. -/
inductive Disposed (h : Fin n) : List (Obs n) → Option PacketId → Prop
  | nothing : Disposed h [] none
  | queued {entries : List (Obs n)} (pid : PacketId) (due : Nat) :
    Disposed h entries none → Disposed h (entries ++ [.inProgress h pid due]) (some pid)
  | accepted {entries : List (Obs n)} {pid : PacketId} (notice : Option Notice) :
    Disposed h entries (some pid) →
      Disposed h (entries ++ [.called h true, .handed h pid .success,
        .errorCallback h .success notice]) none
  | released {entries : List (Obs n)} {pid : PacketId} (notice : Option Notice) :
    Disposed h entries (some pid) →
      Disposed h (entries ++ [.called h false, .released h pid,
        .errorCallback h .arpFailure notice]) none

/-- The driver accepts the packet of a handle, and the packet has room for its header. -/
def Taken (reply : Reply n) (x : Node c n) (h : Fin n) : Prop :=
  reply.driver h = .ok () ∧ ∀ pid ∈ (x.handle h).packet, ¬ (x.packets pid).count < minPacketSize

instance (reply : Reply n) (x : Node c n) (h : Fin n) : Decidable (Taken reply x h) :=
  inferInstanceAs (Decidable (_ ∧ _))

/-- Every callback of a pass finds its packet taken, one after the other. -/
def AllTaken (reply : Reply n) : Node c n → List (Fin n) → Prop
  | _, [] => True
  | x, h :: calls => Taken reply x h ∧ AllTaken reply (x.arpResponseCallback true reply h) calls

instance decidableAllTaken (reply : Reply n) : (x : Node c n) → (calls : List (Fin n)) →
    Decidable (AllTaken reply x calls)
  | _, [] => inferInstanceAs (Decidable True)
  | x, h :: calls =>
    let _ := decidableAllTaken reply (x.arpResponseCallback true reply h) calls
    inferInstanceAs (Decidable (_ ∧ _))

/-- The packets of the requests that a frame answers are taken. -/
def AnswersTaken (x : Node c n) : Input c n → Prop
  | .rxFrame netIf p link reply =>
    let received := Arp.rxFrame x.arp netIf p link x.msCounter
    AllTaken reply { x with arp := received.module, time := x.time + link.elapsed } received.calls
  | _ => True

instance (x : Node c n) : (i : Input c n) → Decidable (AnswersTaken x i)
  | .rxFrame netIf p link reply =>
    let received := Arp.rxFrame x.arp netIf p link x.msCounter
    decidableAllTaken reply { x with arp := received.module, time := x.time + link.elapsed }
      received.calls
  | .sendPacket _ _ _ _ | .releaseHandle _ _ | .periodicTask _ | .elapse _ | .compose _ _ =>
    inferInstanceAs (Decidable True)

/-- What holds of the packets while the requests `calls` are still to be called back. -/
structure Filed (calls : List (Fin n)) (x : Node c n) : Prop where
  waiting : Waiting calls x
  netIf : ∀ h, (x.handle h).busy = true → ∃ netIf, (x.handle h).netIf = some netIf
  disposed : ∀ h, Disposed h (x.entries h) (x.kept h)

theorem filed_init (packets : PacketId → Packet) (time : Nat) :
    Filed [] (Node.init c n packets time) :=
  ⟨waiting_init packets time, nofun, fun _ => .nothing⟩

section Callbacks

variable {x : Node c n} {h : Fin n} {pid : PacketId} {reply : Reply n} {calls : List (Fin n)}

theorem finalize_taken (hp : (x.handle h).packet = some pid) {netIf : NetIf}
    (hn : (x.handle h).netIf = some netIf) (ht : Taken reply x h) :
    (x.finalize reply h pid).handed = true ∧ (x.finalize reply h pid).ret = .success := by
  obtain ⟨q, hq⟩ := fillHeader_ok (x.handle h).header (ht.2 pid hp)
  simp only [Node.finalize, finalizeSendPacket, hq, hn, ht.1, driverErr, and_self]

theorem arpResponseCallback_entries (success : Bool) (hp : (x.handle h).packet = some pid)
    (k : Fin n) :
    (x.arpResponseCallback success reply h).entries k =
      x.entries k ++ if h = k then callbackLog x success reply h pid else [] := by
  rw [Node.entries, arpResponseCallback_log success reply hp, List.filter_append, Node.entries]
  congr 1
  unfold callbackLog
  cases success with
  | true =>
    dsimp only
    cases (x.finalize reply h pid).handed <;> by_cases hk : h = k <;> simp [Obs.isAbout, hk]
  | false => by_cases hk : h = k <;> simp [Obs.isAbout, hk]

/-- A callback disposes of its packet. -/
theorem Filed.callback (hf : Filed (h :: calls) x) (success : Bool)
    (ht : success = true → Taken reply x h) :
    Filed calls (x.arpResponseCallback success reply h) := by
  have hbusy : (x.handle h).busy = true := (hf.waiting.busy h).mpr (by simp)
  obtain ⟨pid, hp⟩ := hf.waiting.packet h hbusy
  obtain ⟨netIf, hn⟩ := hf.netIf h hbusy
  have hidle := arpResponseCallback_idle success reply hp
  have hkept : x.kept h = some pid := by rw [Node.kept, if_pos hbusy, hp]
  refine ⟨hf.waiting.callback success reply, fun k hk => ?_, fun k => ?_⟩
  · have hne : k ≠ h := by
      rintro rfl
      rw [hidle] at hk
      cases hk
    rw [arpResponseCallback_other x success reply h hne] at hk ⊢
    exact hf.netIf k hk
  · have hd := hf.disposed k
    rw [arpResponseCallback_entries success hp k]
    by_cases hk : h = k
    · subst hk
      rw [hkept] at hd
      rw [if_pos rfl, Node.kept, hidle, if_neg Bool.false_ne_true]
      unfold callbackLog
      cases success with
      | true =>
        obtain ⟨hhanded, hret⟩ := finalize_taken hp hn (ht rfl)
        dsimp only
        rw [hhanded, hret]
        exact hd.accepted _
      | false => exact hd.released _
    · rw [if_neg hk, List.append_nil, Node.kept, arpResponseCallback_other x success reply h
        (Ne.symm hk)]
      exact hd

theorem Filed.callBack_failed : ∀ {calls : List (Fin n)} {x : Node c n}, Filed calls x →
    Filed [] (x.callBack false reply calls) := by
  intro calls
  induction calls with
  | nil => exact fun hf => hf
  | cons h calls ih => exact fun hf => ih (hf.callback false nofun)

theorem Filed.callBack_answered : ∀ {calls : List (Fin n)} {x : Node c n}, Filed calls x →
    AllTaken reply x calls → Filed [] (x.callBack true reply calls) := by
  intro calls
  induction calls with
  | nil => exact fun hf _ => hf
  | cons h calls ih => exact fun hf ht => ih (hf.callback true fun _ => ht.1) ht.2

end Callbacks

section Steps

variable {x y : Node c n}

theorem Filed.quiet (hf : Filed [] x) (hq : Quiet x y) : Filed [] y := by
  obtain ⟨new, hlog, hnew⟩ := hq.log
  refine ⟨hf.waiting.quiet hq, fun h hb => ?_, fun h => ?_⟩
  · rw [hq.busy] at hb
    rw [hq.handle h hb]
    exact hf.netIf h hb
  · have hnil : new.filter (Obs.isAbout h) = [] := by
      refine List.filter_eq_nil_iff.mpr fun o ho => ?_
      have hdirect := hnew o ho
      cases o <;> first | exact Bool.false_ne_true | cases hdirect
    have hkept : y.kept h = x.kept h := by
      rw [Node.kept, Node.kept, hq.busy]
      cases hb : (x.handle h).busy with
      | true => rw [hq.handle h hb]
      | false => rfl
    rw [hkept, Node.entries, hlog, List.filter_append, hnil, List.append_nil]
    exact hf.disposed h

theorem Filed.queues {h : Fin n} {pid : PacketId} (hf : Filed [] x) (hq : Queues x y h pid) :
    Filed [] y := by
  obtain ⟨k, netIf, hhandle, hk, hpacket, hnet⟩ := hq.handle
  obtain ⟨_, due, _, _, _, hlog⟩ := hq.request
  have hself : y.handle h = k := by rw [hhandle, Function.update_self]
  have hother : ∀ j, j ≠ h → y.handle j = x.handle j :=
    fun j hj => by rw [hhandle, Function.update_of_ne hj]
  refine ⟨hf.waiting.queues hq, fun j hb => ?_, fun j => ?_⟩
  · by_cases hj : j = h
    · subst hj
      exact ⟨netIf, by rw [hself, hnet]⟩
    · rw [hother j hj] at hb ⊢
      exact hf.netIf j hb
  · have hd := hf.disposed j
    rw [Node.entries, hlog, List.filter_append]
    by_cases hj : j = h
    · subst hj
      rw [Node.kept, hq.idle, if_neg Bool.false_ne_true] at hd
      have hone : [Obs.inProgress j pid due].filter (Obs.isAbout j) = [.inProgress j pid due] := by
        simp [Obs.isAbout]
      rw [hone, Node.kept, hself, if_pos hk, hpacket]
      exact hd.queued pid due
    · have hnil : [Obs.inProgress h pid due].filter (Obs.isAbout j) = [] := by
        simp [Obs.isAbout, Ne.symm hj]
      rw [hnil, List.append_nil, Node.kept, hother j hj]
      exact hd

/-- The conditions under which every queued packet is disposed of. -/
def Kindly (x : Node c n) (i : Input c n) : Prop := CancelsAlone x i ∧ AnswersTaken x i

instance (x : Node c n) (i : Input c n) : Decidable (Kindly x i) :=
  inferInstanceAs (Decidable (_ ∧ _))

theorem Filed.step {i : Input c n} (hf : Filed [] x) (hc : Kindly x i) (hs : step x i = some y) :
    Filed [] y := by
  have hw := hf.waiting
  cases i with
  | sendPacket h header pid below =>
    obtain rfl := Option.some.inj hs
    rcases sendPacket_cases x h header pid below with hq | hq
    · exact hf.quiet hq
    · exact hf.queues hq
  | releaseHandle h reply =>
    obtain rfl := Option.some.inj hs
    unfold Node.releaseHandle
    by_cases hb : (x.handle h).busy = true
    · have hin : h ∈ x.arp.pending := by simpa using (hw.busy h).mp hb
      obtain ⟨hcalled, -, hout⟩ := hw.takeCancelled hin hc.1
      rw [if_pos hb]
      dsimp only
      rw [hcalled]
      exact Filed.callBack_failed ⟨hout, hf.netIf, hf.disposed⟩
    · rwa [if_neg hb]
  | rxFrame netIf p link reply =>
    obtain ⟨hcalled, -, hout⟩ := hw.takeAnswered netIf p link
    have ht := hc.2
    obtain rfl := Option.some.inj hs
    rw [← hcalled] at hout
    exact Filed.callBack_answered ⟨hout, hf.netIf, hf.disposed⟩ ht
  | periodicTask reply =>
    obtain ⟨hcalled, -, hout⟩ := hw.takeDue
    obtain rfl := Option.some.inj hs
    rw [← hcalled] at hout
    exact Filed.callBack_failed ⟨hout, hf.netIf, hf.disposed⟩
  | elapse ms =>
    obtain rfl := Option.some.inj hs
    exact ⟨⟨hw.listed, hw.nodup, hw.busy, hw.packet, hw.started, hw.ended, hw.due⟩, hf.netIf,
      hf.disposed⟩
  | compose pid p =>
    obtain rfl := Option.some.inj hs
    exact ⟨⟨hw.listed, hw.nodup, hw.busy, hw.packet, hw.started, hw.ended, hw.due⟩, hf.netIf,
      hf.disposed⟩

end Steps

/-- In every state reached, each queued packet of a handle was accepted by the driver or
released, once, before the error callback was called, once; or it is the one the handle
is busy with. -/
theorem queued_packets_are_disposed (packets : PacketId → Packet) (time : Nat) {x : Node c n}
    (hr : Lib.Reach step Kindly (Node.init c n packets time) x) (h : Fin n) :
    Disposed h (x.entries h) (x.kept h) ∧
      ((x.handle h).busy = true ↔ (x.kept h).isSome = true) := by
  have hinv : Filed [] x := hr.invariant (I := Filed []) (filed_init packets time)
    fun _ _ _ hf hc hs => hf.step hc hs
  refine ⟨hinv.disposed h, ?_⟩
  rw [Node.kept]
  cases hb : (x.handle h).busy with
  | true =>
    obtain ⟨pid, hp⟩ := hinv.waiting.packet h hb
    rw [if_pos rfl, hp]
    exact ⟨fun _ => rfl, fun _ => rfl⟩
  | false => exact ⟨nofun, nofun⟩

/-- A response from another node, received by the interface of the sends. -/
def answerFrom (ip : Ipv4Address) (driver : Except Failure Unit) : Input 2 2 :=
  .rxFrame Arp.sampleNetIf (Arp.receivedPacket (Arp.responseFrame ⟨Arp.sampleMac 2, ip, 0#32⟩
    (Arp.requestFrame Arp.sampleNetIf ip))) Arp.sampleLink ⟨fun _ => driver, fun _ => .udp⟩

/-- One packet is sent after a response, one is released after a timeout. -/
theorem queued_packets_are_disposed_sample : ∃ x : Node 2 2,
    x.entries 0 = [.inProgress 0 0 508, .called 0 true, .handed 0 0 .success,
      .errorCallback 0 .success (some .tx)] ∧
    x.entries 1 = [.inProgress 1 1 509, .called 1 false, .released 1 1,
      .errorCallback 1 .arpFailure (some .txFailed)] ∧
    Disposed 0 (x.entries 0) (x.kept 0) ∧ Disposed 1 (x.entries 1) (x.kept 1) := by
  obtain ⟨x, hr, hx⟩ := Lib.exists_of_runInputs step Kindly (Node.init 2 2 samplePackets 7)
    [sendTo 0 0xC0A80102#32, sendTo 1 0xC0A80103#32, answerFrom 0xC0A80102#32 (.ok ()),
      .elapse 1000, .periodicTask sampleReply]
    (fun x => x.entries 0 = [.inProgress 0 0 508, .called 0 true, .handed 0 0 .success,
        .errorCallback 0 .success (some .tx)] ∧
      x.entries 1 = [.inProgress 1 1 509, .called 1 false, .released 1 1,
        .errorCallback 1 .arpFailure (some .txFailed)]) (by decide)
  obtain ⟨h₀, h₁⟩ := of_decide_eq_true hx
  exact ⟨x, h₀, h₁, (queued_packets_are_disposed samplePackets 7 hr 0).1,
    (queued_packets_are_disposed samplePackets 7 hr 1).1⟩

/-- The entries that dispose of a packet. -/
def Obs.isDisposal (h : Fin n) : Obs n → Bool
  | .handed k _ ret => k = h && ret = .success
  | .released k _ => k = h
  | _ => false

theorem Disposed.count {h : Fin n} {entries : List (Obs n)} {kept : Option PacketId}
    (hd : Disposed h entries kept) :
    entries.countP (Obs.isStart h) = entries.countP (Obs.isDisposal h) + if kept.isSome then
      1 else 0 := by
  induction hd with
  | nothing => rfl
  | queued pid due _ ih => simpa [List.countP_append, Obs.isStart, Obs.isDisposal] using ih
  | accepted notice _ ih =>
      simpa [List.countP_append, List.countP_cons, Obs.isStart, Obs.isDisposal] using ih
  | released notice _ ih =>
      simpa [List.countP_append, List.countP_cons, Obs.isStart, Obs.isDisposal] using ih

/-- The driver refuses a queued packet once its address is known: nobody releases it. -/
theorem refused_packet_is_leaked :
    ¬ ∀ (c n : Nat) (packets : PacketId → Packet) (time : Nat) (x : Node c n)
    (h : Fin n), Lib.Reach step CancelsAlone (Node.init c n packets time) x →
      Disposed h (x.entries h) (x.kept h) := by
  intro hall
  obtain ⟨x, hr, hx⟩ := Lib.exists_of_runInputs step CancelsAlone (Node.init 2 2 samplePackets 7)
    [sendTo 0 0xC0A80102#32, answerFrom 0xC0A80102#32 (.error ⟨.resource, rfl⟩)]
    (fun x => (x.entries 0).countP (Obs.isStart 0) = 1 ∧
      (x.entries 0).countP (Obs.isDisposal 0) = 0 ∧
      x.kept 0 = none) (by decide)
  obtain ⟨hstart, hdisposal, hkept⟩ := of_decide_eq_true hx
  have hcount := (hall 2 2 samplePackets 7 x 0 hr).count
  rw [hstart, hdisposal, hkept] at hcount
  cases hcount

end NanoIp.Ipv4
