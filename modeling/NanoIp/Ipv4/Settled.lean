import NanoIp.Ipv4.Pending

/-!
# Every request is settled once

As long as no request is cancelled in front of others, a handle is busy exactly while its
request is pending, and every queued send has one callback: with success when a
response answers the request, without when it is cancelled or its time is over.
-/
namespace NanoIp.Ipv4

variable {c n : Nat}

/-- The request an entry calls back, and with what. -/
def Obs.callOf : Obs n → Option (Fin n × Bool)
  | .called h success => some (h, success)
  | _ => none

def callsBetween (x y : Node c n) : List (Fin n × Bool) :=
  (y.log.drop x.log.length).filterMap Obs.callOf

theorem callsBetween_of_log {x y : Node c n} {new : List (Obs n)} (h : y.log = x.log ++ new) :
    callsBetween x y = new.filterMap Obs.callOf := by rw [callsBetween, h, List.drop_left]

theorem callsBetween_of_same {x y : Node c n} (h : y.log = x.log) : callsBetween x y = [] := by
  rw [callsBetween, h, List.drop_length]
  rfl

/-- The first request of the list is cancelled only when it is the only one. -/
def CancelsAlone (x : Node c n) : Input c n → Prop
  | .releaseHandle h _ => x.arp.requests = some h → x.arp.pending = [h]
  | _ => True

instance (x : Node c n) : (i : Input c n) → Decidable (CancelsAlone x i)
  | .releaseHandle h _ => inferInstanceAs
      (Decidable (x.arp.requests = some h → x.arp.pending = [h]))
  | .sendPacket _ _ _ _ | .rxFrame _ _ _ _ | .periodicTask _ | .elapse _ | .compose _ _ =>
    inferInstanceAs (Decidable True)

/-- The callbacks that an input calls for: the request of a released handle, the requests
that a frame answers, the requests whose time is over. -/
def callsFor (x : Node c n) : Input c n → List (Fin n × Bool)
  | .releaseHandle h _ => if h ∈ x.arp.pending then [(h, false)] else []
  | .rxFrame netIf p _ _ => (x.arp.pending.filter (Arp.answers x.arp netIf p)).map (·, true)
  | .periodicTask _ =>
      (x.arp.pending.filter fun h => (x.arp.mem h).timeout < x.msCounter).map (·, false)
  | .sendPacket _ _ _ _ | .elapse _ | .compose _ _ => []

/-- A state in which no request is lost. -/
structure Accounted (x : Node c n) : Prop where
  listed : Arp.Listed x.arp x.arp.pending
  busy : ∀ h, (x.handle h).busy = true ↔ h ∈ x.arp.pending
  called : ∀ h, x.count (Obs.isStart h) = x.count (Obs.isCall h) +
    if (x.handle h).busy then 1 else 0

/-- A step that settles what it should: it calls back those requests, takes these out of
the list and no others, and a tick calls back what is due. -/
structure Settles (x : Node c n) (i : Input c n) (y : Node c n) : Prop where
  calls : callsBetween x y = callsFor x i
  stays : ∀ h ∈ x.arp.pending, h ∈ y.arp.pending ↔ ∀ success, (h, success) ∉ callsFor x i
  due : ∀ reply, i = .periodicTask reply → x.time < 2 ^ 32 → ∀ h ∈ x.arp.pending, ∃ due,
    x.due h = some due ∧
    (due < x.time → (h, false) ∈ callsFor x i) ∧
      ((h, false) ∈ callsFor x i → due < x.time ∨ 2 ^ 32 ≤ due)

section Callbacks

variable {x : Node c n} {calls : List (Fin n)} (success : Bool) (reply : Reply n)

theorem callbackLog_calls (h : Fin n) (pid : PacketId) :
    (callbackLog x success reply h pid).filterMap Obs.callOf = [(h, success)] := by
  unfold callbackLog
  cases success with
  | true =>
    dsimp only
    cases (x.finalize reply h pid).handed <;> rfl
  | false => rfl

@[simp] theorem callBack_arp : (x.callBack success reply calls).arp = x.arp := by
  induction calls generalizing x with
  | nil => rfl
  | cons h calls ih => exact ih.trans (arpResponseCallback_arp x success reply h)

theorem Waiting.callBack_log (hw : Waiting calls x) :
    ∃ new, (x.callBack success reply calls).log = x.log ++ new ∧
    new.filterMap Obs.callOf = calls.map (·, success) := by
  induction calls generalizing x with
  | nil => exact ⟨[], (List.append_nil _).symm, rfl⟩
  | cons h calls ih =>
    obtain ⟨pid, hp⟩ := hw.packet h ((hw.busy h).mpr (by simp))
    obtain ⟨new, hlog, hcalls⟩ := ih (hw.callback success reply)
    refine ⟨callbackLog x success reply h pid ++ new, ?_, ?_⟩
    · rw [← List.append_assoc, ← arpResponseCallback_log success reply hp]
      exact hlog
    · rw [List.filterMap_append, callbackLog_calls, hcalls]
      rfl

theorem Waiting.pass_calls {y : Node c n} (hw : Waiting calls y) (hlog : y.log = x.log) :
    callsBetween x (y.callBack success reply calls) = calls.map (·, success) := by
  obtain ⟨new, hnew, hcalls⟩ := hw.callBack_log success reply
  rw [hlog] at hnew
  exact (callsBetween_of_log hnew).trans hcalls

end Callbacks

theorem stays_iff {l : List (Fin n)} (p : Fin n → Bool) (success : Bool) {h : Fin n} (hin : h ∈ l) :
    h ∈ l.filter (fun k => !p k) ↔ ∀ s, (h, s) ∉ (l.filter p).map (·, success) := by
  simp only [List.mem_filter, List.mem_map, Prod.mk.injEq]
  constructor
  · rintro ⟨-, hno⟩ s ⟨k, ⟨-, hk⟩, rfl, -⟩
    simp [hk] at hno
  · intro hno
    refine ⟨hin, ?_⟩
    cases hp : p h with
    | false => rfl
    | true => exact absurd ⟨h, ⟨hin, hp⟩, rfl, rfl⟩ (hno success)

section Steps

variable {x y : Node c n}

theorem Quiet.calls (hq : Quiet x y) : callsBetween x y = [] := by
  obtain ⟨new, hlog, hnew⟩ := hq.log
  rw [callsBetween_of_log hlog]
  refine List.filterMap_eq_nil_iff.mpr fun o ho => ?_
  have hdirect := hnew o ho
  cases o <;> first | rfl | cases hdirect

theorem Queues.calls {h : Fin n} {pid : PacketId} (hq : Queues x y h pid) :
    callsBetween x y = [] := by
  obtain ⟨_, _, _, _, _, hlog⟩ := hq.request
  rw [callsBetween_of_log hlog]
  rfl

theorem Queues.busy {h : Fin n} {pid : PacketId} (hq : Queues x y h pid) {k : Fin n}
    (hk : (x.handle k).busy = true) : (y.handle k).busy = true := by
  obtain ⟨_, _, hhandle, -⟩ := hq.handle
  have hne : k ≠ h := by
    rintro rfl
    rw [hq.idle] at hk
    cases hk
  rwa [hhandle, Function.update_of_ne hne]

theorem Waiting.settles_of_quiet (hw : Waiting [] x) (hy : Waiting [] y) {i : Input c n}
    (hfor : callsFor x i = []) (htick : ∀ reply, i ≠ .periodicTask reply)
    (hcalls : callsBetween x y = [])
    (hbusy : ∀ h, (x.handle h).busy = true → (y.handle h).busy = true) : Settles x i y := by
  refine ⟨hcalls.trans hfor.symm, fun h hin => ?_, fun reply he => absurd he (htick reply)⟩
  have hx := (hw.busy h).mpr (List.mem_append_left _ hin)
  have hin' := (hy.busy h).mp (hbusy h hx)
  rw [hfor]
  exact ⟨fun _ => nofun, fun _ => by simpa using hin'⟩

theorem Waiting.tick_due (hw : Waiting [] x) (reply : Reply n) (ht : x.time < 2 ^ 32) {h : Fin n}
    (hin : h ∈ x.arp.pending) : ∃ due, x.due h = some due ∧
      (due < x.time → (h, false) ∈ callsFor x (.periodicTask reply)) ∧
      ((h, false) ∈ callsFor x (.periodicTask reply) → due < x.time ∨ 2 ^ 32 ≤ due) := by
  obtain ⟨due, hdue, htimeout⟩ := hw.due h ((hw.busy h).mpr (List.mem_append_left _ hin))
  refine ⟨due, hdue, fun hlt => ?_, fun hcall => ?_⟩
  · refine List.mem_map.mpr ⟨h, List.mem_filter.mpr ⟨hin, ?_⟩, rfl⟩
    rw [decide_eq_true_eq, htimeout, Node.msCounter, BitVec.lt_def, BitVec.toNat_ofNat,
      BitVec.toNat_ofNat]
    omega
  · obtain ⟨k, hk, he⟩ := List.mem_map.mp hcall
    obtain ⟨rfl, -⟩ := Prod.mk.inj he
    have hlt := of_decide_eq_true (List.mem_filter.mp hk).2
    rw [htimeout, Node.msCounter, BitVec.lt_def, BitVec.toNat_ofNat, BitVec.toNat_ofNat] at hlt
    omega

theorem Waiting.releaseHandle (hw : Waiting [] x) {h : Fin n} {reply : Reply n}
    (hc : CancelsAlone x (.releaseHandle h reply)) : Waiting [] (x.releaseHandle h reply) ∧
      Settles x (.releaseHandle h reply) (x.releaseHandle h reply) := by
  unfold Node.releaseHandle
  by_cases hb : (x.handle h).busy = true
  · have hin : h ∈ x.arp.pending := by simpa using (hw.busy h).mp hb
    obtain ⟨hcalled, hpending, hout⟩ := hw.takeCancelled hin hc
    have hfor : callsFor x (.releaseHandle h reply) = [(h, false)] := if_pos hin
    rw [if_pos hb]
    dsimp only
    rw [hcalled]
    refine ⟨hout.callBack false reply, (hout.pass_calls false reply rfl).trans hfor.symm,
      fun k hk => ?_, nofun⟩
    rw [if_pos rfl, callBack_arp, hpending, hfor, hw.listed.nodup.mem_erase_iff]
    simp [hk]
  · rw [if_neg hb]
    have hnot : h ∉ x.arp.pending := fun hin => hb ((hw.busy h).mpr (List.mem_append_left _ hin))
    exact ⟨hw, hw.settles_of_quiet hw (if_neg hnot) nofun (callsBetween_of_same rfl) fun _ hk => hk⟩

theorem Waiting.rxFrame (hw : Waiting [] x) (netIf : NetIf) (p : Packet) (link : Arp.Link)
    (reply : Reply n) (hs : step x (.rxFrame netIf p link reply) = some y) :
    Waiting [] y ∧ Settles x (.rxFrame netIf p link reply) y := by
  obtain ⟨hcalled, hpending, hout⟩ := hw.takeAnswered netIf p link
  obtain rfl := Option.some.inj hs
  rw [hcalled]
  refine ⟨hout.callBack true reply, hout.pass_calls true reply rfl, fun k hk => ?_, nofun⟩
  rw [callBack_arp, hpending]
  exact stays_iff _ true hk

theorem Waiting.periodicTask (hw : Waiting [] x) (reply : Reply n)
    (hs : step x (.periodicTask reply) = some y) :
    Waiting [] y ∧ Settles x (.periodicTask reply) y := by
  obtain ⟨hcalled, hpending, hout⟩ := hw.takeDue
  obtain rfl := Option.some.inj hs
  rw [hcalled]
  refine ⟨hout.callBack false reply, hout.pass_calls false reply rfl, fun k hk => ?_,
    fun _ _ ht k hk => ?_⟩
  · rw [callBack_arp, hpending]
    exact stays_iff _ false hk
  · exact hw.tick_due reply ht hk

/-- One admitted step. -/
theorem Waiting.step {i : Input c n} (hw : Waiting [] x) (hc : CancelsAlone x i)
    (hs : step x i = some y) :
    Waiting [] y ∧ Settles x i y := by
  cases i with
  | sendPacket h header pid below =>
    obtain rfl := Option.some.inj hs
    have hy := hw.sendPacket h header pid below
    rcases sendPacket_cases x h header pid below with hq | hq
    · exact ⟨hy, hw.settles_of_quiet hy rfl nofun hq.calls fun k hk => by rw [hq.busy, hk]⟩
    · exact ⟨hy, hw.settles_of_quiet hy rfl nofun hq.calls fun k hk => hq.busy hk⟩
  | releaseHandle h reply =>
    obtain rfl := Option.some.inj hs
    exact hw.releaseHandle hc
  | rxFrame netIf p link reply => exact hw.rxFrame netIf p link reply hs
  | periodicTask reply => exact hw.periodicTask reply hs
  | elapse ms =>
    obtain rfl := Option.some.inj hs
    have hy : Waiting [] { x with time := x.time + ms } :=
      ⟨hw.listed, hw.nodup, hw.busy, hw.packet, hw.started, hw.ended, hw.due⟩
    exact ⟨hy, hw.settles_of_quiet hy rfl nofun (callsBetween_of_same rfl) fun _ hk => hk⟩
  | compose pid p =>
    obtain rfl := Option.some.inj hs
    have hy : Waiting [] { x with packets := Function.update x.packets pid p } :=
      ⟨hw.listed, hw.nodup, hw.busy, hw.packet, hw.started, hw.ended, hw.due⟩
    exact ⟨hy, hw.settles_of_quiet hy rfl nofun (callsBetween_of_same rfl) fun _ hk => hk⟩

end Steps

theorem Waiting.accounted {x : Node c n} (hw : Waiting [] x) : Accounted x :=
  ⟨hw.listed, fun h => by simpa using hw.busy h, hw.started⟩

/-- In every state reached, the busy handles are those with a pending request, each queued
send has had its callback or is the one still pending, and a step calls back what it
should and takes out nothing else. -/
theorem requests_are_settled (packets : PacketId → Packet) (time : Nat) {x : Node c n}
    (hr : Lib.Reach step CancelsAlone (Node.init c n packets time) x) :
    Accounted x ∧ ∀ i y, CancelsAlone x i → step x i = some y → Settles x i y := by
  have hinv : Waiting [] x := hr.invariant (I := Waiting []) (waiting_init packets time)
    fun _ _ _ hw hc hs => (hw.step hc hs).1
  exact ⟨hinv.accounted, fun _ _ hc hs => (hinv.step hc hs).2⟩

/-- Packet objects with nothing in them, and a link on which everything works. -/
def samplePackets : PacketId → Packet := fun _ => ⟨fun _ => 0#8, 0, 60#16, 42#16, 0#32, none⟩
def sampleBelow : Below :=
  ⟨fun _ => .ok (0#32, ⟨Vector.replicate 6 1#8, 0xC0A80101#32, 0#32⟩),
    ⟨.ok (samplePackets 0), .ok (), 1⟩, .ok ()⟩
def sampleReply : Reply 2 := ⟨fun _ => .ok (), fun _ => .udp⟩
def sendTo (h : Fin 2) (ip : Ipv4Address) : Input 2 2 :=
  .sendPacket h { Ipv4Header.zero with destAddress := ip } h.val sampleBelow

/-- Two requests are pending; the first of them to be queued is cancelled, and the other
times out. -/
theorem requests_are_settled_sample :
    ∃ x : Node 2 2, (x.handle 1).busy = true ∧ (x.handle 0).busy = false ∧
    Accounted x ∧ ∃ y, step x (.periodicTask sampleReply) = some y ∧
      Settles x (.periodicTask sampleReply) y ∧ callsBetween x y = [(1, false)] := by
  obtain ⟨x, hr, hx⟩ := Lib.exists_of_runInputs step CancelsAlone (Node.init 2 2 samplePackets 7)
    [sendTo 0 0xC0A80102#32, sendTo 1 0xC0A80103#32, .releaseHandle 0 sampleReply, .elapse 1000]
    (fun x => (x.handle 1).busy = true ∧ (x.handle 0).busy = false ∧
      callsFor x (.periodicTask sampleReply) = [(1, false)]) (by decide)
  obtain ⟨h₁, h₀, hfor⟩ := of_decide_eq_true hx
  obtain ⟨haccounted, hsettles⟩ := requests_are_settled samplePackets 7 hr
  have hs := hsettles (.periodicTask sampleReply) _ trivial rfl
  exact ⟨x, h₁, h₀, haccounted, _, rfl, hs, hs.calls.trans hfor⟩

/-- Cancelling the request in front loses the one behind it: its handle stays busy with
no request pending. -/
theorem cancelled_head_loses_others :
    ¬ ∀ (c n : Nat) (packets : PacketId → Packet) (time : Nat) (x : Node c n),
    Lib.Reach step Lib.anyStep (Node.init c n packets time) x → Accounted x := by
  intro hall
  obtain ⟨x, hr, hx⟩ := Lib.exists_of_runInputs step Lib.anyStep (Node.init 2 2 samplePackets 7)
    [sendTo 0 0xC0A80102#32, sendTo 1 0xC0A80103#32, .releaseHandle 1 sampleReply]
    (fun x => (x.handle 0).busy = true ∧ x.arp.pending = []) (by decide)
  obtain ⟨hbusy, hpending⟩ := of_decide_eq_true hx
  have hin := ((hall 2 2 samplePackets 7 x hr).busy 0).mp hbusy
  rw [hpending] at hin
  cases hin

end NanoIp.Ipv4
