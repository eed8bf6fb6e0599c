import NanoIp.Ipv4.Machine

/-!
# Pending requests

A handle is busy as long as its request is pending. Every operation is looked at as what
it does to the list of requests, followed by the callbacks of the requests it took out;
the invariant says which callbacks are still to come.
-/
namespace NanoIp.Ipv4

variable {c n : Nat}

/-- The entries of a handle: its sends that were queued, its callbacks and their ends. -/
def Obs.isStart (h : Fin n) : Obs n → Bool
  | .inProgress k _ _ => k = h
  | _ => false
def Obs.isCall (h : Fin n) : Obs n → Bool
  | .called k _ => k = h
  | _ => false
def Obs.isEnd (h : Fin n) : Obs n → Bool
  | .errorCallback k _ _ => k = h
  | _ => false

/-- When the request of a send that was queued is due. -/
def Obs.dueOf (h : Fin n) : Obs n → Option Nat
  | .inProgress k _ due => if k = h then some due else none
  | _ => none

def Node.count (x : Node c n) (p : Obs n → Bool) : Nat := x.log.countP p

def Node.due (x : Node c n) (h : Fin n) : Option Nat := (x.log.filterMap (Obs.dueOf h)).getLast?

/-- The handle and packet as the callback sends them. -/
def Node.finalize (x : Node c n) (reply : Reply n) (h : Fin n) (pid : PacketId) : Sent :=
  finalizeSendPacket { x.handle h with arpMac := (x.arp.mem h).macAddress }
    (driverErr (reply.driver h))
    (x.packets pid)

/-- What the callback of a handle with packet `pid` shows. -/
def callbackLog (x : Node c n) (success : Bool) (reply : Reply n) (h : Fin n) (pid : PacketId) :
    List (Obs n) :=
  let sent := x.finalize reply h pid
  .called h success ::
    if success then
      (if sent.handed then [.handed h pid sent.ret] else []) ++
        [.errorCallback h sent.ret ((reply.upper h).errorCallback sent.ret)]
    else [.released h pid, .errorCallback h .arpFailure ((reply.upper h).errorCallback .arpFailure)]

section Callback

variable (x : Node c n) (success : Bool) (reply : Reply n) (h : Fin n)

@[simp] theorem arpResponseCallback_arp : (x.arpResponseCallback success reply h).arp = x.arp := by
  unfold Node.arpResponseCallback
  dsimp only
  split
  · rfl
  · split <;> rfl

@[simp] theorem arpResponseCallback_time :
    (x.arpResponseCallback success reply h).time = x.time := by
  unfold Node.arpResponseCallback
  dsimp only
  split
  · rfl
  · split <;> rfl

theorem arpResponseCallback_other {k : Fin n} (hk : k ≠ h) :
    (x.arpResponseCallback success reply h).handle k = x.handle k := by
  unfold Node.arpResponseCallback
  dsimp only
  split
  · rfl
  · split
    · rw [Node.record_handle, Node.setHandle_of_ne _ _ hk]
      rfl
    · rw [Node.record_handle, Node.setHandle_of_ne _ _ hk]
      rfl

variable {x h} {pid : PacketId}

theorem arpResponseCallback_idle (hp : (x.handle h).packet = some pid) :
    ((x.arpResponseCallback success reply h).handle h).busy = false := by
  unfold Node.arpResponseCallback
  dsimp only
  split
  · next he => exact absurd (hp.symm.trans he) nofun
  · split
    · rw [Node.record_handle, Node.setHandle_self]
    · rw [Node.record_handle, Node.setHandle_self]

theorem arpResponseCallback_log (hp : (x.handle h).packet = some pid) :
    (x.arpResponseCallback success reply h).log = x.log ++ callbackLog x success reply h pid := by
  unfold Node.arpResponseCallback callbackLog
  dsimp only
  split
  · next he => exact absurd (hp.symm.trans he) nofun
  · next pid' he =>
    obtain rfl := Option.some.inj (hp.symm.trans he)
    cases success with
    | true =>
      show ((x.log ++ [.called h true]) ++ _) ++ _ = _
      rw [List.append_assoc, List.append_assoc]
      rfl
    | false =>
      show ((x.log ++ [.called h false]) ++ [.released h pid]) ++ _ = _
      rw [List.append_assoc, List.append_assoc]
      rfl

theorem callbackLog_counts (x : Node c n) (h k : Fin n) (pid : PacketId) :
    (callbackLog x success reply h pid).countP (Obs.isStart k) = 0 ∧
      (callbackLog x success reply h pid).countP (Obs.isCall k) = (if h = k then 1 else 0) ∧
      (callbackLog x success reply h pid).countP (Obs.isEnd k) = (if h = k then 1 else 0) ∧
      (callbackLog x success reply h pid).filterMap (Obs.dueOf k) = [] := by
  unfold callbackLog
  cases success with
  | true =>
    dsimp only
    cases hh : (x.finalize reply h pid).handed <;> by_cases hk : h = k <;>
      simp [Obs.isStart, Obs.isCall, Obs.isEnd, Obs.dueOf, hk]
  | false => by_cases hk : h = k <;> simp [Obs.isStart, Obs.isCall, Obs.isEnd, Obs.dueOf, hk]

end Callback

/-- What holds while the requests `calls` are out of the list and still to be called back. -/
structure Waiting (calls : List (Fin n)) (x : Node c n) : Prop where
  listed : Arp.Listed x.arp x.arp.pending
  nodup : (x.arp.pending ++ calls).Nodup
  busy : ∀ h, (x.handle h).busy = true ↔ h ∈ x.arp.pending ++ calls
  packet : ∀ h, (x.handle h).busy = true → ∃ pid, (x.handle h).packet = some pid
  started : ∀ h, x.count (Obs.isStart h) = x.count (Obs.isCall h) +
    if (x.handle h).busy then 1 else 0
  ended : ∀ h, x.count (Obs.isEnd h) = x.count (Obs.isCall h)
  due : ∀ h, (x.handle h).busy = true →
    ∃ due, x.due h = some due ∧ (x.arp.mem h).timeout = BitVec.ofNat 32 due

theorem waiting_init (packets : PacketId → Packet) (time : Nat) :
    Waiting [] (Node.init c n packets time) := by
  have hnil : (Node.init c n packets time).arp.pending = [] := Arp.listed_init.pending
  refine ⟨?_, ?_, fun h => ?_, nofun, fun _ => rfl, fun _ => rfl, nofun⟩
  · rw [hnil]
    exact Arp.listed_init
  · rw [hnil]
    exact .nil
  · rw [hnil]
    exact ⟨nofun, nofun⟩

section Steps

variable {x : Node c n} {calls : List (Fin n)}

/-- A callback settles the request it belongs to. -/
theorem Waiting.callback {h : Fin n} (hw : Waiting (h :: calls) x) (success : Bool)
    (reply : Reply n) :
    Waiting calls (x.arpResponseCallback success reply h) := by
  have hbusy : (x.handle h).busy = true := (hw.busy h).mpr (by simp)
  obtain ⟨pid, hp⟩ := hw.packet h hbusy
  have hlog := arpResponseCallback_log success reply hp
  have hidle := arpResponseCallback_idle success reply hp
  have hperm : (h :: (x.arp.pending ++ calls)).Nodup := by
    have hn := hw.nodup
    rwa [List.nodup_middle] at hn
  have hiff : ∀ k, ((x.arpResponseCallback success reply h).handle k).busy = true ↔
      k ≠ h ∧ (x.handle k).busy = true := by
    intro k
    by_cases hk : k = h
    · subst hk
      simp [hidle]
    · rw [arpResponseCallback_other x success reply h hk]
      simp [hk]
  have hcount : ∀ k, (x.arpResponseCallback success reply h).count (Obs.isStart k) =
    x.count (Obs.isStart k) ∧
      (x.arpResponseCallback success reply h).count (Obs.isCall k) =
        x.count (Obs.isCall k) + (if h = k then 1 else 0) ∧
      (x.arpResponseCallback success reply h).count (Obs.isEnd k) =
        x.count (Obs.isEnd k) + (if h = k then 1 else 0) := by
    intro k
    obtain ⟨h₁, h₂, h₃, -⟩ := callbackLog_counts success reply x h k pid
    simp only [Node.count, hlog, List.countP_append, h₁, h₂, h₃, Nat.add_zero, and_self]
  refine ⟨?_, ?_, fun k => ?_, fun k hk => ?_, fun k => ?_, fun k => ?_, fun k hk => ?_⟩
  · rw [arpResponseCallback_arp]
    exact hw.listed
  · rw [arpResponseCallback_arp]
    exact (List.nodup_cons.mp hperm).2
  · rw [hiff, arpResponseCallback_arp, hw.busy]
    constructor
    · rintro ⟨hne, hin⟩
      simpa [hne] using hin
    · intro hin
      refine ⟨?_, by simpa using Or.imp_right .inr (List.mem_append.mp hin)⟩
      rintro rfl
      exact (List.nodup_cons.mp hperm).1 hin
  · obtain ⟨hne, hb⟩ := (hiff k).mp hk
    rw [arpResponseCallback_other x success reply h hne]
    exact hw.packet k hb
  · obtain ⟨h₁, h₂, -⟩ := hcount k
    rw [h₁, h₂, hw.started k]
    by_cases hk : k = h
    · subst hk
      simp [hbusy, hidle]
    · rw [arpResponseCallback_other x success reply h hk, if_neg (Ne.symm hk), Nat.add_zero]
  · obtain ⟨-, h₂, h₃⟩ := hcount k
    rw [h₂, h₃, hw.ended k]
  · obtain ⟨-, hb⟩ := (hiff k).mp hk
    obtain ⟨due, hdue, ht⟩ := hw.due k hb
    refine ⟨due, ?_, by rw [arpResponseCallback_arp]; exact ht⟩
    obtain ⟨-, -, -, h₄⟩ := callbackLog_counts success reply x h k pid
    rw [Node.due, hlog, List.filterMap_append, h₄, List.append_nil]
    exact hdue

theorem Waiting.callBack (success : Bool) (reply : Reply n) :
    ∀ {calls : List (Fin n)} {x : Node c n}, Waiting calls x →
      Waiting [] (x.callBack success reply calls) := by
  intro calls
  induction calls with
  | nil => exact fun hw => hw
  | cons h calls ih => exact fun hw => ih (hw.callback success reply)

theorem Waiting.takeOut (hw : Waiting [] x) (calls : List (Fin n)) {arp : Arp.Module c n}
    {l : List (Fin n)} (hl : Arp.Listed arp l) (hperm : (l ++ calls).Perm x.arp.pending)
    (ht : ∀ k, (arp.mem k).timeout = (x.arp.mem k).timeout) (time : Nat) :
    Waiting calls { x with arp := arp, time := time } := by
  have hl' : arp.pending = l := hl.pending
  have hnil : x.arp.pending ++ [] = x.arp.pending := List.append_nil _
  refine ⟨?_, ?_, fun h => ?_, hw.packet, hw.started, hw.ended, fun h hb => ?_⟩
  · rwa [hl']
  · rw [hl']
    refine hperm.nodup_iff.mpr ?_
    rw [← hnil]
    exact hw.nodup
  · rw [hl', hperm.mem_iff, ← hnil]
    exact hw.busy h
  · rw [ht h]
    exact hw.due h hb

theorem Waiting.takeCancelled (hw : Waiting [] x) {h : Fin n} (hin : h ∈ x.arp.pending)
    (hc : x.arp.requests = some h → x.arp.pending = [h]) : (Arp.cancelRequest x.arp h).2 = true ∧
      (Arp.cancelRequest x.arp h).1.pending = x.arp.pending.erase h ∧
      Waiting [h] { x with arp := (Arp.cancelRequest x.arp h).1 } := by
  obtain ⟨hl, hcalled, hmem⟩ := hw.listed.cancelRequest hin hc
  have hperm : (x.arp.pending.erase h ++ [h]).Perm x.arp.pending :=
    List.perm_append_comm.trans (List.perm_cons_erase hin).symm
  exact ⟨hcalled, hl.pending, hw.takeOut [h] hl hperm
    (fun k => (Arp.Request.fields_of_unlinked (hmem k)).2.2) x.time⟩

theorem Waiting.takeAnswered (hw : Waiting [] x) (netIf : NetIf) (p : Packet) (link : Arp.Link) :
    (Arp.rxFrame x.arp netIf p link x.msCounter).calls =
      x.arp.pending.filter (Arp.answers x.arp netIf p) ∧
      (Arp.rxFrame x.arp netIf p link x.msCounter).module.pending =
        x.arp.pending.filter (fun h => !Arp.answers x.arp netIf p h) ∧
      Waiting (x.arp.pending.filter (Arp.answers x.arp netIf p)) { x with
        arp := (Arp.rxFrame x.arp netIf p link x.msCounter).module,
          time := x.time + link.elapsed } := by
  obtain ⟨hl, hcalled, hmem⟩ := hw.listed.rxFrame netIf p link x.msCounter
  have hperm := List.perm_append_comm.trans
    (List.filter_append_perm (Arp.answers x.arp netIf p) x.arp.pending)
  refine ⟨hcalled, hl.pending, hw.takeOut _ hl hperm (fun k => ?_) (x.time + link.elapsed)⟩
  have hk := congrArg Arp.Request.timeout (hmem k)
  split_ifs at hk <;> exact hk

theorem Waiting.takeDue (hw : Waiting [] x) : (Arp.periodicTask x.arp x.msCounter).2 =
      x.arp.pending.filter (fun h => (x.arp.mem h).timeout < x.msCounter) ∧
    (Arp.periodicTask x.arp x.msCounter).1.pending =
      x.arp.pending.filter (fun h => !decide ((x.arp.mem h).timeout < x.msCounter)) ∧
    Waiting (x.arp.pending.filter fun h => (x.arp.mem h).timeout < x.msCounter)
      { x with arp := (Arp.periodicTask x.arp x.msCounter).1 } := by
  obtain ⟨hl, hcalled, -, hmem⟩ := hw.listed.periodicTask x.msCounter
  have hperm := List.perm_append_comm.trans
    (List.filter_append_perm (fun h => decide ((x.arp.mem h).timeout < x.msCounter)) x.arp.pending)
  exact ⟨hcalled, hl.pending, hw.takeOut _ hl hperm
    (fun k => (Arp.Request.fields_of_unlinked (hmem k)).2.2) x.time⟩

/-- What `NANO_IP_IPV4_SendPacket` makes of the answer of ARP. -/
theorem sendPacket_sent {handle : Handle} {header : Ipv4Header} (pid : PacketId) {p : Packet}
    {below : Below} {gateway : Ipv4Address} {netIf : NetIf} (hb : handle.busy = false)
    (hr : chooseRoute (below.lower .pending) header.destAddress p = .ok (gateway, netIf))
    (answer : ArpAnswer) :
    (answer = .pending → Ipv4.sendPacket (below.lower answer) handle header pid p =
      ⟨{ handle.prepare header netIf pid with busy := true }, p, .inProgress, false⟩) ∧
    (answer ≠ .pending → (Ipv4.sendPacket (below.lower answer) handle header pid p).handle.busy =
      false ∧
      (Ipv4.sendPacket (below.lower answer) handle header pid p).ret ≠ .inProgress) := by
  have hr' : chooseRoute (below.lower answer) header.destAddress p = .ok (gateway, netIf) := by
    rw [← hr]
    unfold chooseRoute
    rfl
  unfold Ipv4.sendPacket
  rw [if_neg (by simp [hb]), hr']
  dsimp only [Below.lower]
  cases answer with
  | pending => exact ⟨fun _ => rfl, fun h => absurd rfl h⟩
  | failed e =>
    refine ⟨nofun, fun _ => ⟨hb, fun he => ?_⟩⟩
    have hno := e.2
    simp only at he
    rw [he] at hno
    cases hno
  | resolved mac =>
    refine ⟨nofun, fun _ => ?_⟩
    dsimp only [finalizeSendPacket]
    cases fillHeader (handle.prepare header netIf pid).header p with
    | error e =>
      refine ⟨hb, fun he => ?_⟩
      have hno := e.2
      simp only at he
      rw [he] at hno
      cases hno
    | ok q =>
      refine ⟨hb, fun he => ?_⟩
      have he' : driverErr below.driver = .inProgress := he
      cases hd : below.driver with
      | ok u => rw [hd] at he'; cases he'
      | error e =>
        have hno := e.2
        rw [hd] at he'
        simp only [driverErr] at he'
        rw [he'] at hno
        cases hno

/-- An entry that belongs to no queued send. -/
def Obs.isDirect : Obs n → Bool
  | .sent _ _ _ => true
  | _ => false

/-- The list, the busy handles and what the log says of queued sends are as before. -/
structure Quiet (x y : Node c n) : Prop where
  requests : y.arp.requests = x.arp.requests
  mem : ∀ k, (y.arp.mem k).next = (x.arp.mem k).next ∧ (y.arp.mem k).timeout = (x.arp.mem k).timeout
  busy : ∀ k, (y.handle k).busy = (x.handle k).busy
  handle : ∀ k, (x.handle k).busy = true → y.handle k = x.handle k
  log : ∃ new, y.log = x.log ++ new ∧ ∀ o ∈ new, o.isDirect = true

theorem Quiet.refl (x : Node c n) : Quiet x x :=
  ⟨rfl, fun _ => ⟨rfl, rfl⟩, fun _ => rfl, fun _ _ => rfl, [], (List.append_nil _).symm, nofun⟩

/-- The request of the idle handle `h` is now in front of the list, its packet with the handle. -/
structure Queues (x y : Node c n) (h : Fin n) (pid : PacketId) : Prop where
  idle : (x.handle h).busy = false
  requests : y.arp.requests = some h
  handle : ∃ k netIf, y.handle = Function.update x.handle h k ∧ k.busy = true ∧
    k.packet = some pid ∧
    k.netIf = some netIf
  request : ∃ request due, y.arp.mem = Function.update x.arp.mem h request ∧
    request.next = x.arp.requests ∧
    request.timeout = BitVec.ofNat 32 due ∧ y.log = x.log ++ [.inProgress h pid due]

/-- A send queues the handle's request, or has nothing to do with the queued ones. -/
theorem sendPacket_cases (x : Node c n) (h : Fin n) (header : Ipv4Header) (pid : PacketId)
    (below : Below) :
    Quiet x (x.sendPacket h header pid below) ∨
      Queues x (x.sendPacket h header pid below) h pid := by
  unfold Node.sendPacket
  dsimp only
  cases hb : (x.handle h).busy with
  | true => exact .inl (.refl x)
  | false =>
    rw [if_neg Bool.false_ne_true]
    split
    · exact .inl (.refl x)
    · next gateway netIf hr =>
      generalize (if gateway ≠ 0#32 then gateway else header.destAddress) = nextHop
      obtain ⟨hpend, hother⟩ := sendPacket_sent pid hb hr
        (Arp.request x.arp netIf h nextHop below.link x.msCounter).answer
      rcases Arp.request_cases x.arp netIf h nextHop below.link x.msCounter with
        ⟨hans, hhead, hmem⟩ | ⟨hans, hhead, hmem⟩
      · obtain ⟨hidle, hret⟩ := hother hans
        generalize Ipv4.sendPacket _ (x.handle h) header pid (x.packets pid) = sent at hidle hret
        refine .inl ⟨hhead, hmem, fun k => ?_, fun k hk => ?_, _, rfl, fun o ho => ?_⟩
        · change (Function.update x.handle h sent.handle k).busy = _
          by_cases hk : k = h
          · subst hk
            rw [Function.update_self, hidle, hb]
          · rw [Function.update_of_ne hk]
        · refine Function.update_of_ne ?_ _ _
          rintro rfl
          rw [hb] at hk
          cases hk
        · rw [sendLog, if_neg hret, List.append_nil] at ho
          split_ifs at ho
          · obtain rfl := List.mem_singleton.mp ho
            rfl
          · cases ho
      · rw [hpend hans]
        refine .inr ⟨hb, hhead, ⟨_, netIf, rfl, rfl, rfl, rfl⟩, _, _, hmem, rfl, ?_, rfl⟩
        show x.msCounter + BitVec.ofNat 32 below.link.elapsed + Arp.requestTimeout = _
        rw [Node.msCounter, ← BitVec.ofNat_add, BitVec.ofNat_add _ Arp.requestTimeout.toNat,
          BitVec.ofNat_toNat, BitVec.setWidth_eq]

/-- A step that leaves the queued sends alone. -/
theorem Waiting.quiet {y : Node c n} (hw : Waiting [] x) (hq : Quiet x y) : Waiting [] y := by
  have hlisted := hw.listed.congr hq.requests fun r _ => (hq.mem r).1
  have hpending : y.arp.pending = x.arp.pending := hlisted.pending
  obtain ⟨new, hlog, hnew⟩ := hq.log
  have hcount : ∀ p : Obs n → Bool, (∀ o, o.isDirect = true → p o = false) →
      y.count p = x.count p := by
    intro p hp
    have hzero : new.countP p = 0 := List.countP_eq_zero.mpr fun o ho => by simp [hp o (hnew o ho)]
    rw [Node.count, hlog, List.countP_append, hzero]
    rfl
  have hstart : ∀ h, y.count (Obs.isStart h) = x.count (Obs.isStart h) :=
    fun h => hcount _ fun o ho => by cases o <;> first | rfl | cases ho
  have hcall : ∀ h, y.count (Obs.isCall h) = x.count (Obs.isCall h) :=
    fun h => hcount _ fun o ho => by cases o <;> first | rfl | cases ho
  have hend : ∀ h, y.count (Obs.isEnd h) = x.count (Obs.isEnd h) :=
    fun h => hcount _ fun o ho => by cases o <;> first | rfl | cases ho
  have hdue : ∀ h, y.due h = x.due h := by
    intro h
    have hnil : new.filterMap (Obs.dueOf h) = [] := by
      refine List.filterMap_eq_nil_iff.mpr fun o ho => ?_
      have hdirect := hnew o ho
      cases o <;> first | rfl | cases hdirect
    rw [Node.due, hlog, List.filterMap_append, hnil, List.append_nil]
    rfl
  refine ⟨?_, ?_, fun h => ?_, fun h hb => ?_, fun h => ?_, fun h => ?_, fun h hb => ?_⟩
  · rw [hpending]
    exact hlisted
  · rw [hpending]
    exact hw.nodup
  · rw [hpending, hq.busy]
    exact hw.busy h
  · rw [hq.busy] at hb
    rw [hq.handle h hb]
    exact hw.packet h hb
  · rw [hstart, hcall, hq.busy]
    exact hw.started h
  · rw [hend, hcall]
    exact hw.ended h
  · rw [hq.busy] at hb
    rw [hdue, (hq.mem h).2]
    exact hw.due h hb

/-- A step that queues the request of an idle handle. -/
theorem Waiting.queues {y : Node c n} {h : Fin n} {pid : PacketId} (hw : Waiting [] x)
    (hq : Queues x y h pid) :
    Waiting [] y := by
  obtain ⟨k, netIf, hhandle, hk, hpacket, -⟩ := hq.handle
  obtain ⟨request, due, hmem, hnext, hdue, hlog⟩ := hq.request
  have hnot : h ∉ x.arp.pending := by
    intro hin
    have hb := (hw.busy h).mpr (by simpa using hin)
    rw [hq.idle] at hb
    cases hb
  have hlisted := hw.listed.push hnot hnext hq.requests hmem
  have hpending : y.arp.pending = h :: x.arp.pending := hlisted.pending
  have hself : y.handle h = k := by rw [hhandle, Function.update_self]
  have hother : ∀ j, j ≠ h → y.handle j = x.handle j :=
    fun j hj => by rw [hhandle, Function.update_of_ne hj]
  refine ⟨?_, ?_, fun j => ?_, fun j hb => ?_, fun j => ?_, fun j => ?_, fun j hb => ?_⟩
  · rw [hpending]
    exact hlisted
  · rw [hpending, List.append_nil]
    exact hlisted.nodup
  · rw [hpending, List.append_nil]
    by_cases hj : j = h
    · subst hj
      simp [hself, hk]
    · rw [hother j hj, hw.busy j]
      simp [hj]
  · by_cases hj : j = h
    · subst hj
      exact ⟨pid, by rw [hself, hpacket]⟩
    · rw [hother j hj] at hb ⊢
      exact hw.packet j hb
  · have hstarted := hw.started j
    simp only [Node.count, hlog, List.countP_append, List.countP_singleton, Obs.isStart, Obs.isCall]
      at hstarted ⊢
    by_cases hj : j = h
    · subst hj
      rw [hq.idle] at hstarted
      simpa [hself, hk] using hstarted
    · rw [hother j hj]
      simpa [Ne.symm hj] using hstarted
  · have hended := hw.ended j
    simp only [Node.count, hlog, List.countP_append, List.countP_singleton, Obs.isEnd,
      Obs.isCall] at hended ⊢
    simpa using hended
  · by_cases hj : j = h
    · subst hj
      refine ⟨due, ?_, ?_⟩
      · rw [Node.due, hlog, List.filterMap_append]
        simp [Obs.dueOf]
      · rw [hmem, Function.update_self, hdue]
    · rw [hother j hj] at hb
      obtain ⟨due', hd, ht⟩ := hw.due j hb
      refine ⟨due', ?_, ?_⟩
      · have hnil : [Obs.inProgress h pid due].filterMap (Obs.dueOf j) = [] := by
          simp [Obs.dueOf, Ne.symm hj]
        rw [Node.due, hlog, List.filterMap_append, hnil, List.append_nil]
        exact hd
      · rw [hmem, Function.update_of_ne hj]
        exact ht

theorem Waiting.sendPacket (hw : Waiting [] x) (h : Fin n) (header : Ipv4Header) (pid : PacketId)
    (below : Below) : Waiting [] (x.sendPacket h header pid below) := by
  rcases sendPacket_cases x h header pid below with hq | hq
  · exact hw.quiet hq
  · exact hw.queues hq

end Steps

end NanoIp.Ipv4
