import NanoIp.Lib.Worker
import NanoIp.Netif.Task

/-!
# What the network task leaves behind

The network task is a worker that is woken by flags: it empties the queues whose flags it has taken
before it waits again, so nothing of them is left when it waits for a flag that nobody will set.
-/
namespace NanoIp.NetTask

open Oal (flagsSet flagsTaken)

/-- The frames are decoded as they were captured, each once and in order, and the sent packets are
dealt with in order; when the task waits for a flag and no callback is under way, nothing is left.
-/
structure Kept (s : State) (w : Log) : Prop where
  received : w.captured =
    w.decoded ++ (s.task.undecoded ++ s.receivedPackets).map fun r => r.frame s.buffers
  sent : w.sent = w.done ++ (s.task.held ++ s.transmittedPackets)
  idle : s.task = .waiting → s.syncFlags &&& (netifPacketReceived ||| netifPacketSent) = 0#32 →
    .packetReceived ∉ s.callbacks → .packetSent ∉ s.callbacks →
      w.decoded = w.captured ∧ w.done = w.sent

/-- What the network task has to do for its flags. -/
inductive Work where
  | received | sent | other
  deriving DecidableEq

instance : Fintype Work := ⟨{.received, .sent, .other}, fun k => by cases k <;> decide⟩

def Work.mask : Work → BitVec 32
  | .received => netifPacketReceived
  | .sent => netifPacketSent
  | .other => ~~~(netifPacketReceived ||| netifPacketSent)

def calls (flags : BitVec 32) (k : Work) : Bool := Oal.anyFlag flags k.mask

def Callback.work : Callback → Work
  | .packetReceived => .received
  | .packetSent => .sent
  | .netDrvError | .linkStateChanged => .other

/-- What the task has still to do. -/
def Task.todo : Task → Option (Work → Bool)
  | .waiting => none
  | .receiving flags | .decoding flags _ | .called flags _ | .testing flags _ =>
    some fun | .received => true | .sent => calls flags .sent | .other => calls flags .other
  | .sending flags | .holding flags _ =>
    some fun | .received => false | .sent => true | .other => calls flags .other
  | .ending flags => some fun | .received => false | .sent => false | .other => calls flags .other

/-- The network task as a worker. -/
def State.worker (s : State) : Lib.Worker Work Unit where
  queue
    | .received => s.receivedPackets.map fun _ => ()
    | .sent => s.transmittedPackets.map fun _ => ()
    | .other => []
  flag := calls s.syncFlags
  late k := s.callbacks.countP fun c => c.work = k
  task := s.task.todo

/-- What it does as such. -/
def rxTaskWorks (s : State) : List (Lib.Worker.Event Work Unit) :=
  match s.task, s.receivedPackets, s.transmittedPackets with
  | .waiting, _, _ => [.wake]
  | .receiving _, [], _ => [.next .received]
  | .receiving _, _ :: _, _ => [.take .received]
  | .sending _, _, [] => [.next .sent]
  | .sending _, _, _ :: _ => [.take .sent]
  | .ending flags, _, _ => if calls flags .other then [.next .other, .sleep] else [.sleep]
  | _, _, _ => []

section Work

variable {s s' : State} {w : Log} {e : Event}

theorem calls_flagsSet (flags flagMask : BitVec 32) (k : Work) :
    calls (flagsSet flags flagMask) k = (calls flags k || calls flagMask k) :=
  Oal.anyFlag_set flags flagMask k.mask

theorem calls_flag (c : Callback) (k : Work) : calls c.flag k = decide (c.work = k) := by
  cases c <;> cases k <;> decide

theorem calls_some {flags : BitVec 32} (h : flags ≠ 0#32) : ∃ k, calls flags k = true := by
  by_contra hnone
  have hzero : ∀ k, flags &&& Work.mask k = 0#32 := by
    intro k
    by_contra hne
    exact hnone ⟨k, decide_eq_true hne⟩
  apply h
  have hall : Work.mask .received ||| Work.mask .sent ||| Work.mask .other = BitVec.allOnes 32 := by
    decide
  rw [← BitVec.and_allOnes (x := flags), ← hall, BitVec.and_or_distrib_left,
    BitVec.and_or_distrib_left,
    hzero, hzero, hzero]
  decide

theorem behindReceived_todo (flags : BitVec 32) : (Task.behindReceived flags).todo =
    some (Function.update (calls flags) .received false) := by
  unfold Task.behindReceived
  split_ifs with hsent
  · have hcalls : calls flags .sent = true := decide_eq_true hsent
    refine congrArg some (funext fun k => ?_)
    cases k with
    | received => rfl
    | sent => exact hcalls.symm
    | other => rfl
  · have hcalls : calls flags .sent = false := decide_eq_false hsent
    refine congrArg some (funext fun k => ?_)
    cases k with
    | received => rfl
    | sent => exact hcalls.symm
    | other => rfl

theorem behindWait_todo (flags : BitVec 32) :
    (Task.behindWait flags).todo = some (calls flags) := by
  unfold Task.behindWait
  split_ifs with hreceived
  · have hcalls : calls flags .received = true := decide_eq_true hreceived
    refine congrArg some (funext fun k => ?_)
    cases k with
    | received => exact hcalls.symm
    | sent => rfl
    | other => rfl
  · have hcalls : calls flags .received = false := decide_eq_false hreceived
    rw [behindReceived_todo, ← hcalls, Function.update_eq_self]

theorem late_pos {c : Callback} (hc : c ∈ s.callbacks) : 0 < s.worker.late c.work :=
  List.countP_pos_iff.mpr ⟨c, hc, decide_eq_true rfl⟩

/-- A callback sets its flag. -/
theorem callback_worker {c : Callback} (hc : c ∈ s.callbacks) :
    Lib.Worker.step s.worker (.signal c.work) = some (callback s c).worker := by
  refine congrArg some (Lib.Worker.ext rfl (funext fun k => ?_) (funext fun k => ?_) rfl)
  · show Function.update (calls s.syncFlags) c.work true k = calls (flagsSet s.syncFlags c.flag) k
    rw [calls_flagsSet, calls_flag, Function.update_apply]
    by_cases hk : k = c.work
    · rw [if_pos hk, decide_eq_true hk.symm, Bool.or_true]
    · rw [if_neg hk, decide_eq_false (Ne.symm hk), Bool.or_false]
  · show Function.update s.worker.late c.work (s.worker.late c.work - 1) k =
      (s.callbacks.erase c).countP fun c => c.work = k
    have hperm := (List.perm_cons_erase hc).countP_eq fun c => decide (c.work = k)
    rw [List.countP_cons] at hperm
    rw [Function.update_apply]
    by_cases hk : k = c.work
    · rw [if_pos hk, ← hk]
      rw [if_pos (decide_eq_true hk.symm)] at hperm
      show (s.callbacks.countP fun c => c.work = k) - 1 = _
      omega
    · rw [if_neg hk]
      rw [if_neg (by rw [decide_eq_true_eq]; exact Ne.symm hk)] at hperm
      exact hperm

/-- The wait takes all flags. -/
theorem wake_worker {taken : BitVec 32 × BitVec 32} (htask : s.task = .waiting)
    (htaken : flagsTaken s.syncFlags flagsAll = some taken) :
    Lib.Worker.step s.worker .wake =
      some ({ s with syncFlags := taken.2, task := .behindWait taken.1 } : State).worker ∧
        s.syncFlags ≠ 0#32 := by
  have hall : s.syncFlags &&& flagsAll = s.syncFlags := BitVec.and_allOnes
  have hnone : s.worker.task = none := by
    show s.task.todo = none
    rw [htask]
    rfl
  unfold flagsTaken at htaken
  simp only [hall] at htaken
  split_ifs at htaken with hzero
  obtain rfl := Option.some.inj htaken
  refine ⟨?_, hzero⟩
  simp only [Lib.Worker.step, hnone]
  refine congrArg some (Lib.Worker.ext rfl (funext fun k => ?_) rfl ?_)
  · show false = calls (Oal.flagsReset s.syncFlags s.syncFlags) k
    rw [Oal.flagsReset, BitVec.and_not_self]
    cases k <;> rfl
  · exact (behindWait_todo s.syncFlags).symm

theorem same_worker {keeps : Nat → Bool} {rxPackets kept : List Packet} {task : Task}
    (htodo : task.todo = s.task.todo) :
    Lib.runInputs Lib.Worker.step Lib.Worker.Works s.worker [] =
      some ({ s with keeps := keeps, rxPackets := rxPackets, kept := kept,
                     task := task } : State).worker :=
  congrArg some (Lib.Worker.ext rfl rfl rfl htodo.symm)

theorem receive_worker {flags : BitVec 32} {r : Received} {rest : List Received}
    (htask : s.task = .receiving flags) (hq : s.receivedPackets = r :: rest) :
    Lib.runInputs Lib.Worker.step Lib.Worker.Works s.worker [.take .received] =
      some ({ s with receivedPackets := rest, task := .decoding flags r } : State).worker := by
  have htodo : s.worker.task =
      some fun | .received => true | .sent => calls flags .sent | .other => calls flags .other := by
    show s.task.todo = _
    rw [htask]
    rfl
  have hqueue : s.worker.queue .received = () :: rest.map fun _ => () := by
    show s.receivedPackets.map _ = _
    rw [hq]
    rfl
  refine Lib.runInputs_single trivial ?_
  rw [Lib.Worker.take_eq hqueue (by rw [Lib.Worker.todo, htodo]; rfl)]
  refine congrArg some (Lib.Worker.ext (funext fun k => ?_) rfl rfl htodo)
  cases k <;> rfl

theorem received_none_worker {flags : BitVec 32} (htask : s.task = .receiving flags)
    (hq : s.receivedPackets = []) :
    Lib.runInputs Lib.Worker.step Lib.Worker.Works s.worker [.next .received] =
      some ({ s with task := .behindReceived flags } : State).worker := by
  have htodo : s.worker.task =
      some fun | .received => true | .sent => calls flags .sent | .other => calls flags .other := by
    show s.task.todo = _
    rw [htask]
    rfl
  have hempty : s.worker.queue .received = [] := by
    show s.receivedPackets.map _ = []
    rw [hq]
    rfl
  refine Lib.runInputs_single (by rw [Lib.Worker.Works, Lib.Worker.todo, htodo]; rfl) ?_
  rw [Lib.Worker.next_eq htodo hempty]
  refine congrArg some (Lib.Worker.ext rfl rfl rfl ?_)
  show _ = (Task.behindReceived flags).todo
  rw [behindReceived_todo]
  refine congrArg some (funext fun k => ?_)
  cases k <;> rfl

theorem take_worker {flags : BitVec 32} {p : Nat} {rest : List Nat} (htask : s.task = .sending flags)
    (hq : s.transmittedPackets = p :: rest) :
    Lib.runInputs Lib.Worker.step Lib.Worker.Works s.worker [.take .sent] =
      some ({ s with transmittedPackets := rest, task := .holding flags p } : State).worker := by
  have htodo : s.worker.task = some fun | .received => false | .sent => true | .other => calls flags .other := by
    show s.task.todo = _
    rw [htask]
    rfl
  have hqueue : s.worker.queue .sent = () :: rest.map fun _ => () := by
    show s.transmittedPackets.map _ = _
    rw [hq]
    rfl
  refine Lib.runInputs_single trivial ?_
  rw [Lib.Worker.take_eq hqueue (by rw [Lib.Worker.todo, htodo]; rfl)]
  refine congrArg some (Lib.Worker.ext (funext fun k => ?_) rfl rfl htodo)
  cases k <;> rfl

theorem taken_worker {flags : BitVec 32} (htask : s.task = .sending flags) (hq : s.transmittedPackets = []) :
    Lib.runInputs Lib.Worker.step Lib.Worker.Works s.worker [.next .sent] =
      some ({ s with task := .ending flags } : State).worker := by
  have htodo : s.worker.task = some fun | .received => false | .sent => true | .other => calls flags .other := by
    show s.task.todo = _
    rw [htask]
    rfl
  have hempty : s.worker.queue .sent = [] := by
    show s.transmittedPackets.map _ = []
    rw [hq]
    rfl
  refine Lib.runInputs_single (by rw [Lib.Worker.Works, Lib.Worker.todo, htodo]; rfl) ?_
  rw [Lib.Worker.next_eq htodo hempty]
  refine congrArg some (Lib.Worker.ext rfl rfl rfl ?_)
  refine congrArg some (funext fun k => ?_)
  cases k <;> rfl

/-- The other flags have no queue. -/
theorem sleep_worker {flags : BitVec 32} (htask : s.task = .ending flags) (linkState : Nat) :
    Lib.runInputs Lib.Worker.step Lib.Worker.Works s.worker
        (if calls flags .other then [.next .other, .sleep] else [.sleep]) =
      some ({ s with linkState := linkState, task := .waiting } : State).worker := by
  have htodo : s.worker.task = some fun | .received => false | .sent => false | .other => calls flags .other := by
    show s.task.todo = _
    rw [htask]
    rfl
  change _ = some { s.worker with task := none }
  split_ifs with hother
  · have hempty : s.worker.queue .other = [] := rfl
    have hworks : Lib.Worker.Works s.worker (.next .other) := by
      rw [Lib.Worker.Works, Lib.Worker.todo, htodo]
      exact hother
    have hnext : Lib.Worker.step s.worker (.next .other) =
        some { s.worker with task := some fun _ => false } := by
      rw [Lib.Worker.next_eq htodo hempty]
      refine congrArg some (Lib.Worker.ext rfl rfl rfl (congrArg some (funext fun k => ?_)))
      cases k <;> rfl
    have hsleep : Lib.Worker.step { s.worker with task := some fun _ => false } .sleep =
        some { s.worker with task := none } := Lib.Worker.sleep_eq rfl fun _ => rfl
    exact Lib.runInputs_cons hworks hnext (Lib.runInputs_single trivial hsleep)
  · refine Lib.runInputs_single trivial (Lib.Worker.sleep_eq (by rw [htodo]; rfl) fun k => ?_)
    rw [Lib.Worker.todo, htodo]
    cases k with
    | received => rfl
    | sent => rfl
    | other => exact Bool.eq_false_of_not_eq_true hother

/-- What the network task does as a worker. -/
theorem rxTask_worker {keep : Bool} (hs : rxTask s keep .success = some s') :
    Lib.runInputs Lib.Worker.step Lib.Worker.Works s.worker (rxTaskWorks s) = some s'.worker := by
  cases rxTask_turn hs with
  | wake taken htask htaken =>
    simp only [rxTaskWorks, htask]
    obtain ⟨hstep, hne⟩ := wake_worker htask htaken
    exact Lib.runInputs_single (calls_some hne) hstep
  | receive flags r rest htask hq =>
    simp only [rxTaskWorks, htask, hq]
    exact receive_worker htask hq
  | received flags htask hq =>
    have hworks : rxTaskWorks s = [.next .received] := by simp only [rxTaskWorks, htask, hq]
    rw [hworks]
    exact received_none_worker htask hq
  | called flags r htask | decoded flags r htask | keep flags r htask | kept flags r htask
  | requeue flags r htask =>
    simp only [rxTaskWorks, htask]
    exact same_worker (by rw [htask]; rfl)
  | take flags p rest htask hq =>
    simp only [rxTaskWorks, htask, hq]
    exact take_worker htask hq
  | taken flags htask hq =>
    have hworks : rxTaskWorks s = [.next .sent] := by simp only [rxTaskWorks, htask, hq]
    rw [hworks]
    exact taken_worker htask hq
  | release flags p htask =>
    simp only [rxTaskWorks, htask]
    exact same_worker (by rw [htask]; rfl)
  | refused flags p htask hret => exact absurd rfl hret
  | sleep flags linkState htask =>
    simp only [rxTaskWorks, htask]
    exact sleep_worker htask linkState

theorem countP_concat (l : List Callback) (c : Callback) (k : Work) :
    (l ++ [c]).countP (fun c => c.work = k) =
      Function.update (fun k => l.countP fun c => c.work = k) c.work
        (l.countP (fun d => d.work = c.work) + 1) k := by
  rw [List.countP_append, List.countP_singleton, Function.update_apply]
  by_cases hk : k = c.work
  · rw [if_pos hk, hk, if_pos (decide_eq_true rfl)]
  · rw [if_neg hk, if_neg (by rw [decide_eq_true_eq]; exact Ne.symm hk), Nat.add_zero]

theorem call_worker (c : Callback) : Lib.Worker.step s.worker (.call c.work) =
    some ({ s with callbacks := s.callbacks ++ [c] } : State).worker :=
  congrArg some (Lib.Worker.ext rfl rfl (funext fun k => (countP_concat s.callbacks c k).symm) rfl)

/-- A handler of the driver that adds to the received packets. -/
theorem received_worker (rxPackets : List Packet) (buffers : Nat → List Byte) (r : Received) :
    Lib.Worker.step s.worker (.add .received ()) =
      some
        ({ s with
            buffers := buffers
            rxPackets := rxPackets
            receivedPackets := s.receivedPackets ++ [r]
            callbacks := s.callbacks ++ [.packetReceived] } : State).worker := by
  refine congrArg some (Lib.Worker.ext (funext fun k => ?_) rfl (funext fun k => ?_) rfl)
  · cases k with
    | received =>
      show (s.receivedPackets.map fun _ => ()) ++ [()] = (s.receivedPackets ++ [r]).map fun _ => ()
      rw [List.map_append]
      rfl
    | sent => rfl
    | other => rfl
  · exact (countP_concat s.callbacks .packetReceived k).symm

theorem sent_worker (p : Nat) :
    Lib.Worker.step s.worker (.add .sent ()) = some (drvSendPacket s p).worker := by
  refine congrArg some (Lib.Worker.ext (funext fun k => ?_) rfl (funext fun k => ?_) rfl)
  · cases k with
    | received => rfl
    | sent =>
      show (s.transmittedPackets.map fun _ => ()) ++ [()] =
        (s.transmittedPackets ++ [p]).map fun _ => ()
      rw [List.map_append]
      rfl
    | other => rfl
  · exact (countP_concat s.callbacks .packetSent k).symm

theorem timer_woken (h : s.worker.Woken) : (periodicTimerCallback s).worker.Woken := by
  intro k hk
  rcases h k hk with hflag | hlate | htodo
  · refine .inl ?_
    show calls (flagsSet s.syncFlags netifPeriodicTimer) k = true
    rw [calls_flagsSet, show calls s.syncFlags k = true from hflag, Bool.true_or]
  · exact .inr (.inl hlate)
  · exact .inr (.inr htodo)

theorem step_woken (h : s.worker.Woken) (hok : Orderly (s, w) e) (hs : step s e = some s') :
    s'.worker.Woken := by
  cases e with
  | capture pktData =>
    obtain rfl := Option.some.inj hs
    rcases drvPcapHandler_eq s pktData with ⟨-, heq⟩ | ⟨packet, rest, -, -, -, heq⟩
    · rw [heq]
      exact Lib.Worker.step_woken h (call_worker .netDrvError)
    · rw [heq]
      exact Lib.Worker.step_woken h (received_worker rest _ _)
  | send p =>
    obtain rfl := Option.some.inj hs
    exact Lib.Worker.step_woken h (sent_worker p)
  | callback c =>
    rw [step] at hs
    split_ifs at hs with hc
    obtain rfl := Option.some.inj hs
    exact Lib.Worker.step_woken h (callback_worker (List.contains_iff_mem.mp hc))
  | timer =>
    obtain rfl := Option.some.inj hs
    exact timer_woken h
  | setLink link =>
    obtain rfl := Option.some.inj hs
    exact h
  | giveBack packet =>
    rw [step] at hs
    split_ifs at hs
    obtain rfl := Option.some.inj hs
    exact h
  | rxTask keep ret =>
    have hret : ret = .success := hok
    rw [step, hret] at hs
    exact h.run (rxTask_worker hs)

end Work

theorem reach_inv {packets : List Packet} (hpackets : (packets.map Packet.data).Nodup)
    {x : State × Log}
    (h : Lib.Reach (Lib.observe step log) Orderly (State.init packets, Log.init) x) :
    Inv x.1 x.2 ∧ x.1.worker.Woken := by
  refine h.invariant (I := fun x => Inv x.1 x.2 ∧ x.1.worker.Woken) ⟨?_, ?_⟩ ?_
  · refine ⟨?_, fun p hp => (List.not_mem_nil hp).elim, fun p _ => rfl, rfl, rfl⟩
    rw [State.packets]
    simp only [State.init, State.mine, List.map_nil, List.append_nil]
    exact hpackets
  · intro k hk
    cases k <;> exact absurd rfl hk
  · intro y e z hy hok hs
    obtain ⟨hstep, hlog⟩ := Lib.observe_some.mp hs
    rw [hlog]
    exact ⟨step_inv hy.1 hok hstep, step_woken hy.2 hok hstep⟩

theorem idle_queue {s : State} (h : s.worker.Woken) (htask : s.task = .waiting) {k : Work}
    (hflag : calls s.syncFlags k = false) (hlate : ∀ c ∈ s.callbacks, c.work ≠ k) :
    s.worker.queue k = [] := by
  refine h.empty hflag (List.countP_eq_zero.mpr fun c hc => ?_) (Lib.Worker.todo_of_none ?_ k)
  · rw [decide_eq_true_eq]
    exact hlate c hc
  · show s.task.todo = none
    rw [htask]
    rfl

theorem Inv.kept {s : State} {w : Log} (h : Inv s w) (hwoken : s.worker.Woken) : Kept s w := by
  refine ⟨h.received, h.sent, fun htask hflags hreceived hsent => ?_⟩
  rw [BitVec.and_or_distrib_left, BitVec.or_eq_zero_iff] at hflags
  have hrx : s.worker.queue .received = [] := by
    refine idle_queue hwoken htask (decide_eq_false (not_not_intro hflags.1)) fun c hc hwork =>
      hreceived ?_
    cases c with
    | packetReceived => exact hc
    | packetSent | netDrvError | linkStateChanged => cases hwork
  have htx : s.worker.queue .sent = [] := by
    refine idle_queue hwoken htask (decide_eq_false (not_not_intro hflags.2)) fun c hc hwork =>
      hsent ?_
    cases c with
    | packetSent => exact hc
    | packetReceived | netDrvError | linkStateChanged => cases hwork
  have hr := h.received
  have ht := h.sent
  rw [htask, List.map_eq_nil_iff.mp hrx] at hr
  rw [htask, List.map_eq_nil_iff.mp htx] at ht
  exact ⟨(hr.trans (List.append_nil _)).symm, (ht.trans (List.append_nil _)).symm⟩

/-- In an orderly run the network task decodes every frame that the driver took, as it was and in
order, and waits only when it has been through both queues or will be called. -/
theorem task_keeps {packets : List Packet} (hpackets : (packets.map Packet.data).Nodup)
    {x : State × Log}
    (h : Lib.Reach (Lib.observe step log) Orderly (State.init packets, Log.init) x) :
    Kept x.1 x.2 :=
  (reach_inv hpackets h).1.kept (reach_inv hpackets h).2

/-- A frame arrives while the task decodes another one, whose packet is kept, and given back when
the task has tested it. -/
theorem task_keeps_two : ∃ x,
    Lib.Reach (Lib.observe step log) Orderly (State.init [⟨0, 64#16⟩, ⟨1, 64#16⟩], Log.init) x ∧
    x.2.decoded = [[1#8], [2#8]] ∧ x.2.sent = [7] ∧ Kept x.1 x.2 := by
  obtain ⟨x, hreach, hend⟩ := Lib.exists_of_runInputs (Lib.observe step log) Orderly
    (State.init [⟨0, 64#16⟩, ⟨1, 64#16⟩], Log.init)
    [.capture [1#8], .callback .packetReceived, .rxTask false .success, .rxTask false .success,
      .capture [2#8],
      .rxTask true .success, .send 7, .rxTask false .success, .rxTask false .success,
        .giveBack ⟨0, 64#16⟩,
      .rxTask false .success, .rxTask false .success, .rxTask false .success,
        .callback .packetReceived,
      .callback .packetSent]
    (fun x => x.2.decoded = [[1#8], [2#8]] ∧ x.2.sent = [7]) (by decide +kernel)
  obtain ⟨hdecoded, hsent⟩ := of_decide_eq_true hend
  exact ⟨x, hreach, hdecoded, hsent, task_keeps (by decide) hreach⟩

/-- The driver makes its callbacks and the network task goes on, but nothing new arrives. -/
def GoesOn (_ : State × Log) : Event → Prop
  | .callback _ => True
  | .rxTask _ ret => ret = .success
  | _ => False

instance (x : State × Log) : ∀ e, Decidable (GoesOn x e)
  | .callback _ => .isTrue trivial
  | .rxTask _ ret => inferInstanceAs (Decidable (ret = .success))
  | .capture _ | .send _ | .timer | .setLink _ | .giveBack _ => .isFalse id

/-- What is done between two looks at the queues. -/
def Task.phase : Task → Nat
  | .decoding _ _ => 3
  | .called _ _ => 2
  | .testing _ _ | .holding _ _ => 1
  | _ => 0

def workLeft (s : State) : Nat := 4 * s.worker.rank + s.task.phase

theorem behindReceived_phase (flags : BitVec 32) : (Task.behindReceived flags).phase = 0 := by
  unfold Task.behindReceived
  split_ifs <;> rfl

theorem behindWait_phase (flags : BitVec 32) : (Task.behindWait flags).phase = 0 := by
  unfold Task.behindWait
  split_ifs
  · rfl
  · exact behindReceived_phase flags

/-- What the task does either is work or brings it nearer to the queues. -/
theorem rxTask_phase {s s' : State} {keep : Bool} (hs : rxTask s keep .success = some s') :
    s'.task.phase < s.task.phase + 4 * (rxTaskWorks s).length := by
  unfold rxTaskWorks
  cases rxTask_turn hs with
  | wake taken htask =>
    simp only [htask, behindWait_phase]
    exact Nat.succ_pos _
  | receive flags r rest htask hq =>
    simp only [htask, hq]
    exact Nat.lt_succ_self _
  | received flags htask hq =>
    simp only [htask, hq, behindReceived_phase]
    exact Nat.succ_pos _
  | called flags r htask | keep flags r htask | kept flags r htask | requeue flags r htask
  | release flags p htask =>
    simp only [htask]
    exact Nat.lt_succ_self _
  | decoded flags r htask =>
    simp only [htask]
    exact Nat.lt_add_of_pos_right (Nat.succ_pos 1)
  | take flags p rest htask hq =>
    simp only [htask, hq]
    exact Nat.lt_add_of_pos_right (Nat.succ_pos 2)
  | taken flags htask hq =>
    simp only [htask, hq]
    exact Nat.succ_pos _
  | refused flags p htask hret => exact absurd rfl hret
  | sleep flags linkState htask =>
    simp only [htask]
    split_ifs <;> exact Nat.succ_pos _

/-- The work that is left, as a rank of the runs. -/
def LeftIs (x : State × Log) (r : Nat) : Prop := workLeft x.1 = r

theorem goesOn_lt {x y : State × Log} {e : Event} (hok : GoesOn x e)
    (hs : Lib.observe step log x e = some y) :
    workLeft y.1 < workLeft x.1 := by
  obtain ⟨hstep, -⟩ := Lib.observe_some.mp hs
  cases e with
  | callback c =>
    rw [step] at hstep
    split_ifs at hstep with hc
    have hmem := List.contains_iff_mem.mp hc
    have hrank := Lib.Worker.works_rank (e := .signal c.work) (late_pos hmem) (callback_worker hmem)
    rw [Option.some.inj hstep] at hrank
    have hphase : y.1.task.phase = x.1.task.phase := by rw [← Option.some.inj hstep]; rfl
    rw [workLeft, workLeft, hphase]
    omega
  | rxTask keep ret =>
    have hret : ret = .success := hok
    rw [step, hret] at hstep
    have hrank := Lib.Worker.runInputs_rank (rxTask_worker hstep)
    have hphase := rxTask_phase hstep
    rw [workLeft, workLeft]
    omega
  | capture | send | timer | setLink | giveBack => exact hok.elim

theorem goesOn_rank (x : State × Log) (e : Event) (y : State × Log) (r : Nat) (hr : LeftIs x r)
    (hok : GoesOn x e) (hs : Lib.observe step log x e = some y) : ∃ r' < r, LeftIs y r' := by
  have hlt := goesOn_lt hok hs
  have hr' : workLeft x.1 = r := hr
  rw [hr'] at hlt
  exact ⟨workLeft y.1, hlt, rfl⟩

theorem goesOn_length {x y : State × Log} {es : List Event}
    (hrun : Lib.runInputs (Lib.observe step log) GoesOn x es = some y) :
    es.length ≤ workLeft x.1 := by
  have hle := Lib.runInputs_ranked (P := LeftIs) goesOn_rank (Eq.refl (workLeft x.1)) hrun
  obtain ⟨r, -, hr⟩ := hle
  exact Nat.le_of_add_right_le hr

/-- The task stops only at its wait, with no flag set. -/
theorem rxTask_none {s : State} (h : rxTask s false .success = none) :
    s.task = .waiting ∧ s.syncFlags = 0#32 := by
  unfold rxTask at h
  cases htask : s.task with
  | waiting =>
    simp only [htask] at h
    refine ⟨rfl, ?_⟩
    have htaken := Option.map_eq_none_iff.mp h
    have hall : s.syncFlags &&& flagsAll = s.syncFlags := BitVec.and_allOnes
    unfold flagsTaken at htaken
    simp only [hall] at htaken
    split_ifs at htaken with hzero
    exact hzero
  | receiving flags | sending flags =>
    simp only [htask] at h
    split at h <;> cases h
  | testing flags r | ending flags =>
    simp only [htask] at h
    split_ifs at h
  | decoding flags r | called flags r | holding flags p =>
    simp only [htask] at h
    cases h

/-- When nothing new arrives, the driver and the network task come to rest, with every captured
frame decoded and every sent packet dealt with, in whatever order they go on. -/
theorem task_rests {packets : List Packet} (hpackets : (packets.map Packet.data).Nodup)
    {x y : State × Log} {es : List Event}
    (h : Lib.Reach (Lib.observe step log) Orderly (State.init packets, Log.init) x)
    (hrun : Lib.runInputs (Lib.observe step log) GoesOn x es = some y) :
    es.length ≤ workLeft x.1 ∧
      ((∀ e, GoesOn y e → Lib.observe step log y e = none) →
        y.1.task = .waiting ∧ y.2.decoded = y.2.captured ∧ y.2.done = y.2.sent) := by
  refine ⟨goesOn_length hrun, fun hstuck => ?_⟩
  have hreach : Lib.Reach (Lib.observe step log) Orderly (State.init packets, Log.init) y := by
    refine h.trans ((Lib.reach_of_runInputs hrun).mono fun z e hok => ?_)
    cases e with
    | rxTask keep ret => exact hok
    | _ => trivial
  have hnone : ∀ e, GoesOn y e → step y.1 e = none := fun e he =>
    Option.map_eq_none_iff.mp (hstuck e he)
  obtain ⟨htask, hflags⟩ := rxTask_none (hnone (.rxTask false .success) rfl)
  have hcallbacks : ∀ c, c ∉ y.1.callbacks := by
    intro c hc
    have hcall := hnone (.callback c) trivial
    rw [step, if_pos (List.contains_iff_mem.mpr hc)] at hcall
    cases hcall
  refine ⟨htask, (task_keeps hpackets hreach).idle htask ?_ (hcallbacks _) (hcallbacks _)⟩
  rw [hflags]
  rfl

/-- What is left to do for a captured frame and a sent packet, both with their callbacks still to
come. -/
def bothLeft : List Event :=
  [.callback .packetSent, .callback .packetReceived] ++ List.replicate 9 (.rxTask false .success)

theorem task_rests_two :
    ∃ x y, Lib.Reach (Lib.observe step log) Orderly (State.init [⟨0, 64#16⟩], Log.init) x ∧
    Lib.runInputs (Lib.observe step log) GoesOn x bothLeft = some y ∧ 11 ≤ workLeft x.1 ∧
    y.1.task = .waiting ∧ y.2.decoded = y.2.captured ∧ y.2.done = y.2.sent := by
  obtain ⟨x, hreach, hend⟩ := Lib.exists_of_runInputs (Lib.observe step log) Orderly
    (State.init [⟨0, 64#16⟩], Log.init) [.capture [1#8], .send 7]
    (fun x => (Lib.runInputs (Lib.observe step log) GoesOn x bothLeft).any fun y =>
      y.1.callbacks = [] ∧ y.1.task = .waiting ∧ y.1.syncFlags = 0#32) (by decide +kernel)
  obtain ⟨y, hy, hrest⟩ := (Option.any_eq_true _ _).mp hend
  obtain ⟨hcallbacks, htask, hflags⟩ := of_decide_eq_true hrest
  obtain ⟨hbound, hdone⟩ := task_rests (by decide) hreach hy
  refine ⟨x, y, hreach, hy, hbound, hdone fun e he => Option.map_eq_none_iff.mpr ?_⟩
  cases e with
  | callback c =>
    rw [step, hcallbacks]
    rfl
  | rxTask keep ret =>
    simp only [step, rxTask, htask, hflags]
    rfl
  | capture | send | giveBack | timer | setLink => exact absurd he id

end NanoIp.NetTask
