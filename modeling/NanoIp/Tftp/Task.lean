import NanoIp.Lib.Worker
import NanoIp.Oal.FlagsLinux
import NanoIp.Tftp.Peer

/-!
# The task of a TFTP client or server

Built with a task of its own, a client or server puts each datagram into a list and sets a flag;
the task takes the packets from there while the module is started. As long as another peer is
heard only when the list is empty, it does what it would do without the task, a little later. The
flags that start and stop the task are not counted, so that a start, a stop and another start that
come before the task has seen the first leave it waiting.
-/
namespace NanoIp.Tftp.Life

variable {υ : Type} {role : Role} {callbacks : Callbacks υ} {s d : State υ} {i : Input}

/-- What an input of a module with a task comes to without one: a packet is processed at once,
when the task would come to it. -/
def atOnce (s : State υ) : Input → List Input
  | .udpEvent _ _ => []
  | .task t =>
    match s.rxPackets with
    | [] => []
    | r :: _ => [.udpEvent r t]
  | i => [i]

/-- Another peer is heard only when the list is empty. -/
def OnePeer (s : State υ) : Input → Prop
  | .udpEvent r _ => s.rxPackets = [] ∨ AnswersTo s.tftp r.src
  | _ => True

/-- The module with a task and the one without, which have processed the same packets. -/
structure Together (s d : State υ) : Prop where
  transfer : s.tftp.toModule = d.tftp.toModule
  block : s.tftp.currentBlock = d.tftp.currentBlock
  user : s.user = d.user
  calls : s.calls = d.calls
  sent : s.sent = d.sent

/-- And the packets that wait are from the peer that the module answers to. -/
structure Follows (s d : State υ) : Prop extends Together s d where
  waiting : ∀ r ∈ s.rxPackets, AnswersTo s.tftp r.src

theorem instance_eq {x y : Instance} (hmodule : x.toModule = y.toModule)
    (hblock : x.currentBlock = y.currentBlock) :
    x = y.answering x.destAddress x.destPort := by
  cases x
  cases y
  cases hmodule
  cases hblock
  rfl

theorem Together.did (h : Together s d) (answers : Option Peer) (out out' : Outcome (υ × List Call))
    (htransfer : out.tftp.toModule = out'.tftp.toModule)
    (hblock : out.tftp.currentBlock = out'.tftp.currentBlock) (huser : out.user = out'.user)
    (hsent : out.sent = out'.sent) :
    Together (s.did answers out) (d.did answers out') := by
  have hended : endings s.tftp out.tftp = endings d.tftp out'.tftp := by
    rw [endings, endings, h.transfer, htransfer]
  refine ⟨htransfer, hblock, congrArg Prod.fst huser, ?_, ?_⟩
  · show out.user.2 ++ _ = out'.user.2 ++ _
    rw [huser, hended]
  · show s.sent ++ _ = d.sent ++ _
    rw [h.sent, hsent]

theorem Together.asked (h : Together s d) (opcode : ReqType) (serverAddress : Ipv4Address)
    (serverPort : BitVec 16) (filename : List Byte) (layers : Layers) (now : BitVec 32) : Together
      (s.asked opcode (clientRequest opcode s.tftp (s.user, s.calls) serverAddress serverPort
        filename layers now))
      (d.asked opcode
        (clientRequest opcode d.tftp (d.user, d.calls) serverAddress serverPort filename
          layers now)) := by
  have hresult := clientRequest_answering opcode d.tftp (d.user, d.calls) serverAddress serverPort
    filename layers now
    s.tftp.destAddress s.tftp.destPort
  rw [← instance_eq h.transfer h.block] at hresult
  rw [h.user, h.calls, hresult]
  generalize clientRequest opcode d.tftp (d.user, d.calls) serverAddress serverPort filename layers
    now = result
  have hdid := h.did none ⟨result.1.tftp.answering s.tftp.destAddress s.tftp.destPort,
    result.1.user, result.1.sent⟩
    result.1 rfl rfl rfl rfl
  exact ⟨hdid.transfer, hdid.block, hdid.user, congrArg (· ++ _) hdid.calls, hdid.sent⟩

/-- The packet that the task comes to is processed by the other module when it arrives there. -/
theorem Follows.task (h : Follows s d) {r : Received} {rest : List Received} (hq : s.rxPackets = r :: rest)
    (t : Turn) : Follows (step role true callbacks s (.task t)) (step role false callbacks d (.udpEvent r t)) := by
  have hr : AnswersTo s.tftp r.src := h.waiting r (hq ▸ List.mem_cons_self)
  have hx : s.tftp = d.tftp.answering r.src.address r.src.port := by
    rw [← hr.1, ← hr.2]
    exact instance_eq h.transfer h.block
  have hfaces := processPacket_faces role (recorded callbacks) s.tftp (s.user, s.calls) r.packet t
  have hboth : Together (State.process role callbacks { s with rxPackets := rest } r t)
      (State.process role callbacks { d with tftp := d.tftp.answering r.src.address r.src.port } r
        t) := by
    rw [State.process, State.process, ← hx, h.user, h.calls]
    have hthere : Together { s with rxPackets := rest } { d with tftp := s.tftp } :=
      ⟨rfl, rfl, h.user, h.calls, h.sent⟩
    exact hthere.did (some r.src) _ _ rfl rfl rfl rfl
  simp only [step, hq]
  refine ⟨hboth, fun r' hr' => ?_⟩
  obtain ⟨haddress, hport⟩ := h.waiting r' (hq ▸ List.mem_cons_of_mem r hr')
  exact ⟨hfaces.destAddress.trans haddress, hfaces.destPort.trans hport⟩

theorem clientRequest_faces (type : ReqType) (x : Instance) (user : υ) (serverAddress : Ipv4Address)
    (serverPort : BitVec 16) (filename : List Byte) (layers : Layers) (now : BitVec 32)
    {peer : Peer} (h : AnswersTo x peer) :
    AnswersTo (clientRequest type x user serverAddress serverPort filename layers now).1.tftp
      peer := by
  have hresult := clientRequest_answering type x user serverAddress serverPort filename layers now
    peer.address
    peer.port
  rw [answering_of_answersTo h] at hresult
  rw [hresult]
  exact ⟨rfl, rfl⟩

theorem Follows.asked (h : Follows s d) (opcode : ReqType) (serverAddress : Ipv4Address)
    (serverPort : BitVec 16) (filename : List Byte) (layers : Layers) (now : BitVec 32) : Follows
      (s.asked opcode (clientRequest opcode s.tftp (s.user, s.calls) serverAddress serverPort
        filename layers now))
      (d.asked opcode (clientRequest opcode d.tftp (d.user, d.calls) serverAddress serverPort
        filename layers now)) :=
  ⟨h.toTogether.asked opcode serverAddress serverPort filename layers now,
    fun r hr => clientRequest_faces opcode s.tftp (s.user, s.calls) serverAddress serverPort
      filename layers now
      (h.waiting r hr)⟩

theorem step_follows (h : Follows s d) (hok : OnePeer s i) :
    Follows (step role true callbacks s i) ((atOnce s i).foldl (step role false callbacks) d) := by
  cases i with
  | udpEvent r t =>
    refine ⟨⟨h.transfer, h.block, h.user, h.calls, h.sent⟩, fun r' hr' => ?_⟩
    rcases List.mem_append.mp hr' with hold | hnew
    · -- an older packet is from the same peer
      have hpeer : AnswersTo s.tftp r.src := hok.resolve_left (List.ne_nil_of_mem hold)
      obtain ⟨haddress, hport⟩ := h.waiting r' hold
      exact ⟨hpeer.1.symm.trans haddress, hpeer.2.symm.trans hport⟩
    · rw [List.mem_singleton.mp hnew]
      exact ⟨rfl, rfl⟩
  | task t =>
    cases hq : s.rxPackets with
    | nil =>
      simp only [atOnce, step, hq]
      exact h
    | cons r rest =>
      simp only [atOnce, hq]
      exact h.task hq t
  | timerCallback timestamp =>
    have hmodule : Tftp.timerCallback s.tftp.toModule timestamp =
        Tftp.timerCallback d.tftp.toModule timestamp := by
      rw [h.transfer]
    have hdid := h.toTogether.did none
      ⟨{ s.tftp with toModule := Tftp.timerCallback s.tftp.toModule timestamp },
        (s.user, s.calls), []⟩
      ⟨{ d.tftp with toModule := Tftp.timerCallback d.tftp.toModule timestamp },
        (d.user, d.calls), []⟩
      hmodule h.block (by rw [h.user, h.calls]) rfl
    exact ⟨hdid, h.waiting⟩
  | read serverAddress serverPort filename layers now =>
    cases role with
    | client => exact h.asked .read serverAddress serverPort filename layers now
    | server => exact h
  | write serverAddress serverPort filename layers now =>
    cases role with
    | client => exact h.asked .write serverAddress serverPort filename layers now
    | server => exact h

/-- The packets that arrive in a run. -/
def arrivals (is : List Input) : List Received :=
  is.filterMap fun
    | .udpEvent r _ => some r
    | _ => none

/-- The packets are processed in the order in which they arrive. -/
theorem arrivals_atOnce (role : Role) (callbacks : Callbacks υ) (is : List Input) : ∀ s : State υ,
    s.rxPackets ++ arrivals is = arrivals (Lib.translate (step role true callbacks) atOnce s is) ++
      (is.foldl (step role true callbacks) s).rxPackets := by
  induction is with
  | nil => exact fun s => List.append_nil _
  | cons i is ih =>
    intro s
    rw [Lib.translate, List.foldl_cons, arrivals, arrivals, List.filterMap_append,
      List.append_assoc]
    have hrest := ih (step role true callbacks s i)
    rw [arrivals, arrivals] at hrest
    rw [← hrest]
    cases i with
    | udpEvent r t => exact (List.append_assoc s.rxPackets [r] _).symm
    | task t =>
      cases hq : s.rxPackets with
      | nil =>
        simp only [atOnce, step, hq]
        rfl
      | cons r rest =>
        simp only [atOnce, step, hq]
        rfl
    | timerCallback timestamp => rfl
    | read serverAddress serverPort filename layers now => cases role <;> rfl
    | write serverAddress serverPort filename layers now => cases role <;> rfl

instance (s : State υ) (i : Input) : Decidable (OnePeer s i) := by
  cases i <;> unfold OnePeer <;> infer_instance

/-- With one peer at a time, a module with a task does what it does without: its user sees the
same, the same datagrams are sent, and the packets are processed in the order of their arrival. -/
theorem task_refines (role : Role) (callbacks : Callbacks υ) (s : State υ) (is : List Input)
    (hempty : s.rxPackets = []) (hpeer : Lib.Each (step role true callbacks) OnePeer s is) :
    Together (is.foldl (step role true callbacks) s)
      ((Lib.translate (step role true callbacks) atOnce s is).foldl (step role false callbacks) s) ∧
    arrivals is = arrivals (Lib.translate (step role true callbacks) atOnce s is) ++
      (is.foldl (step role true callbacks) s).rxPackets := by
  have hthere : Follows s s := ⟨⟨rfl, rfl, rfl, rfl, rfl⟩, fun r hr => by
    rw [hempty] at hr
    exact absurd hr List.not_mem_nil⟩
  have horder := arrivals_atOnce role callbacks is s
  rw [hempty, List.nil_append] at horder
  exact ⟨(Lib.foldl_translate (fun _ _ _ => step_follows) hpeer hthere).toTogether, horder⟩

/-- Two blocks of a file arrive before the task comes to the first. -/
theorem task_refines_two :
    let is := [fromWriter (dataMessage 1#16 (List.replicate 512 7#8)),
      fromWriter (dataMessage 2#16 [8#8]),
      .task sampleTurn]
    Together (is.foldl (step .server true userCallbacks) receiving)
      ((Lib.translate (step .server true userCallbacks) atOnce receiving is).foldl
        (step .server false userCallbacks) receiving) ∧
    arrivals is = arrivals (Lib.translate (step .server true userCallbacks) atOnce receiving is) ++
      (is.foldl (step .server true userCallbacks) receiving).rxPackets :=
  task_refines .server userCallbacks receiving _ rfl (by decide +kernel)

end NanoIp.Tftp.Life

namespace NanoIp.Tftp.Task

open Oal (anyFlag flagsSet flagsTaken)
open Life (Role Received Turn)

variable {υ : Type}

/-- `TFTP_CLIENT_START_FLAG`, `TFTP_CLIENT_STOP_FLAG` and `TFTP_CLIENT_RX_FLAG`, and those of the
server. -/
def startFlag : BitVec 32 := 1#32
def stopFlag : BitVec 32 := 2#32
def rxFlag : BitVec 32 := 4#32

/-- Where the task stands, with the flags that it has taken. -/
inductive Phase where
  /-- it waits for the start flag -/
  | stopped
  /-- in the started loop, it waits -/
  | started
  /-- it takes the packets from the list -/
  | receiving (flags : BitVec 32)
  deriving DecidableEq

/-- The module with its user, whether its UDP handle is bound, the synchronization flags and the
task; `api` is the flag that a start or a stop is about to set, and `signalling` says that
`UDP_EVENT_RX` is about to set that of the reception. -/
structure State (υ : Type) where
  life : Life.State υ
  bound : Bool
  syncFlags : BitVec 32
  phase : Phase
  api : Option (BitVec 32)
  signalling : Bool

/-- `NANO_IP_TFTP_Start` in `NANO_IP_TFTP_CLIENT_Start`; `free` says whether UDP can bind the
address. -/
def start (s : State υ) (free : Bool) : State υ :=
  let life := { s.life with tftp := { s.life.tftp with reqType := .idle } }
  if free ∧ s.bound = false then { s with life := life, bound := true, api := some startFlag }
  else { s with life := life }

/-- `NANO_IP_TFTP_Stop` in `NANO_IP_TFTP_CLIENT_Stop`. -/
def stop (s : State υ) : State υ :=
  if s.bound then
    { s with
      life :=
        if s.life.tftp.reqType = .idle then s.life
        else { s.life with tftp := { s.life.tftp with timerRuns := false } }
      bound := false
      api := some stopFlag }
  else s

/-- `UDP_EVENT_RX` up to the flag. -/
def udpEvent (s : State υ) (r : Received) : State υ :=
  { s with
    life :=
      { s.life with
        tftp := s.life.tftp.answering r.src.address r.src.port
        rxPackets := s.life.rxPackets ++ [r] }
    signalling := true }

def Phase.behindRound (flags : BitVec 32) : Phase :=
  if anyFlag flags stopFlag then .stopped else .started

/-- `NANO_IP_TFTP_CLIENT_Task`, one action at a time, and that of the server. -/
def task (role : Role) (callbacks : Callbacks υ) (s : State υ) (t : Turn) : Option (State υ) :=
  match s.phase with
  | .stopped => (flagsTaken s.syncFlags startFlag).map fun taken =>
      { s with syncFlags := taken.2, phase := .started }
  | .started =>
    (flagsTaken s.syncFlags (rxFlag ||| stopFlag)).map fun taken =>
      { s with
        syncFlags := taken.2
        phase := if anyFlag taken.1 rxFlag then .receiving taken.1 else .behindRound taken.1 }
  | .receiving flags =>
    match s.life.rxPackets with
    | _ :: _ => some { s with life := Life.step role true callbacks s.life (.task t) }
    | [] => some { s with phase := .behindRound flags }

/-- What happens next; a request of the user and the timer are inputs of the module. -/
inductive Event where
  | start (free : Bool)
  | stop
  | setFlag
  | udpEvent (r : Received)
  | signal
  | other (i : Life.Input)
  | task (t : Turn)

/-- Starts and stops come one after the other, and UDP gives out a datagram when the handle is
bound, under the mutex that binding takes. -/
def step (role : Role) (callbacks : Callbacks υ) (s : State υ) : Event → Option (State υ)
  | .start free => if s.api.isSome ∨ s.signalling then none else some (start s free)
  | .stop => if s.api.isSome ∨ s.signalling then none else some (stop s)
  | .setFlag => s.api.map fun flag => { s with syncFlags := flagsSet s.syncFlags flag, api := none }
  | .udpEvent r => if s.bound ∧ s.signalling = false then some (udpEvent s r) else none
  | .signal =>
    if s.signalling then
      some { s with syncFlags := flagsSet s.syncFlags rxFlag, signalling := false }
    else none
  | .other i =>
    match i with
    | .udpEvent _ _ | .task _ => none
    | .read .. | .write .. | .timerCallback .. =>
        some { s with life := Life.step role true callbacks s.life i }
  | .task t => task role callbacks s t

/-- The module that `NANO_IP_TFTP_CLIENT_Init` leaves. -/
def State.init (life : Life.State υ) : State υ :=
  ⟨{ life with rxPackets := [] }, false, 0#32, .stopped, none, false⟩

/-- The packets that arrived, and those that the task has taken. -/
structure Log where
  arrived : List Received
  taken : List Received

def Log.init : Log := ⟨[], []⟩

def log (w : Log) (s : State υ) (e : Event) (_ : State υ) : Log :=
  match e, s.phase, s.life.rxPackets with
  | .udpEvent r, _, _ => { w with arrived := w.arrived ++ [r] }
  | .task _, .receiving _, r :: _ => { w with taken := w.taken ++ [r] }
  | _, _, _ => w

/-- A start and a stop find that the task has seen the last one. -/
def Seen (x : State υ × Log) : Event → Prop
  | .start _ => anyFlag x.1.syncFlags startFlag = false
  | .stop => anyFlag x.1.syncFlags stopFlag = false
  | _ => True

instance (x : State υ × Log) (e : Event) : Decidable (Seen x e) := by
  cases e <;> unfold Seen <;> infer_instance

/-- The task goes on, and so does what is about to set a flag, but nothing new happens. -/
def GoesOn (_ : State υ × Log) : Event → Prop
  | .setFlag | .signal | .task _ => True
  | _ => False

instance (x : State υ × Log) (e : Event) : Decidable (GoesOn x e) := by
  cases e <;> unfold GoesOn <;> infer_instance

def due (syncFlags : BitVec 32) (api : Option (BitVec 32)) (flag : BitVec 32) : Bool :=
  anyFlag syncFlags flag || api = some flag

/-- The task will leave the started loop, or has left it. -/
def State.leaves (s : State υ) : Bool :=
  match s.phase with
  | .stopped => true
  | .started => false
  | .receiving flags => anyFlag flags stopFlag

/-- It takes the packets from the list. -/
def State.receives (s : State υ) : Bool :=
  match s.phase with
  | .receiving _ => true
  | _ => false

/-- The start and the stop that the task has still to see, in this order if it is outside its loop
and in the other if it is inside, bring it where the handle is. -/
def agrees : (leaves start stop bound : Bool) → Bool
  | true, true, stop, bound => stop == !bound
  | true, false, stop, bound => !stop && !bound
  | false, start, true, bound => start == bound
  | false, start, false, bound => !start && bound

theorem agrees_start :
    ∀ leaves stop, agrees leaves false stop false = true → agrees leaves true stop true = true := by
  decide

theorem agrees_stop :
    ∀ leaves start, agrees leaves start false true = true →
      agrees leaves start true false = true := by
  decide

theorem agrees_enter :
    ∀ stop bound, agrees true true stop bound = true → agrees false false stop bound = true := by
  decide

theorem agrees_leave :
    ∀ start bound, agrees false start true bound = true → agrees true start false bound = true := by
  decide

theorem agrees_outside :
    ∀ stop bound, agrees true false stop bound = true → stop = false ∧ bound = false := by
  decide

theorem agrees_inside :
    ∀ start bound, agrees false start false bound = true → start = false ∧ bound = true := by
  decide

/-- No packet and no start or stop is lost on the task. -/
structure Inv (s : State υ) (w : Log) : Prop where
  order : w.arrived = w.taken ++ s.life.rxPackets
  agrees : agrees s.leaves (due s.syncFlags s.api startFlag) (due s.syncFlags s.api stopFlag)
    s.bound = true
  api : ∀ flag, s.api = some flag → anyFlag s.syncFlags flag = false ∧
    (flag = startFlag ∨ flag = stopFlag)
  woken : s.life.rxPackets ≠ [] → anyFlag s.syncFlags rxFlag = true ∨ s.signalling = true ∨
    s.receives = true
  signalling : s.signalling = true → s.bound = true
  left : s.phase = .stopped → due s.syncFlags s.api startFlag = false → s.life.rxPackets = []

section Steps

variable {role : Role} {callbacks : Callbacks υ} {s s' : State υ} {w : Log} {e : Event}

theorem other_rxPackets {i : Life.Input} (hs : step role callbacks s (.other i) = some s') :
    s'.life.rxPackets = s.life.rxPackets ∧ s' = { s with life := s'.life } := by
  cases i with
  | udpEvent | task => cases hs
  | read | write =>
    obtain rfl := Option.some.inj hs
    cases role <;> exact ⟨rfl, rfl⟩
  | timerCallback =>
    obtain rfl := Option.some.inj hs
    exact ⟨rfl, rfl⟩

theorem due_none (syncFlags flag : BitVec 32) : due syncFlags none flag = anyFlag syncFlags flag :=
  Bool.or_false _

theorem due_set {syncFlags flag other : BitVec 32}
    (hset : anyFlag flag other = decide (flag = other)) :
    due (flagsSet syncFlags flag) none other = due syncFlags (some flag) other := by
  rw [due_none, due, Oal.anyFlag_set, hset,
    decide_eq_decide.mpr (Option.some_inj (a := flag) (b := other)).symm]

theorem start_inv (h : Inv s w) (free : Bool) (hapi : s.api = none)
    (hseen : anyFlag s.syncFlags startFlag = false) : Inv (start s free) w := by
  obtain ⟨horder, hagrees, hflag, hwoken, hsignalling, hleft⟩ := h
  unfold start
  by_cases hfree : free = true ∧ s.bound = false
  · simp only [if_pos hfree]
    rw [hapi, due_none, due_none, hseen, hfree.2] at hagrees
    have hstart : due s.syncFlags (some startFlag) startFlag = true := Bool.or_true _
    have hstop : due s.syncFlags (some startFlag) stopFlag = anyFlag s.syncFlags stopFlag :=
      Bool.or_false _
    refine ⟨horder, ?_, fun flag hf => ?_, hwoken, fun _ => rfl, fun _ hdue => ?_⟩
    · show agrees s.leaves _ _ true = true
      rw [hstart, hstop]
      exact agrees_start _ _ hagrees
    · obtain rfl := Option.some.inj hf
      exact ⟨hseen, .inl rfl⟩
    · exact Bool.noConfusion (hstart.symm.trans hdue)
  · simp only [if_neg hfree]
    exact ⟨horder, hagrees, hflag, hwoken, hsignalling, hleft⟩

theorem stop_inv (h : Inv s w) (hapi : s.api = none) (hquiet : s.signalling = false)
    (hseen : anyFlag s.syncFlags stopFlag = false) : Inv (stop s) w := by
  obtain ⟨horder, hagrees, hflag, hwoken, hsignalling, hleft⟩ := h
  unfold stop
  by_cases hbound : s.bound = true
  · simp only [if_pos hbound]
    have hrx : (if s.life.tftp.reqType = .idle then s.life
        else { s.life with tftp := { s.life.tftp with timerRuns := false } }).rxPackets =
          s.life.rxPackets := by
      split_ifs <;> rfl
    rw [hapi, due_none] at hleft
    rw [hapi, due_none, due_none, hseen, hbound] at hagrees
    have hstart : due s.syncFlags (some stopFlag) startFlag = anyFlag s.syncFlags startFlag :=
      Bool.or_false _
    have hstop : due s.syncFlags (some stopFlag) stopFlag = true := Bool.or_true _
    refine ⟨?_, ?_, fun flag hf => ?_, fun hne => ?_, fun hs => ?_, fun hphase hdue => ?_⟩
    · simp only [hrx]
      exact horder
    · show agrees s.leaves _ _ false = true
      rw [hstart, hstop]
      exact agrees_stop _ _ hagrees
    · obtain rfl := Option.some.inj hf
      exact ⟨hseen, .inr rfl⟩
    · simp only [hrx] at hne
      exact hwoken hne
    · exact Bool.noConfusion (hquiet.symm.trans hs)
    · simp only [hrx]
      exact hleft hphase (hstart.symm.trans hdue)
  · simp only [if_neg hbound]
    exact ⟨horder, hagrees, hflag, hwoken, hsignalling, hleft⟩

theorem setFlag_inv (h : Inv s w) {flag : BitVec 32} (hapi : s.api = some flag) :
    Inv { s with syncFlags := flagsSet s.syncFlags flag, api := none } w := by
  obtain ⟨horder, hagrees, hflag, hwoken, hsignalling, hleft⟩ := h
  obtain ⟨-, hwhich⟩ := hflag flag hapi
  have hstart : anyFlag flag startFlag = decide (flag = startFlag) := by
    rcases hwhich with rfl | rfl <;> decide
  have hstop : anyFlag flag stopFlag = decide (flag = stopFlag) := by
    rcases hwhich with rfl | rfl <;> decide
  rw [hapi] at hagrees hleft
  refine ⟨horder, ?_, fun _ hf => absurd hf.symm (Option.some_ne_none _), fun hne => ?_,
    hsignalling, ?_⟩
  · show agrees s.leaves (due _ none _) (due _ none _) s.bound = true
    rw [due_set hstart, due_set hstop]
    exact hagrees
  · refine (hwoken hne).imp_left fun hrx => ?_
    show anyFlag (flagsSet s.syncFlags flag) rxFlag = true
    rw [Oal.anyFlag_set, hrx, Bool.true_or]
  · show s.phase = .stopped → due _ none _ = false → _
    rw [due_set hstart]
    exact hleft

theorem udpEvent_inv (h : Inv s w) (hbound : s.bound = true) (r : Received) :
    Inv (udpEvent s r) { w with arrived := w.arrived ++ [r] } := by
  obtain ⟨horder, hagrees, hflag, hwoken, hsignalling, hleft⟩ := h
  refine ⟨?_, hagrees, hflag, fun _ => .inr (.inl rfl), fun _ => hbound, fun hphase hdue => ?_⟩
  · show w.arrived ++ [r] = w.taken ++ (s.life.rxPackets ++ [r])
    rw [horder, List.append_assoc]
  · have hleaves : s.leaves = true := by
      rw [State.leaves, show s.phase = .stopped from hphase]
    rw [hleaves, show due s.syncFlags s.api startFlag = false from hdue] at hagrees
    exact Bool.noConfusion ((agrees_outside _ _ hagrees).2.symm.trans hbound)

theorem signal_inv (h : Inv s w) :
    Inv { s with syncFlags := flagsSet s.syncFlags rxFlag, signalling := false } w := by
  obtain ⟨horder, hagrees, hflag, hwoken, hsignalling, hleft⟩ := h
  have hsame : ∀ flag, flag = startFlag ∨ flag = stopFlag →
      anyFlag (flagsSet s.syncFlags rxFlag) flag = anyFlag s.syncFlags flag := by
    intro flag hwhich
    have hother : anyFlag rxFlag flag = false := by rcases hwhich with rfl | rfl <;> decide
    rw [Oal.anyFlag_set, hother, Bool.or_false]
  have hdue : ∀ flag, flag = startFlag ∨ flag = stopFlag →
      due (flagsSet s.syncFlags rxFlag) s.api flag = due s.syncFlags s.api flag := by
    intro flag hwhich
    rw [due, due, hsame flag hwhich]
  refine ⟨horder, ?_, fun flag hf => ?_, fun _ => .inl ?_, fun hs => Bool.noConfusion hs,
    fun hphase hd => ?_⟩
  · show agrees s.leaves (due _ _ _) (due _ _ _) s.bound = true
    rw [hdue startFlag (.inl rfl), hdue stopFlag (.inr rfl)]
    exact hagrees
  · obtain ⟨hclear, hwhich⟩ := hflag flag hf
    exact ⟨(hsame flag hwhich).trans hclear, hwhich⟩
  · show anyFlag (flagsSet s.syncFlags rxFlag) rxFlag = true
    rw [Oal.anyFlag_set]
    exact Bool.or_true _
  · exact hleft hphase ((hdue startFlag (.inl rfl)).symm.trans hd)

theorem Inv.due_set (h : Inv s w) {flag : BitVec 32} (hset : anyFlag s.syncFlags flag = true) :
    s.api ≠ some flag := by
  intro hapi
  exact Bool.noConfusion ((h.api flag hapi).1.symm.trans hset)

theorem due_clear {syncFlags flag : BitVec 32} {api : Option (BitVec 32)}
    (hclear : anyFlag syncFlags flag = false) (hapi : api ≠ some flag) :
    due syncFlags api flag = false := by
  rw [due, hclear, Bool.false_or]
  exact decide_eq_false hapi

theorem enter_inv (h : Inv s w) (hphase : s.phase = .stopped) {taken : BitVec 32 × BitVec 32}
    (htaken : flagsTaken s.syncFlags startFlag = some taken) :
    Inv { s with syncFlags := taken.2, phase := .started } w := by
  obtain ⟨hset, -, hrest⟩ := Oal.flagsTaken_some htaken
  have hstart : anyFlag taken.2 startFlag = false := by
    rw [hrest]
    exact decide_eq_false (not_not_intro (BitVec.and_zero))
  have hstop : anyFlag taken.2 stopFlag = anyFlag s.syncFlags stopFlag := hrest stopFlag
  have hrx : anyFlag taken.2 rxFlag = anyFlag s.syncFlags rxFlag := hrest rxFlag
  have hleaves : s.leaves = true := by rw [State.leaves, hphase]
  have hagrees := h.agrees
  have hdue : due s.syncFlags s.api startFlag = true := by rw [due, hset, Bool.true_or]
  rw [hleaves, hdue] at hagrees
  refine ⟨h.order, ?_, fun flag hf => ?_, fun hne => ?_, h.signalling, fun hp =>
    Phase.noConfusion hp⟩
  · show agrees false (due taken.2 s.api startFlag) (due taken.2 s.api stopFlag) s.bound = true
    rw [due_clear hstart (h.due_set hset), due, hstop, ← due]
    exact agrees_enter _ _ hagrees
  · obtain ⟨hclear, hwhich⟩ := h.api flag hf
    refine ⟨?_, hwhich⟩
    rcases hwhich with rfl | rfl
    · exact hstart
    · exact hstop.trans hclear
  · rcases h.woken hne with hset' | hsig | hrec
    · exact .inl (hrx.trans hset')
    · exact .inr (.inl hsig)
    · rw [State.receives, hphase] at hrec
      exact Bool.noConfusion hrec

theorem behindRound_leaves (flags : BitVec 32) (life : Life.State υ) (bound : Bool)
    (syncFlags : BitVec 32) (api : Option (BitVec 32)) (signalling : Bool) :
    (State.mk life bound syncFlags (.behindRound flags) api signalling).leaves =
      anyFlag flags stopFlag ∧
    (State.mk life bound syncFlags (.behindRound flags) api signalling).receives = false := by
  unfold Phase.behindRound
  split_ifs with hstop
  · exact ⟨hstop.symm, rfl⟩
  · exact ⟨(Bool.eq_false_of_not_eq_true hstop).symm, rfl⟩

theorem wait_inv (h : Inv s w) (hphase : s.phase = .started) {taken : BitVec 32 × BitVec 32}
    (htaken : flagsTaken s.syncFlags (rxFlag ||| stopFlag) = some taken) :
    Inv
      { s with
        syncFlags := taken.2
        phase := if anyFlag taken.1 rxFlag then .receiving taken.1 else .behindRound taken.1 }
          w := by
  obtain ⟨-, hactive, hrest⟩ := Oal.flagsTaken_some htaken
  have hrx : anyFlag taken.1 rxFlag = anyFlag s.syncFlags rxFlag := hactive rxFlag
  have hstop : anyFlag taken.1 stopFlag = anyFlag s.syncFlags stopFlag := hactive stopFlag
  have hstart : anyFlag taken.2 startFlag = anyFlag s.syncFlags startFlag := hrest startFlag
  have hclear : anyFlag taken.2 stopFlag = false := by
    rw [hrest]
    exact decide_eq_false (not_not_intro (BitVec.and_zero))
  have hinside : s.leaves = false := by rw [State.leaves, hphase]
  have hleaves : (State.mk s.life s.bound taken.2
      (if anyFlag taken.1 rxFlag then .receiving taken.1 else .behindRound taken.1) s.api
        s.signalling).leaves =
      anyFlag s.syncFlags stopFlag := by
    split_ifs
    · exact hstop
    · rw [(behindRound_leaves ..).1, hstop]
  have hagrees := h.agrees
  rw [hinside] at hagrees
  have hagrees' : agrees (anyFlag s.syncFlags stopFlag) (due taken.2 s.api startFlag)
    (due taken.2 s.api stopFlag)
      s.bound = true := by
    rw [due, hstart, ← due]
    cases hset : anyFlag s.syncFlags stopFlag with
    | true =>
      rw [due_clear hclear (h.due_set hset)]
      rw [due.eq_1 s.syncFlags s.api stopFlag, hset, Bool.true_or] at hagrees
      exact agrees_leave _ _ hagrees
    | false =>
      rw [due.eq_1 s.syncFlags s.api stopFlag, hset] at hagrees
      rw [due.eq_1 taken.2, hclear]
      exact hagrees
  refine ⟨h.order, hleaves.symm ▸ hagrees', fun flag hf => ?_, fun hne => ?_, h.signalling,
    fun hp hdue => ?_⟩
  · obtain ⟨hnot, hwhich⟩ := h.api flag hf
    refine ⟨?_, hwhich⟩
    rcases hwhich with rfl | rfl
    · exact hstart.trans hnot
    · exact hclear
  · rcases h.woken hne with hset | hsig | hrec
    · refine .inr (.inr ?_)
      simp only [State.receives, hrx, hset, if_true]
    · exact .inr (.inl hsig)
    · rw [State.receives, hphase] at hrec
      exact Bool.noConfusion hrec
  · -- it has left without looking, so nothing was signalled
    by_contra hne
    simp only at hp hdue hne
    by_cases hset : anyFlag s.syncFlags rxFlag = true
    · rw [hrx, if_pos hset] at hp
      cases hp
    · rw [hrx, if_neg hset] at hp
      have hleft : anyFlag s.syncFlags stopFlag = true := by
        rw [← hstop]
        by_contra hnot
        rw [Phase.behindRound, if_neg hnot] at hp
        cases hp
      rw [hleft, hdue] at hagrees'
      have hbound := (agrees_outside _ _ hagrees').2
      rcases h.woken hne with hset' | hsig | hrec
      · exact hset hset'
      · exact Bool.noConfusion (hbound.symm.trans (h.signalling hsig))
      · rw [State.receives, hphase] at hrec
        exact Bool.noConfusion hrec

theorem receive_inv (h : Inv s w) {flags : BitVec 32} (hphase : s.phase = .receiving flags)
    {t : Turn} (hs : task role callbacks s t = some s') : Inv s' (log w s (.task t) s') := by
  obtain ⟨horder, hagrees, hapi, hwoken, hsignalling, hleft⟩ := h
  have hleaves : s.leaves = anyFlag flags stopFlag := by rw [State.leaves, hphase]
  unfold task at hs
  simp only [hphase] at hs
  cases hq : s.life.rxPackets with
  | nil =>
    simp only [hq] at hs
    obtain rfl := Option.some.inj hs
    simp only [log, hphase, hq]
    refine ⟨horder, ?_, hapi, fun hne => absurd hq hne, hsignalling, fun _ _ => hq⟩
    rw [(behindRound_leaves ..).1, ← hleaves]
    exact hagrees
  | cons r rest =>
    simp only [hq] at hs
    obtain rfl := Option.some.inj hs
    simp only [log, hphase, hq]
    have hlife : (Life.step role true callbacks s.life (.task t)).rxPackets = rest := by
      simp only [Life.step, hq]
      rfl
    refine ⟨?_, ?_, hapi, fun _ => .inr (.inr rfl), hsignalling, fun hp => Phase.noConfusion hp⟩
    · show w.arrived = w.taken ++ [r] ++ (Life.step role true callbacks s.life (.task t)).rxPackets
      rw [hlife, horder, hq, List.append_assoc]
      rfl
    · show agrees (anyFlag flags stopFlag) _ _ s.bound = true
      rw [← hleaves]
      exact hagrees

theorem step_inv (h : Inv s w) (hok : Seen (s, w) e) (hs : step role callbacks s e = some s') :
    Inv s' (log w s e s') := by
  cases e with
  | start free =>
    rw [step] at hs
    split_ifs at hs with hbusy
    obtain rfl := Option.some.inj hs
    rw [not_or, Bool.not_eq_true, Option.isSome_eq_false_iff, Option.isNone_iff_eq_none] at hbusy
    exact start_inv h free hbusy.1 hok
  | stop =>
    rw [step] at hs
    split_ifs at hs with hbusy
    obtain rfl := Option.some.inj hs
    rw [not_or, Bool.not_eq_true, Option.isSome_eq_false_iff, Option.isNone_iff_eq_none,
      Bool.not_eq_true] at hbusy
    exact stop_inv h hbusy.1 hbusy.2 hok
  | setFlag =>
    obtain ⟨flag, hapi, rfl⟩ := Option.map_eq_some_iff.mp hs
    exact setFlag_inv h hapi
  | udpEvent r =>
    rw [step] at hs
    split_ifs at hs with hbound
    obtain rfl := Option.some.inj hs
    exact udpEvent_inv h hbound.1 r
  | signal =>
    rw [step] at hs
    split_ifs at hs
    obtain rfl := Option.some.inj hs
    exact signal_inv h
  | other i =>
    obtain ⟨hrx, heq⟩ := other_rxPackets hs
    rw [heq]
    have hlog : log w s (.other i) { s with life := s'.life } = w := rfl
    rw [hlog]
    refine ⟨?_, h.agrees, h.api, fun hne => h.woken (hrx ▸ hne), h.signalling, fun hp hd =>
      hrx.trans (h.left hp hd)⟩
    rw [hrx]
    exact h.order
  | task t =>
    cases hphase : s.phase with
    | stopped =>
      simp only [step, task, hphase] at hs
      obtain ⟨taken, htaken, rfl⟩ := Option.map_eq_some_iff.mp hs
      simp only [log, hphase]
      exact enter_inv h hphase htaken
    | started =>
      simp only [step, task, hphase] at hs
      obtain ⟨taken, htaken, rfl⟩ := Option.map_eq_some_iff.mp hs
      simp only [log, hphase]
      exact wait_inv h hphase htaken
    | receiving flags => exact receive_inv h hphase hs

theorem reach_inv {life : Life.State υ} {x : State υ × Log}
    (h : Lib.Reach (Lib.observe (step role callbacks) log) Seen (State.init life, Log.init) x) :
    Inv x.1 x.2 := by
  refine h.invariant (I := fun x => Inv x.1 x.2) ?_ fun y e z hy hok hs => ?_
  · have hagrees : agrees true (due 0#32 none startFlag) (due 0#32 none stopFlag) false = true := by
      decide
    exact ⟨rfl, hagrees, fun _ hf => absurd hf.symm (Option.some_ne_none _), fun hne =>
      absurd rfl hne,
      fun hs => Bool.noConfusion hs, fun _ _ => rfl⟩
  · obtain ⟨hstep, hlog⟩ := Lib.observe_some.mp hs
    rw [hlog]
    exact step_inv hy hok hstep

/-- The task comes to its wait only. -/
theorem task_none {t : Turn} (hturn : task role callbacks s t = none) :
    s.phase = .stopped ∧ anyFlag s.syncFlags startFlag = false ∨
    s.phase = .started ∧ anyFlag s.syncFlags (rxFlag ||| stopFlag) = false := by
  unfold task at hturn
  cases hphase : s.phase with
  | stopped =>
    simp only [hphase] at hturn
    exact .inl ⟨rfl, Oal.flagsTaken_none (Option.map_eq_none_iff.mp hturn)⟩
  | started =>
    simp only [hphase] at hturn
    exact .inr ⟨rfl, Oal.flagsTaken_none (Option.map_eq_none_iff.mp hturn)⟩
  | receiving flags =>
    simp only [hphase] at hturn
    cases hq : s.life.rxPackets with
    | nil =>
      simp only [hq] at hturn
      cases hturn
    | cons r rest =>
      simp only [hq] at hturn
      cases hturn

end Steps

/-- What arrives is taken in this order. When the task waits and no flag is about to be set, it
has taken everything, and it is in its loop exactly when the module is started. -/
structure Kept (role : Role) (callbacks : Callbacks υ) (s : State υ) (w : Log) : Prop where
  order : w.arrived = w.taken ++ s.life.rxPackets
  waits : ∀ t, task role callbacks s t = none → s.api = none → s.signalling = false →
    w.taken = w.arrived ∧ s.phase = if s.bound then .started else .stopped

theorem Inv.kept {s : State υ} {w : Log} (h : Inv s w) (role : Role) (callbacks : Callbacks υ) :
    Kept role callbacks s w := by
  refine ⟨h.order, fun t hnone hapi hquiet => ?_⟩
  suffices hsuff : s.life.rxPackets = [] ∧ s.phase = if s.bound then .started else .stopped by
    refine ⟨?_, hsuff.2⟩
    rw [h.order, hsuff.1, List.append_nil]
  have hagrees := h.agrees
  rw [hapi, due_none, due_none] at hagrees
  rcases task_none hnone with ⟨hphase, hstart⟩ | ⟨hphase, hflags⟩
  · have hleaves : s.leaves = true := by rw [State.leaves, hphase]
    rw [hleaves, hstart] at hagrees
    have hbound := (agrees_outside _ _ hagrees).2
    refine ⟨h.left hphase ?_, ?_⟩
    · rw [hapi, due_none]
      exact hstart
    · rw [hphase, hbound]
      rfl
  · rw [Oal.anyFlag_or, Bool.or_eq_false_iff] at hflags
    have hleaves : s.leaves = false := by rw [State.leaves, hphase]
    rw [hleaves, hflags.2] at hagrees
    have hinside := agrees_inside _ _ hagrees
    refine ⟨?_, by rw [hphase, hinside.2]; rfl⟩
    by_contra hne
    rcases h.woken hne with hrx | hsig | hrec
    · exact Bool.noConfusion (hflags.1.symm.trans hrx)
    · exact Bool.noConfusion (hquiet.symm.trans hsig)
    · rw [State.receives, hphase] at hrec
      exact Bool.noConfusion hrec

/-- No packet, no start and no stop is lost on the task, whatever comes between, as long as it has
seen the last start before the next, and so for the stops. -/
theorem started_keeps (role : Role) (callbacks : Callbacks υ) {life : Life.State υ}
    {x : State υ × Log}
    (h : Lib.Reach (Lib.observe (step role callbacks) log) Seen (State.init life, Log.init) x) :
    Kept role callbacks x.1 x.2 :=
  (reach_inv h).kept role callbacks

def sampleRequest : Received :=
  ⟨Life.stranger, carrying (requestMessage sampleName.1 .read).payload⟩

/-- A server is stopped and started again while its task is at the first of two requests. -/
def sampleEvents : List Event :=
  [.start true, .setFlag, .udpEvent sampleRequest, .signal, .udpEvent sampleRequest, .signal,
    .stop, .setFlag,
    .task Life.sampleTurn, .task Life.sampleTurn, .start true, .task Life.sampleTurn, .setFlag]

theorem started_keeps_two : ∃ x, Lib.Reach (Lib.observe (step .server userCallbacks) log) Seen
    (State.init Life.receiving, Log.init) x ∧ x.2.taken.length = 1 ∧
      Kept .server userCallbacks x.1 x.2 := by
  obtain ⟨x, hreach, hend⟩ :=
    Lib.exists_of_runInputs (Lib.observe (step .server userCallbacks) log) Seen
    (State.init Life.receiving, Log.init) sampleEvents (fun x => x.2.taken.length = 1)
      (by decide +kernel)
  exact ⟨x, hreach, of_decide_eq_true hend, started_keeps .server userCallbacks hreach⟩

/-- How far the task is from its wait, with what is still to be signalled. -/
def workLeft (s : State υ) : Nat :=
  s.life.rxPackets.length + (anyFlag s.syncFlags startFlag).toNat + 2 *
    (anyFlag s.syncFlags rxFlag).toNat +
    (anyFlag s.syncFlags stopFlag).toNat + 5 * s.api.isSome.toNat + 5 * s.signalling.toNat +
      s.receives.toNat

section Rests

variable {role : Role} {callbacks : Callbacks υ} {s s' : State υ}

theorem flags_le (syncFlags flag : BitVec 32) :
    (anyFlag (flagsSet syncFlags flag) startFlag).toNat + 2 *
      (anyFlag (flagsSet syncFlags flag) rxFlag).toNat +
      (anyFlag (flagsSet syncFlags flag) stopFlag).toNat ≤ 4 := by
  have hstart := Bool.toNat_le (anyFlag (flagsSet syncFlags flag) startFlag)
  have hrx := Bool.toNat_le (anyFlag (flagsSet syncFlags flag) rxFlag)
  have hstop := Bool.toNat_le (anyFlag (flagsSet syncFlags flag) stopFlag)
  omega

theorem task_lt {t : Turn} (hs : task role callbacks s t = some s') : workLeft s' < workLeft s := by
  unfold task at hs
  cases hphase : s.phase with
  | stopped =>
    simp only [hphase] at hs
    obtain ⟨taken, htaken, rfl⟩ := Option.map_eq_some_iff.mp hs
    obtain ⟨hset, -, hrest⟩ := Oal.flagsTaken_some htaken
    have hclear : anyFlag taken.2 startFlag = false := by
      rw [hrest]
      exact decide_eq_false (not_not_intro (BitVec.and_zero))
    have hstop : anyFlag taken.2 stopFlag = anyFlag s.syncFlags stopFlag := hrest stopFlag
    have hrx : anyFlag taken.2 rxFlag = anyFlag s.syncFlags rxFlag := hrest rxFlag
    simp only [workLeft, State.receives, hphase, hclear, hstop, hrx, hset, Bool.toNat_true,
      Bool.toNat_false]
    omega
  | started =>
    simp only [hphase] at hs
    obtain ⟨taken, htaken, rfl⟩ := Option.map_eq_some_iff.mp hs
    obtain ⟨hset, hactive, hrest⟩ := Oal.flagsTaken_some htaken
    have hstart : anyFlag taken.2 startFlag = anyFlag s.syncFlags startFlag := hrest startFlag
    have hrx : anyFlag taken.2 rxFlag = false := by
      rw [hrest]
      exact decide_eq_false (not_not_intro (BitVec.and_zero))
    have hstop : anyFlag taken.2 stopFlag = false := by
      rw [hrest]
      exact decide_eq_false (not_not_intro (BitVec.and_zero))
    have hactive' : anyFlag taken.1 rxFlag = anyFlag s.syncFlags rxFlag := hactive rxFlag
    rw [Oal.anyFlag_or, Bool.or_eq_true] at hset
    by_cases hrxset : anyFlag s.syncFlags rxFlag = true
    · rw [hrxset] at hactive'
      simp only [workLeft, State.receives, hphase, hstart, hrx, hstop, hrxset, hactive', if_true,
        Bool.toNat_true,
        Bool.toNat_false]
      omega
    · have hstopset := hset.resolve_left hrxset
      rw [Bool.not_eq_true] at hrxset
      rw [hrxset] at hactive'
      simp only [hactive', Bool.false_eq_true, if_false]
      rw [workLeft, (behindRound_leaves ..).2, workLeft, State.receives, hphase]
      simp only [hstart, hrx, hstop, hrxset, hstopset, Bool.toNat_true, Bool.toNat_false]
      omega
  | receiving flags =>
    simp only [hphase] at hs
    cases hq : s.life.rxPackets with
    | nil =>
      simp only [hq] at hs
      obtain rfl := Option.some.inj hs
      rw [workLeft, (behindRound_leaves ..).2, workLeft, State.receives, hphase]
      exact Nat.lt_succ_self _
    | cons r rest =>
      simp only [hq] at hs
      obtain rfl := Option.some.inj hs
      have hlife : (Life.step role true callbacks s.life (.task t)).rxPackets = rest := by
        simp only [Life.step, hq]
        rfl
      have hreceives : s.receives = true := by rw [State.receives, hphase]
      simp only [workLeft, State.receives, hphase, hlife, hq, List.length_cons]
      omega

/-- The work that is left, as a rank of the runs. -/
def LeftIs (x : State υ × Log) (r : Nat) : Prop := workLeft x.1 = r

theorem goesOn_lt {x y : State υ × Log} {e : Event} (hok : GoesOn x e)
    (hs : Lib.observe (step role callbacks) log x e = some y) : workLeft y.1 < workLeft x.1 := by
  obtain ⟨hstep, -⟩ := Lib.observe_some.mp hs
  cases e with
  | setFlag =>
    obtain ⟨flag, hapi, heq⟩ := Option.map_eq_some_iff.mp hstep
    have hflags := flags_le x.1.syncFlags flag
    rw [← heq, workLeft, workLeft, hapi]
    simp only [State.receives, Option.isSome_none, Option.isSome_some, Bool.toNat_true,
      Bool.toNat_false]
    omega
  | signal =>
    rw [step] at hstep
    split_ifs at hstep with hsig
    have hflags := flags_le x.1.syncFlags rxFlag
    rw [← Option.some.inj hstep, workLeft, workLeft, hsig]
    simp only [State.receives, Bool.toNat_true, Bool.toNat_false]
    omega
  | task t => exact task_lt hstep
  | start | stop | udpEvent | other => exact hok.elim

theorem goesOn_rank (x : State υ × Log) (e : Event) (y : State υ × Log) (r : Nat) (hr : LeftIs x r)
    (hok : GoesOn x e) (hs : Lib.observe (step role callbacks) log x e = some y) :
    ∃ r' < r, LeftIs y r' := by
  have hlt := goesOn_lt hok hs
  have hr' : workLeft x.1 = r := hr
  rw [hr'] at hlt
  exact ⟨workLeft y.1, hlt, rfl⟩

theorem goesOn_length {x y : State υ × Log} {es : List Event}
    (hrun : Lib.runInputs (Lib.observe (step role callbacks) log) GoesOn x es = some y) :
    es.length ≤ workLeft x.1 := by
  obtain ⟨r, -, hr⟩ := Lib.runInputs_ranked (P := LeftIs) goesOn_rank (Eq.refl (workLeft x.1)) hrun
  exact Nat.le_of_add_right_le hr

end Rests

/-- When nothing new happens, the task comes to its wait, with everything that has arrived taken,
and in its loop exactly when the module is started, in whatever order the flags are set meanwhile.
-/
theorem started_rests (role : Role) (callbacks : Callbacks υ) {life : Life.State υ}
    {x y : State υ × Log} {es : List Event}
    (h : Lib.Reach (Lib.observe (step role callbacks) log) Seen (State.init life, Log.init) x)
    (hrun : Lib.runInputs (Lib.observe (step role callbacks) log) GoesOn x es = some y) :
    es.length ≤ workLeft x.1 ∧
      ((∀ e, GoesOn y e → Lib.observe (step role callbacks) log y e = none) →
        y.2.taken = y.2.arrived ∧ y.1.phase = if y.1.bound then .started else .stopped) := by
  refine ⟨goesOn_length hrun, fun hstuck => ?_⟩
  have hreach : Lib.Reach (Lib.observe (step role callbacks) log) Seen
      (State.init life, Log.init) y := by
    refine h.trans ((Lib.reach_of_runInputs hrun).mono fun z e hok => ?_)
    cases e with
    | start | stop => exact hok.elim
    | _ => trivial
  have hnone : ∀ e, GoesOn y e → step role callbacks y.1 e = none := fun e he =>
    Option.map_eq_none_iff.mp (hstuck e he)
  have hapi : y.1.api = none := Option.map_eq_none_iff.mp (hnone .setFlag trivial)
  have hquiet : y.1.signalling = false := by
    by_contra hsig
    rw [Bool.not_eq_false] at hsig
    have hsignal := hnone .signal trivial
    rw [step, if_pos hsig] at hsignal
    cases hsignal
  exact ((reach_inv hreach).kept role callbacks).waits Life.sampleTurn
    (hnone (.task Life.sampleTurn) trivial) hapi hquiet

/-- The rest of the packets, then the start. -/
theorem started_rests_two : ∃ x y,
    Lib.Reach (Lib.observe (step .server userCallbacks) log) Seen
      (State.init Life.receiving, Log.init) x ∧
    Lib.runInputs (Lib.observe (step .server userCallbacks) log) GoesOn x
      [.task Life.sampleTurn, .task Life.sampleTurn, .task Life.sampleTurn] = some y ∧
    ((∀ e, GoesOn y e → Lib.observe (step .server userCallbacks) log y e = none) →
      y.2.taken = y.2.arrived ∧ y.1.phase = if y.1.bound then .started else .stopped) := by
  obtain ⟨x, hreach, hend⟩ :=
    Lib.exists_of_runInputs (Lib.observe (step .server userCallbacks) log) Seen
    (State.init Life.receiving, Log.init) sampleEvents
    (fun x => (Lib.runInputs (Lib.observe (step .server userCallbacks) log) GoesOn x
      [.task Life.sampleTurn, .task Life.sampleTurn, .task Life.sampleTurn]).isSome)
        (by decide +kernel)
  obtain ⟨y, hy⟩ := Option.isSome_iff_exists.mp hend
  exact ⟨x, y, hreach, hy, (started_rests .server userCallbacks hreach hy).2⟩

end NanoIp.Tftp.Task
