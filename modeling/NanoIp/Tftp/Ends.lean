import NanoIp.Tftp.Life
import NanoIp.Tftp.Transfer

/-!
# Starts and ends of TFTP transfers

A transfer is started by a request of the client's user that was sent, or by one that the
server's user accepted, and its end is told to the user once. A server whose user refuses a
request, or that is sent one for another mode, tells the end of a transfer that never was.
-/
namespace NanoIp.Tftp.Life

variable {υ : Type} {callbacks : Callbacks υ}

/-- Whether a transfer is going on after a call, if the call may come then: a transfer is
started when there is none, and ended when there is one, by a module that is idle by then and
whose timer is stopped. -/
def follow : Bool → Call → Option Bool
  | going, .requested _ answer =>
      if answer = .success then (if going then none else some true) else some going
  | going, .reqReceived _ _ answer =>
      if answer = .success then (if going then none else some true) else some going
  | going, .endOfTransfert _ reqType timerRuns =>
    if going && reqType = .idle && !timerRuns then some false else none
  | going, .dataReceived .. | going, .dataToSend .. | going, .errorReceived .. => some going

def going (x : Instance) : Bool := x.reqType ≠ .idle

theorem follow_one (g : Bool) (c : Call) : [c].foldlM follow g = follow g c := by
  rw [List.foldlM_cons]
  exact bind_pure (follow g c)

/-- What an operation of a module `x` comes to, for all that UDP may answer to an error message:
the transfer goes on, its last block ends it, the peer's `error` ends it, or an error that the
peer is told. -/
inductive Course (x : Instance) (calls : List Call) (error : Option TftpErr)
    (f : Layers → Outcome (υ × List Call)) :
    Prop
  | goes (y : Instance) (user : υ) (new : List Call) (sent : List Datagram)
      (hf : ∀ l, f l = ⟨y, (user, calls ++ new), sent⟩) (hended : y.ended = x.ended)
      (hnew : new.foldlM follow (going x) = some (going y))
  | completes (y : Instance) (user : υ) (new : List Call) (sent : List Datagram)
      (hf : ∀ l, f l = ⟨y.ends, (user, calls ++ new), sent⟩) (hended : y.ended = x.ended)
      (herr : y.lastError = .success) (hnone : error = none)
        (hnew : new.foldlM follow (going x) = some true)
  | received (y : Instance) (user : υ) (new : List Call)
      (hf : ∀ l, f l = ⟨y.ends, (user, calls ++ new), []⟩) (hended : y.ended = x.ended)
      (herr : error = some y.lastError) (hnew : new.foldlM follow (going x) = some true)
  | fails (y : Instance) (user : υ) (new : List Call) (e : TftpErr)
      (hf : ∀ l, f l = failTransfer y (user, calls ++ new) e l) (hended : y.ended = x.ended)
      (hnone : error = none) (hnew : new.foldlM follow (going x) = some true)

section Operations

variable {x y : Instance} {user : υ} {calls : List Call} {layers errorLayers : Layers}
  {sent : List Datagram}
  {q : Packet} {type : ReqType} {now : BitVec 32} {error : Option TftpErr}
    {f : Layers → Outcome (υ × List Call)}

theorem course_same (hf : ∀ l, f l = ⟨y, (user, calls), sent⟩) (hended : y.ended = x.ended)
    (hreq : y.reqType = x.reqType) : Course x calls error f := by
  refine .goes y user [] sent (fun l => by rw [hf, List.append_nil]) hended ?_
  rw [going, going, hreq]
  rfl

/-- Data is asked for at most once, and nothing else. -/
theorem sendData_recorded (callbacks : Callbacks υ) (x : Instance) (user : υ) (calls : List Call)
    (layers : Layers) :
    ∃ ret dataSize user' new sent, sendData (recorded callbacks) x (user, calls) layers =
        ⟨ret, dataSize, (user', calls ++ new), sent⟩ ∧ ∀ g, new.foldlM follow g = some g := by
  rw [sendData]
  cases layers.alloc with
  | error e => exact ⟨false, 0#16, user, [], [], by rw [List.append_nil], fun g => rfl⟩
  | ok u =>
    rcases hdata : callbacks.dataToSend user with ⟨err, data, user'⟩
    have hrec : (recorded callbacks).dataToSend (user, calls) =
        (err, data, user', calls ++ [.dataToSend data err]) := by
      rw [recorded_dataToSend, hdata]
    simp only [hrec]
    by_cases h : err = .success
    · rw [if_pos h]
      exact ⟨_, _, user', [.dataToSend data err], _, rfl, fun g => rfl⟩
    · rw [if_neg h]
      exact ⟨_, _, user', [.dataToSend data err], _, rfl, fun g => rfl⟩

theorem processErrorPacket_course (x : Instance) (user : υ) (calls : List Call) (q : Packet) :
    Course x calls (some (.ofCode q.read16bits.1)) fun _ =>
      processErrorPacket (recorded callbacks) x (user, calls) q := by
  by_cases h : x.reqType ≠ .idle
  · rcases hread : q.read16bits with ⟨number, p⟩
    have hrec : (recorded callbacks).errorReceived (user, calls) number
      (p.bytes p.current p.count.toNat) =
        (callbacks.errorReceived user number (p.bytes p.current p.count.toNat),
          calls ++ [.errorReceived number (p.bytes p.current p.count.toNat)]) :=
            recorded_errorReceived ..
    refine .received { x with lastError := .ofCode number }
      (callbacks.errorReceived user number (p.bytes p.current p.count.toNat))
      [.errorReceived number (p.bytes p.current p.count.toNat)] (fun l => ?_) rfl rfl
        (congrArg some (decide_eq_true h))
    rw [processErrorPacket, if_pos h]
    simp only [hread, hrec]
  · exact course_same (fun l => by rw [processErrorPacket, if_neg h]) rfl rfl

theorem processDataPacket_course (hreq : type ≠ .idle) (x : Instance) (user : υ) (calls : List Call)
    (q : Packet) :
    Course x calls none fun l => processDataPacket (recorded callbacks) x (user, calls)
      q type layers l now := by
  by_cases h : x.reqType = type
  · subst h
    have hg : going x = true := decide_eq_true hreq
    rcases hread : q.read16bits with ⟨number, p⟩
    rcases hdata : callbacks.dataReceived user (p.bytes p.current p.count.toNat) with ⟨err, user'⟩
    let made : Call := .dataReceived (p.bytes p.current p.count.toNat) err
    have hrec : (recorded callbacks).dataReceived (user, calls) (p.bytes p.current p.count.toNat) =
        (err, user', calls ++ [made]) := by
      rw [recorded_dataReceived, hdata]
    let y : Instance := { x with currentBlock := x.currentBlock + 1#16,
                                 lastRxPacketTimestamp := now }
    by_cases hblock : number = x.currentBlock + 1#16
    · by_cases hok : err = .success
      · by_cases hlast : p.count < dataPacketPayloadSize
        · refine .completes { y with lastError := .success } user' [made] (sendAcknowledge y layers)
            (fun l => ?_) rfl
            rfl rfl (congrArg some hg)
          rw [processDataPacket, if_pos rfl]
          simp only [hread, hrec, hblock, hok, hlast, if_true]
          rfl
        · refine .goes y user' [made] (sendAcknowledge y layers) (fun l => ?_) rfl
            (congrArg some (hg.trans (decide_eq_true hreq).symm))
          rw [processDataPacket, if_pos rfl]
          simp only [hread, hrec, hblock, hok, hlast, if_true, if_false]
          rfl
      · refine .fails y user' [made] err (fun l => ?_) rfl rfl (congrArg some hg)
        rw [processDataPacket, if_pos rfl]
        simp only [hread, hrec, hblock, hok, if_true, if_false]
        rfl
    · refine .fails y user [] .unknownTransferId (fun l => ?_) rfl rfl (congrArg some hg)
      rw [processDataPacket, if_pos rfl]
      simp only [hread, hblock, if_false, List.append_nil]
      rfl
  · exact course_same (fun l => by rw [processDataPacket, if_neg h]) rfl rfl

theorem processAckPacket_course (hreq : type ≠ .idle) (x : Instance) (user : υ) (calls : List Call)
    (q : Packet) :
    Course x calls none fun l => processAckPacket (recorded callbacks) x (user, calls) q type
      layers l now := by
  by_cases h : x.reqType = type
  · subst h
    have hg : going x = true := decide_eq_true hreq
    let y : Instance := { x with lastRxPacketTimestamp := now }
    let z : Instance := { y with currentBlock := x.currentBlock + 1#16 }
    obtain ⟨ret, dataSize, user', new, sent, hsend, hnew⟩ :=
      sendData_recorded callbacks z user calls layers
    by_cases hblock : q.read16bits.1 = x.currentBlock
    · have hresult : ∀ l, processAckPacket (recorded callbacks) x (user, calls) q x.reqType
        layers l now =
          if ret then
            if dataSize < dataPacketPayloadSize then
              ⟨Instance.ends { z with lastError := .success }, (user', calls ++ new), sent⟩
            else ⟨z, (user', calls ++ new), sent⟩
          else failTransfer z (user', calls ++ new) .undefined l := by
        intro l
        rw [processAckPacket, if_pos rfl]
        dsimp only
        rw [if_pos hblock, hsend]
      by_cases hret : ret = true
      · by_cases hlast : dataSize < dataPacketPayloadSize
        · refine .completes { z with lastError := .success } user' new sent
            (fun l => ?_) rfl rfl rfl
            ((hnew _).trans (congrArg some hg))
          rw [hresult, if_pos hret, if_pos hlast]
        · refine .goes z user' new sent (fun l => ?_) rfl (hnew _)
          rw [hresult, if_pos hret, if_neg hlast]
      · refine .fails z user' new .undefined (fun l => ?_) rfl rfl
          ((hnew _).trans (congrArg some hg))
        rw [hresult, if_neg hret]
    · refine .fails y user [] .unknownTransferId (fun l => ?_) rfl rfl (congrArg some hg)
      rw [processAckPacket, if_pos rfl, List.append_nil]
      dsimp only
      rw [if_neg hblock]
  · exact course_same (fun l => by rw [processAckPacket, if_neg h]) rfl rfl

/-- The request begins no transfer: it is for another mode, or the user refuses it. -/
def Refuses (callbacks : Callbacks υ) (user : υ) (opcode : ReqType) (p : Packet) : Prop :=
  match readRequest p with
  | .incomplete => False
  | .illegalMode => True
  | .complete filename => (callbacks.reqReceived user opcode filename).1 ≠ .success

theorem refuses_illegalMode {q : Packet} (h : readRequest q = .illegalMode) :
    Refuses callbacks user type q := by
  rw [Refuses, h]
  trivial

theorem refuses_complete {q : Packet} {filename : List Byte}
    (h : readRequest q = .complete filename) :
    Refuses callbacks user type q ↔ (callbacks.reqReceived user type filename).1 ≠ .success := by
  rw [Refuses, h]

theorem processReadWriteRequest_course (hreq : type ≠ .idle) (x : Instance) (user : υ)
    (calls : List Call) (q : Packet) (hok : x.reqType = .idle → ¬ Refuses callbacks user type q) :
    Course x calls none fun l => processReadWriteRequest (recorded callbacks) x (user, calls) q type
      layers l now := by
  by_cases h : x.reqType = .idle
  · have hg : going x = false := decide_eq_false (not_not_intro h)
    cases hread : readRequest q with
    | incomplete =>
      exact course_same (y := { x with lastRxPacketTimestamp := now })
        (fun l => by rw [processReadWriteRequest, if_pos h, hread]) rfl rfl
    | illegalMode => exact absurd (refuses_illegalMode hread) (hok h)
    | complete filename =>
      have hans : (callbacks.reqReceived user type filename).1 = .success :=
        not_not.mp fun hne => hok h ((refuses_complete hread).mpr hne)
      rcases hboth : callbacks.reqReceived user type filename with ⟨err, user₁⟩
      rw [hboth] at hans
      obtain rfl : err = .success := hans
      let made : Call := .reqReceived type filename .success
      let y : Instance := { x with
        lastRxPacketTimestamp := now, timerRuns := true, reqType := type,
          currentBlock := 0#16, lastError := .success }
      have hrec : (recorded callbacks).reqReceived (user, calls) type filename =
          (.success, user₁, calls ++ [made]) := by
        rw [recorded_reqReceived, hboth]
      have hstart : follow (going x) made = some true := by
        rw [hg]
        rfl
      have hgoing : going y = true := decide_eq_true hreq
      by_cases hw : type = .write
      · refine .goes y user₁ [made] (sendAcknowledge y layers) (fun l => ?_) rfl ?_
        · rw [processReadWriteRequest, if_pos h]
          simp only [hread, hrec, if_true]
          rw [if_pos hw]
        · rw [follow_one, hstart, hgoing]
      · obtain ⟨ret, dataSize, user', new, sent, hsend, hnew⟩ :=
          sendData_recorded callbacks y user₁ (calls ++ [made]) layers
        have hresult : ∀ l, processReadWriteRequest (recorded callbacks) x (user, calls) q type
          layers l now =
            if ret then
              ⟨if dataSize < dataPacketPayloadSize then y.ends else y,
                (user', calls ++ (made :: new)), sent⟩
            else failTransfer y (user', calls ++ (made :: new)) .undefined l := by
          intro l
          rw [List.append_assoc] at hsend
          rw [processReadWriteRequest, if_pos h]
          simp only [hread, hrec, if_true]
          rw [if_neg hw, hsend]
          rfl
        have hall : (made :: new).foldlM follow (going x) = some true := by
          rw [List.foldlM_cons, hstart]
          exact hnew true
        by_cases hret : ret = true
        · by_cases hlast : dataSize < dataPacketPayloadSize
          · refine .completes y user' (made :: new) sent (fun l => ?_) rfl rfl rfl hall
            rw [hresult, if_pos hret, if_pos hlast]
          · refine .goes y user' (made :: new) sent (fun l => ?_) rfl
              (hall.trans (congrArg some hgoing.symm))
            rw [hresult, if_pos hret, if_neg hlast]
        · refine .fails y user' (made :: new) .undefined (fun l => ?_) rfl rfl hall
          rw [hresult, if_neg hret]
  · exact course_same (fun l => by rw [processReadWriteRequest, if_neg h]) rfl rfl

/-- A request that is refused is told to have ended, though it has not been started. -/
theorem processReadWriteRequest_refused (x : Instance) (user : υ) (calls : List Call) (q : Packet)
    (hidle : x.reqType = .idle) (hr : Refuses callbacks user type q) :
    ∃ y user' new e, y.ended = x.ended ∧ new.foldlM follow (going x) = some false ∧
      processReadWriteRequest (recorded callbacks) x (user, calls) q type layers errorLayers now =
        failTransfer y (user', calls ++ new) e errorLayers := by
  have hg : going x = false := decide_eq_false (not_not_intro hidle)
  cases hread : readRequest q with
  | incomplete =>
    rw [Refuses, hread] at hr
    exact hr.elim
  | illegalMode =>
    refine ⟨{ x with lastRxPacketTimestamp := now }, user, [], .illegalOperation, rfl,
      congrArg some hg, ?_⟩
    rw [processReadWriteRequest, if_pos hidle, hread, List.append_nil]
  | complete filename =>
    have herr : (callbacks.reqReceived user type filename).1 ≠ .success :=
      (refuses_complete hread).mp hr
    rcases hboth : callbacks.reqReceived user type filename with ⟨err, user'⟩
    rw [hboth] at herr
    have hrec : (recorded callbacks).reqReceived (user, calls) type filename =
        (err, user', calls ++ [.reqReceived type filename err]) := by
      rw [recorded_reqReceived, hboth]
    refine ⟨{ x with lastRxPacketTimestamp := now, timerRuns := true }, user',
      [.reqReceived type filename err], err,
      rfl, ?_, ?_⟩
    · rw [follow_one, follow, if_neg herr, hg]
    · rw [processReadWriteRequest, if_pos hidle]
      simp only [hread, hrec]
      rw [if_neg herr]

/-- The read or write request that a packet carries. -/
def requestOf (p : Packet) : Option ReqType :=
  if dataPacketHeaderSize ≤ p.count then
    match ReqType.ofCode p.read16bits.1 with
    | some .read => some .read
    | some .write => some .write
    | _ => none
  else none

/-- The error that a packet carries. -/
def errorOf (p : Packet) : Option TftpErr :=
  match ReqType.ofCode p.read16bits.1 with
  | some .error => some (.ofCode p.read16bits.2.read16bits.1)
  | _ => none

/-- The packet is a request that finds a server idle and begins no transfer. -/
def Refused (role : Role) (callbacks : Callbacks υ) (x : Instance) (user : υ) (p : Packet) : Prop :=
  role = .server ∧ x.reqType = .idle ∧
    ∃ opcode, requestOf p = some opcode ∧ Refuses callbacks user opcode p.read16bits.2

theorem processPacket_course (role : Role) (x : Instance) (user : υ) (calls : List Call)
    (p : Packet) (t : Turn) (hok : ¬ Refused role callbacks x user p) :
    Course x calls (errorOf p) fun l =>
      processPacket role (recorded callbacks) x (user, calls) p t.layers l t.now := by
  by_cases hlen : dataPacketHeaderSize ≤ p.count
  · cases role with
    | client =>
      simp only [processPacket, clientProcessPacket, hlen, if_true, errorOf]
      cases ReqType.ofCode p.read16bits.1 with
      | none => exact course_same (fun l => rfl) rfl rfl
      | some opcode =>
        cases opcode with
        | data => exact processDataPacket_course (by decide) x user calls _
        | ack => exact processAckPacket_course (by decide) x user calls _
        | error => exact processErrorPacket_course x user calls _
        | idle | read | write => exact course_same (fun l => rfl) rfl rfl
    | server =>
      have hreq : ∀ opcode, requestOf p = some opcode → x.reqType = .idle →
        ¬ Refuses callbacks user opcode p.read16bits.2 := fun opcode ho hidle hr => hok
          ⟨rfl, hidle, opcode, ho, hr⟩
      rw [requestOf, if_pos hlen] at hreq
      simp only [processPacket, serverProcessPacket, hlen, if_true, errorOf]
      cases hcode : ReqType.ofCode p.read16bits.1 with
      | none => exact course_same (fun l => rfl) rfl rfl
      | some opcode =>
        rw [hcode] at hreq
        cases opcode with
        | read => exact processReadWriteRequest_course (by decide) x user calls _ (hreq .read rfl)
        | write => exact processReadWriteRequest_course (by decide) x user calls _ (hreq .write rfl)
        | data => exact processDataPacket_course (by decide) x user calls _
        | ack => exact processAckPacket_course (by decide) x user calls _
        | error => exact processErrorPacket_course x user calls _
        | idle => exact course_same (fun l => rfl) rfl rfl
  · cases role with
    | client =>
        exact course_same (fun l => by rw [processPacket, clientProcessPacket, if_neg hlen]) rfl rfl
    | server =>
        exact course_same (fun l => by rw [processPacket, serverProcessPacket, if_neg hlen]) rfl rfl

theorem processPacket_refused {role : Role} (x : Instance) (user : υ) (calls : List Call)
    (p : Packet) (t : Turn) (hr : Refused role callbacks x user p) :
    ∃ y user' new e, y.ended = x.ended ∧ new.foldlM follow (going x) = some false ∧
      processPacket role (recorded callbacks) x (user, calls) p t.layers t.errorLayers t.now =
        failTransfer y (user', calls ++ new) e t.errorLayers := by
  obtain ⟨rfl, hidle, opcode, ho, hr⟩ := hr
  rw [requestOf] at ho
  rw [processPacket, serverProcessPacket]
  by_cases hlen : dataPacketHeaderSize ≤ p.count
  · rw [if_pos hlen] at ho ⊢
    dsimp only
    cases hcode : ReqType.ofCode p.read16bits.1 with
    | none =>
      rw [hcode] at ho
      cases ho
    | some code =>
      rw [hcode] at ho
      cases code with
      | read | write =>
        obtain rfl := Option.some.inj ho
        exact processReadWriteRequest_refused x user calls _ hidle hr
      | idle | data | ack | error => cases ho
  · rw [if_neg hlen] at ho
    cases ho

/-- The user's requests make no calls, and start a transfer exactly when they are answered
with success. -/
theorem clientRequest_started (hreq : type ≠ .idle) (x : Instance) (user : υ)
    (serverAddress : Ipv4Address) (serverPort : BitVec 16) (filename : List Byte) :
    let result := clientRequest type x user serverAddress serverPort filename layers now
    result.1.user = user ∧ result.1.tftp.ended = x.ended ∧
      follow (going x) (.requested type result.2) = some (going result.1.tftp) := by
  have hrefused : ∀ (g : Bool) (e : Failure), follow g (.requested type e.1) = some g := by
    intro g e
    have he : e.1 ≠ .success := by
      intro h
      have hacc := e.2
      rw [h] at hacc
      cases hacc
    rw [follow, if_neg he]
  rw [clientRequest]
  by_cases h : x.reqType = .idle
  · have hg : going x = false := decide_eq_false (not_not_intro h)
    rw [if_pos h, sendReadWriteRequest]
    cases halloc : layers.alloc with
    | error e => exact ⟨rfl, rfl, hrefused _ e⟩
    | ok u =>
      dsimp only [Layers.sends]
      rw [halloc]
      dsimp only
      cases hsend : layers.send.accepted with
      | true =>
        rw [if_pos rfl]
        refine ⟨rfl, rfl, ?_⟩
        rw [hg]
        exact congrArg some (decide_eq_true hreq).symm
      | false =>
        rw [if_neg Bool.false_ne_true]
        exact ⟨rfl, rfl, hrefused _ ⟨layers.send, hsend⟩⟩
  · rw [if_neg h]
    exact ⟨rfl, rfl, hrefused _ ⟨.invalidArg, rfl⟩⟩

theorem endings_same (h : y.ended = x.ended) : endings x y = [] := by
  rw [endings, h, List.drop_length, List.map_nil]

theorem endings_ends (h : y.ended = x.ended) :
    endings x y.ends = [.endOfTransfert y.lastError .idle false] := by
  change ((y.ended ++ [y.lastError]).drop x.ended.length).map _ = _
  rw [h, List.drop_left]
  rfl

theorem follow_ends {new : List Call} {g : Bool} (h : y.ended = x.ended)
    (hnew : new.foldlM follow (going x) = some g) :
    (new ++ endings x y.ends).foldlM follow (going x) = if g then some false else none := by
  rw [endings_ends h, List.foldlM_append, hnew]
  exact (follow_one g _).trans (by cases g <;> rfl)

/-- The calls of an operation follow each other as they should. -/
theorem Course.followed (h : Course x calls error f) (l : Layers) : ∃ new,
    (f l).user.2 ++ endings x (f l).tftp = calls ++ new ∧
      new.foldlM follow (going x) = some (going (f l).tftp) := by
  cases h with
  | goes y user new sent hf hended hnew =>
    refine ⟨new, ?_, ?_⟩
    · rw [hf, endings_same hended, List.append_nil]
    · rw [hf, hnew]
  | completes y user new sent hf hended _ _ hnew =>
    rw [hf]
    exact ⟨new ++ endings x y.ends, List.append_assoc .., follow_ends hended hnew⟩
  | received y user new hf hended _ hnew =>
    rw [hf]
    exact ⟨new ++ endings x y.ends, List.append_assoc .., follow_ends hended hnew⟩
  | fails y user new e hf hended _ hnew =>
    rw [hf]
    exact ⟨new ++ endings x (Instance.ends { y with lastError := e }), List.append_assoc ..,
      follow_ends (y := { y with lastError := e }) hended hnew⟩

/-- The error of a transfer that the processing of a packet ends: the one in the packet, or
the one that the peer is told if it can be, or success if there is nothing to tell. -/
inductive OwnError (error : Option TftpErr) (f : Layers → Outcome (υ × List Call)) : TftpErr → Prop
  | received {e : TftpErr} (h : error = some e) : OwnError error f e
  | told {e : TftpErr} (hnone : error = none)
      (h : ∀ l : Layers, l.Works → ∃ d ∈ (f l).sent, d.payload = (errorMessage e).payload) :
        OwnError error f e
  | completed (hnone : error = none) (h : ∀ l l', f l = f l') : OwnError error f .success

theorem Course.ownError (h : Course x calls error f) (l : Layers) :
    ∀ e ∈ (f l).tftp.ended.drop x.ended.length, OwnError error f e := by
  have hone : ∀ y : Instance, y.ended = x.ended → ∀ e ∈ y.ends.ended.drop x.ended.length, e =
      y.lastError := by
    intro y hy e he
    change e ∈ (y.ended ++ [y.lastError]).drop x.ended.length at he
    rw [hy, List.drop_left] at he
    exact List.mem_singleton.mp he
  cases h with
  | goes y user new sent hf hended =>
    intro e he
    rw [hf, hended, List.drop_length] at he
    cases he
  | completes y user new sent hf hended herr hnone =>
    intro e he
    rw [hf] at he
    rw [hone y hended e he, herr]
    exact .completed hnone fun l l' => (hf l).trans (hf l').symm
  | received y user new hf hended herr =>
    intro e he
    rw [hf] at he
    rw [hone y hended e he]
    exact .received herr
  | fails y user new e' hf hended hnone =>
    intro e he
    rw [hf] at he
    obtain rfl : e = e' := hone { y with lastError := e' } hended e he
    refine .told hnone fun l hl => ⟨⟨y.destAddress, y.destPort, (errorMessage e).payload⟩, ?_, rfl⟩
    rw [hf, failTransfer, sendError, hl.sends]
    exact List.mem_singleton_self _

theorem timerCallback_course (x : Instance) (user : υ) (calls : List Call) (timestamp : BitVec 32) :
    Course x calls (some .timeout) fun _ =>
      ⟨{ x with toModule := Tftp.timerCallback x.toModule timestamp }, (user, calls), []⟩ := by
  by_cases h : x.reqType ≠ .idle
  · by_cases hlate : x.lastRxPacketTimestamp + x.timeout ≤ timestamp
    · refine .received { x with lastError := .timeout } user [] (fun l => ?_) rfl rfl
        (congrArg some (decide_eq_true h))
      rw [Tftp.timerCallback, if_pos h, if_pos hlate, List.append_nil]
      rfl
    · exact course_same (fun l => by rw [Tftp.timerCallback, if_pos h, if_neg hlate]) rfl rfl
  · exact course_same (fun l => by rw [Tftp.timerCallback, if_neg h]) rfl rfl

end Operations

section Runs

variable {role : Role} {task : Bool} {s s' : State υ} {i : Input} {r : Received} {t : Turn}

/-- No request is refused: none that finds a server idle is for another mode, or turned down
by the user. -/
def Granted (role : Role) (task : Bool) (callbacks : Callbacks υ) (s : State υ) (i : Input) :
    Prop :=
  ∀ s' r t, processing task s i = some (s', r, t) →
    ¬ Refused role callbacks s'.tftp s'.user r.packet

/-- The error is that of the transfer that the input ends. -/
def Own (role : Role) (task : Bool) (callbacks : Callbacks υ) (s : State υ) (i : Input)
    (status : TftpErr) : Prop :=
  match i with
  | .timerCallback _ => status = .timeout
  | _ => ∃ s' r t, processing task s i = some (s', r, t) ∧
      OwnError (errorOf r.packet) (fun l =>
        processPacket role (recorded callbacks) s'.tftp (s'.user, s'.calls) r.packet t.layers l
          t.now) status

theorem asked_followed {opcode : ReqType} {result : Outcome (υ × List Call) × Err}
    (h : result.1.user = (s.user, s.calls) ∧ result.1.tftp.ended = s.tftp.ended ∧
      follow (going s.tftp) (.requested opcode result.2) = some (going result.1.tftp)) : ∃ new,
    (s.asked opcode result).calls = s.calls ++ new ∧
      new.foldlM follow (going s.tftp) = some (going (s.asked opcode result).tftp) := by
  obtain ⟨huser, hended, hfollow⟩ := h
  refine ⟨[.requested opcode result.2], ?_, (follow_one _ _).trans hfollow⟩
  change result.1.user.2 ++ endings s.tftp result.1.tftp ++ _ = _
  rw [huser, endings_same hended, List.append_nil]

/-- An input that nothing is refused by makes calls that follow each other as they should. -/
theorem step_followed (hok : Granted role task callbacks s i) : ∃ new,
    (step role task callbacks s i).calls = s.calls ++ new ∧
      new.foldlM follow (going s.tftp) = some (going (step role task callbacks s i).tftp) := by
  cases hp : processing task s i with
  | some z =>
    obtain ⟨s', r, t⟩ := z
    obtain ⟨huser, hcalls, -, hmodule, -⟩ := processing_same hp
    have hgoing : going s'.tftp = going s.tftp :=
      congrArg (fun m : Module => decide (m.reqType ≠ .idle)) hmodule
    obtain ⟨new, hnew, hfollow⟩ := (processPacket_course role s'.tftp s'.user s'.calls r.packet t
      (hok s' r t hp)).followed t.errorLayers
    rw [step_processing hp, ← hgoing, ← hcalls]
    exact ⟨new, hnew, hfollow⟩
  | none =>
    have hsame : ∀ x : State υ, x.calls = s.calls → x.tftp.reqType = s.tftp.reqType → ∃ new,
        x.calls = s.calls ++ new ∧ new.foldlM follow (going s.tftp) = some (going x.tftp) := by
      intro x hc hr
      refine ⟨[], by rw [hc, List.append_nil], ?_⟩
      rw [going, going, hr]
      rfl
    cases i with
    | udpEvent r t =>
      cases task with
      | true => exact hsame _ rfl rfl
      | false => cases hp
    | task t =>
      rw [step]
      cases hq : s.rxPackets with
      | nil => exact hsame _ rfl rfl
      | cons r rest =>
        rw [processing, hq] at hp
        cases hp
    | timerCallback timestamp =>
      exact (timerCallback_course s.tftp s.user s.calls timestamp).followed ⟨.ok (), .success⟩
    | read =>
      cases role with
      | server => exact hsame _ rfl rfl
      | client => exact asked_followed (clientRequest_started (by decide) ..)
    | write =>
      cases role with
      | server => exact hsame _ rfl rfl
      | client => exact asked_followed (clientRequest_started (by decide) ..)

theorem step_refused (hp : processing task s i = some (s', r, t))
    (hr : Refused role callbacks s'.tftp s'.user r.packet) : ∃ new,
    (step role task callbacks s i).calls = s.calls ++ new ∧
      new.foldlM follow (going s.tftp) = none := by
  obtain ⟨-, hcalls, -, hmodule, -⟩ := processing_same hp
  have hgoing : going s'.tftp = going s.tftp :=
    congrArg (fun m : Module => decide (m.reqType ≠ .idle)) hmodule
  obtain ⟨y, user', new, e, hended, hnew, hout⟩ :=
    processPacket_refused s'.tftp s'.user s'.calls r.packet t hr
  refine ⟨new ++ endings s'.tftp (Instance.ends { y with lastError := e }), ?_, ?_⟩
  · rw [step_processing hp, ← hcalls, State.process, hout]
    exact List.append_assoc ..
  · rw [← hgoing]
    exact follow_ends (y := { y with lastError := e }) hended hnew

/-- What a transfer that is ended is ended with is its own error. -/
theorem step_own (hok : Granted role task callbacks s i) :
    ∀ e ∈ (step role task callbacks s i).tftp.ended.drop s.tftp.ended.length,
      Own role task callbacks s i e := by
  intro e he
  cases hp : processing task s i with
  | some z =>
    obtain ⟨s', r, t⟩ := z
    obtain ⟨-, -, -, hmodule, -⟩ := processing_same hp
    rw [step_processing hp, ← congrArg Module.ended hmodule] at he
    have hown := (processPacket_course role s'.tftp s'.user s'.calls r.packet t
      (hok s' r t hp)).ownError
      t.errorLayers e he
    cases i with
    | timerCallback => cases hp
    | read | write | udpEvent | task => exact ⟨s', r, t, hp, hown⟩
  | none =>
    have hsame : ∀ x : Instance, x.ended = s.tftp.ended → e ∈ x.ended.drop s.tftp.ended.length →
        Own role task callbacks s i e := by
      intro x hx he
      rw [hx, List.drop_length] at he
      cases he
    cases i with
    | udpEvent r t =>
      cases task with
      | true => exact hsame _ rfl he
      | false => cases hp
    | task t =>
      rw [step] at he
      cases hq : s.rxPackets with
      | nil =>
        rw [hq] at he
        exact hsame _ rfl he
      | cons r rest =>
        rw [processing, hq] at hp
        cases hp
    | timerCallback timestamp =>
      cases (timerCallback_course s.tftp s.user s.calls timestamp).ownError
        ⟨.ok (), .success⟩ e he with
      | received h => exact (Option.some.inj h).symm
      | told hnone => cases hnone
      | completed hnone => cases hnone
    | read =>
      cases role with
      | server => exact hsame _ rfl he
      | client => exact hsame _ (clientRequest_started (by decide) ..).2.1 he
    | write =>
      cases role with
      | server => exact hsame _ rfl he
      | client => exact hsame _ (clientRequest_started (by decide) ..).2.1 he

theorem run_calls (role : Role) (task : Bool) (callbacks : Callbacks υ) (is : List Input) :
    ∀ s : State υ, ∃ new,
    (is.foldl (step role task callbacks) s).calls = s.calls ++ new := by
  induction is with
  | nil => exact fun s => ⟨[], (List.append_nil _).symm⟩
  | cons i is ih =>
    intro s
    obtain ⟨new, hnew⟩ := ih (step role task callbacks s i)
    have hstep : ∃ new, (step role task callbacks s i).calls = s.calls ++ new := by
      by_cases hok : Granted role task callbacks s i
      · exact (step_followed hok).imp fun _ h => h.1
      · rw [Granted] at hok
        push Not at hok
        obtain ⟨s', r, t, hp, hr⟩ := hok
        exact (step_refused hp hr).imp fun _ h => h.1
    obtain ⟨new', hnew'⟩ := hstep
    exact ⟨new' ++ new, by rw [List.foldl_cons, hnew, hnew', List.append_assoc]⟩

/-- One end for every transfer in a run: the calls start transfers and end them in turn, none
is left that the module has not got, and each is ended with its own error. -/
structure OneEnd (role : Role) (task : Bool) (callbacks : Callbacks υ) (s : State υ)
    (is : List Input) : Prop where
  inTurn : (is.foldl (step role task callbacks) s).calls.foldlM follow false =
    some (going (is.foldl (step role task callbacks) s).tftp)
  own : Lib.Each (step role task callbacks) (fun s i =>
    ∀ e ∈ (step role task callbacks s i).tftp.ended.drop s.tftp.ended.length,
      Own role task callbacks s i e) s is

/-- A run that has gone well goes well exactly as long as no request is refused. -/
theorem oneEnd_iff_of_inTurn (is : List Input) :
    ∀ s : State υ, s.calls.foldlM follow false = some (going s.tftp) →
    (OneEnd role task callbacks s is ↔
      Lib.Each (step role task callbacks) (Granted role task callbacks) s is) := by
  induction is with
  | nil => exact fun s hs => ⟨fun _ => trivial, fun _ => ⟨hs, trivial⟩⟩
  | cons i is ih =>
    intro s hs
    by_cases hok : Granted role task callbacks s i
    · obtain ⟨new, hnew, hfollow⟩ := step_followed hok
      have hnext : (step role task callbacks s i).calls.foldlM follow false =
          some (going (step role task callbacks s i).tftp) := by
        rw [hnew, List.foldlM_append, hs]
        exact hfollow
      constructor
      · exact fun h => ⟨hok, (ih _ hnext).mp ⟨h.inTurn, h.own.2⟩⟩
      · intro h
        have hrest := (ih _ hnext).mpr h.2
        exact ⟨hrest.inTurn, step_own hok, hrest.own⟩
    · refine iff_of_false (fun h => ?_) fun h => hok h.1
      rw [Granted] at hok
      push Not at hok
      obtain ⟨s', r, t, hp, hr⟩ := hok
      obtain ⟨new, hnew, hfollow⟩ := step_refused hp hr
      obtain ⟨more, hmore⟩ := run_calls role task callbacks is (step role task callbacks s i)
      have hturn := h.inTurn
      have hnone : (s.calls ++ new).foldlM follow false = none := by
        rw [List.foldlM_append, hs]
        exact hfollow
      rw [List.foldl_cons, hmore, hnew, List.foldlM_append, hnone] at hturn
      cases hturn

/-- Of a client and of a server that start idle, in every run: each transfer that was started
and has ended is told to have ended once, with its own error, by a module that is idle and whose
timer is stopped, and no other, exactly when no request that finds the server idle is for another
mode or refused by its user. -/
theorem oneEnd_iff (role : Role) (task : Bool) (callbacks : Callbacks υ) (s : State υ)
    (is : List Input) (hidle : s.tftp.reqType = .idle) (hcalls : s.calls = []) :
    OneEnd role task callbacks s is ↔
      Lib.Each (step role task callbacks) (Granted role task callbacks) s is := by
  refine oneEnd_iff_of_inTurn is s ?_
  rw [hcalls, going, hidle]
  rfl

end Runs

instance (callbacks : Callbacks υ) (user : υ) (opcode : ReqType) (p : Packet) :
    Decidable (Refuses callbacks user opcode p) :=
  match h : readRequest p with
  | .incomplete => .isFalse (by rw [Refuses, h]; exact not_false)
  | .illegalMode => .isTrue (refuses_illegalMode h)
  | .complete _ => decidable_of_iff _ (refuses_complete h).symm

instance (role : Role) (callbacks : Callbacks υ) (x : Instance) (user : υ) (p : Packet) :
    Decidable (Refused role callbacks x user p) :=
  decidable_of_iff (role = .server ∧ x.reqType = .idle ∧
    (requestOf p).any (fun opcode => Refuses callbacks user opcode p.read16bits.2) = true) (by
      rw [Refused, Option.any_eq_true]
      simp only [decide_eq_true_eq])

instance (role : Role) (task : Bool) (callbacks : Callbacks υ) (s : State υ) (i : Input) :
    Decidable (Granted role task callbacks s i) :=
  decidable_of_iff ((processing task s i).all
    (fun z => ¬ Refused role callbacks z.1.tftp z.1.user z.2.1.packet) = true)
    (by
      rw [Granted, Option.all_eq_true]
      simp only [decide_eq_true_eq, Prod.forall])

def initial (user : υ) : State υ := ⟨idleInstance, user, [], [], []⟩

/-- 192.168.1.1 asks to write a file, and sends one block of it. -/
def writer : Peer := ⟨0xC0A80101#32, 1069#16⟩
def sampleTurn : Turn := ⟨working, working, 5#32⟩
def sampleWrite : List Input :=
  [.udpEvent ⟨writer, carrying (requestMessage sampleName.1 .write).payload⟩ sampleTurn,
    .udpEvent ⟨writer, carrying (dataMessage 1#16 [7#8]).payload⟩ sampleTurn]

theorem oneEnd_iff_write : OneEnd .server false userCallbacks (initial ⟨[], []⟩) sampleWrite :=
  (oneEnd_iff .server false userCallbacks (initial ⟨[], []⟩) sampleWrite rfl rfl).mpr (by decide)

/-- A user that has no room for files. -/
def refusing : Callbacks Unit where
  reqReceived user _ _ := (.diskFull, user)
  dataReceived user _ := (.diskFull, user)
  dataToSend user := (.fileNotFound, [], user)
  errorReceived user _ _ := user

/-- A request that its user refused is told to have ended. -/
theorem refused_request_ended :
    ¬ ∀ (υ : Type) (role : Role) (task : Bool) (callbacks : Callbacks υ) (s : State υ)
    (is : List Input), s.tftp.reqType = .idle → s.calls = [] → OneEnd role task callbacks s is := by
  intro hall
  have hturn := (hall Unit .server false refusing (initial ()) (sampleWrite.take 1) rfl rfl).inTurn
  exact absurd hturn (by decide)

end NanoIp.Tftp.Life
