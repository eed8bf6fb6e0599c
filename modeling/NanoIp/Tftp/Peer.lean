import NanoIp.Tftp.Ends

/-!
# Transfers and foreign packets

A module answers where its last datagram came from, and asks of no packet where it came from:
a packet of another endpoint that its transfer waits for is taken for one of the peer's, and
one that comes while a packet waits for the task draws the answer to that packet to itself.
What a transfer does not wait for changes nothing.
-/
namespace NanoIp.Tftp.Life

variable {υ : Type} {callbacks : Callbacks υ} {role : Role} {task : Bool}

/-- A module that has a transfer of this type, or none, acts on this opcode. -/
def Awaits (type : ReqType) : Role → ReqType → Prop
  | .client, .data => type = .read
  | .client, .ack => type = .write
  | .server, .read | .server, .write => type = .idle
  | .server, .data => type = .write
  | .server, .ack => type = .read
  | .client, .error | .server, .error => type ≠ .idle
  | .client, .idle | .client, .read | .client, .write | .server, .idle => False

/-- The processing of the packet does anything. -/
def Expected (role : Role) (type : ReqType) (p : Packet) : Prop :=
  dataPacketHeaderSize ≤ p.count ∧ ∃ opcode, ReqType.ofCode p.read16bits.1 = some opcode ∧
    Awaits type role opcode

section Operations

variable {x : Instance} {user : υ} {p q : Packet} {layers errorLayers : Layers} {now : BitVec 32}
  {type : ReqType}

/-- Nothing is done to a packet that is not expected. -/
theorem processPacket_unexpected (h : ¬ Expected role x.reqType p) :
    processPacket role callbacks x user p layers errorLayers now = ⟨x, user, []⟩ := by
  by_cases hlen : dataPacketHeaderSize ≤ p.count
  · have hno : ∀ opcode, ReqType.ofCode p.read16bits.1 = some opcode →
      ¬ Awaits x.reqType role opcode :=
      fun opcode hcode ha => h ⟨hlen, opcode, hcode, ha⟩
    cases role with
    | client =>
      rw [processPacket, clientProcessPacket, if_pos hlen]
      dsimp only
      cases hcode : ReqType.ofCode p.read16bits.1 with
      | none => rfl
      | some opcode =>
        have hno := hno opcode hcode
        cases opcode with
        | data | ack | error => exact if_neg hno
        | idle | read | write => rfl
    | server =>
      rw [processPacket, serverProcessPacket, if_pos hlen]
      dsimp only
      cases hcode : ReqType.ofCode p.read16bits.1 with
      | none => rfl
      | some opcode =>
        have hno := hno opcode hcode
        cases opcode with
        | read | write | data | ack | error => exact if_neg hno
        | idle => rfl
  · cases role with
    | client => rw [processPacket, clientProcessPacket, if_neg hlen]
    | server => rw [processPacket, serverProcessPacket, if_neg hlen]

/-- All datagrams go where the module answers to. -/
def ToPeer (x : Instance) (sent : List Datagram) : Prop :=
  ∀ d ∈ sent, d.destAddress = x.destAddress ∧ d.destPort = x.destPort

/-- An operation sends all its datagrams there, and does not turn to another. -/
structure Faces (x : Instance) (out : Outcome υ) : Prop where
  sent : ToPeer x out.sent
  destAddress : out.tftp.destAddress = x.destAddress
  destPort : out.tftp.destPort = x.destPort

theorem toPeer_nil : ToPeer x [] := fun _ h => nomatch h

theorem faces_same : Faces x (⟨x, user, []⟩ : Outcome υ) := ⟨toPeer_nil, rfl, rfl⟩

theorem sends_toPeer (message : Message) :
    ToPeer x (layers.sends x.destAddress x.destPort message).2 := by
  rw [Layers.sends]
  cases layers.alloc with
  | error e => exact toPeer_nil
  | ok u =>
    dsimp only
    by_cases h : layers.send.accepted = true
    · rw [if_pos h]
      intro d hd
      rw [List.mem_singleton.mp hd]
      exact ⟨rfl, rfl⟩
    · rw [if_neg h]
      exact toPeer_nil

theorem sendData_toPeer : ToPeer x (sendData callbacks x user layers).sent := by
  rw [sendData]
  cases layers.alloc with
  | error e => exact toPeer_nil
  | ok u =>
    dsimp only
    split
    · exact sends_toPeer _
    · exact toPeer_nil

theorem processDataPacket_faces :
    Faces x (processDataPacket callbacks x user q type layers errorLayers now) := by
  rw [processDataPacket]
  dsimp only
  split_ifs
  · exact ⟨sends_toPeer _, rfl, rfl⟩
  · exact ⟨sends_toPeer _, rfl, rfl⟩
  · exact ⟨sends_toPeer _, rfl, rfl⟩
  · exact ⟨sends_toPeer _, rfl, rfl⟩
  · exact faces_same

theorem processAckPacket_faces :
    Faces x (processAckPacket callbacks x user q type layers errorLayers now) := by
  rw [processAckPacket]
  dsimp only
  split_ifs
  · exact ⟨sendData_toPeer, rfl, rfl⟩
  · exact ⟨sendData_toPeer, rfl, rfl⟩
  · exact ⟨sends_toPeer _, rfl, rfl⟩
  · exact ⟨sends_toPeer _, rfl, rfl⟩
  · exact faces_same

theorem processErrorPacket_faces : Faces x (processErrorPacket callbacks x user q) := by
  rw [processErrorPacket]
  split_ifs
  · exact ⟨toPeer_nil, rfl, rfl⟩
  · exact faces_same

theorem processReadWriteRequest_faces :
    Faces x (processReadWriteRequest callbacks x user q type layers errorLayers now) := by
  rw [processReadWriteRequest]
  by_cases h : x.reqType = .idle
  · rw [if_pos h]
    dsimp only
    cases readRequest q with
    | incomplete => exact ⟨toPeer_nil, rfl, rfl⟩
    | illegalMode => exact ⟨sends_toPeer _, rfl, rfl⟩
    | complete filename =>
      dsimp only
      split_ifs
      · exact ⟨sends_toPeer _, rfl, rfl⟩
      · exact ⟨sendData_toPeer, rfl, rfl⟩
      · exact ⟨sendData_toPeer, rfl, rfl⟩
      · exact ⟨sends_toPeer _, rfl, rfl⟩
      · exact ⟨sends_toPeer _, rfl, rfl⟩
  · rw [if_neg h]
    exact faces_same

theorem processPacket_faces (role : Role) (callbacks : Callbacks υ) (x : Instance) (user : υ)
    (p : Packet) (turn : Turn) :
    Faces x (processPacket role callbacks x user p turn.layers turn.errorLayers turn.now) := by
  by_cases hlen : dataPacketHeaderSize ≤ p.count
  · cases role with
    | client =>
      rw [processPacket, clientProcessPacket, if_pos hlen]
      dsimp only
      cases ReqType.ofCode p.read16bits.1 with
      | none => exact faces_same
      | some opcode =>
        cases opcode with
        | data => exact processDataPacket_faces
        | ack => exact processAckPacket_faces
        | error => exact processErrorPacket_faces
        | idle | read | write => exact faces_same
    | server =>
      rw [processPacket, serverProcessPacket, if_pos hlen]
      dsimp only
      cases ReqType.ofCode p.read16bits.1 with
      | none => exact faces_same
      | some opcode =>
        cases opcode with
        | read | write => exact processReadWriteRequest_faces
        | data => exact processDataPacket_faces
        | ack => exact processAckPacket_faces
        | error => exact processErrorPacket_faces
        | idle => exact faces_same
  · cases role with
    | client =>
      rw [processPacket, clientProcessPacket, if_neg hlen]
      exact faces_same
    | server =>
      rw [processPacket, serverProcessPacket, if_neg hlen]
      exact faces_same

end Operations

/-- The source and the destination that a module answers to are the peer. -/
def AnswersTo (x : Instance) (peer : Peer) : Prop :=
  x.destAddress = peer.address ∧ x.destPort = peer.port

theorem answering_of_answersTo {x : Instance} {peer : Peer} (h : AnswersTo x peer) :
    x.answering peer.address peer.port = x := by
  rw [← h.1, ← h.2]
  rfl

/-- Where a request goes has nothing to do with where the last datagram came from. -/
theorem clientRequest_answering (type : ReqType) (x : Instance) (user : υ)
    (serverAddress : Ipv4Address) (serverPort : BitVec 16) (filename : List Byte) (layers : Layers)
    (now : BitVec 32) (address : Ipv4Address) (port : BitVec 16) :
    clientRequest type (x.answering address port) user serverAddress serverPort filename
      layers now =
      let result := clientRequest type x user serverAddress serverPort filename layers now
      (⟨result.1.tftp.answering address port, result.1.user, result.1.sent⟩, result.2) := by
  rw [clientRequest, clientRequest]
  by_cases h : x.reqType = .idle
  · rw [if_pos h, if_pos (by exact h), sendReadWriteRequest, sendReadWriteRequest]
    cases layers.alloc with
    | error e => rfl
    | ok u =>
      dsimp only
      by_cases hsend : (layers.sends serverAddress serverPort (requestMessage filename type)).1 =
        true
      · rw [if_pos hsend, if_pos hsend]
        rfl
      · rw [if_neg hsend, if_neg hsend]
        rfl
  · rw [if_neg h, if_neg (by exact h)]

/-- An error packet is not answered, and where the last datagram came from does not matter to it. -/
theorem processPacket_error (role : Role) (callbacks : Callbacks υ) {p : Packet}
    (h : errorOf p ≠ none) (x : Instance) (user : υ) (turn : Turn) (address : Ipv4Address)
    (port : BitVec 16) :
    let out := processPacket role callbacks x user p turn.layers turn.errorLayers turn.now
    processPacket role callbacks (x.answering address port) user p turn.layers
      turn.errorLayers turn.now =
      ⟨out.tftp.answering address port, out.user, []⟩ ∧ out.sent = [] := by
  have hcode : ReqType.ofCode p.read16bits.1 = some .error := by
    rw [errorOf] at h
    cases hcode : ReqType.ofCode p.read16bits.1 with
    | none => exact absurd (by rw [hcode]) h
    | some opcode =>
      cases opcode with
      | error => rfl
      | idle | read | write | data | ack => exact absurd (by rw [hcode]) h
  have herror : processErrorPacket callbacks (x.answering address port) user p.read16bits.2 =
      ⟨(processErrorPacket callbacks x user p.read16bits.2).tftp.answering address port,
        (processErrorPacket callbacks x user p.read16bits.2).user, []⟩ ∧
      (processErrorPacket callbacks x user p.read16bits.2).sent = [] := by
    rw [processErrorPacket, processErrorPacket]
    by_cases hidle : x.reqType ≠ .idle
    · rw [if_pos hidle, if_pos (by exact hidle)]
      exact ⟨rfl, rfl⟩
    · rw [if_neg hidle, if_neg (by exact hidle)]
      exact ⟨rfl, rfl⟩
  by_cases hlen : dataPacketHeaderSize ≤ p.count
  · cases role with
    | client =>
      simp only [processPacket, clientProcessPacket, if_pos hlen, hcode]
      exact herror
    | server =>
      simp only [processPacket, serverProcessPacket, if_pos hlen, hcode]
      exact herror
  · cases role with
    | client =>
      simp only [processPacket, clientProcessPacket, if_neg hlen, and_self]
    | server =>
      simp only [processPacket, serverProcessPacket, if_neg hlen, and_self]

section Runs

variable {s s' t : State υ} {i : Input} {r : Received} {turn : Turn} {peer : Peer}

/-- What an input has processed is expected from the peer only; and then, unless it is an error,
which nobody answers, the last datagram received is the peer's. -/
def Settled (role : Role) (task : Bool) (peer : Peer) (s : State υ) (i : Input) : Prop :=
  ∀ s' r turn, processing task s i = some (s', r, turn) → Expected role s'.tftp.reqType r.packet →
    r.src = peer ∧ (errorOf r.packet = none → AnswersTo s'.tftp peer)

/-- The input is the reception of a foreign packet, or its turn. -/
def Foreign (peer : Peer) (s : State υ) : Input → Prop
  | .udpEvent r _ => r.src ≠ peer
  | .task _ => ∃ r ∈ s.rxPackets.head?, r.src ≠ peer
  | .read .. | .write .. | .timerCallback .. => False

/-- A transfer is in progress with a peer, whose packets are the only ones that wait. -/
structure InProgress (peer : Peer) (s : State υ) : Prop where
  going : s.tftp.reqType ≠ .idle
  queued : ∀ r ∈ s.rxPackets, r.src = peer ∧ AnswersTo s.tftp peer
  sent : s.sent = []

def sentTo (peer : Peer) (s : State υ) : List Datagram :=
  (s.sent.map Sent.datagram).filter fun d => d.destAddress = peer.address && d.destPort = peer.port

/-- The transfer, the callbacks and what the peer is sent are the same. -/
structure Undisturbed (peer : Peer) (s t : State υ) : Prop where
  currentBlock : s.tftp.currentBlock = t.tftp.currentBlock
  reqType : s.tftp.reqType = t.tftp.reqType
  lastRxPacketTimestamp : s.tftp.lastRxPacketTimestamp = t.tftp.lastRxPacketTimestamp
  lastError : s.tftp.lastError = t.tftp.lastError
  calls : s.calls = t.calls
  sent : sentTo peer s = sentTo peer t

/-- Every answer goes to the sender of the packet it answers. -/
def Answered (s : State υ) : Prop :=
  ∀ m ∈ s.sent, ∀ src, m.answers = some src → m.datagram.destAddress = src.address ∧
    m.datagram.destPort = src.port

/-- The run with foreign packets and the run without them differ in the foreign packets that
wait and, where none of the peer's waits, in what the last datagram was. -/
structure Beside (peer : Peer) (s t : State υ) : Prop where
  tftp : ∃ address port, t.tftp = s.tftp.answering address port
  user : s.user = t.user
  calls : s.calls = t.calls
  sent : s.sent = t.sent
  rxPackets : t.rxPackets = s.rxPackets.filter fun r => r.src = peer
  answersTo : t.rxPackets ≠ [] → AnswersTo t.tftp peer
  answered : Answered s

theorem did_same (s : State υ) (answers : Option Peer) :
    s.did answers ⟨s.tftp, (s.user, s.calls), []⟩ = s := by
  rw [State.did, endings_same rfl, List.append_nil, List.map_nil, List.append_nil]

theorem process_unexpected (h : ¬ Expected role s.tftp.reqType r.packet) :
    s.process role callbacks r turn = s := by
  rw [State.process, processPacket_unexpected h]
  exact did_same s _

/-- A packet of the peer's that has its turn in the run with foreign packets has it in the other. -/
theorem Beside.processing (h : Beside peer s t) (hp : processing task s i = some (s', r, turn))
    (hr : r.src = peer) :
    ∃ t', Life.processing task t i = some (t', r, turn) ∧ Beside peer s' t' ∧
      AnswersTo t'.tftp peer := by
  obtain ⟨⟨address, port, htftp⟩, huser, hcalls, hsent, hqueue, hto, hanswered⟩ := h
  cases i with
  | udpEvent r₀ turn₀ =>
    cases task with
    | true => cases hp
    | false =>
      obtain ⟨rfl, rfl, rfl⟩ := Prod.mk.inj (Option.some.inj hp) |>.imp_right Prod.mk.inj
      have hpeer : AnswersTo (t.tftp.answering r₀.src.address r₀.src.port) peer := by
        rw [hr]
        exact ⟨rfl, rfl⟩
      refine ⟨_, rfl,
        ⟨⟨r₀.src.address, r₀.src.port, ?_⟩, huser, hcalls, hsent, hqueue, fun _ =>
          hpeer, hanswered⟩, hpeer⟩
      rw [htftp]
      rfl
  | task turn₀ =>
    rw [Life.processing] at hp
    cases hq : s.rxPackets with
    | nil =>
      rw [hq] at hp
      cases hp
    | cons r₀ rest =>
      rw [hq] at hp
      obtain ⟨rfl, rfl, rfl⟩ := Prod.mk.inj (Option.some.inj hp) |>.imp_right Prod.mk.inj
      have hkeep : (r₀ :: rest).filter (fun r => decide (r.src = peer)) =
          r₀ :: rest.filter fun r => decide (r.src = peer) :=
            List.filter_cons_of_pos (decide_eq_true hr)
      rw [hq, hkeep] at hqueue
      have hpeer : AnswersTo t.tftp peer := hto (by rw [hqueue]; exact List.cons_ne_nil _ _)
      refine ⟨{ t with rxPackets := rest.filter fun r => r.src = peer }, ?_,
        ⟨⟨address, port, htftp⟩, huser, hcalls, hsent, rfl, fun _ => hpeer, hanswered⟩, hpeer⟩
      rw [Life.processing, hqueue]
  | read | write | timerCallback => cases hp

/-- An operation that answers nobody, or sends nothing. -/
theorem Beside.did (h : Beside peer s t) (answers : Option Peer)
    (out out' : Outcome (υ × List Call)) {address : Ipv4Address} {port : BitVec 16}
    (hx : t.tftp = s.tftp.answering address port) (hy : out'.tftp = out.tftp.answering address port)
    (huser : out.user = out'.user) (hsent : out.sent = out'.sent)
    (hanswers : answers = none ∨ out.sent = []) :
    Beside peer (s.did answers out) (t.did answers out') := by
  refine ⟨⟨address, port, hy⟩, congrArg Prod.fst huser, ?_, ?_, h.rxPackets, fun hne => ?_, ?_⟩
  · change out.user.2 ++ endings s.tftp out.tftp = out'.user.2 ++ endings t.tftp out'.tftp
    rw [huser, hx, hy]
    rfl
  · change s.sent ++ _ = t.sent ++ _
    rw [h.sent, hsent]
  · have hto := h.answersTo hne
    rw [hx] at hto
    change AnswersTo out'.tftp peer
    rw [hy]
    exact hto
  · intro m hm src hsrc
    rcases List.mem_append.mp hm with hm | hm
    · exact h.answered m hm src hsrc
    · obtain ⟨d, hd, rfl⟩ := List.mem_map.mp hm
      rcases hanswers with rfl | hnone
      · cases hsrc
      · rw [hnone] at hd
        cases hd

/-- The processing of a packet of the peer's. -/
theorem Beside.process (h : Beside peer s t) (hr : r.src = peer) (ht : AnswersTo t.tftp peer)
    (hs : Expected role s.tftp.reqType r.packet → errorOf r.packet = none → AnswersTo s.tftp peer) :
    Beside peer (s.process role callbacks r turn) (t.process role callbacks r turn) := by
  have htype : t.tftp.reqType = s.tftp.reqType := by
    obtain ⟨address, port, htftp⟩ := h.tftp
    rw [htftp]
    rfl
  by_cases herror : errorOf r.packet = none
  swap
  · obtain ⟨address, port, htftp⟩ := h.tftp
    obtain ⟨hout, hsent⟩ := processPacket_error role (recorded callbacks) herror s.tftp
      (s.user, s.calls) turn address
      port
    refine h.did _ _ _ htftp ?_ ?_ ?_ (.inr hsent)
    · rw [htftp, ← h.user, ← h.calls, hout]
    · rw [htftp, ← h.user, ← h.calls, hout]
    · rw [htftp, ← h.user, ← h.calls, hout]
      exact hsent
  by_cases hexp : Expected role s.tftp.reqType r.packet
  · have hsame : t.tftp = s.tftp := by
      obtain ⟨address, port, htftp⟩ := h.tftp
      rw [← answering_of_answersTo (hs hexp herror), ← answering_of_answersTo ht, htftp]
      rfl
    have hout := processPacket_faces role (recorded callbacks) s.tftp (s.user, s.calls)
      r.packet turn
    have hto : AnswersTo s.tftp r.src := by
      rw [hr]
      exact hs hexp herror
    rw [State.process, State.process, hsame, ← h.user, ← h.calls]
    generalize processPacket role (recorded callbacks) s.tftp (s.user, s.calls) r.packet turn.layers
      turn.errorLayers
      turn.now = out at hout
    refine ⟨⟨out.tftp.destAddress, out.tftp.destPort, rfl⟩, rfl, ?_, ?_, h.rxPackets,
      fun _ => ?_, ?_⟩
    · exact congrArg (fun y => out.user.2 ++ endings y out.tftp) hsame.symm
    · exact congrArg (· ++ _) h.sent
    · exact ⟨hout.destAddress.trans (hs hexp herror).1, hout.destPort.trans (hs hexp herror).2⟩
    · intro m hm src hsrc
      rcases List.mem_append.mp hm with hm | hm
      · exact h.answered m hm src hsrc
      · obtain ⟨d, hd, rfl⟩ := List.mem_map.mp hm
        obtain rfl := Option.some.inj hsrc
        exact ⟨(hout.sent d hd).1.trans hto.1, (hout.sent d hd).2.trans hto.2⟩
  · rw [process_unexpected hexp, process_unexpected (htype ▸ hexp)]
    exact h

theorem Beside.asked (h : Beside peer s t) (opcode : ReqType) (serverAddress : Ipv4Address)
    (serverPort : BitVec 16) (filename : List Byte) (layers : Layers) (now : BitVec 32) :
    Beside peer
      (s.asked opcode (clientRequest opcode s.tftp (s.user, s.calls) serverAddress serverPort
        filename layers now))
      (t.asked opcode
        (clientRequest opcode t.tftp (t.user, t.calls) serverAddress serverPort filename
          layers now)) := by
  obtain ⟨address, port, hx⟩ := h.tftp
  have hresult := clientRequest_answering opcode s.tftp (s.user, s.calls) serverAddress serverPort
    filename layers now
    address port
  rw [← hx] at hresult
  rw [← h.user, ← h.calls, hresult]
  generalize clientRequest opcode s.tftp (s.user, s.calls) serverAddress serverPort filename layers
    now = result
  have hdid : Beside peer (s.did none result.1)
    (t.did none ⟨result.1.tftp.answering address port, result.1.user, result.1.sent⟩) :=
    h.did none result.1 _ hx rfl rfl rfl (.inl rfl)
  exact ⟨hdid.tftp, hdid.user, congrArg (· ++ _) hdid.calls, hdid.sent, hdid.rxPackets,
    hdid.answersTo, hdid.answered⟩

instance (peer : Peer) (s : State υ) : ∀ i, Decidable (Foreign peer s i)
  | .udpEvent r _ => inferInstanceAs (Decidable (r.src ≠ peer))
  | .task _ => inferInstanceAs (Decidable (∃ r ∈ s.rxPackets.head?, r.src ≠ peer))
  | .read .. | .write .. | .timerCallback .. => inferInstanceAs (Decidable False)

/-- A foreign packet is not expected when it is processed, and nothing comes of it. -/
theorem Beside.foreign (h : Beside peer s t) (hok : Settled role task peer s i)
    (hf : Foreign peer s i) :
    Beside peer (step role task callbacks s i) t := by
  have hdone : ∀ s' r turn, Life.processing task s i = some (s', r, turn) → r.src ≠ peer →
    Beside peer s' t →
      Beside peer (step role task callbacks s i) t := by
    intro s' r turn hp hr hs'
    rw [step_processing hp, process_unexpected fun he => hr (hok s' r turn hp he).1]
    exact hs'
  obtain ⟨⟨address, port, htftp⟩, huser, hcalls, hsent, hqueue, hto, hanswered⟩ := h
  cases i with
  | udpEvent r turn =>
    have hr : r.src ≠ peer := hf
    cases task with
    | true =>
      refine ⟨⟨address, port, htftp⟩, huser, hcalls, hsent, ?_, hto, hanswered⟩
      change _ = (s.rxPackets ++ [r]).filter _
      rw [List.filter_append, ← hqueue, List.filter_singleton, decide_eq_false hr]
      exact (List.append_nil _).symm
    | false =>
      exact hdone _ r turn rfl hr
        ⟨⟨address, port, htftp⟩, huser, hcalls, hsent, hqueue, hto, hanswered⟩
  | task turn =>
    obtain ⟨r, hhead, hr⟩ := hf
    obtain ⟨rest, hq⟩ := List.head?_eq_some_iff.mp hhead
    have hdrop : (r :: rest).filter (fun r => decide (r.src = peer)) = rest.filter fun r =>
      decide (r.src = peer) :=
      List.filter_cons_of_neg (by simpa using hr)
    rw [hq, hdrop] at hqueue
    refine hdone { s with rxPackets := rest } r turn ?_ hr
      ⟨⟨address, port, htftp⟩, huser, hcalls, hsent, hqueue, hto, hanswered⟩
    rw [Life.processing, hq]
  | read | write | timerCallback => exact hf.elim

/-- Every other input does the same in both runs. -/
theorem Beside.own (h : Beside peer s t) (hok : Settled role task peer s i)
    (hf : ¬ Foreign peer s i) :
    Beside peer (step role task callbacks s i) (step role task callbacks t i) := by
  have hturn : ∀ s' r turn, Life.processing task s i = some (s', r, turn) → r.src = peer →
      Beside peer (step role task callbacks s i) (step role task callbacks t i) := by
    intro s' r turn hp hr
    obtain ⟨t', hp', hbeside, hto⟩ := h.processing hp hr
    rw [step_processing hp, step_processing hp']
    exact hbeside.process hr hto fun he => (hok s' r turn hp he).2
  have hbeside := h
  obtain ⟨⟨address, port, htftp⟩, huser, hcalls, hsent, hqueue, hto, hanswered⟩ := h
  cases i with
  | udpEvent r turn =>
    have hr : r.src = peer := not_not.mp hf
    cases task with
    | true =>
      refine ⟨⟨r.src.address, r.src.port, ?_⟩, huser, hcalls, hsent, ?_, fun _ => ?_, hanswered⟩
      · change t.tftp.answering _ _ = _
        rw [htftp]
        rfl
      · change t.rxPackets ++ [r] = (s.rxPackets ++ [r]).filter _
        rw [List.filter_append, ← hqueue, List.filter_singleton, decide_eq_true hr]
        rfl
      · exact ⟨congrArg Peer.address hr, congrArg Peer.port hr⟩
    | false => exact hturn _ r turn rfl hr
  | task turn =>
    cases hq : s.rxPackets with
    | nil =>
      rw [hq] at hqueue
      have hs : step role task callbacks s (.task turn) = s := by rw [step, hq]
      have ht : step role task callbacks t (.task turn) = t := by rw [step, hqueue]; rfl
      rw [hs, ht]
      exact hbeside
    | cons r rest =>
      refine hturn { s with rxPackets := rest } r turn (by rw [Life.processing, hq]) ?_
      exact not_not.mp fun hr => hf ⟨r, by rw [hq]; rfl, hr⟩
  | timerCallback timestamp =>
    refine hbeside.did none _ _ htftp ?_ ?_ rfl (.inl rfl)
    · rw [htftp]
      rfl
    · rw [huser, hcalls]
  | read =>
    cases role with
    | server => exact hbeside
    | client => exact hbeside.asked ..
  | write =>
    cases role with
    | server => exact hbeside
    | client => exact hbeside.asked ..

/-- Foreign packets do not disturb a transfer that waits for none of them, and every answer goes
to the sender of the packet it answers, in every run of a client or a server in which whatever is
expected when it is processed is the peer's, and is the peer's last. -/
theorem transfer_undisturbed (role : Role) (task : Bool) (callbacks : Callbacks υ) (peer : Peer)
    (s : State υ) (is : List Input) (hs : InProgress peer s)
    (hok : Lib.Each (step role task callbacks) (Settled role task peer) s is) :
    Undisturbed peer (is.foldl (step role task callbacks) s)
        ((Lib.keep (step role task callbacks) (Foreign peer) s is).foldl
          (step role task callbacks) s) ∧
      Answered (is.foldl (step role task callbacks) s) := by
  have hstart : Beside peer s s := by
    refine ⟨⟨s.tftp.destAddress, s.tftp.destPort, rfl⟩, rfl, rfl, rfl, ?_, fun hne => ?_, ?_⟩
    · exact (List.filter_eq_self.mpr fun r hr => decide_eq_true (hs.queued r hr).1).symm
    · obtain ⟨r, hr⟩ := List.exists_mem_of_ne_nil _ hne
      exact (hs.queued r hr).2
    · intro m hm
      rw [hs.sent] at hm
      cases hm
  have hskip : ∀ s t i, Beside peer s t → Settled role task peer s i → Foreign peer s i →
      Beside peer (step role task callbacks s i) t := fun s t i h hok hf => h.foreign hok hf
  have hkeep : ∀ s t i, Beside peer s t → Settled role task peer s i → ¬ Foreign peer s i →
      Beside peer (step role task callbacks s i) (step role task callbacks t i) :=
        fun s t i h hok hf => h.own hok hf
  have hend := Lib.foldl_keep hskip hkeep hok hstart
  obtain ⟨address, port, htftp⟩ := hend.tftp
  refine ⟨⟨?_, ?_, ?_, ?_, hend.calls, ?_⟩, hend.answered⟩
  · rw [htftp]
    rfl
  · rw [htftp]
    rfl
  · rw [htftp]
    rfl
  · rw [htftp]
    rfl
  · rw [sentTo, sentTo, hend.sent]

instance (type : ReqType) : ∀ role opcode, Decidable (Awaits type role opcode)
  | .client, .data | .server, .ack => inferInstanceAs (Decidable (type = .read))
  | .client, .ack | .server, .data => inferInstanceAs (Decidable (type = .write))
  | .server, .read | .server, .write => inferInstanceAs (Decidable (type = .idle))
  | .client, .error | .server, .error => inferInstanceAs (Decidable (type ≠ .idle))
  | .client, .idle | .client, .read | .client, .write | .server, .idle =>
      inferInstanceAs (Decidable False)

instance (role : Role) (type : ReqType) (p : Packet) : Decidable (Expected role type p) :=
  decidable_of_iff (dataPacketHeaderSize ≤ p.count ∧
      (ReqType.ofCode p.read16bits.1).any (fun opcode => Awaits type role opcode) = true) (by
    rw [Expected, Option.any_eq_true]
    simp only [decide_eq_true_eq])

instance (x : Instance) (peer : Peer) : Decidable (AnswersTo x peer) :=
  inferInstanceAs (Decidable (_ ∧ _))

instance (role : Role) (task : Bool) (peer : Peer) (s : State υ) (i : Input) :
    Decidable (Settled role task peer s i) :=
  decidable_of_iff ((processing task s i).all (fun z =>
      Expected role z.1.tftp.reqType z.2.1.packet →
        z.2.1.src = peer ∧ (errorOf z.2.1.packet = none → AnswersTo z.1.tftp peer)) = true) (by
    rw [Settled, Option.all_eq_true]
    simp only [decide_eq_true_eq, Prod.forall])

end Runs

def receiving : State User :=
  { initial ⟨[], []⟩ with
    tftp := { idleInstance.answering writer.address writer.port with reqType := .write } }

/-- Another client of the server, and what it sends. -/
def stranger : Peer := ⟨0xC0A80109#32, 1070#16⟩
def fromStranger (message : Message) : Input :=
  .udpEvent ⟨stranger, carrying message.payload⟩ sampleTurn
def fromWriter (message : Message) : Input :=
  .udpEvent ⟨writer, carrying message.payload⟩ sampleTurn

theorem receiving_inProgress : InProgress writer receiving :=
  ⟨by decide, fun _ hr => (nomatch hr), rfl⟩

/-- An acknowledgement and a request of the other client's do not disturb. -/
theorem transfer_undisturbed_write :
    let is := [fromStranger (ackMessage 0#16), fromStranger (requestMessage sampleName.1 .read),
      fromWriter (dataMessage 1#16 [7#8])]
    Undisturbed writer (is.foldl (step .server false userCallbacks) receiving)
      ((Lib.keep (step .server false userCallbacks) (Foreign writer) receiving is).foldl
        (step .server false userCallbacks) receiving) ∧
    Answered (is.foldl (step .server false userCallbacks) receiving) :=
  transfer_undisturbed .server false userCallbacks writer receiving _
    receiving_inProgress (by decide)

/-- A block of the other client's is taken into the file. -/
theorem foreign_block_received :
    ¬ ∀ (υ : Type) (role : Role) (task : Bool) (callbacks : Callbacks υ) (peer : Peer)
    (s : State υ) (is : List Input), InProgress peer s →
    Undisturbed peer (is.foldl (step role task callbacks) s)
        ((Lib.keep (step role task callbacks) (Foreign peer) s is).foldl
          (step role task callbacks) s) ∧
      Answered (is.foldl (step role task callbacks) s) := by
  intro hall
  have hcalls := (hall User .server false userCallbacks writer receiving
    [fromStranger (dataMessage 1#16 [9#8])]
    receiving_inProgress).1.calls
  exact absurd hcalls (by decide)

end NanoIp.Tftp.Life
