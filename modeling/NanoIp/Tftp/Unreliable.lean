import NanoIp.Lib.Pieces
import NanoIp.Tftp.Ends
import NanoIp.Tftp.Transfer

/-!
# Writing a file over an unreliable network

The user of a client writes one file to a server, and begins again as often as it likes. Datagrams
of either side may get lost, and those that do not may arrive late, again and in any order, also
those of earlier transfers. The timers may expire and the layers below may fail at any time.
-/
namespace NanoIp.Tftp.Unreliable

open Packet (be16)
open Lib (piece)
open Life (State Call Sent recorded endings endings_same endings_ends)

variable {υ : Type}

/-- A client whose user writes a file, and a server. -/
structure Pair (υ : Type) where
  client : State User
  server : State υ

inductive Input where
  /-- the user opens the file, if no transfer is going on, and calls `NANO_IP_TFTP_CLIENT_Write` -/
  | write (serverAddress : Ipv4Address) (serverPort : BitVec 16) (filename : List Byte)
      (layers : Layers)
      (now : BitVec 32)
  | client (i : Life.Input)
  | server (i : Life.Input)

def opened (file : List Byte) (s : State User) : State User :=
  if s.tftp.reqType = .idle then { s with user := ⟨file, []⟩ } else s

def step (clientTask serverTask : Bool) (callbacks : Callbacks υ) (file : List Byte) (z : Pair υ) :
    Input → Option (Pair υ)
  | .write serverAddress serverPort filename layers now =>
    some { z with
      client := Life.step .client clientTask userCallbacks (opened file z.client)
        (.write serverAddress serverPort filename layers now) }
  | .client i => some { z with client := Life.step .client clientTask userCallbacks z.client i }
  | .server i => some { z with server := Life.step .server serverTask callbacks z.server i }

/-- A packet that arrives carries a datagram that the other side has sent at some time. -/
def Heard (said : List Sent) : Life.Input → Prop
  | .udpEvent r _ => ∃ m ∈ said, Carries r.packet m.datagram.payload
  | .read .. | .write .. => False
  | .task _ | .timerCallback _ => True

/-- The condition on a step: nothing else is said about the network. -/
def Carried (z : Pair υ) : Input → Prop
  | .write .. => True
  | .client i => Heard z.server.sent i
  | .server i => Heard z.client.sent i

/-- What the user has accepted, after a call, of the file that the last request was about. -/
def keep (kept : List Byte) : Call → List Byte
  | .reqReceived .. => []
  | .dataReceived data answer => if answer = .success then kept ++ data else kept
  | _ => kept

/-- What the user has accepted of the file that the last request was about. -/
def given (calls : List Call) : List Byte := calls.foldl keep []

/-- The user was told that its transfer is complete, after these calls. -/
def Completed (calls before : List Call) : Prop :=
  ∃ type runs, before ++ [.endOfTransfert .success type runs] <+: calls

/-- `TFTP_ERR_SUCCESS` is the only answer with its number. -/
structure Named (callbacks : Callbacks υ) : Prop where
  reqReceived : ∀ user type filename, (callbacks.reqReceived user type filename).1.code =
    TftpErr.success.code →
    (callbacks.reqReceived user type filename).1 = .success
  dataReceived : ∀ user data, (callbacks.dataReceived user data).1.code = TftpErr.success.code →
    (callbacks.dataReceived user data).1 = .success

/-- A side before its first transfer. -/
structure Unused (s : State υ) : Prop where
  idle : s.tftp.reqType = .idle
  rxPackets : s.rxPackets = []
  calls : s.calls = []
  sent : s.sent = []

section Calls

variable {calls before : List Call} {c : Call}

theorem given_append (calls new : List Call) :
    given (calls ++ new) = new.foldl keep (given calls) :=
  List.foldl_append

@[simp] theorem given_concat (calls : List Call) (c : Call) :
    given (calls ++ [c]) = keep (given calls) c :=
  given_append calls [c]

theorem completed_concat (h : Completed (calls ++ [c]) before) :
    Completed calls before ∨ before = calls ∧ ∃ type runs, c =
      .endOfTransfert .success type runs := by
  obtain ⟨type, runs, h⟩ := h
  rcases List.prefix_concat_iff.mp h with heq | hpre
  · obtain ⟨rfl, hc⟩ := List.append_inj' heq rfl
    exact .inr ⟨rfl, type, runs, (List.cons.inj hc).1.symm⟩
  · exact .inl ⟨type, runs, hpre⟩

theorem not_completed_nil : ¬ Completed [] before := by
  rintro ⟨type, runs, h⟩
  simpa using List.prefix_nil.mp h

theorem completed_of_other (hc : ∀ type runs, c ≠ .endOfTransfert .success type runs)
    (h : Completed (calls ++ [c]) before) : Completed calls before := by
  rcases completed_concat h with h | ⟨-, type, runs, he⟩
  · exact h
  · exact absurd he (hc type runs)

end Calls

section Messages

variable {file : List Byte} {calls calls' : List Call} {payload : List Byte}

/-- What a client says that writes the file: its errors are none that a server may send. -/
inductive FromClient (file : List Byte) : List Byte → Prop
  | request (filename : List Byte) : FromClient file (requestMessage filename .write).payload
  | data (k : Nat) (hk : 512 * k ≤ file.length) :
      FromClient file (dataMessage (BitVec.ofNat 16 (k + 1)) (piece 512 file k)).payload
  | error (e : TftpErr) (he : e.code ≠ TftpErr.success.code) :
      FromClient file (errorMessage e).payload

/-- What a server says whose user has had these calls: the number of an acknowledgement is the
number of the pieces that its user had once accepted. -/
inductive FromServer (file : List Byte) (calls : List Call) : List Byte → Prop
  | ack (k : Nat) (hk : k < 2 ^ 16) (h : ∃ g, g <+: calls ∧ given g = file.take (512 * k)) :
      FromServer file calls (ackMessage (BitVec.ofNat 16 k)).payload
  | error (e : TftpErr) (he : e.code ≠ TftpErr.success.code) :
      FromServer file calls (errorMessage e).payload

theorem FromServer.mono (h : FromServer file calls payload) (hle : calls <+: calls') :
    FromServer file calls' payload := by
  cases h with
  | ack k hk h =>
    obtain ⟨g, hg, hgiven⟩ := h
    exact .ack k hk ⟨g, hg.trans hle, hgiven⟩
  | error e he => exact .error e he

theorem ofCode_ne_success {code : BitVec 16} (h : code ≠ TftpErr.success.code) :
    TftpErr.ofCode code ≠ .success := by
  intro he
  rw [TftpErr.ofCode] at he
  rcases hfind : [TftpErr.undefined, .fileNotFound, .accessViolation, .diskFull, .illegalOperation,
    .unknownTransferId,
    .fileExists, .noSuchUser, .timeout, .success].find? (fun error => error.code = code) with _ | e
  · rw [hfind] at he
    cases he
  · rw [hfind, Option.getD_some] at he
    subst he
    have hcode := List.find?_some hfind
    exact h (of_decide_eq_true hcode).symm

theorem sends_payload {layers : Layers} {address : Ipv4Address} {port : BitVec 16}
    {message : Message} {d : Datagram} (hd : d ∈ (layers.sends address port message).2) :
    d.payload = message.payload := by
  unfold Layers.sends at hd
  cases halloc : layers.alloc with
  | error e =>
    rw [halloc] at hd
    cases hd
  | ok u =>
    rw [halloc] at hd
    dsimp only at hd
    split_ifs at hd
    · rw [List.mem_singleton.mp hd]
    · cases hd

end Messages

theorem request_long (filename : List Byte) :
    2 ≤ (filename.take (strnlen filename maxFilenameSize) ++
    0#8 :: (transferMode ++ [0#8])).length := by
  simp only [List.length_append, List.length_cons, transferMode, List.length_nil]
  omega

theorem two_le_be16 (v : BitVec 16) (rest : List Byte) : 2 ≤ (be16 v ++ rest).length := by
  rw [List.length_append]
  exact Nat.le_add_right _ _

section Server

variable {file : List Byte} {callbacks : Callbacks υ} {x y : Instance} {user user' : υ}
  {calls new : List Call} {q : Packet}
  {payload : List Byte} {layers errorLayers : Layers} {now : BitVec 32} {e : TftpErr}

/-- A server that writes has been given the pieces it has counted, and one whose user was told of
the end of a transfer had been given the file. -/
structure ServerKeeps (file : List Byte) (x : Instance) (calls : List Call) : Prop where
  going : x.reqType ≠ .idle → x.reqType = .write ∧ 512 * x.currentBlock.toNat ≤ file.length ∧
    given calls = file.take (512 * x.currentBlock.toNat)
  part : ∃ k, given calls = file.take (512 * k)
  whole : ∀ before, Completed calls before → given before = file

/-- An operation of the server keeps this, and says what a server may say. -/
structure Served (file : List Byte) (x : Instance) (calls : List Call)
    (out : Outcome (υ × List Call)) : Prop where
  keeps : ServerKeeps file out.tftp (out.user.2 ++ endings x out.tftp)
  grows : calls <+: out.user.2 ++ endings x out.tftp
  sent : ∀ d ∈ out.sent, FromServer file (out.user.2 ++ endings x out.tftp) d.payload

theorem Served.goes {sent : List Datagram} (hended : y.ended = x.ended)
    (hkeeps : ServerKeeps file y (calls ++ new))
    (hsent : ∀ d ∈ sent, FromServer file (calls ++ new) d.payload) :
    Served file x calls ⟨y, (user, calls ++ new), sent⟩ := by
  have hcalls : calls ++ new ++ endings x y = calls ++ new := by
    rw [endings_same hended, List.append_nil]
  constructor
  · change ServerKeeps file y (calls ++ new ++ endings x y)
    rwa [hcalls]
  · change calls <+: calls ++ new ++ endings x y
    rw [hcalls]
    exact List.prefix_append _ _
  · change ∀ d ∈ sent, FromServer file (calls ++ new ++ endings x y) d.payload
    rwa [hcalls]

theorem Served.same (h : ServerKeeps file x calls) (hreq : y.reqType = x.reqType)
    (hblock : y.currentBlock = x.currentBlock) (hended : y.ended = x.ended) :
    Served file x calls ⟨y, (user, calls), []⟩ := by
  have hserved : Served file x calls ⟨y, (user, calls ++ []), []⟩ := by
    refine .goes hended ?_ (List.forall_mem_nil _)
    rw [List.append_nil]
    refine ⟨?_, h.part, h.whole⟩
    rw [hreq, hblock]
    exact h.going
  rwa [List.append_nil] at hserved

/-- A transfer ends; if it ends with success, the user has the file. -/
theorem Served.over {sent : List Datagram} (hended : y.ended = x.ended)
    (hpart : ∃ k, given (calls ++ new) = file.take (512 * k))
    (hwhole : ∀ before, Completed (calls ++ new) before → given before = file)
    (he : y.lastError = .success → given (calls ++ new) = file)
    (hsent : ∀ d ∈ sent, FromServer file (calls ++ new) d.payload) :
    Served file x calls ⟨y.ends, (user, calls ++ new), sent⟩ := by
  have hcalls : endings x y.ends = [.endOfTransfert y.lastError .idle false] := endings_ends hended
  constructor
  · change ServerKeeps file y.ends (calls ++ new ++ endings x y.ends)
    rw [hcalls]
    refine ⟨fun h => absurd rfl h, ?_, fun before hb => ?_⟩
    · rw [given_concat]
      exact hpart
    · rcases completed_concat hb with hb | ⟨rfl, type, runs, hc⟩
      · exact hwhole before hb
      · exact he (Call.endOfTransfert.inj hc).1
  · change calls <+: calls ++ new ++ endings x y.ends
    rw [List.append_assoc]
    exact List.prefix_append _ _
  · intro d hd
    exact (hsent d hd).mono (List.prefix_append _ _)

theorem Served.failed (hended : y.ended = x.ended)
    (hpart : ∃ k, given (calls ++ new) = file.take (512 * k))
    (hwhole : ∀ before, Completed (calls ++ new) before → given before = file)
    (he : e.code ≠ TftpErr.success.code) :
    Served file x calls (failTransfer y (user, calls ++ new) e errorLayers) := by
  refine Served.over (y := { y with lastError := e }) hended hpart hwhole
    (fun h => ?_) fun d hd => ?_
  · change e = .success at h
    rw [h] at he
    exact absurd rfl he
  · rw [sends_payload hd]
    exact .error e he

theorem Served.refused (h : ServerKeeps file x calls) (hended : y.ended = x.ended)
    (he : e.code ≠ TftpErr.success.code) :
    Served file x calls (failTransfer y (user, calls) e errorLayers) := by
  have hserved : Served file x calls (failTransfer y (user, calls ++ []) e errorLayers) := by
    refine .failed hended ?_ ?_ he
    · rw [List.append_nil]
      exact h.part
    · rw [List.append_nil]
      exact h.whole
  rwa [List.append_nil] at hserved

/-- A request begins a transfer, is refused or comes while one is going on. -/
theorem request_served (hnamed : Named callbacks) (h : ServerKeeps file x calls) :
    Served file x calls
      (processReadWriteRequest (recorded callbacks) x (user, calls) q .write layers
        errorLayers now) := by
  by_cases hidle : x.reqType = .idle
  · cases hread : readRequest q with
    | incomplete =>
      rw [processReadWriteRequest, if_pos hidle, hread]
      exact .same h rfl rfl rfl
    | illegalMode =>
      rw [processReadWriteRequest, if_pos hidle, hread]
      exact .refused h rfl (by decide)
    | complete filename =>
      have hname := hnamed.reqReceived user .write filename
      rcases hboth : callbacks.reqReceived user .write filename with ⟨e, user'⟩
      rw [hboth] at hname
      let made : Call := .reqReceived .write filename e
      have hrec : (recorded callbacks).reqReceived (user, calls) .write filename =
          (e, user', calls ++ [made]) := by
        rw [Life.recorded_reqReceived, hboth]
      have hwhole : ∀ before, Completed (calls ++ [made]) before → given before = file :=
        fun before hb => h.whole before (completed_of_other (fun _ _ => Call.noConfusion) hb)
      have hgiven : given (calls ++ [made]) = file.take (512 * 0) := by
        rw [given_concat, Nat.mul_zero, List.take_zero]
        rfl
      rw [processReadWriteRequest, if_pos hidle]
      simp only [hread, hrec]
      by_cases he : e = .success
      · rw [if_pos he, if_pos trivial]
        refine .goes rfl ⟨fun _ => ⟨rfl, Nat.zero_le _, hgiven⟩, ⟨0, hgiven⟩, hwhole⟩ fun d hd => ?_
        rw [sends_payload hd]
        exact .ack 0 (by decide) ⟨_, List.prefix_refl _, hgiven⟩
      · rw [if_neg he]
        exact .failed rfl ⟨0, hgiven⟩ hwhole fun hcode => he (hname hcode)
  · rw [processReadWriteRequest, if_neg hidle]
    exact .same h rfl rfl rfl

/-- A piece of the file is taken if it is the next one, and refused otherwise. -/
theorem data_served (hnamed : Named callbacks) (hsize : file.length < 512 * 65535)
    (h : ServerKeeps file x calls) {k : Nat} (hk : 512 * k ≤ file.length)
    (hq : Carries q (be16 (BitVec.ofNat 16 (k + 1)) ++ piece 512 file k)) :
    Served file x calls (processDataPacket (recorded callbacks) x (user, calls) q .write layers errorLayers now) := by
  by_cases hgoing : x.reqType = .write
  · obtain ⟨-, hle, hgiven⟩ := h.going (by rw [hgoing]; decide)
    obtain ⟨hblock, hrest⟩ := hq.read16bits
    rcases hread : q.read16bits with ⟨number, p⟩
    rw [hread] at hblock hrest
    dsimp only at hblock hrest
    by_cases hnext : number = x.currentBlock + 1#16
    · -- a number counts the pieces of the file only once
      have hkx : k = x.currentBlock.toNat := by
        have hnat := congrArg BitVec.toNat (hblock.symm.trans hnext)
        rw [BitVec.toNat_ofNat, BitVec.toNat_add, BitVec.toNat_ofNat] at hnat
        have hx := x.currentBlock.isLt
        omega
      have hname := hnamed.dataReceived user (piece 512 file k)
      rcases hboth : callbacks.dataReceived user (piece 512 file k) with ⟨e, user'⟩
      rw [hboth] at hname
      let made : Call := .dataReceived (piece 512 file k) e
      have hrec : (recorded callbacks).dataReceived (user, calls) (piece 512 file k) =
          (e, user', calls ++ [made]) := by
        rw [Life.recorded_dataReceived, hboth]
      have hwhole : ∀ before, Completed (calls ++ [made]) before → given before = file :=
        fun before hb => h.whole before (completed_of_other (fun _ _ => Call.noConfusion) hb)
      rw [processDataPacket, if_pos hgoing]
      simp only [hread, if_pos hnext, hrest.whole, hrec]
      by_cases he : e = .success
      · have htaken : given (calls ++ [made]) = file.take (512 * (k + 1)) := by
          rw [given_concat, hgiven, ← hkx, ← Lib.take_append_piece]
          exact if_pos he
        have hsent : ∀ d ∈ sendAcknowledge { x with
            currentBlock := x.currentBlock + 1#16, lastRxPacketTimestamp := now } layers,
            FromServer file (calls ++ [made]) d.payload := by
          intro d hd
          rw [sends_payload hd]
          change FromServer file _ (ackMessage (x.currentBlock + 1#16)).payload
          rw [← hnext, hblock]
          exact .ack (k + 1) (by omega) ⟨_, List.prefix_refl _, htaken⟩
        have hshort : p.count < dataPacketPayloadSize ↔ (piece 512 file k).length < 512 := by
          rw [BitVec.lt_def, hrest.count]
          exact Iff.rfl
        rw [if_pos he]
        by_cases hlast : file.length < 512 * (k + 1)
        · rw [if_pos (hshort.mpr ((Lib.piece_short_iff hk).mpr hlast))]
          refine .over rfl ⟨k + 1, htaken⟩ hwhole (fun _ => ?_) hsent
          rw [htaken, Lib.take_of_short hlast]
        · rw [if_neg fun hc => hlast ((Lib.piece_short_iff hk).mp (hshort.mp hc))]
          have hcount : (x.currentBlock + 1#16).toNat = k + 1 := by
            rw [BitVec.toNat_add, ← hkx, BitVec.toNat_ofNat]
            omega
          refine .goes rfl ⟨fun _ => ⟨hgoing, ?_, ?_⟩, ⟨k + 1, htaken⟩, hwhole⟩ hsent
          · change 512 * (x.currentBlock + 1#16).toNat ≤ _
            rw [hcount]
            exact Nat.le_of_not_lt hlast
          · change _ = file.take (512 * (x.currentBlock + 1#16).toNat)
            rw [hcount]
            exact htaken
      · have hkept : given (calls ++ [made]) = given calls :=
          (given_concat calls made).trans (if_neg he)
        rw [if_neg he]
        refine .failed rfl ?_ hwhole fun hcode => he (hname hcode)
        rw [hkept]
        exact h.part
    · rw [processDataPacket, if_pos hgoing]
      simp only [hread, if_neg hnext]
      exact .refused h rfl (by decide)
  · rw [processDataPacket, if_neg hgoing]
    exact .same h rfl rfl rfl

theorem error_served (h : ServerKeeps file x calls) (he : e.code ≠ TftpErr.success.code)
    (hq : Carries q (be16 e.code ++ [0#8])) :
    Served file x calls (processErrorPacket (recorded callbacks) x (user, calls) q) := by
  by_cases hgoing : x.reqType = .idle
  · rw [processErrorPacket, if_neg (not_not_intro hgoing)]
    exact .same h rfl rfl rfl
  · rw [processErrorPacket_error hgoing hq]
    refine .over rfl ?_ (fun before hb =>
      h.whole before (completed_of_other (fun _ _ hc => by cases hc) hb))
      (fun hs => absurd hs (ofCode_ne_success he)) (List.forall_mem_nil _)
    rw [given_concat]
    exact h.part

theorem packet_served (hnamed : Named callbacks) (hsize : file.length < 512 * 65535)
    (h : ServerKeeps file x calls) (hsaid : FromClient file payload) (hq : Carries q payload) :
    Served file x calls (serverProcessPacket (recorded callbacks) x (user, calls) q layers
      errorLayers now) := by
  cases hsaid with
  | request filename =>
    rw [requestMessage_payload] at hq
    rw [serverProcessPacket_type hq (request_long filename) (by decide)]
    exact request_served hnamed h
  | data k hk =>
    rw [dataMessage_payload] at hq
    rw [serverProcessPacket_type hq (two_le_be16 _ _) (by decide)]
    exact data_served hnamed hsize h hk (hq.opcode (two_le_be16 _ _)).2.2
  | error e he =>
    rw [errorMessage_payload] at hq
    rw [serverProcessPacket_type hq (two_le_be16 _ _) (by decide)]
    exact error_served h he (hq.opcode (two_le_be16 _ _)).2.2

end Server

section Client

variable {file : List Byte} {x y : Instance} {user user' : User}
  {calls new served served' : List Call} {q : Packet}
  {payload : List Byte} {layers errorLayers : Layers} {now : BitVec 32} {e : TftpErr}

/-- A client that writes has sent the pieces it has counted, and one whose user was told of success
has seen all of them acknowledged but the last. -/
structure ClientKeeps (file : List Byte) (served : List Call) (x : Instance) (user : User)
    (calls : List Call) :
    Prop where
  going : x.reqType ≠ .idle → x.reqType = .write ∧ 512 * x.currentBlock.toNat ≤ file.length ∧
    user.toSend = file.drop (512 * x.currentBlock.toNat)
  confirmed : ∀ before, Completed calls before →
    ∃ g, g <+: served ∧ given g = file.take (512 * (file.length / 512))

/-- An operation of the client keeps this, and says what a client may say. -/
structure Wrote (file : List Byte) (served : List Call) (x : Instance)
    (out : Outcome (User × List Call)) : Prop where
  keeps : ClientKeeps file served out.tftp out.user.1 (out.user.2 ++ endings x out.tftp)
  sent : ∀ d ∈ out.sent, FromClient file d.payload

theorem ClientKeeps.mono (h : ClientKeeps file served x user calls) (hle : served <+: served') :
    ClientKeeps file served' x user calls := by
  refine ⟨h.going, fun before hb => ?_⟩
  obtain ⟨g, hg, hgiven⟩ := h.confirmed before hb
  exact ⟨g, hg.trans hle, hgiven⟩

theorem ClientKeeps.concat {c : Call} (h : ClientKeeps file served x user calls)
    (hc : ∀ type runs, c ≠ .endOfTransfert .success type runs) :
    ClientKeeps file served x user (calls ++ [c]) :=
  ⟨h.going, fun before hb => h.confirmed before (completed_of_other hc hb)⟩

theorem Wrote.goes {sent : List Datagram} (hended : y.ended = x.ended)
    (hkeeps : ClientKeeps file served y user calls)
    (hsent : ∀ d ∈ sent, FromClient file d.payload) :
    Wrote file served x ⟨y, (user, calls), sent⟩ := by
  refine ⟨?_, hsent⟩
  change ClientKeeps file served y user (calls ++ endings x y)
  rwa [endings_same hended, List.append_nil]

theorem Wrote.over {sent : List Datagram} (hended : y.ended = x.ended)
    (hconfirmed : ∀ before, Completed calls before → ∃ g, g <+: served ∧
      given g = file.take (512 * (file.length / 512)))
    (he : y.lastError = .success → ∃ g, g <+: served ∧
      given g = file.take (512 * (file.length / 512)))
    (hsent : ∀ d ∈ sent, FromClient file d.payload) :
    Wrote file served x ⟨y.ends, (user, calls), sent⟩ := by
  have hcalls : endings x y.ends = [.endOfTransfert y.lastError .idle false] := endings_ends hended
  refine ⟨?_, hsent⟩
  change ClientKeeps file served y.ends user (calls ++ endings x y.ends)
  rw [hcalls]
  refine ⟨fun h => absurd rfl h, fun before hb => ?_⟩
  rcases completed_concat hb with hb | ⟨-, type, runs, hc⟩
  · exact hconfirmed before hb
  · exact he (Call.endOfTransfert.inj hc).1

theorem Wrote.failed (hended : y.ended = x.ended)
    (hconfirmed : ∀ before, Completed calls before →
      ∃ g, g <+: served ∧ given g = file.take (512 * (file.length / 512)))
    (he : e.code ≠ TftpErr.success.code) :
    Wrote file served x (failTransfer y (user, calls) e errorLayers) := by
  refine Wrote.over (y := { y with lastError := e }) hended hconfirmed (fun h => ?_) fun d hd => ?_
  · change e = .success at h
    rw [h] at he
    exact absurd rfl he
  · rw [sends_payload hd]
    exact .error e he

/-- The user gives the next piece of the file, unless no packet can be allocated for it. -/
theorem sendData_piece {k : Nat} (hx : x.currentBlock = BitVec.ofNat 16 (k + 1))
    (hk : 512 * k ≤ file.length) (huser : user.toSend = file.drop (512 * k)) : ∃ user' new, ∀ data,
      data = sendData (recorded userCallbacks) x (user, calls) layers →
        data.user = (user', calls ++ new) ∧
          (∀ before, Completed (calls ++ new) before → Completed calls before) ∧
          (data.ret = true → data.dataSize = BitVec.ofNat 16 (piece 512 file k).length ∧
            user'.toSend = file.drop (512 * (k + 1)) ∧ ∀ d ∈ data.sent,
              FromClient file d.payload) := by
  cases halloc : layers.alloc with
  | error err =>
    refine ⟨user, [], fun data hdata => ?_⟩
    rw [sendData, halloc] at hdata
    rw [hdata, List.append_nil]
    exact ⟨rfl, fun before hb => hb, fun hret => absurd hret Bool.false_ne_true⟩
  | ok u =>
    have hpiece : user.toSend.take 512 = piece 512 file k := by rw [huser]; rfl
    refine ⟨{ user with toSend := user.toSend.drop 512 }, [.dataToSend (piece 512 file k) .success],
      fun data hdata => ?_⟩
    have hrec : (recorded userCallbacks).dataToSend (user, calls) = (.success, piece 512 file k,
        { user with toSend := user.toSend.drop 512 },
          calls ++ [.dataToSend (piece 512 file k) .success]) := by
      rw [Life.recorded_dataToSend, ← hpiece]
      rfl
    rw [sendData, halloc] at hdata
    simp only [hrec, if_true] at hdata
    rw [hdata]
    refine ⟨rfl, fun before hb => completed_of_other (fun _ _ => Call.noConfusion) hb, fun _ =>
      ⟨rfl, ?_, ?_⟩⟩
    · change user.toSend.drop 512 = _
      rw [huser, Lib.drop_drop_piece]
    · intro d hd
      rw [sends_payload hd, hx]
      exact .data k hk

/-- The acknowledgement of the last piece sent is answered with the next one. -/
theorem ack_wrote (hsize : file.length < 512 * 65535) (h : ClientKeeps file served x user calls)
    {k : Nat} (hk : k < 2 ^ 16) (hserved : ∃ g, g <+: served ∧ given g = file.take (512 * k))
    (hq : Carries q (be16 (BitVec.ofNat 16 k))) :
    Wrote file served x (processAckPacket (recorded userCallbacks) x (user, calls) q .write layers
      errorLayers now) := by
  by_cases hgoing : x.reqType = .write
  · obtain ⟨-, hle, huser⟩ := h.going (by rw [hgoing]; decide)
    have hblock : q.read16bits.1 = BitVec.ofNat 16 k := Packet.Holds.wordAt hq.bytes
    by_cases hnext : q.read16bits.1 = x.currentBlock
    · have hkx : k = x.currentBlock.toNat := by
        rw [← hnext, hblock, BitVec.toNat_ofNat, Nat.mod_eq_of_lt hk]
      have hcount : x.currentBlock + 1#16 = BitVec.ofNat 16 (k + 1) := by
        rw [← hnext, hblock, ofNat_succ]
      rw [← hkx] at hle huser
      rw [processAckPacket, if_pos hgoing]
      dsimp only
      rw [if_pos hnext]
      obtain ⟨user', new, hsend⟩ := @sendData_piece file
        { x with lastRxPacketTimestamp := now, currentBlock := x.currentBlock + 1#16 } user calls
          layers k hcount hle huser
      obtain ⟨hout, hold, hpiece⟩ := hsend _ rfl
      revert hout hpiece
      generalize sendData (recorded userCallbacks) _ (user, calls) layers = data
      intro hout hpiece
      have hconfirmed : ∀ before, Completed (calls ++ new) before → _ := fun before hb =>
        h.confirmed before (hold before hb)
      rw [hout]
      by_cases hret : data.ret = true
      · obtain ⟨hdata, hrest, hsent⟩ := hpiece hret
        rw [if_pos hret, hdata]
        have hshort := (dataSize_lt (@Lib.piece_length_le _ 512 k file)).trans
          (Lib.piece_short_iff hle)
        by_cases hlast : file.length < 512 * (k + 1)
        · rw [if_pos (hshort.mpr hlast)]
          refine .over rfl hconfirmed (fun _ => ?_) hsent
          rwa [← Lib.eq_div_of_short hle hlast]
        · rw [if_neg fun hc => hlast (hshort.mp hc)]
          have hnat : (x.currentBlock + 1#16).toNat = k + 1 := by
            rw [hcount, BitVec.toNat_ofNat]
            omega
          refine .goes rfl ⟨fun _ => ⟨hgoing, ?_, ?_⟩, hconfirmed⟩ hsent
          · change 512 * (x.currentBlock + 1#16).toNat ≤ _
            rw [hnat]
            exact Nat.le_of_not_lt hlast
          · change _ = file.drop (512 * (x.currentBlock + 1#16).toNat)
            rw [hnat]
            exact hrest
      · rw [if_neg hret]
        exact .failed rfl hconfirmed (by decide)
    · rw [processAckPacket, if_pos hgoing]
      dsimp only
      rw [if_neg hnext]
      exact .failed rfl h.confirmed (by decide)
  · rw [processAckPacket, if_neg hgoing]
    exact .goes rfl h (List.forall_mem_nil _)

theorem error_wrote (h : ClientKeeps file served x user calls) (he : e.code ≠ TftpErr.success.code)
    (hq : Carries q (be16 e.code ++ [0#8])) :
    Wrote file served x (processErrorPacket (recorded userCallbacks) x (user, calls) q) := by
  by_cases hgoing : x.reqType = .idle
  · rw [processErrorPacket, if_neg (not_not_intro hgoing)]
    exact .goes rfl h (List.forall_mem_nil _)
  · rw [processErrorPacket_error hgoing hq]
    exact .over rfl (fun before hb =>
      h.confirmed before (completed_of_other (fun _ _ => Call.noConfusion) hb))
      (fun hs => absurd hs (ofCode_ne_success he)) (List.forall_mem_nil _)

theorem packet_wrote (hsize : file.length < 512 * 65535) (h : ClientKeeps file served x user calls)
    (hsaid : FromServer file served payload) (hq : Carries q payload) :
    Wrote file served x (clientProcessPacket (recorded userCallbacks) x (user, calls) q layers
      errorLayers now) := by
  cases hsaid with
  | ack k hk hserved =>
    rw [ackMessage_payload] at hq
    have hlen : 2 ≤ (be16 (BitVec.ofNat 16 k)).length := Nat.le_refl _
    rw [clientProcessPacket_type hq hlen (by decide)]
    exact ack_wrote hsize h hk hserved (hq.opcode hlen).2.2
  | error e he =>
    rw [errorMessage_payload] at hq
    rw [clientProcessPacket_type hq (two_le_be16 _ _) (by decide)]
    exact error_wrote h he (hq.opcode (two_le_be16 _ _)).2.2

theorem request_wrote (hidle : x.reqType = .idle) (h : ClientKeeps file served x user calls)
    (huser : user.toSend = file) (serverAddress : Ipv4Address) (serverPort : BitVec 16)
    (filename : List Byte) :
    Wrote file served x
      (sendReadWriteRequest x (user, calls) serverAddress serverPort filename .write layers
        now).1 := by
  unfold sendReadWriteRequest
  cases layers.alloc with
  | error err => exact .goes rfl h (List.forall_mem_nil _)
  | ok u =>
    dsimp only
    by_cases hret : (layers.sends serverAddress serverPort (requestMessage filename .write)).1 =
      true
    · rw [if_pos hret]
      refine .goes rfl ⟨fun _ => ⟨rfl, Nat.zero_le _, huser⟩, h.confirmed⟩ fun d hd => ?_
      rw [sends_payload hd]
      exact .request filename
    · rw [if_neg hret]
      exact .goes rfl ⟨fun hne => absurd hidle hne, h.confirmed⟩ (List.forall_mem_nil _)

end Client

section Runs

variable {clientTask serverTask : Bool} {callbacks : Callbacks υ} {file : List Byte}
  {served served' : List Call}
  {s : State υ} {c : State User} {z z' z₀ : Pair υ} {i : Input} {j : Life.Input}

/-- A server with what it has said and the packets its task has not taken yet. -/
structure ServerSound (file : List Byte) (s : State υ) : Prop where
  keeps : ServerKeeps file s.tftp s.calls
  sent : ∀ m ∈ s.sent, FromServer file s.calls m.datagram.payload
  queued : ∀ r ∈ s.rxPackets, ∃ payload, FromClient file payload ∧ Carries r.packet payload

/-- A client with what it has said and the packets its task has not taken yet. -/
structure ClientSound (file : List Byte) (served : List Call) (s : State User) : Prop where
  keeps : ClientKeeps file served s.tftp s.user s.calls
  sent : ∀ m ∈ s.sent, FromClient file m.datagram.payload
  queued : ∀ r ∈ s.rxPackets, ∃ payload, FromServer file served payload ∧ Carries r.packet payload

theorem ClientSound.mono (h : ClientSound file served c) (hle : served <+: served') :
    ClientSound file served' c := by
  refine ⟨h.keeps.mono hle, h.sent, fun r hr => ?_⟩
  obtain ⟨payload, hsaid, hq⟩ := h.queued r hr
  exact ⟨payload, hsaid.mono hle, hq⟩

theorem ServerSound.did (h : ServerSound file s) {out : Outcome (υ × List Call)}
    (hout : Served file s.tftp s.calls out) (answers : Option Life.Peer) :
    ServerSound file (s.did answers out) ∧ s.calls <+: (s.did answers out).calls := by
  refine ⟨⟨hout.keeps, fun m hm => ?_, h.queued⟩, hout.grows⟩
  rcases List.mem_append.mp hm with hm | hm
  · exact (h.sent m hm).mono hout.grows
  · obtain ⟨d, hd, rfl⟩ := List.mem_map.mp hm
    exact hout.sent d hd

theorem ClientSound.did (h : ClientSound file served c) {out : Outcome (User × List Call)}
    (hout : Wrote file served c.tftp out) (answers : Option Life.Peer) :
    ClientSound file served (c.did answers out) := by
  refine ⟨hout.keeps, fun m hm => ?_, h.queued⟩
  rcases List.mem_append.mp hm with hm | hm
  · exact h.sent m hm
  · obtain ⟨d, hd, rfl⟩ := List.mem_map.mp hm
    exact hout.sent d hd

theorem timer_served (h : ServerKeeps file s.tftp s.calls) (timestamp : BitVec 32) :
    Served file s.tftp s.calls
      ⟨{ s.tftp with toModule := timerCallback s.tftp.toModule timestamp },
        (s.user, s.calls), []⟩ := by
  unfold timerCallback
  split_ifs
  · have hserved : Served file s.tftp s.calls
        ⟨Instance.ends { s.tftp with lastError := .timeout }, (s.user, s.calls ++ []), []⟩ := by
      refine .over rfl ?_ ?_ (fun he => by cases he) (List.forall_mem_nil _)
      · rw [List.append_nil]
        exact h.part
      · rw [List.append_nil]
        exact h.whole
    rwa [List.append_nil] at hserved
  · exact .same h rfl rfl rfl
  · exact .same h rfl rfl rfl

theorem timer_wrote (h : ClientKeeps file served c.tftp c.user c.calls) (timestamp : BitVec 32) :
    Wrote file served c.tftp
      ⟨{ c.tftp with toModule := timerCallback c.tftp.toModule timestamp },
        (c.user, c.calls), []⟩ := by
  unfold timerCallback
  split_ifs
  · exact .over (y := { c.tftp with lastError := .timeout }) rfl h.confirmed (fun he => by cases he)
      (List.forall_mem_nil _)
  · exact .goes rfl h (List.forall_mem_nil _)
  · exact .goes rfl h (List.forall_mem_nil _)

/-- A step of the server. -/
theorem server_step (hnamed : Named callbacks) (hsize : file.length < 512 * 65535) (h : ServerSound file s)
    {said : List Sent} (hsaid : ∀ m ∈ said, FromClient file m.datagram.payload) (hok : Heard said j) :
    ServerSound file (Life.step .server serverTask callbacks s j) ∧
      s.calls <+: (Life.step .server serverTask callbacks s j).calls := by
  cases j with
  | read | write => exact ⟨h, List.prefix_refl _⟩
  | udpEvent r t =>
    obtain ⟨m, hm, hq⟩ := hok
    -- where the answers go to is no part of what is kept
    have hanswering : ServerSound file { s with tftp := s.tftp.answering r.src.address r.src.port } :=
      ⟨⟨h.keeps.going, h.keeps.part, h.keeps.whole⟩, h.sent, h.queued⟩
    cases serverTask with
    | true =>
      refine ⟨⟨hanswering.keeps, h.sent, fun r' hr' => ?_⟩, List.prefix_refl _⟩
      rcases List.mem_append.mp hr' with hr' | hr'
      · exact h.queued r' hr'
      · rw [List.mem_singleton.mp hr']
        exact ⟨_, hsaid m hm, hq⟩
    | false =>
      exact hanswering.did
        (packet_served hnamed hsize hanswering.keeps (hsaid m hm) hq) (some r.src)
  | task t =>
    cases hqueue : s.rxPackets with
    | nil =>
      rw [Life.step, hqueue]
      exact ⟨h, List.prefix_refl _⟩
    | cons r rest =>
      obtain ⟨payload, hpayload, hq⟩ := h.queued r (by rw [hqueue]; exact List.mem_cons_self)
      have hrest : ServerSound file { s with rxPackets := rest } :=
        ⟨h.keeps, h.sent, fun r' hr' =>
          h.queued r' (by rw [hqueue]; exact List.mem_cons_of_mem _ hr')⟩
      rw [Life.step, hqueue]
      exact hrest.did (packet_served hnamed hsize h.keeps hpayload hq) (some r.src)
  | timerCallback timestamp => exact h.did (timer_served h.keeps timestamp) none

/-- A step of the client that its user does not ask for. -/
theorem client_step (hsize : file.length < 512 * 65535) (h : ClientSound file served c)
    {said : List Sent} (hsaid : ∀ m ∈ said, FromServer file served m.datagram.payload) (hok : Heard said j) :
    ClientSound file served (Life.step .client clientTask userCallbacks c j) := by
  cases j with
  | read | write => exact hok.elim
  | udpEvent r t =>
    obtain ⟨m, hm, hq⟩ := hok
    have hanswering : ClientSound file served { c with tftp := c.tftp.answering r.src.address r.src.port } :=
      ⟨⟨h.keeps.going, h.keeps.confirmed⟩, h.sent, h.queued⟩
    cases clientTask with
    | true =>
      refine ⟨hanswering.keeps, h.sent, fun r' hr' => ?_⟩
      rcases List.mem_append.mp hr' with hr' | hr'
      · exact h.queued r' hr'
      · rw [List.mem_singleton.mp hr']
        exact ⟨_, hsaid m hm, hq⟩
    | false =>
      exact hanswering.did
        (packet_wrote hsize hanswering.keeps (hsaid m hm) hq) (some r.src)
  | task t =>
    cases hqueue : c.rxPackets with
    | nil =>
      rw [Life.step, hqueue]
      exact h
    | cons r rest =>
      obtain ⟨payload, hpayload, hq⟩ := h.queued r (by rw [hqueue]; exact List.mem_cons_self)
      have hrest : ClientSound file served { c with rxPackets := rest } :=
        ⟨h.keeps, h.sent, fun r' hr' =>
          h.queued r' (by rw [hqueue]; exact List.mem_cons_of_mem _ hr')⟩
      rw [Life.step, hqueue]
      exact hrest.did (packet_wrote hsize h.keeps hpayload hq) (some r.src)
  | timerCallback timestamp => exact h.did (timer_wrote h.keeps timestamp) none

/-- The user opens the file and asks the client to write it. -/
theorem write_step (clientTask : Bool) (h : ClientSound file served c) (serverAddress : Ipv4Address)
    (serverPort : BitVec 16) (filename : List Byte) (layers : Layers) (now : BitVec 32) :
    ClientSound file served (Life.step .client clientTask userCallbacks (opened file c)
      (.write serverAddress serverPort filename layers now)) := by
  have hasked : ∀ {c : State User} {out : Outcome (User × List Call)} (answer : Err),
    ClientSound file served c →
      Wrote file served c.tftp out → ClientSound file served (c.asked .write (out, answer)) := by
    intro c out answer hc hout
    have hdid := hc.did hout none
    exact ⟨hdid.keeps.concat fun _ _ => Call.noConfusion, hdid.sent, hdid.queued⟩
  by_cases hidle : c.tftp.reqType = .idle
  · have hopened : ClientSound file served { c with user := ⟨file, []⟩ } :=
      ⟨⟨fun hne => absurd hidle hne, h.keeps.confirmed⟩, h.sent, h.queued⟩
    rw [opened, if_pos hidle, Life.step]
    change ClientSound file served (State.asked _ .write (Life.clientRequest .write _ _ _ _ _ _ _))
    rw [Life.clientRequest, if_pos hidle]
    exact hasked _ hopened (request_wrote hidle hopened.keeps rfl serverAddress serverPort filename)
  · rw [opened, if_neg hidle, Life.step]
    change ClientSound file served (State.asked _ .write (Life.clientRequest .write _ _ _ _ _ _ _))
    rw [Life.clientRequest, if_neg hidle]
    exact hasked _ h (.goes rfl h.keeps (List.forall_mem_nil _))

/-- Both sides, in view of each other. -/
structure Sound (file : List Byte) (z : Pair υ) : Prop where
  client : ClientSound file z.server.calls z.client
  server : ServerSound file z.server

theorem Sound.step (hnamed : Named callbacks) (hsize : file.length < 512 * 65535) (h : Sound file z)
    (hok : Carried z i) (hs : Unreliable.step clientTask serverTask callbacks file z i = some z') :
    Sound file z' := by
  cases i with
  | write serverAddress serverPort filename layers now =>
    obtain rfl := Option.some.inj hs
    exact ⟨write_step clientTask h.client serverAddress serverPort filename layers now, h.server⟩
  | client j =>
    obtain rfl := Option.some.inj hs
    exact ⟨client_step hsize h.client h.server.sent hok, h.server⟩
  | server j =>
    obtain rfl := Option.some.inj hs
    obtain ⟨hserver, hgrows⟩ := server_step hnamed hsize h.server h.client.sent hok
    exact ⟨h.client.mono hgrows, hserver⟩

theorem Sound.start (hclient : Unused z.client) (hserver : Unused z.server) : Sound file z where
  client :=
    { keeps := ⟨fun hne => absurd hclient.idle hne, fun before hb => by
        rw [hclient.calls] at hb
        exact absurd hb not_completed_nil⟩
      sent := by
        rw [hclient.sent]
        exact List.forall_mem_nil _
      queued := by
        rw [hclient.rxPackets]
        exact List.forall_mem_nil _ }
  server :=
    { keeps := ⟨fun hne => absurd hserver.idle hne, ⟨0, by rw [hserver.calls]; rfl⟩,
      fun before hb => by
        rw [hserver.calls] at hb
        exact absurd hb not_completed_nil⟩
      sent := by
        rw [hserver.sent]
        exact List.forall_mem_nil _
      queued := by
        rw [hserver.rxPackets]
        exact List.forall_mem_nil _ }

/-- What the users of both sides may believe of a file that is written. -/
structure Trusted (file : List Byte) (z : Pair υ) : Prop where
  /-- what the server's user has accepted since the last request is the file up to some piece -/
  part : ∃ k, given z.server.calls = file.take (512 * k)
  /-- a transfer that ends with success for the server's user has given it the file -/
  whole : ∀ before, Completed z.server.calls before → given before = file
  /-- if one ends with success for the client's user, the server's user has once had all of the
  file but the last piece, which may be lost -/
  confirmed : ∀ before, Completed z.client.calls before →
    ∃ g, g <+: z.server.calls ∧ given g = file.take (512 * (file.length / 512))

/-- In every run the two users may believe this, as long as the numbers of the pieces of the file
do not repeat. -/
theorem writes_trusted (hnamed : Named callbacks) (hsize : file.length < 512 * 65535)
    (hclient : Unused z₀.client) (hserver : Unused z₀.server)
    (hr : Lib.Reach (Unreliable.step clientTask serverTask callbacks file) Carried z₀ z) :
    Trusted file z := by
  have hsound : Sound file z := hr.invariant (.start hclient hserver) fun z i z' hz hok hs =>
    hz.step hnamed hsize hok hs
  exact ⟨hsound.server.keeps.part, hsound.server.keeps.whole, hsound.client.keeps.confirmed⟩

instance (said : List Sent) : ∀ j, Decidable (Heard said j)
  | .udpEvent r _ => inferInstanceAs (Decidable (∃ m ∈ said, Carries r.packet m.datagram.payload))
  | .read .. | .write .. => inferInstanceAs (Decidable False)
  | .task _ | .timerCallback _ => inferInstanceAs (Decidable True)

instance (z : Pair υ) : ∀ i, Decidable (Carried z i)
  | .write .. => inferInstanceAs (Decidable True)
  | .client j => inferInstanceAs (Decidable (Heard z.server.sent j))
  | .server j => inferInstanceAs (Decidable (Heard z.client.sent j))

end Runs

theorem userCallbacks_named : Named userCallbacks := ⟨fun _ _ _ _ => rfl, fun _ _ _ => rfl⟩

def samplePair : Pair User := ⟨Life.initial ⟨[], []⟩, Life.initial ⟨[], []⟩⟩

theorem initial_unused (user : υ) : Unused (Life.initial user) := ⟨rfl, rfl, rfl, rfl⟩

/-- The request comes a second time when the file is written. -/
def sampleRun : List Input :=
  let fromClient (message : Message) : Input :=
    .server (.udpEvent ⟨Life.writer, carrying message.payload⟩ Life.sampleTurn)
  [.write 0xC0A80102#32 69#16 sampleName.1 working 0#32,
    fromClient (requestMessage sampleName.1 .write),
    .client (.udpEvent ⟨⟨0xC0A80102#32, 69#16⟩, carrying (ackMessage 0#16).payload⟩
      Life.sampleTurn),
    fromClient (dataMessage 1#16 [1#8, 2#8, 3#8]),
    fromClient (requestMessage sampleName.1 .write)]

theorem writes_trusted_repeated : ∃ z,
    Lib.Reach (step false false userCallbacks [1#8, 2#8, 3#8]) Carried samplePair z ∧
      (z.server.tftp.ended = [.success] ∧ z.server.tftp.reqType = .write) ∧
        Trusted [1#8, 2#8, 3#8] z := by
  obtain ⟨z, hr, hz⟩ := Lib.exists_of_runInputs (step false false userCallbacks [1#8, 2#8, 3#8])
    Carried samplePair sampleRun
    (fun z => decide (z.server.tftp.ended = [.success] ∧ z.server.tftp.reqType = .write))
      (by decide +kernel)
  exact ⟨z, hr, of_decide_eq_true hz, writes_trusted userCallbacks_named (by decide)
    (initial_unused _)
    (initial_unused _) hr⟩

end NanoIp.Tftp.Unreliable
