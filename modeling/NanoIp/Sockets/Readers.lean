import NanoIp.Sockets.Alert
import NanoIp.Sockets.Polling
import NanoIp.Sockets.Stream

/-!
# A task that waits for data

One task waits in `NANO_IP_SOCKET_ReceiveFrom` while other tasks use the sockets and UDP and TCP
report on them. As long as no other call takes the events of its socket, and no new socket takes
the place of a released one, the task does not sleep over anything: when a packet is queued, the
connection closed or the socket released, its wait can end, and the call returns.
-/
namespace NanoIp.Sockets

variable {n k : Nat} {T : Type}

/-- What `NANO_IP_SOCKET_ReceiveFrom` waits for. -/
def readMask : BitVec 32 := eventRx ||| eventError

/-- The inputs that take the events of socket `i`, or its slot: flags that are reset, the end of a
wait of `NANO_IP_SOCKET_Accept` or a turn of `NANO_IP_SOCKET_Poll` on it, and an allocation once
it is released. -/
def TakesEvents (x : System n k T) (i : Fin n) : Input n T → Prop
  | .takeFlags j mask => j = i ∧ mask &&& readMask ≠ 0#32
  | .acceptWake t _ => x.tasks t = .accepting i
  | .poll _ _ ds => ∃ d ∈ ds, x.module.get d.socketId = some i
  | .pollWake t _ _ => x.pollsOf t i = true
  | .allocate _ _ | .accepting _ _ _ _ => (x.module.sockets i).isFree = true
  | _ => False

instance (x : System n k T) (i : Fin n) (input : Input n T) :
    Decidable (TakesEvents x i input) := by
  rcases input with ⟨⟩ <;> unfold TakesEvents <;> infer_instance

section Steps

variable [DecidableEq T] {x y : System n k T} {input : Input n T} {i : Fin n}

/-- Flags that nobody waits for are reset. -/
theorem Alert.reset {s : Socket n k} (h : Alert s) {mask : BitVec 32}
    (hmask : mask &&& readMask = 0#32) :
    Alert { s with syncFlags := s.syncFlags &&& ~~~ mask } := by
  have hkept {bit : BitVec 32} (hbit : readMask &&& bit = bit) :
      (s.syncFlags &&& ~~~ mask) &&& bit = s.syncFlags &&& bit := by
    have hno : mask &&& bit = 0#32 := by
      rw [← hbit, ← BitVec.and_assoc, hmask, BitVec.zero_and]
    have hnot : ~~~ mask &&& bit = bit := by
      have hsplit : bit = (mask &&& bit) ||| (~~~ mask &&& bit) := by
        rw [← BitVec.and_or_distrib_right, BitVec.or_not_self, BitVec.allOnes_and]
      rw [hno, BitVec.zero_or] at hsplit
      exact hsplit.symm
    rw [BitVec.and_assoc, hnot]
  refine ⟨⟨fun hq => ?_, fun hf => ?_, h.opened⟩, fun ht hc => ?_⟩
  · rw [hkept (by decide)]
    exact h.data hq
  · rw [hkept (by decide)]
    exact h.released hf
  · rw [hkept (by decide)]
    exact h.closed ht hc

/-- A step that does not take the events of a socket leaves its flags telling. -/
theorem step_keeps (ht : ¬ TakesEvents x i input) (hs : step x input = some y) :
    Keeps i x.module y.module := by
  have hput (x' : System n k T) (m : Module n k) : Keeps i m (x'.put m).module :=
    Keeps.of_sockets rfl
  cases step_move hs with
  | allocate type ret => exact (allocate_keeps (Bool.eq_false_iff.mpr ht) type ret).trans (hput x _)
  | bindUdp socketId ret j hj htype =>
    exact (Keeps.same (bindUdp_same (fun _ _ => rfl) x.module socketId ret)).trans (hput x _)
  | setNonBlocking socketId nonBlocking =>
    exact (Keeps.same (setNonBlocking_same (fun _ _ => rfl) x.module socketId nonBlocking)).trans
      (hput x _)
  | release socketId fin j hj =>
    exact ((cancelRequest_keeps x.requests j).trans (releaseSocket_keeps j)).trans
      (Keeps.of_sockets (x.release_sockets j fin))
  | listen socketId max => exact (listen_keeps socketId max).trans (hput x _)
  | connect socketId endPoint ret => exact (connect_keeps socketId endPoint ret).trans (hput x _)
  | receiveFrom socketId size => exact (receiveFrom_keeps socketId size).trans (hput x _)
  | receiveWake j size ret active => exact (receiveWake_keeps j size ret active).trans (hput x _)
  | takeFlags j mask =>
    refine Keeps.trans ?_ (hput x _)
    by_cases hij : i = j
    · subst hij
      have hmask : mask &&& readMask = 0#32 := by
        by_contra hne
        exact ht ⟨rfl, hne⟩
      exact Keeps.modify fun ha => ha.reset hmask
    · exact resetFlags_keeps hij mask
  | accept t socketId j hidle hj =>
    exact (accept_keeps socketId).trans (Keeps.of_sockets (x.setAccept_sockets t j _))
  | acceptWake t ret j m hj hm =>
    have hij : i ≠ j := by
      rintro rfl
      exact ht hj
    exact ((wakeOn_keeps hij hm).trans (acceptTurn_keeps hij)).trans
      (Keeps.of_sockets (x.setAccept_sockets t j _))
  | poll t handleIsReady ds hidle =>
    exact (poll_keeps handleIsReady fun d hd hget => ht ⟨d, hd, hget⟩).trans
      (Keeps.of_sockets (x.setPoll_sockets t _))
  | pollWake t handleIsReady ret q ds m hpolling hm =>
    have hsockets := wakePoll_sockets hm
    have hds : ∀ d ∈ ds, m.get d.socketId ≠ some i := by
      intro d hd hget
      refine ht ?_
      simp only [TakesEvents, System.pollsOf, hpolling]
      exact List.any_eq_true.mpr ⟨d, hd, decide_eq_true (Module.get_congr hget (by rw [hsockets]))⟩
    exact ((Keeps.of_sockets hsockets).trans (pollWake_keeps q handleIsReady hds ret)).trans
      (Keeps.of_sockets (x.setPoll_sockets t _))
  | request j hj => exact Keeps.refl i _
  | arpResponse j sent hr => exact (requestCallback_keeps j sent).trans (hput x _)
  | datagram j p z hl hz =>
    exact (udpCallback_keeps j .rx (some p)).trans (hput z _)
  | accepting j peer ret answered htype hstate =>
    exact (acceptConnection_keeps (Bool.eq_false_iff.mpr ht) j peer ret answered).trans (hput x _)
  | data j p z htype hstate hz =>
    have hc : (Change.data p).applies (x.module.sockets j).tcp.state = true := decide_eq_true hstate
    exact (changeConnection_keeps htype hc).trans (hput z _)
  | change j c htype hc hd => exact (changeConnection_keeps htype hc).trans (hput x _)

end Steps

section Loop

/-- The copy loop has turns enough: a turn that goes on has emptied a packet or read some of it. -/
theorem copyLoop_ends {size : Nat} : ∀ (fuel : Nat) (c : Copied), (size = 0 → c.received = 0) →
    (contents c.queue).length + c.queue.length < fuel → ∃ c', copyLoop size fuel c = some c' := by
  intro fuel
  induction fuel with
  | zero => exact fun c _ hf => absurd hf (Nat.not_lt_zero _)
  | succ fuel ih =>
    intro c hzero hf
    unfold copyLoop
    cases hq : c.queue with
    | nil => exact ⟨c, rfl⟩
    | cons p q =>
      rw [hq] at hf
      simp only [contents, List.flatMap_cons, List.length_append, List.length_cons,
        content_length] at hf
      dsimp only
      split_ifs with hgo
      · by_cases hfits : p.packet.count.toNat ≤ size
        · rw [copyPacket_whole c q hfits] at hgo ⊢
          refine ih _ (fun hs => ?_) ?_
          · have hlen := content_length p
            have hnone := hzero hs
            dsimp only
            omega
          · simp only [contents]
            omega
        · obtain ⟨rest, -, hrest, -, hpart⟩ := copyPacket_part c q (Nat.lt_of_not_le hfits)
          rw [hpart] at hgo ⊢
          have hpos : size ≠ 0 := by
            intro hs
            exact hgo.1 (by rw [hzero hs, hs])
          refine ih _ (fun hs => absurd hs hpos) ?_
          simp only [contents, List.flatMap_cons, List.length_append, List.length_cons, hrest,
            List.length_drop,
            content_length]
          omega
      · exact ⟨_, rfl⟩

theorem copyAll_ends (size : Nat) (q : List RxPacket) : ∃ c, copyAll size q = some c :=
  copyLoop_ends (copyFuel q) _ (fun _ => rfl) (Nat.lt_succ_self _)

theorem receivePass_returns {m : Module n k} {i : Fin n} (hq : (m.sockets i).rxPackets ≠ [])
    (size : Nat) :
    ∃ r, (receivePass m i size).2 = .returns r := by
  unfold receivePass
  cases hpackets : (m.sockets i).rxPackets with
  | nil => exact absurd hpackets hq
  | cons p q =>
    cases (m.sockets i).type with
    | udp =>
      dsimp only
      split_ifs
      · exact ⟨_, rfl⟩
      · exact ⟨_, rfl⟩
    | tcp =>
      obtain ⟨c, hc⟩ := copyAll_ends size (p :: q)
      simp only [hc]
      exact ⟨_, rfl⟩

theorem receivePass_waits {m : Module n k} {i : Fin n} {size : Nat}
    (h : (receivePass m i size).2 = .waits) :
    (m.sockets i).rxPackets = [] ∧ (receivePass m i size).1 = m := by
  have hq : (m.sockets i).rxPackets = [] := by
    by_contra hne
    obtain ⟨r, hr⟩ := receivePass_returns hne size
    rw [hr] at h
    cases h
  refine ⟨hq, ?_⟩
  unfold receivePass
  rw [hq]

end Loop

/-- The system with one task more, which reads from one socket. `waiting` is the size of its call
while it waits. -/
structure OneReader (n k : Nat) (T : Type) where
  system : System n k T
  waiting : Option Nat

/-- A call of this task, the end of its wait, and everything else. -/
inductive ReaderInput (n : Nat) (T : Type) where
  | call (socketId : BitVec 32) (size : Nat)
  | wake (ret : Err)
  | other (input : Input n T)

/-- The task goes on as a section of `NANO_IP_SOCKET_ReceiveFrom` says. -/
def OneReader.set (z : OneReader n k T) (size : Nat) : Module n k × Pass RxResult → OneReader n k T
  | (m, .returns _) => ⟨z.system.put m, none⟩
  | (m, .waits) => ⟨z.system.put m, some size⟩

theorem OneReader.set_sockets (z : OneReader n k T) (size : Nat) (r : Module n k × Pass RxResult) :
    (z.set size r).system.module.sockets = r.1.sockets := by
  obtain ⟨m, pass⟩ := r
  cases pass <;> rfl

theorem OneReader.set_waiting {z : OneReader n k T} {size : Nat} {r : Module n k × Pass RxResult}
    (h : (z.set size r).waiting ≠ none) : r.2 = .waits := by
  obtain ⟨m, pass⟩ := r
  cases pass with
  | returns a => exact absurd rfl h
  | waits => rfl

variable [DecidableEq T] {i : Fin n} {x : System n k T} {z z' : OneReader n k T}

/-- The task reads from socket `i`. -/
def readerStep (i : Fin n) (z : OneReader n k T) : ReaderInput n T → Option (OneReader n k T)
  | .call socketId size =>
    if z.waiting = none ∧ z.system.module.get socketId = some i then
      some (z.set size (receiveFrom z.system.module socketId size))
    else none
  | .wake ret =>
    z.waiting.bind fun size =>
      (wakeOn z.system.module i readMask ret).map fun m =>
        z.set size (receiveWake m i size ret ((z.system.module.sockets i).syncFlags &&& readMask))
  | .other input => (step z.system input).map fun x => { z with system := x }

/-- No other call takes the events of the socket while the task waits. -/
def SoleReader (i : Fin n) (z : OneReader n k T) : ReaderInput n T → Prop
  | .other input => z.waiting ≠ none → ¬ TakesEvents z.system i input
  | _ => True

instance (i : Fin n) (z : OneReader n k T) (input : ReaderInput n T) :
    Decidable (SoleReader i z input) := by
  rcases input with ⟨⟩ <;> unfold SoleReader <;> infer_instance

/-- The task has something to learn: data, the end of the connection, or the release of the
socket. -/
def HasNews (s : Socket n k) : Prop :=
  s.rxPackets ≠ [] ∨ s.type = .tcp ∧ s.tcp.state = .closed ∨ s.isFree = true

/-- While the task waits the flags of its socket tell all. -/
def Awake (i : Fin n) (z : OneReader n k T) : Prop :=
  z.waiting ≠ none → Alert (z.system.module.sockets i)

theorem HasNews.flags {s : Socket n k} (h : HasNews s) (ha : Alert s) :
    s.syncFlags &&& readMask ≠ 0#32 := by
  have hsome {bit : BitVec 32} (hbit : readMask &&& bit = bit) (hb : s.syncFlags &&& bit ≠ 0#32) :
      s.syncFlags &&& readMask ≠ 0#32 := by
    intro hz
    rw [← hbit, ← BitVec.and_assoc, hz, BitVec.zero_and] at hb
    exact hb rfl
  rcases h with hq | ⟨ht, hc⟩ | hf
  · exact hsome (by decide) (ha.data hq)
  · exact hsome (by decide) (ha.closed ht hc)
  · exact hsome (by decide) (ha.released hf)

/-- A call that waits found the socket open and without a packet. -/
theorem receiveFrom_waits {m : Module n k} {socketId : BitVec 32} {size : Nat}
    (hi : m.get socketId = some i) (h : (receiveFrom m socketId size).2 = .waits) :
    Alert (m.sockets i) ∧ (receiveFrom m socketId size).1 = m := by
  have hfree := (Module.get_some hi).2
  unfold receiveFrom at h ⊢
  rw [hi] at h ⊢
  dsimp only at h ⊢
  split at h
  · next hready =>
    obtain ⟨hq, hm⟩ := receivePass_waits h
    have hstate (ht : (m.sockets i).type = .tcp) : (m.sockets i).tcp.state = .established := by
      rw [receiveReady, ht] at hready
      by_contra hne
      dsimp only at hready
      rw [if_neg hne] at hready
      cases hready
    refine ⟨⟨⟨fun hne => absurd hq hne, fun hf => ?_, fun ht => ?_⟩, fun ht hc => ?_⟩, hm⟩
    · rw [hfree] at hf
      cases hf
    · rw [hstate ht]
      exact ⟨by decide, by decide, by decide, by decide⟩
    · rw [hstate ht] at hc
      cases hc
  · cases h

theorem receiveWake_waits {m : Module n k} {size : Nat} {ret : Err} {active : BitVec 32}
    (h : (receiveWake m i size ret active).2 = .waits) :
    (m.sockets i).isFree = false ∧ ret = .success ∧ active &&& eventError = 0#32 ∧
      (m.sockets i).rxPackets = [] ∧
      (receiveWake m i size ret active).1 = m := by
  unfold receiveWake at h ⊢
  split_ifs at h ⊢ with hfree hret herror
  obtain ⟨hq, hm⟩ := receivePass_waits h
  exact ⟨Bool.eq_false_iff.mpr hfree, not_not.mp hret, not_not.mp herror, hq, hm⟩

/-- A step of the task or of the others keeps the flags telling. -/
theorem Awake.step (hz : Awake i z) {input : ReaderInput n T} (hok : SoleReader i z input)
    (hs : readerStep i z input = some z') : Awake i z' := by
  cases input with
  | call socketId size =>
    simp only [readerStep] at hs
    split_ifs at hs with hc
    obtain rfl := Option.some.inj hs
    intro hw
    obtain ⟨ha, hm⟩ := receiveFrom_waits hc.2 (OneReader.set_waiting hw)
    rw [OneReader.set_sockets, hm]
    exact ha
  | wake ret =>
    obtain ⟨size, hsize, hz'⟩ := Option.bind_eq_some_iff.mp hs
    obtain ⟨m, hm, rfl⟩ := Option.map_eq_some_iff.mp hz'
    have ha := hz (by rw [hsize]; exact Option.some_ne_none size)
    intro hw
    obtain ⟨hfree, rfl, herror, hq, hsame⟩ := receiveWake_waits (OneReader.set_waiting hw)
    rw [OneReader.set_sockets, hsame]
    have hview : (m.sockets i).isFree = (z.system.module.sockets i).isFree ∧
        (m.sockets i).type = (z.system.module.sockets i).type ∧
        (m.sockets i).tcp = (z.system.module.sockets i).tcp := by
      have hkeep := @wakeOn_same n k _ (fun s => (s.isFree, s.type, s.tcp)) (fun _ _ => rfl) _
        _ _ _ _ hm i
      simpa only [Prod.mk.injEq] using hkeep
    refine ⟨⟨fun hne => absurd hq hne, fun hf => ?_, fun ht => ?_⟩, fun ht hc => ?_⟩
    · rw [hfree] at hf
      cases hf
    · rw [hview.2.1] at ht
      rw [hview.2.2]
      exact ha.opened ht
    · -- the end of the connection would have been among the flags
      rw [hview.2.1] at ht
      rw [hview.2.2] at hc
      refine absurd ?_ (ha.closed ht hc)
      rw [BitVec.and_assoc] at herror
      exact herror
  | other input =>
    obtain ⟨x, hx, rfl⟩ := Option.map_eq_some_iff.mp hs
    exact fun hw => step_keeps (hok hw) hx (hz hw)

/-- The wait of a task that has something to learn can end, and its call returns then. -/
theorem Awake.returns (hz : Awake i z) (hw : z.waiting ≠ none)
    (hnews : HasNews (z.system.module.sockets i)) :
    ∃ z', readerStep i z (.wake .success) = some z' ∧ z'.waiting = none := by
  obtain ⟨size, hsize⟩ := Option.ne_none_iff_exists'.mp hw
  have ha := hz hw
  have hflags := hnews.flags ha
  have hwake : wakeOn z.system.module i readMask .success =
      some (z.system.module.resetFlags i ((z.system.module.sockets i).syncFlags &&& readMask)) := by
    rw [wakeOn, if_pos rfl, if_pos hflags]
  refine ⟨_, by rw [readerStep, hsize, Option.bind_some, hwake, Option.map_some], ?_⟩
  by_contra hagain
  obtain ⟨hfree, -, herror, hq, -⟩ := receiveWake_waits (OneReader.set_waiting hagain)
  rw [Module.resetFlags, Module.modify_self] at hfree hq
  rw [BitVec.and_assoc] at herror
  rcases hnews with hdata | ⟨ht, hc⟩ | hf
  · exact hdata hq
  · exact ha.closed ht hc herror
  · exact ha.released hf herror

/-- No wake-up is lost. -/
theorem reader_woken {z₀ : OneReader n k T} (hidle : z₀.waiting = none)
    (h : Lib.Reach (readerStep i) (SoleReader i) z₀ z) (hw : z.waiting ≠ none)
    (hnews : HasNews (z.system.module.sockets i)) :
    ∃ z', readerStep i z (.wake .success) = some z' ∧ z'.waiting = none := by
  have hawake := h.invariant (I := Awake i) (fun hw => absurd hidle hw) fun _ _ _ hz hok hs =>
    hz.step hok hs
  exact hawake.returns hw hnews

/-- A task waits on a bound socket, and a datagram arrives. -/
theorem reader_woken_datagram : ∃ z : OneReader 1 1 Unit,
    Lib.Reach (readerStep ⟨0, Nat.one_pos⟩) (SoleReader ⟨0, Nat.one_pos⟩)
      ⟨.initial 1 1 Unit [7], none⟩ z ∧
      z.waiting = some 4 ∧
      ∃ z', readerStep ⟨0, Nat.one_pos⟩ z (.wake .success) = some z' ∧ z'.waiting = none := by
  obtain ⟨z, hr, hz⟩ := Lib.exists_of_runInputs (readerStep ⟨0, Nat.one_pos⟩)
    (SoleReader ⟨0, Nat.one_pos⟩)
    (⟨.initial 1 1 Unit [7], none⟩ : OneReader 1 1 Unit)
    [.other (.allocate .udp .success), .other (.bindUdp 0#32 .success), .call 0#32 4,
      .other (.datagram ⟨0, Nat.one_pos⟩ (packetOf 7 [1, 2, 3]))]
    (fun z => z.waiting = some 4 ∧ (z.system.module.sockets ⟨0, Nat.one_pos⟩).rxPackets.length = 1)
    (by decide +kernel)
  obtain ⟨hw, hlen⟩ := of_decide_eq_true hz
  refine ⟨z, hr, hw, reader_woken rfl hr ?_ (.inl ?_)⟩
  · rw [hw]
    exact Option.some_ne_none 4
  · exact List.ne_nil_of_length_eq_add_one hlen

end NanoIp.Sockets
