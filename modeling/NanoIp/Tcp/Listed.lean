import NanoIp.Tcp.StepEffect
import Mathlib.Data.Fintype.Card

/-!
# The registered handles

The list `tcp_module.handles` is well formed in every state reached: it ends, no
handle stands in it twice, and no closed handle stands in it. A step leaves the
links alone, takes out one handle that it closes, or puts the handle it opens in
front.
-/
namespace NanoIp.Tcp

variable {n : Nat}

/-- The list spells out distinct handles, the closed ones among them only where `e` says. -/
def Listed (e : Fin n → Prop) (m : Stack n) : Prop :=
  ∃ l, Lib.Linked (fun h => (m.mem h).next) m.handles l ∧ l.Nodup ∧
    ∀ h ∈ l, (m.mem h).state = .closed → e h

/-- The list holds distinct handles, none of them closed. -/
abbrev Tidy (m : Stack n) : Prop := Listed (fun _ => False) m

/-- The list is tidy and `a` does not stand in it. -/
def Unlisted (a : Fin n) (m : Stack n) : Prop :=
  ∃ l, Lib.Linked (fun h => (m.mem h).next) m.handles l ∧ l.Nodup ∧ a ∉ l ∧
    ∀ h ∈ l, (m.mem h).state ≠ .closed

/-- The head and the pointers of the list are the same, and only the handles of `e` were closed. -/
structure SameLinks (e : Fin n → Prop) (m m' : Stack n) : Prop where
  handles : m'.handles = m.handles
  next : ∀ k, (m'.mem k).next = (m.mem k).next
  closed : ∀ k, (m'.mem k).state = .closed → (m.mem k).state = .closed ∨ e k

/-- The list is the same and no handle was closed. -/
abbrev KeepsLinks (m m' : Stack n) : Prop := SameLinks (fun _ => False) m m'

/-- The list loses nothing and no handle is closed, or it loses the one handle that is. -/
inductive Unregisters (m m' : Stack n) : Prop
  | nothing (hl : KeepsLinks m m')
  | handle (h : Fin n) (hl : SameLinks (· = h) (m.removeHandle h) m')
      (hc : (m'.mem h).state = .closed)

theorem length_le_of_nodup {l : List (Fin n)} (hl : l.Nodup) : l.length ≤ n := by
  have hcard := hl.length_le_card
  rwa [Fintype.card_fin] at hcard

namespace Listed

variable {e : Fin n → Prop} {m m' : Stack n} {a : Fin n}

theorem registered (hl : Listed e m) : Lib.Linked (fun h => (m.mem h).next) m.handles m.registered ∧
    m.registered.Nodup ∧ ∀ h ∈ m.registered, (m.mem h).state = .closed → e h := by
  obtain ⟨l, hlink, hn, hc⟩ := hl
  have heq : m.registered = l := hlink.chain_eq (length_le_of_nodup hn)
  rw [heq]
  exact ⟨hlink, hn, hc⟩

theorem removeHandle_registered (hl : Listed e m) (a : Fin n) :
    (m.removeHandle a).registered = m.registered.erase a := by
  obtain ⟨hlink, hnd, -⟩ := hl.registered
  exact Lib.Linked.chain_eq (hlink.unlink a hnd) (length_le_of_nodup (hnd.erase a))

theorem unlisted (ht : Tidy m) (hc : (m.mem a).state = .closed) : Unlisted a m := by
  obtain ⟨l, hlink, hnd, hno⟩ := ht
  exact ⟨l, hlink, hnd, fun hin => hno a hin hc, hno⟩

theorem removeHandle (ht : Tidy m) (a : Fin n) : Unlisted a (m.removeHandle a) := by
  obtain ⟨hlink, hnd, hno⟩ := ht.registered
  refine ⟨m.registered.erase a, hlink.unlink a hnd, hnd.erase a, ?_, fun k hk => ?_⟩
  · intro hin
    exact (hnd.mem_erase_iff.mp hin).1 rfl
  · exact hno k (hnd.mem_erase_iff.mp hk).2

end Listed

namespace Unlisted

variable {m m' : Stack n} {a : Fin n}

theorem registered (hu : Unlisted a m) : a ∉ m.registered := by
  obtain ⟨l, hlink, hnd, ha, -⟩ := hu
  have heq : m.registered = l := hlink.chain_eq (length_le_of_nodup hnd)
  rwa [heq]

theorem tidy (hu : Unlisted a m) (hl : SameLinks (· = a) m m') : Tidy m' := by
  obtain ⟨l, hlink, hnd, ha, hno⟩ := hu
  refine ⟨l, ?_, hnd, fun k hk hc => ?_⟩
  · rw [hl.handles]
    exact hlink.congr fun k _ => hl.next k
  · rcases hl.closed k hc with hold | rfl
    · exact hno k hk hold
    · exact ha hk

theorem push (hu : Unlisted a m) (hh : m'.handles = some a)
    (hn : ∀ k, (m'.mem k).next = if k = a then m.handles else (m.mem k).next) :
    Lib.Linked (fun k => (m'.mem k).next) m'.handles (a :: m.registered) := by
  obtain ⟨l, hlink, hnd, ha, -⟩ := hu
  have heq : m.registered = l := hlink.chain_eq (length_le_of_nodup hnd)
  rw [heq, hh]
  refine (hlink.push ha).congr fun k _ => ?_
  rw [hn, Function.update_apply]

end Unlisted

namespace SameLinks

variable {e e' : Fin n → Prop} {m m' m'' : Stack n} {h a : Fin n}

theorem refl (m : Stack n) : KeepsLinks m m := ⟨rfl, fun _ => rfl, fun _ => .inl⟩

theorem trans (hl : SameLinks e m m') (hl' : KeepsLinks m' m'') : SameLinks e m m'' :=
  ⟨hl'.handles.trans hl.handles, fun k => (hl'.next k).trans (hl.next k),
    fun k hk => hl.closed k ((hl'.closed k hk).resolve_right id)⟩

theorem congr (hl : SameLinks e m m') (hm : m''.mem = m'.mem) (hh : m''.handles = m'.handles) :
    SameLinks e m m'' := by
  refine hl.trans ⟨hh, fun k => by rw [hm], fun k hk => .inl ?_⟩
  rwa [hm] at hk

theorem next_eq (hl : SameLinks e m m') : (fun k => (m'.mem k).next) = fun k => (m.mem k).next :=
  funext hl.next

theorem registered_eq (hl : SameLinks e m m') : m'.registered = m.registered := by
  rw [Stack.registered, Stack.registered, hl.handles, hl.next_eq]

theorem modify (hl : SameLinks e m m') (f : Handle n → Handle n) (hn : ∀ k, (f k).next = k.next)
    (hs : ∀ k, (f k).state = .closed → k.state = .closed) : SameLinks e m (m'.modify a f) := by
  refine hl.trans ⟨rfl, fun k => ?_, fun k hk => .inl ?_⟩
  · rw [Stack.modify_mem]
    split
    · next hka => rw [hka, hn]
    · rfl
  · rw [Stack.modify_mem] at hk
    split at hk
    · next hka => rw [hka]; exact hs _ hk
    · exact hk

theorem setState (hl : SameLinks e m m') (s : State) (hs : s ≠ .closed) :
    SameLinks e m (m'.setState a s) :=
  hl.modify (fun k => { k with state := s }) (fun _ => rfl) fun _ hk => absurd hk hs

theorem startTimeout (hl : SameLinks e m m') : SameLinks e m (m'.startTimeout a) :=
  hl.modify (fun k => { k with stateTimeout := m'.msCounter + stateTimeoutMs })
    (fun _ => rfl) fun _ => id

/-- A frame that counts in sequence space was sent and opened state `s`. -/
theorem advance (hl : SameLinks e m m') (s : State) (hs : s ≠ .closed) :
    SameLinks e m (m'.modify a fun k => { k with state := s, seqNumber := k.seqNumber + 1#32 }) :=
  hl.modify (fun k => { k with state := s, seqNumber := k.seqNumber + 1#32 }) (fun _ => rfl)
    fun _ hk => absurd hk hs

theorem raise (hl : SameLinks e m m') (event : Event) (error : Err) (packet : Option Segment) :
    SameLinks e m (m'.raise a event error packet) := hl.congr rfl rfl

theorem sendControlFrame (hl : SameLinks e m m') (flags : Byte) (lower : Lower) :
    SameLinks e m (sendControlFrame m' a flags lower).1 := by
  refine hl.trans ⟨sendControlFrame_handles _ _ _ _, sendControlFrame_next _ _ _ _,
    fun k hk => .inl ?_⟩
  rw [← Handle.conn_state, sendControlFrame_conn] at hk
  exact hk

theorem releaseLastTx (hl : SameLinks e m m') : SameLinks e m (releaseLastTx m' a) := by
  unfold NanoIp.Tcp.releaseLastTx
  refine SameLinks.modify ?_ _ (fun _ => rfl) fun _ => id
  split
  · exact hl.congr rfl rfl
  · exact hl

theorem close (hl : KeepsLinks m m') : SameLinks (· = a) m (m'.setState a .closed) := by
  refine ⟨hl.handles, fun k => ?_, fun k hk => ?_⟩
  · rw [Stack.setState, Stack.modify_mem, ← hl.next]
    split
    · next hka => rw [hka]
    · rfl
  · by_cases hka : k = a
    · exact .inr hka
    · rw [Stack.setState, Stack.modify_of_ne _ _ hka] at hk
      exact .inl ((hl.closed k hk).resolve_right id)

theorem removeHandle (hl : SameLinks e m m') :
    SameLinks e (m.removeHandle a) (m'.removeHandle a) := by
  unfold Stack.removeHandle
  refine ⟨?_, fun k => ?_, hl.closed⟩
  · show (Lib.unlink _ _ _ _).1 = (Lib.unlink _ _ _ _).1
    rw [hl.next_eq, hl.handles, hl.registered_eq]
  · show (Lib.unlink _ _ _ _).2 k = (Lib.unlink _ _ _ _).2 k
    rw [hl.next_eq, hl.handles, hl.registered_eq]

theorem abort (hl : KeepsLinks m m') : Unregisters m ((m'.setState a .closed).removeHandle a) :=
  .handle a hl.close.removeHandle (congrArg Handle.state (Stack.setState_self m' a .closed))

end SameLinks

namespace Unregisters

variable {m m' : Stack n} {a : Fin n}

theorem raise (hu : Unregisters m m') (event : Event) (error : Err) (packet : Option Segment) :
    Unregisters m (m'.raise a event error packet) := by
  cases hu with
  | nothing hl => exact .nothing (hl.raise event error packet)
  | handle h hl hc => exact .handle h (hl.raise event error packet) hc

theorem tidy (hu : Unregisters m m') (ht : Tidy m) : Tidy m' := by
  cases hu with
  | nothing hl =>
    obtain ⟨l, hlink, hnd, hno⟩ := ht
    refine ⟨l, ?_, hnd, fun k hk hc => ?_⟩
    · rw [hl.handles]
      exact hlink.congr fun k _ => hl.next k
    · exact hno k hk ((hl.closed k hc).resolve_right id)
  | handle h hl hc => exact (ht.removeHandle h).tidy hl

end Unregisters

section Functions

variable {m : Stack n} {h : Fin n} {seg : Segment} {lower : Lower}

theorem bind_links (m : Stack n) (h : Fin n) (address : Ipv4Address) (port : BitVec 16) :
    KeepsLinks m (bind m h address port).1 := by
  rcases hb : bind m h address port with ⟨m', ret⟩
  dsimp only
  rcases bind_cases hb with ⟨-, -, -, rfl⟩ | ⟨-, rfl⟩
  · exact (SameLinks.refl m).modify _ (fun _ => rfl) fun _ => id
  · exact .refl _

theorem openLoop_links (readings : List Nat) :
    ∀ {m m' : Stack n} {ret : Err}, openLoop m h readings = some (m', ret) → KeepsLinks m m' := by
  induction readings with
  | nil => intro m m' ret ho; cases ho
  | cons ms readings ih =>
    intro m m' ret ho
    have hb : KeepsLinks m (nextPort ((bind m h 0#32 m.nextFreeLocalPort).1.wait ms)) :=
      (bind_links m h 0#32 m.nextFreeLocalPort).congr rfl rfl
    simp only [openLoop] at ho
    split_ifs at ho
    · exact hb.trans (ih ho)
    · obtain ⟨rfl, rfl⟩ := Prod.mk.inj (Option.some.inj ho)
      exact hb

/-- An open that fails leaves the list; one that succeeds puts the handle in front of it. -/
theorem open_links {localPort : BitVec 16} {readings : List Nat} {m' : Stack n} {ret : Err}
    (ho : open_ m h localPort readings = some (m', ret)) :
    (ret ≠ .success ∧ KeepsLinks m m' ∧ ((m.mem h).state = .closed → (m'.mem h).state = .closed)) ∨
    (ret = .success ∧ (m.mem h).state = .closed ∧ m'.handles = some h ∧
      (∀ k, (m'.mem k).next = if k = h then m.handles else (m.mem k).next) ∧
      ∀ k, (m'.mem k).state = .closed → (m.mem k).state = .closed ∧ k ≠ h) := by
  unfold open_ at ho
  by_cases hs : (m.mem h).state = .closed
  · rw [if_pos hs] at ho
    dsimp only at ho
    obtain ⟨⟨m₁, ret₁⟩, hb, hf⟩ := Option.map_eq_some_iff.mp ho
    have hidle : KeepsLinks m (m.modify h fun k => { k with state := .idle, port := 0#16 }) :=
      (SameLinks.refl m).modify _ (fun _ => rfl) fun _ hk => nomatch hk
    have hbound : KeepsLinks m m₁ := by
      split_ifs at hb
      · exact hidle.trans (openLoop_links readings hb)
      · have hbind := bind_links (m.modify h fun k => { k with state := .idle, port := 0#16 }) h
          0#32 localPort
        rw [Option.some.inj hb] at hbind
        exact hidle.trans hbind
    unfold finishOpen at hf
    dsimp only at hf
    split_ifs at hf with hret
    · obtain ⟨rfl, rfl⟩ := Prod.mk.inj hf
      have hmem := Stack.modify_mem m₁ h
      refine .inr ⟨hret, hs, rfl, fun k => ?_, fun k hk => ?_⟩
      · rw [hmem, hbound.handles]
        split
        · rfl
        · exact hbound.next k
      · rw [hmem] at hk
        split at hk
        · cases hk
        · next hne => exact ⟨(hbound.closed k hk).resolve_right id, hne⟩
    · obtain ⟨rfl, rfl⟩ := Prod.mk.inj hf
      have hclose := hbound.close (a := h)
      refine .inl ⟨hret, ⟨hclose.handles, hclose.next, fun k hk => .inl ?_⟩, fun _ => ?_⟩
      · rcases hclose.closed k hk with hold | rfl
        · exact hold
        · exact hs
      · rw [Stack.setState_self]
  · rw [if_neg hs] at ho
    obtain ⟨rfl, rfl⟩ := Prod.mk.inj (Option.some.inj ho)
    exact .inl ⟨nofun, .refl m, id⟩

theorem open_registered (ht : Tidy m) {localPort : BitVec 16} {readings : List Nat} {m' : Stack n}
    (ho : open_ m h localPort readings = some (m', .success)) :
    m'.registered = h :: m.registered ∧ Tidy m' := by
  rcases open_links ho with ⟨hne, -⟩ | ⟨-, hs, hhead, hnext, hclosed⟩
  · exact absurd rfl hne
  have hu := ht.unlisted hs
  have hnd := List.nodup_cons.mpr ⟨hu.registered, ht.registered.2.1⟩
  have hlink := hu.push hhead hnext
  refine ⟨hlink.chain_eq (length_le_of_nodup hnd), _, hlink, hnd, fun k hk hc => ?_⟩
  obtain ⟨hold, hne⟩ := hclosed k hc
  exact ht.registered.2.2 k ((List.mem_cons.mp hk).resolve_left hne) hold

theorem connect_links (address : Ipv4Address) (port : BitVec 16) :
    KeepsLinks m (connect m h address port lower).1 := by
  unfold connect
  split_ifs
  · dsimp only
    rw [sendControlFrame_eq]
    have h0 := ((SameLinks.refl m).modify (a := h) (fun k => { k with
      destIpv4Address := address, destPort := port, seqNumber := m.msCounter })
      (fun _ => rfl) fun _ => id).sendControlFrame (a := h) flagSyn lower
    dsimp only
    split_ifs
    · exact (h0.advance .synSent nofun).startTimeout
    · exact h0
  · exact .refl m

theorem close_links : Unregisters m (close m h lower).1 := by
  have hf : KeepsLinks m (sendFin m h lower) := by
    unfold sendFin
    split_ifs
    · rw [sendControlFrame_eq]
      have h0 := (SameLinks.refl m).sendControlFrame (a := h) (flagFin ||| flagAck) lower
      dsimp only
      split_ifs
      · exact (h0.advance .finWait1 nofun).startTimeout
      · exact h0
    · exact .refl m
  unfold close
  dsimp only
  split_ifs
  · exact hf.abort
  · exact .nothing hf

theorem finalizeAndSendPacket_links (m : Stack n) (h : Fin n) (flags : Byte) (pid : PacketId)
    (lower : Lower) :
    KeepsLinks m (finalizeAndSendPacket m h flags pid lower).1 := by
  obtain ⟨ip, header, hm⟩ := finalizeAndSendPacket_mem m h flags pid lower
  have hmod := (SameLinks.refl m).modify (a := h)
    (fun k => { k with ipv4Handle := ip, lastTxPacketIpv4Header := header })
      (fun _ => rfl) fun _ => id
  exact hmod.congr hm (finalizeAndSendPacket_handles _ _ _ _ _)

theorem sendPacket_links (pid : PacketId) : KeepsLinks m (sendPacket m h pid lower).1 := by
  unfold sendPacket
  split_ifs
  · exact .refl m
  · have hkeep : KeepsLinks m (keepPacket m h pid) := by
      have hmod := (SameLinks.refl m).modify (a := h) (fun k => { k with
        lastTxPacket := some pid
        lastTxPacketPos := (m.packets pid).current
        lastTxPacketCount := (m.packets pid).count
        txRetryCount := 0#8 }) (fun _ => rfl) fun _ => id
      exact hmod.congr rfl rfl
    have hsent := hkeep.trans (finalizeAndSendPacket_links (keepPacket m h pid) h
      (flagPsh ||| flagAck) pid lower)
    dsimp only
    split_ifs
    · exact hsent.modify (fun k =>
        { k with seqNumber := k.seqNumber + k.lastTxPacketCount.zeroExtend 32 })
        (fun _ => rfl) fun _ => id
    · exact hsent
  · exact .refl m

theorem resetConnection_links : Unregisters m (resetConnection m h lower).1 := by
  have hsent := ((SameLinks.refl m).close (a := h)).sendControlFrame (a := h) flagRst lower
  refine Unregisters.raise (.handle h (hsent.removeHandle (a := h)) ?_) _ _ _
  show (Handle.conn _).state = .closed
  rw [sendControlFrame_conn, Handle.conn_state, Stack.setState_self]

theorem acknowledge_links (m : Stack n) (h : Fin n) (ack : BitVec 32) (flags : Byte)
    (lower : Lower) :
    KeepsLinks m (sendControlFrame (m.modify h fun k => { k with ackNumber := ack }) h
      flags lower).1 :=
  ((SameLinks.refl m).modify (fun k => { k with ackNumber := ack }) (fun _ => rfl) fun _ =>
    id).sendControlFrame
    flags lower

theorem finWaitFin_links : KeepsLinks m (finWaitFin m h seg lower).1 := by
  have h0 := acknowledge_links m h (seg.seqNumber + 1#32) flagAck lower
  unfold finWaitFin
  dsimp only
  split_ifs
  · exact (h0.setState .timeWait nofun).startTimeout
  · exact h0

theorem rxSynSent_links : KeepsLinks m (rxSynSent m h seg lower).1 := by
  have h0 := acknowledge_links m h (seg.seqNumber + 1#32) flagAck lower
  unfold rxSynSent
  dsimp only
  split_ifs
  · exact (h0.setState .established nofun).raise _ _ _
  · exact h0
  · exact .refl m

theorem rxEstablished_links : KeepsLinks m (rxEstablished m h seg lower).1 := by
  unfold rxEstablished rxData rxFin
  dsimp only
  split_ifs
  · exact (acknowledge_links m _ _ _ _).raise _ _ _
  · exact acknowledge_links m _ _ _ _
  · exact .refl m
  · exact (SameLinks.refl m).releaseLastTx.raise _ _ _
  · exact ((acknowledge_links m _ _ _ _).advance .closeWait nofun).startTimeout
  · exact acknowledge_links m _ _ _ _
  · exact .refl m

theorem rxStateMachine_links : Unregisters m (rxStateMachine m h seg lower).1 := by
  have h0 := SameLinks.refl m
  unfold rxStateMachine
  cases (m.mem h).state with
  | listen =>
    dsimp only
    split_ifs
    · exact .nothing (h0.raise _ _ _)
    · exact .nothing h0
  | synReceived =>
    dsimp only
    split_ifs
    · exact .nothing ((h0.setState .established nofun).raise _ _ _)
    · exact .nothing h0
  | synSent => exact .nothing rxSynSent_links
  | established => exact .nothing rxEstablished_links
  | closeWait =>
    dsimp only
    split_ifs
    · exact h0.abort.raise _ _ _
    · exact .nothing h0
  | finWait1 =>
    dsimp only
    split_ifs
    · exact .nothing (h0.setState .finWait2 nofun).startTimeout
    · exact .nothing finWaitFin_links
    · exact .nothing h0
  | finWait2 =>
    dsimp only
    split_ifs
    · exact .nothing finWaitFin_links
    · exact .nothing h0
  | idle | closed => exact .nothing h0
  | closing | lastAck | timeWait => exact resetConnection_links

theorem rxAcknowledge_links : Unregisters m (rxAcknowledge m h seg lower).1 := by
  unfold rxAcknowledge
  split_ifs
  · exact rxStateMachine_links
  · exact resetConnection_links
  · exact .nothing (.refl m)

theorem rxFrame_links : Unregisters m (rxFrame m seg lower).1 := by
  unfold rxFrame
  cases lookup m seg with
  | none => exact .nothing (.refl m)
  | some a =>
    dsimp only
    unfold rxHandle
    split_ifs
    · exact (SameLinks.refl m).abort.raise _ _ _
    · exact rxAcknowledge_links

theorem rxAccept_links (accept : Option (Fin n)) :
    KeepsLinks m (rxAccept m h seg accept lower).1 := by
  have h0 := SameLinks.refl m
  unfold rxAccept
  cases accept with
  | none => exact h0
  | some a =>
    dsimp only
    by_cases hs : (m.mem a).state = .idle
    · rw [if_pos hs, sendControlFrame_eq]
      have h1 := h0.modify (a := a) (fun k => { k with
        ipv4Address := seg.destAddress, port := seg.destPort
        destIpv4Address := seg.srcAddress, destPort := seg.srcPort }) (fun _ => rfl) fun _ => id
      have h2 := h1.modify (a := h) (fun k => { k with seqNumber := m.msCounter })
        (fun _ => rfl) fun _ => id
      have h3 := h2.trans (acknowledge_links _ a (seg.seqNumber + 1#32) (flagSyn ||| flagAck) lower)
      dsimp only
      split_ifs
      · exact (h3.advance .synReceived nofun).startTimeout
      · exact h3
    · rw [if_neg hs]
      exact h0.raise _ _ _

theorem arpResponse_links (mac : Option MacAddress) (driver : Err) :
    KeepsLinks m (arpResponse m h mac driver).1 := by
  have herror {m' : Stack n} (hl : KeepsLinks m m') (error : Err) :
      KeepsLinks m (ipv4ErrorCallback m' h error).1 := by
    unfold ipv4ErrorCallback
    split_ifs
    · exact hl.raise _ _ _
    · exact hl
    · exact hl.raise _ _ _
  have h0 := SameLinks.refl m
  unfold arpResponse
  cases (m.mem h).ipv4Handle.packet with
  | none => exact h0
  | some pid =>
    cases mac with
    | none =>
      have hrel : KeepsLinks m (m.releasePacket pid) := h0.congr rfl rfl
      exact herror (hrel.modify (a := h) (fun k =>
        { k with ipv4Handle := { k.ipv4Handle with busy := false } })
        (fun _ => rfl) fun _ => id) _
    | some mac =>
      refine herror (SameLinks.congr ?_ (recordHanded_mem _ _ _ _) (recordHanded_handles _ _ _ _)) _
      have hmod := h0.modify (a := h) (fun k => { k with ipv4Handle := { (Ipv4.finalizeSendPacket
        { (m.mem h).ipv4Handle with arpMac := mac } driver (m.packets pid)).handle with
          busy := false } })
        (fun _ => rfl) fun _ => id
      exact hmod.congr rfl rfl

theorem releaseHandle_links (pending : Bool) : KeepsLinks m (releaseHandle m h pending).1 := by
  unfold releaseHandle
  split_ifs
  · exact arpResponse_links none .success
  · exact .refl m

theorem retryPacket_links (pid : PacketId) (timestamp : BitVec 32) :
    Unregisters m (retryPacket m h pid timestamp lower).1 := by
  have h0 := (SameLinks.refl m).modify (a := h)
    (fun k => { k with txRetryCount := k.txRetryCount + 1#8 })
    (fun _ => rfl) fun _ => id
  unfold retryPacket
  dsimp only
  split_ifs
  · exact h0.releaseLastTx.abort.raise _ _ _
  · obtain ⟨ip, hm⟩ := resendPacket_mem (m.modify h fun k => { k with
      txRetryCount := k.txRetryCount + 1#8 }) h pid lower
    have hmod := h0.modify (a := h) (fun k => { k with
      ipv4Handle := ip, stateTimeout := k.stateTimeout + stateTimeoutMs })
        (fun _ => rfl) fun _ => id
    refine .nothing (hmod.congr hm ?_)
    unfold resendPacket
    exact recordHanded_handles _ _ _ _

theorem visit_links (timestamp : BitVec 32) : Unregisters m (visit m h timestamp lower).1 := by
  have h0 := SameLinks.refl m
  unfold visit
  cases (m.mem h).state with
  | synSent | synReceived | closeWait | finWait1 | finWait2 | timeWait =>
    dsimp only
    split_ifs
    · exact h0.abort.raise _ _ _
    · exact .nothing h0
  | established =>
    cases (m.mem h).lastTxPacket with
    | none => exact .nothing h0
    | some pid =>
      dsimp only
      split_ifs
      · exact retryPacket_links pid timestamp
      · exact .nothing h0
  | closed | listen | closing | lastAck | idle => exact .nothing h0

end Functions

variable {x y : Stack n × Pc n} {i : Input n}

theorem resume_links {release : Bool} {accept : Option (Fin n)} {lower : Lower}
    (hr : resume x.1 release accept lower x.2 = some y) : Unregisters x.1 y.1 := by
  have h0 := SameLinks.refl x.1
  cases hpc : x.2 with
  | ready | tick => rw [hpc] at hr; cases hr
  | inReset h seg =>
    rw [hpc] at hr
    obtain rfl := Option.some.inj hr
    exact rxAcknowledge_links
  | inAccepting l seg =>
    rw [hpc] at hr
    obtain rfl := Option.some.inj hr
    exact .nothing (rxAccept_links accept)
  | inRx seg =>
    rw [hpc] at hr
    obtain rfl := Option.some.inj hr
    dsimp only
    split_ifs
    · exact .nothing h0
    · exact .nothing (h0.congr rfl rfl)
  | inCallback | inTick =>
    rw [hpc] at hr
    obtain rfl := Option.some.inj hr
    exact .nothing h0
  | inTxFailed h timestamp =>
    rw [hpc] at hr
    obtain rfl := Option.some.inj hr
    exact .nothing (h0.raise _ _ _)

/-- The input opens handle `h`. -/
abbrev Opens (i : Input n) (h : Fin n) : Prop :=
  ∃ localPort readings, i = .open_ h localPort readings

theorem call_links {m' : Stack n} (hi : ∀ h, ¬ Opens i h) (hc : call x.1 i = some m') :
    Unregisters x.1 m' := by
  have h0 := SameLinks.refl x.1
  cases i with
  | open_ h localPort readings => exact absurd ⟨localPort, readings, rfl⟩ (hi h)
  | bind h address port => obtain rfl := Option.some.inj hc; exact .nothing (bind_links _ _ _ _)
  | connect h address port lower => obtain rfl := Option.some.inj hc; exact .nothing (connect_links address port)
  | listen h =>
    obtain rfl := Option.some.inj hc
    unfold listen
    split_ifs
    · exact .nothing (h0.setState .listen nofun)
    · exact .nothing h0
  | close h lower => obtain rfl := Option.some.inj hc; exact close_links
  | allocatePacket answer size =>
    obtain rfl := Option.some.inj hc
    exact .nothing (h0.congr (allocatePacket_mem _ _ _) (allocatePacket_handles _ _ _))
  | writePacket pid bs => obtain rfl := Option.some.inj hc; exact .nothing (h0.congr rfl rfl)
  | sendPacket h pid lower =>
      obtain rfl := Option.some.inj hc; exact .nothing (sendPacket_links pid)
  | releasePacket pid => obtain rfl := Option.some.inj hc; exact .nothing (h0.congr rfl rfl)
  | elapse ms => obtain rfl := Option.some.inj hc; exact .nothing (h0.congr rfl rfl)
  | _ => cases hc

theorem step_links (hi : ∀ h, ¬ Opens i h) (hs : step x i = some y) : Unregisters x.1 y.1 := by
  have h0 := SameLinks.refl x.1
  cases step_move hs with
  | rxFrame => exact rxFrame_links
  | arpResponse h mac driver => exact .nothing (arpResponse_links mac driver)
  | periodicTask => exact .nothing h0
  | visit lower h timestamp => exact visit_links timestamp
  | visited => exact .nothing h0
  | ret release accept lower _ hr => exact resume_links hr
  | releaseHandle h pending => exact .nothing (releaseHandle_links pending)
  | call _ _ _ hc => exact call_links hi hc

theorem step_open {h : Fin n} {localPort : BitVec 16} {readings : List Nat}
    (hs : step x (.open_ h localPort readings) = some y) :
    ∃ ret, open_ x.1 h localPort readings = some (y.1, ret) := by
  cases step_move hs with
  | call _ m _ hc =>
    obtain ⟨⟨_, ret⟩, ho, rfl⟩ := Option.map_eq_some_iff.mp hc
    exact ⟨ret, ho⟩

theorem tidy_step (ht : Tidy x.1) (hs : step x i = some y) : Tidy y.1 := by
  by_cases hi : ∃ h, Opens i h
  · obtain ⟨h, localPort, readings, rfl⟩ := hi
    obtain ⟨ret, ho⟩ := step_open hs
    rcases open_links ho with ⟨-, hl, -⟩ | ⟨rfl, -⟩
    · exact (Unregisters.nothing hl).tidy ht
    · exact (open_registered ht ho).2
  · exact (step_links (not_exists.mp hi) hs).tidy ht

theorem tidy_initial (packets : PacketId → Packet) (port : BitVec 16) (time : Nat) :
    Tidy (initial n packets port time).1 := ⟨[], rfl, List.nodup_nil, nofun⟩

theorem lookup_mem {m : Stack n} {seg : Segment} {h : Fin n} (hl : lookup m seg = some h) :
    h ∈ m.registered := by
  have hin (l : List (Fin n)) : ∀ c, lookupIn m seg c l = some h → h ∈ l ∨ c = some h := by
    induction l with
    | nil => intro c hc; exact .inr hc
    | cons k l ih =>
      intro c hc
      rw [lookupIn] at hc
      split_ifs at hc
      · exact .inl (by rw [← Option.some.inj hc]; exact List.mem_cons_self)
      · rcases ih (some k) hc with hm | hm
        · exact .inl (List.mem_cons_of_mem _ hm)
        · exact .inl (by rw [← Option.some.inj hm]; exact List.mem_cons_self)
      · rcases ih c hc with hm | hm
        · exact .inl (List.mem_cons_of_mem _ hm)
        · exact .inr hm
  rcases hin m.registered none hl with hm | hm
  · exact hm
  · cases hm

theorem Listed.lookup_open {m : Stack n} {seg : Segment} {h : Fin n} (ht : Tidy m)
    (hl : lookup m seg = some h) : (m.mem h).state ≠ .closed :=
  fun hc => ht.registered.2.2 h (lookup_mem hl) hc

end NanoIp.Tcp
