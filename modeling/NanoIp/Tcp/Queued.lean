import NanoIp.Tcp.Closed

/-!
# A busy IPv4 handle has a frame in the log

The IPv4 handle of a TCP handle becomes busy only when the IPv4 layer queues a frame of
that handle until an ARP request completes, and then the log says so. A handle whose
frames are all transmitted at once never waits for ARP.
-/
namespace NanoIp.Tcp

variable {n : Nat}

/-- The IPv4 layer queued a frame of handle `h`. -/
inductive Obs.Queues (h : Fin n) : Obs n → Prop
  | output (seg : Segment) : Obs.Queues h (.output h seg .inProgress)
  | resent (pid : PacketId) : Obs.Queues h (.resent h pid .inProgress)

/-- If the IPv4 handle of `h` is busy, the log holds a frame of `h` that was queued. -/
def BusyLogged (h : Fin n) (m : Stack n) : Prop :=
  (m.mem h).ipv4Handle.busy = true → ∃ o ∈ m.log, o.Queues h

/-- A frame leaves its IPv4 handle busy only by being queued. -/
theorem ipv4_busy {lower : Lower} {handle : Ipv4.Handle} {header : Ipv4Header} {pid : PacketId}
    {p : Packet} (hb : (Ipv4.sendPacket lower handle header pid p).handle.busy = true) :
    handle.busy = true ∨ (Ipv4.sendPacket lower handle header pid p).ret = .inProgress := by
  unfold Ipv4.sendPacket at hb ⊢
  by_cases hbusy : handle.busy = true
  · exact .inl hbusy
  rw [if_neg hbusy] at hb ⊢
  cases hroute : Ipv4.chooseRoute lower header.destAddress p with
  | error e => rw [hroute] at hb; exact .inl hb
  | ok r =>
    obtain ⟨gateway, netIf⟩ := r
    rw [hroute] at hb
    dsimp only at hb ⊢
    cases harp : lower.arp (if gateway ≠ 0#32 then gateway else header.destAddress) with
    | pending => exact .inr rfl
    | failed e => rw [harp] at hb; exact .inl hb
    | resolved mac =>
      rw [harp] at hb
      dsimp only at hb
      unfold Ipv4.finalizeSendPacket at hb
      split at hb <;> exact .inl hb

namespace BusyLogged

variable {m m' : Stack n} {h a : Fin n}

theorem grow (hb : BusyLogged h m) (hip : (m'.mem h).ipv4Handle = (m.mem h).ipv4Handle)
    (hl : m.log <+: m'.log) :
    BusyLogged h m' := by
  intro hbusy
  rw [hip] at hbusy
  obtain ⟨o, ho, hq⟩ := hb hbusy
  exact ⟨o, hl.subset ho, hq⟩

theorem modify (hb : BusyLogged h m) (f : Handle n → Handle n)
    (hf : ∀ k, (f k).ipv4Handle = k.ipv4Handle) :
    BusyLogged h (m.modify a f) := by
  refine hb.grow ?_ (List.prefix_refl _)
  rw [Stack.modify_mem]
  split
  · next hha => rw [hf, hha]
  · rfl

theorem clear (hb : BusyLogged h m) (f : Handle n → Handle n)
    (hf : ∀ k, (f k).ipv4Handle.busy = false) :
    BusyLogged h (m.modify a f) := by
  intro hbusy
  rw [Stack.modify_mem] at hbusy
  split at hbusy
  · rw [hf] at hbusy
    cases hbusy
  · exact hb hbusy

theorem record (hb : BusyLogged h m) (o : Obs n) : BusyLogged h (m.record o) :=
  hb.grow rfl (List.prefix_append _ _)

theorem releasePacket (hb : BusyLogged h m) (pid : PacketId) : BusyLogged h (m.releasePacket pid) :=
  hb.grow rfl (List.prefix_append _ _)

theorem recordHanded (hb : BusyLogged h m) (pid : PacketId) (sent : Ipv4.Sent) :
    BusyLogged h (recordHanded m a pid sent) := by
  unfold NanoIp.Tcp.recordHanded
  split
  · exact hb.record _
  · exact hb

/-- A frame given to the IPv4 layer: the handle takes what that layer leaves, and the
answer is logged. -/
theorem sends (hb : BusyLogged h m) {lower : Lower} {header : Ipv4Header} {pid : PacketId}
    {p : Packet} {o : Obs n} {sent : Ipv4.Sent}
    (hsent : sent = Ipv4.sendPacket lower (m.mem a).ipv4Handle header pid p)
    (ho : sent.ret = .inProgress → o.Queues a)
    (hm : ∀ k, (m'.mem k).ipv4Handle = if k = a then sent.handle else (m.mem k).ipv4Handle)
    (hl : m'.log = m.log ++ [o]) : BusyLogged h m' := by
  intro hbusy
  rw [hm] at hbusy
  rw [hl]
  split at hbusy
  · next hha =>
    subst hha hsent
    rcases ipv4_busy hbusy with hold | hret
    · obtain ⟨o', ho', hq⟩ := hb hold
      exact ⟨o', List.mem_append.mpr (.inl ho'), hq⟩
    · exact ⟨o, List.mem_append.mpr (.inr List.mem_cons_self), ho hret⟩
  · obtain ⟨o', ho', hq⟩ := hb hbusy
    exact ⟨o', List.mem_append.mpr (.inl ho'), hq⟩

theorem finalizeAndSendPacket (hb : BusyLogged h m) (flags : Byte) (pid : PacketId)
    (lower : Lower) :
    BusyLogged h (finalizeAndSendPacket m a flags pid lower).1 := by
  unfold NanoIp.Tcp.finalizeAndSendPacket
  dsimp only
  refine recordHanded (hb.sends rfl (fun hret => by rw [hret]; exact .output _) (fun k => ?_) rfl) _
    _
  rw [Stack.record_mem, Stack.wait_mem, Stack.modify_mem, apply_ite Handle.ipv4Handle]

theorem sendControlFrame (hb : BusyLogged h m) (flags : Byte) (lower : Lower) :
    BusyLogged h (sendControlFrame m a flags lower).1 := by
  rcases sendControlFrame_cases m a flags lower with ⟨e, -, he⟩ | ⟨pid, -, m', ret, hf, he⟩
  · rwa [he]
  · have halloc : BusyLogged h (allocatePacket m (.ok pid) 0#16).1 := by
      refine hb.grow (by rw [allocatePacket_mem]) ?_
      rw [allocatePacket_log]
    have hfin := halloc.finalizeAndSendPacket (a := a) flags pid lower
    rw [hf] at hfin
    rw [he]
    dsimp only
    split
    · exact hfin
    · exact hfin.releasePacket pid

theorem releaseLastTx (hb : BusyLogged h m) : BusyLogged h (releaseLastTx m a) := by
  unfold NanoIp.Tcp.releaseLastTx
  cases (m.mem a).lastTxPacket with
  | none => exact hb.modify _ fun _ => rfl
  | some pid => exact (hb.releasePacket pid).modify _ fun _ => rfl

theorem closed (h : Fin n) : Closed (BusyLogged h) where
  same hb hs := hb.grow (hs.ipv4Handle h) (hs.log ▸ List.prefix_refl _)
  raise _ _ _ _ hb := hb.record _
  kept _ hb := hb.record _
  control _ flags lower hb := hb.sendControlFrame flags lower

end BusyLogged

section Data

variable {m : Stack n} {h a : Fin n}

theorem sendPacket_busyLogged (hb : BusyLogged h m) (pid : PacketId) (lower : Lower) :
    BusyLogged h (sendPacket m a pid lower).1 := by
  unfold sendPacket
  split_ifs
  · exact hb
  · have hkeep : BusyLogged h (keepPacket m a pid) := by
      refine hb.grow ?_ (List.prefix_refl _)
      rw [keepPacket_mem, Function.update_apply]
      split
      · next hha => rw [hha]
      · rfl
    have h1 := hkeep.finalizeAndSendPacket (a := a) (flagPsh ||| flagAck) pid lower
    dsimp only
    split_ifs
    · exact h1.modify (fun k =>
        { k with seqNumber := k.seqNumber + k.lastTxPacketCount.zeroExtend 32 })
        fun _ => rfl
    · exact h1
  · exact hb

theorem arpResponse_busyLogged (hb : BusyLogged h m) (mac : Option MacAddress) (driver : Err) :
    BusyLogged h (arpResponse m a mac driver).1 := by
  have herror {m' : Stack n} (hb' : BusyLogged h m') (error : Err) :
      BusyLogged h (ipv4ErrorCallback m' a error).1 := by
    unfold ipv4ErrorCallback
    split_ifs
    · exact hb'.record _
    · exact hb'
    · exact hb'.record _
  unfold arpResponse
  cases (m.mem a).ipv4Handle.packet with
  | none => exact hb
  | some pid =>
    cases mac with
    | none =>
      exact herror ((hb.releasePacket pid).clear (fun k => { k with
        ipv4Handle := { k.ipv4Handle with busy := false } }) fun _ => rfl) _
    | some mac =>
      refine herror (BusyLogged.recordHanded ?_ _ _) _
      have hmod := hb.clear (a := a) (fun k => { k with ipv4Handle := { (Ipv4.finalizeSendPacket
        { (m.mem a).ipv4Handle with arpMac := mac } driver (m.packets pid)).handle with
          busy := false } }) fun _ => rfl
      exact hmod.grow rfl (List.prefix_refl _)

theorem retryPacket_busyLogged (hb : BusyLogged h m) (pid : PacketId) (timestamp : BitVec 32)
    (lower : Lower) :
    BusyLogged h (retryPacket m a pid timestamp lower).1 := by
  have h1 := hb.modify (a := a) (fun k => { k with txRetryCount := k.txRetryCount + 1#8 }) fun _ =>
    rfl
  unfold retryPacket
  dsimp only
  split_ifs
  · have hclosed := BusyLogged.closed h
    exact hclosed.raise _ _ _ _ (hclosed.removeHandle (hclosed.setState h1.releaseLastTx _))
  · unfold resendPacket
    dsimp only
    refine BusyLogged.recordHanded (h1.sends rfl (fun hret => by rw [hret]; exact .resent _)
      (fun k => ?_) rfl) _ _
    rw [Stack.record_mem, Stack.wait_mem, Stack.modify_mem, apply_ite Handle.ipv4Handle]

end Data

theorem busyLogged_step {x y : Stack n × Pc n} {i : Input n} {h : Fin n} (hb : BusyLogged h x.1)
    (hs : step x i = some y) :
    BusyLogged h y.1 := by
  refine (BusyLogged.closed h).step hb ⟨fun answer size _ => ?_, fun pid bs _ => ?_,
    fun a pid lower _ => ?_,
    fun pid _ => ?_,
    fun a seg lower _ _ _ _ => hb.releaseLastTx, fun a pid timestamp lower _ => ?_,
      fun a mac driver _ _ => ?_⟩ hs
  · refine hb.grow (by rw [allocatePacket_mem]) ?_
    rw [allocatePacket_log]
  · exact hb.grow rfl (List.prefix_refl _)
  · exact sendPacket_busyLogged hb pid lower
  · exact hb.releasePacket pid
  · exact retryPacket_busyLogged hb pid timestamp lower
  · exact arpResponse_busyLogged hb mac driver

end NanoIp.Tcp
