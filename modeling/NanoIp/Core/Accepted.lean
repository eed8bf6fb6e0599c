import NanoIp.Core.Ipv4

/-!
# What the layers below accept

Whether `NANO_IP_IPV4_SendPacket` sends, queues or refuses a packet is decided by its
handle, the route, the answer of ARP and the driver. A refused packet may still leave
its mark in the handle: once the route is known the handle is prepared for it.
-/
namespace NanoIp.Ipv4

variable {lower : Lower} {handle : Handle} {header : Ipv4Header} {dest : Ipv4Address}
  {pid : PacketId} {p : Packet}

/-- What ARP answers for a packet once its route is known. -/
def arpAnswer (lower : Lower) (dest : Ipv4Address) (p : Packet) : Except Failure ArpAnswer :=
  match chooseRoute lower dest p with
  | .error e => .error e
  | .ok (gateway, _) => .ok (lower.arp (if gateway ≠ 0#32 then gateway else dest))

/-- A packet of a valid size is sent at once: the address is resolved and the driver takes
the frame. -/
def Transmits (lower : Lower) (handle : Handle) (dest : Ipv4Address) (p : Packet) : Prop :=
  handle.busy = false ∧ ∃ mac, arpAnswer lower dest p = .ok (.resolved mac) ∧
    lower.driver = .success

/-- A packet of a valid size is sent, or waits for its ARP request or for the driver. -/
def Accepts (lower : Lower) (handle : Handle) (dest : Ipv4Address) (p : Packet) : Prop :=
  handle.busy = false ∧ (arpAnswer lower dest p = .ok .pending ∨
    ∃ mac, arpAnswer lower dest p = .ok (.resolved mac) ∧ lower.driver.accepted = true)

/-- A packet that is refused leaves the handle as it was: it is refused before the handle is
prepared, or the handle was prepared for this very packet. -/
def Unmarked (lower : Lower) (handle : Handle) (header : Ipv4Header) (pid : PacketId) (p : Packet) :
    Prop :=
  handle.busy = true ∨ ∀ gateway netIf, chooseRoute lower header.destAddress p =
    .ok (gateway, netIf) →
    handle.prepare header netIf pid = handle ∧
      ∀ mac, arpAnswer lower header.destAddress p = .ok (.resolved mac) → handle.arpMac = mac

theorem Failure.not_accepted (e : Failure) : ¬ e.1.accepted = true := by
  rw [e.2]
  exact Bool.false_ne_true

theorem finalizeSendPacket_refused {driver : Err} (hsize : p.count < minPacketSize) :
    finalizeSendPacket handle driver p = ⟨handle, p, .invalidPacketSize, false⟩ := by
  simp only [finalizeSendPacket, fillHeader, if_pos hsize]

theorem sendPacket_free (hb : handle.busy = false) :
    sendPacket lower handle header pid p = match chooseRoute lower header.destAddress p with
      | .error e => ⟨handle, p, e, false⟩
      | .ok (gateway, netIf) =>
        match lower.arp (if gateway ≠ 0#32 then gateway else header.destAddress) with
        | .resolved mac => finalizeSendPacket
            { handle.prepare header netIf pid with arpMac := mac } lower.driver p
        | .pending => ⟨{ handle.prepare header netIf pid with busy := true }, p, .inProgress, false⟩
        | .failed e => ⟨handle.prepare header netIf pid, p, e, false⟩ := by
  rw [sendPacket, hb]
  rfl

theorem sendResult_free (hb : handle.busy = false) :
    sendResult lower handle dest p = match arpAnswer lower dest p with
      | .error e => e
      | .ok (.failed e) => e
      | .ok .pending => .inProgress
      | .ok (.resolved _) => lower.driver := by
  rw [sendResult, arpAnswer, hb]
  cases chooseRoute lower dest p with
  | error e => rfl
  | ok r =>
    obtain ⟨gateway, netIf⟩ := r
    dsimp only
    cases lower.arp (if gateway ≠ 0#32 then gateway else dest) <;> rfl

theorem sendResult_busy (hb : handle.busy = true) : sendResult lower handle dest p = .busy :=
  if_pos hb

theorem sendResult_accepted_iff :
    (sendResult lower handle dest p).accepted = true ↔ Accepts lower handle dest p := by
  cases hb : handle.busy with
  | true =>
    rw [sendResult_busy hb]
    exact iff_of_false Bool.false_ne_true fun h => Bool.noConfusion (h.1.symm.trans hb)
  | false =>
    rw [sendResult_free hb, Accepts, hb]
    cases arpAnswer lower dest p with
    | error e => exact iff_of_false (Failure.not_accepted e) (by simp)
    | ok answer =>
      cases answer with
      | pending => exact iff_of_true rfl ⟨rfl, .inl rfl⟩
      | failed e => exact iff_of_false (Failure.not_accepted e) (by simp)
      | resolved mac => simp

theorem sendResult_success_iff :
    sendResult lower handle dest p = .success ↔ Transmits lower handle dest p := by
  cases hb : handle.busy with
  | true =>
    rw [sendResult_busy hb]
    exact iff_of_false nofun fun h => Bool.noConfusion (h.1.symm.trans hb)
  | false =>
    rw [sendResult_free hb, Transmits, hb]
    have hfail (e : Failure) : e.1 ≠ .success := fun he =>
      Failure.not_accepted e (he ▸ accepted_success)
    cases arpAnswer lower dest p with
    | error e => exact iff_of_false (hfail e) (by simp)
    | ok answer =>
      cases answer with
      | pending => exact iff_of_false nofun (by simp)
      | failed e => exact iff_of_false (hfail e) (by simp)
      | resolved mac => simp

theorem Transmits.accepts (h : Transmits lower handle dest p) : Accepts lower handle dest p := by
  obtain ⟨hb, mac, hr, hd⟩ := h
  exact ⟨hb, .inr ⟨mac, hr, by rw [hd]; rfl⟩⟩

/-- A packet that is too short for an IPv4 header is accepted only when it waits for ARP, and
refused when its turn comes. -/
theorem sendPacket_accepted_iff :
    (sendPacket lower handle header pid p).ret.accepted = true ↔
      Accepts lower handle header.destAddress p ∧
      (p.count < minPacketSize → arpAnswer lower header.destAddress p = .ok .pending) := by
  by_cases hsize : p.count < minPacketSize
  · cases hb : handle.busy with
    | true =>
      rw [sendPacket_busy hb]
      exact iff_of_false Bool.false_ne_true fun h => Bool.noConfusion (h.1.1.symm.trans hb)
    | false =>
      rw [sendPacket_free hb, Accepts, hb, arpAnswer]
      cases chooseRoute lower header.destAddress p with
      | error e => exact iff_of_false (Failure.not_accepted e) (by simp)
      | ok r =>
        obtain ⟨gateway, netIf⟩ := r
        dsimp only
        cases lower.arp (if gateway ≠ 0#32 then gateway else header.destAddress) with
        | pending => exact iff_of_true rfl ⟨⟨rfl, .inl rfl⟩, fun _ => rfl⟩
        | failed e => exact iff_of_false (Failure.not_accepted e) (by simp)
        | resolved mac =>
          dsimp only
          rw [finalizeSendPacket_refused hsize]
          exact iff_of_false Bool.false_ne_true (by simp [hsize])
  · rw [sendPacket_ret lower handle header pid hsize, sendResult_accepted_iff]
    exact ⟨fun h => ⟨h, fun hc => absurd hc hsize⟩, fun h => h.1⟩

/-- What a refused packet leaves in the handle. -/
theorem sendPacket_handle_iff (hno : ¬ (sendPacket lower handle header pid p).ret.accepted = true) :
    (sendPacket lower handle header pid p).handle = handle ↔
      Unmarked lower handle header pid p := by
  cases hb : handle.busy with
  | true =>
    rw [sendPacket_busy hb]
    exact iff_of_true rfl (.inl hb)
  | false =>
    rw [sendPacket_free hb] at hno ⊢
    rw [Unmarked, hb, arpAnswer]
    cases hroute : chooseRoute lower header.destAddress p with
    | error e => exact iff_of_true rfl (.inr fun gateway netIf he => nomatch he)
    | ok r =>
      obtain ⟨gateway, netIf⟩ := r
      rw [hroute] at hno
      dsimp only at hno ⊢
      cases harp : lower.arp (if gateway ≠ 0#32 then gateway else header.destAddress) with
      | pending =>
        rw [harp] at hno
        exact absurd rfl hno
      | failed e =>
        constructor
        · intro hsame
          refine .inr fun gateway' netIf' he => ?_
          obtain ⟨rfl, rfl⟩ := Prod.mk.inj (Except.ok.inj he)
          exact ⟨hsame, fun mac hm => nomatch Except.ok.inj hm⟩
        · rintro (hbusy | hall)
          · cases hbusy
          · exact (hall gateway netIf rfl).1
      | resolved mac =>
        dsimp only
        rw [(finalizeSendPacket_same _ _ _).1]
        constructor
        · intro hsame
          refine .inr fun gateway' netIf' he => ?_
          obtain ⟨rfl, rfl⟩ := Prod.mk.inj (Except.ok.inj he)
          have hmac : mac = handle.arpMac := congrArg Handle.arpMac hsame
          refine ⟨?_, fun mac' hm => ?_⟩
          · rw [hmac] at hsame
            exact hsame
          · rw [← hmac]
            exact ArpAnswer.resolved.inj (Except.ok.inj hm)
        · rintro (hbusy | hall)
          · cases hbusy
          · obtain ⟨hprep, hmac⟩ := hall gateway netIf rfl
            rw [hprep, ← hmac mac rfl]

end NanoIp.Ipv4
