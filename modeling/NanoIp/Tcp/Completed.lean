import NanoIp.Tcp.Closed
import NanoIp.Tcp.Transmitted

/-!
# A transmitted packet has one owner

The TCP module hands a packet that it keeps to the driver, and gives it back or sends it
again without asking the driver. Where it does so only behind the driver, no packet is in
the driver twice, and none that is there is released.
-/
namespace NanoIp.Tcp

variable {n : Nat}

/-- What the driver has: `l` is to be transmitted, `l'` transmitted. -/
structure Driver.Holds (d : Driver) (l l' : List PacketId) : Prop where
  transmitting : Lib.Queued d.next d.transmitting l
  transmitted : Lib.Queued d.next d.transmitted l'
  bound : l'.length + l.length ≤ d.count

namespace Driver.Holds

variable {d d' : Driver} {l l' : List PacketId} {pid : PacketId}

theorem packets (h : d.Holds l l') : d.packets = l' ++ l := by
  have hb := h.bound
  unfold Driver.packets
  rw [h.transmitted.linked.chain_eq (by omega), h.transmitting.linked.chain_eq (by omega)]

theorem sendPacket (h : d.Holds l l') (hl : pid ∉ l) (hl' : pid ∉ l') (hapart : ∀ p ∈ l', p ∉ l) :
    (d.sendPacket pid).Holds (l ++ [pid]) l' := by
  refine ⟨h.transmitting.add hl, h.transmitted.congr fun p hp => ?_, ?_⟩
  · apply h.transmitting.add_frame (hapart p hp)
    rintro rfl
    exact hl' hp
  · have hb := h.bound
    change l'.length + (l ++ [pid]).length ≤ d.count + 1
    rw [List.length_append, List.length_singleton]
    omega

/-- The packets are queued one behind the other. -/
theorem sendPackets (new : List PacketId) :
    ∀ {d : Driver} {l : List PacketId}, d.Holds l l' → (l' ++ l ++ new).Nodup →
      (new.foldl Driver.sendPacket d).Holds (l ++ new) l' := by
  induction new with
  | nil =>
    intro d l h _
    rwa [List.append_nil]
  | cons pid new ih =>
    intro d l h hnodup
    rw [List.append_cons] at hnodup ⊢
    have hfirst := (List.nodup_append.mp hnodup).1
    obtain ⟨hold, -, hnew⟩ := List.nodup_append.mp hfirst
    have hpid : pid ∉ l' ++ l := fun hin => hnew pid hin pid List.mem_cons_self rfl
    have hapart := (List.nodup_append.mp hold).2.2
    refine ih (h.sendPacket (fun hin => hpid (List.mem_append_right _ hin))
      (fun hin => hpid (List.mem_append_left _ hin))
      fun p hp hp' => hapart p hp p hp' rfl) ?_
    rwa [← List.append_assoc l' l [pid]]

/-- The first packet to transmit becomes the last one transmitted. -/
theorem transmit (h : d.Holds l l') (hapart : ∀ p ∈ l', p ∉ l) (hd : d.transmit = some d') :
    ∃ pid l₁, l = pid :: l₁ ∧ d'.Holds l₁ (l' ++ [pid]) := by
  unfold Driver.transmit at hd
  cases l with
  | nil =>
    rw [h.transmitting.pop_none.mpr rfl] at hd
    cases hd
  | cons pid l₁ =>
    obtain ⟨q, hpop, hq⟩ := h.transmitting.pop
    rw [hpop] at hd
    obtain rfl := Option.some.inj hd
    have hl' : pid ∉ l' := fun hin => hapart pid hin List.mem_cons_self
    have hout : Lib.Queued (Function.update d.next pid none) d.transmitted l' :=
      h.transmitted.congr fun p hp => Function.update_of_ne (fun he : p = pid => hl' (he ▸ hp)) _ _
    refine ⟨pid, l₁, rfl, hq.congr fun p hp => ?_, hout.add hl', ?_⟩
    · apply hout.add_frame
      · exact fun hin => hapart p hin (List.mem_cons_of_mem pid hp)
      · rintro rfl
        exact (List.nodup_cons.mp h.transmitting.nodup).1 hp
    · have hb := h.bound
      rw [List.length_cons] at hb
      rw [List.length_append, List.length_singleton]
      dsimp only
      omega

/-- The network task takes the oldest packet transmitted. -/
theorem getNextTxPacket (h : d.Holds l l') (hapart : ∀ p ∈ l', p ∉ l)
    (hd : d.getNextTxPacket = some (pid, d')) :
    ∃ l₁, l' = pid :: l₁ ∧ d'.Holds l l₁ := by
  unfold Driver.getNextTxPacket at hd
  cases l' with
  | nil =>
    rw [h.transmitted.pop_none.mpr rfl] at hd
    cases hd
  | cons p l₁ =>
    obtain ⟨q, hpop, hq⟩ := h.transmitted.pop
    rw [hpop] at hd
    obtain ⟨rfl, rfl⟩ := Prod.mk.inj (Option.some.inj hd)
    refine ⟨l₁, rfl, h.transmitting.congr fun b hb => ?_, hq, ?_⟩
    · refine Function.update_of_ne ?_ _ _
      rintro rfl
      exact hapart b List.mem_cons_self hb
    · have hb := h.bound
      rw [List.length_cons] at hb
      dsimp only
      omega

end Driver.Holds

theorem accepted_cons (o : Obs n) (new : List (Obs n)) :
    (o :: new).filterMap Obs.accepted = o.accepted.toList ++ new.filterMap Obs.accepted := by
  cases h : o.accepted with
  | none => rw [List.filterMap_cons_none h, Option.toList_none, List.nil_append]
  | some pid => rw [List.filterMap_cons_some h, Option.toList_some, List.singleton_append]

theorem spared_append (new new' : List (Obs n)) : ∀ (D : List PacketId),
    Spared D (new ++ new') ↔ Spared D new ∧ Spared (D ++ new.filterMap Obs.accepted) new' := by
  induction new with
  | nil =>
    intro D
    simp [Spared]
  | cons o new ih =>
    intro D
    rw [List.cons_append, Spared, Spared, ih, accepted_cons, List.append_assoc, and_assoc]

/-- Where the packets are, `D` being those of the driver: they are allocated, and so are the
pending packets, which are marked to be kept, and those that wait for ARP. -/
structure Custody (m : Stack n) (D : List PacketId) : Prop where
  nodup : D.Nodup
  driver : ∀ pid ∈ D, pid ∈ m.allocated
  allocated : m.allocated.Nodup
  pending : ∀ h pid, (m.mem h).lastTxPacket = some pid →
    pid ∈ m.allocated ∧ (m.packets pid).flags &&& packetFlagKeepPacket ≠ 0#32
  pendingOnce : ∀ h k pid, (m.mem h).lastTxPacket = some pid → (m.mem k).lastTxPacket =
    some pid → h = k
  waiting : ∀ h pid, Waits m h pid → pid ∈ m.allocated ∧ pid ∉ D
  waitingOnce : ∀ h k pid, Waits m h pid → Waits m k pid → h = k

/-- The log grew by entries that spare the packets of the driver, which had `D` and has `D'` now. -/
def Passes (D D' : List PacketId) (m m' : Stack n) : Prop :=
  ∃ new, m'.log = m.log ++ new ∧ Spared D new ∧ D' = D ++ new.filterMap Obs.accepted ∧ Custody m' D'

def taken (sent : Ipv4.Sent) (pid : PacketId) : List PacketId :=
  if sent.handed = true ∧ sent.ret = .success then [pid] else []

theorem waits_congr {m m' : Stack n} {h : Fin n} {pid : PacketId}
    (hip : (m'.mem h).ipv4Handle = (m.mem h).ipv4Handle) :
    Waits m' h pid ↔ Waits m h pid := by
  rw [Waits, Waits, hip]

namespace Custody

variable {m m' : Stack n} {D : List PacketId} {a : Fin n} {pid : PacketId}

theorem congr (hc : Custody m D) (ha : m'.allocated = m.allocated)
    (hp : ∀ q, (m'.packets q).flags = (m.packets q).flags)
    (hip : ∀ k, (m'.mem k).ipv4Handle = (m.mem k).ipv4Handle)
    (hl : ∀ k, (m'.mem k).lastTxPacket = (m.mem k).lastTxPacket) : Custody m' D := by
  refine ⟨hc.nodup, ?_, ?_, fun h q hq => ?_, fun h k q hq hq' => ?_, fun h q hq => ?_,
    fun h k q hq hq' => ?_⟩
  · rw [ha]
    exact hc.driver
  · rw [ha]
    exact hc.allocated
  · rw [ha, hp]
    exact hc.pending h q (hl h ▸ hq)
  · exact hc.pendingOnce h k q (hl h ▸ hq) (hl k ▸ hq')
  · rw [ha]
    exact hc.waiting h q ((waits_congr (hip h)).mp hq)
  · exact hc.waitingOnce h k q ((waits_congr (hip h)).mp hq) ((waits_congr (hip k)).mp hq')

theorem same (hc : Custody m D) (hs : SameTransmission m m') : Custody m' D :=
  hc.congr hs.allocated (fun q => by rw [hs.packets]) hs.ipv4Handle hs.lastTxPacket

theorem record (hc : Custody m D) (o : Obs n) : Custody (m.record o) D :=
  hc.congr rfl (fun _ => rfl) (fun _ => rfl) fun _ => rfl

/-- A packet that no one has is allocated. -/
theorem allocate (hc : Custody m D) (hpid : pid ∉ m.allocated)
    (ha : m'.allocated = pid :: m.allocated) (hp : ∀ q, q ≠ pid → m'.packets q = m.packets q)
    (hm : m'.mem = m.mem) : Custody m' D := by
  have hwaits (h : Fin n) (q : PacketId) (hq : Waits m' h q) : Waits m h q :=
    (waits_congr (by rw [hm])).mp hq
  refine ⟨hc.nodup, fun q hq => ?_, ?_, fun h q hq => ?_, fun h k q hq hq' => ?_, fun h q hq => ?_,
    fun h k q hq hq' => ?_⟩
  · rw [ha]
    exact List.mem_cons_of_mem pid (hc.driver q hq)
  · rw [ha]
    exact List.nodup_cons.mpr ⟨hpid, hc.allocated⟩
  · rw [hm] at hq
    obtain ⟨hin, hkeep⟩ := hc.pending h q hq
    rw [ha, hp q fun he => hpid (he ▸ hin)]
    exact ⟨List.mem_cons_of_mem pid hin, hkeep⟩
  · rw [hm] at hq hq'
    exact hc.pendingOnce h k q hq hq'
  · obtain ⟨hin, hnot⟩ := hc.waiting h q (hwaits h q hq)
    rw [ha]
    exact ⟨List.mem_cons_of_mem pid hin, hnot⟩
  · exact hc.waitingOnce h k q (hwaits h q hq) (hwaits k q hq')

/-- A packet is released that the driver does not have, and no handle keeps or waits with. -/
theorem release (hc : Custody m D) (hD : pid ∉ D) (ha : m'.allocated = m.allocated.erase pid)
    (hp : m'.packets = m.packets) (hw : ∀ k q, Waits m' k q → Waits m k q ∧ q ≠ pid)
    (hl : ∀ k q, (m'.mem k).lastTxPacket = some q → (m.mem k).lastTxPacket = some q ∧ q ≠ pid) :
    Custody m' D := by
  have herase {q : PacketId} (hq : q ∈ m.allocated) (hne : q ≠ pid) : q ∈ m'.allocated := by
    rw [ha]
    exact (List.mem_erase_of_ne hne).mpr hq
  refine ⟨hc.nodup, fun q hq => ?_, ?_, fun h q hq => ?_, fun h k q hq hq' => ?_, fun h q hq => ?_,
    fun h k q hq hq' => ?_⟩
  · exact herase (hc.driver q hq) fun he => hD (he ▸ hq)
  · rw [ha]
    exact hc.allocated.erase pid
  · obtain ⟨hold, hne⟩ := hl h q hq
    obtain ⟨hin, hkeep⟩ := hc.pending h q hold
    rw [hp]
    exact ⟨herase hin hne, hkeep⟩
  · exact hc.pendingOnce h k q (hl h q hq).1 (hl k q hq').1
  · obtain ⟨hold, hne⟩ := hw h q hq
    obtain ⟨hin, hnot⟩ := hc.waiting h q hold
    exact ⟨herase hin hne, hnot⟩
  · exact hc.waitingOnce h k q (hw h q hq).1 (hw k q hq').1

theorem take (hc : Custody m D) (hD : pid ∉ D) (hin : pid ∈ m.allocated)
    (hw : ∀ k, ¬ Waits m k pid) :
    Custody m (D ++ [pid]) := by
  refine ⟨?_, fun q hq => ?_, hc.allocated, hc.pending, hc.pendingOnce, fun h q hq => ?_,
    hc.waitingOnce⟩
  · refine List.nodup_append.mpr ⟨hc.nodup, List.nodup_singleton pid, fun q hq r hr he => ?_⟩
    rw [he, List.mem_singleton.mp hr] at hq
    exact hD hq
  · rcases List.mem_append.mp hq with hq | hq
    · exact hc.driver q hq
    · rwa [List.mem_singleton.mp hq]
  · obtain ⟨hold, hnot⟩ := hc.waiting h q hq
    refine ⟨hold, fun hq' => ?_⟩
    rcases List.mem_append.mp hq' with hq' | hq'
    · exact hnot hq'
    · exact hw h (List.mem_singleton.mp hq' ▸ hq)

/-- A packet waits for ARP that neither the driver nor another handle has. -/
theorem wait (hc : Custody m D) (hD : pid ∉ D) (hin : pid ∈ m.allocated)
    (hw : ∀ k, k ≠ a → ¬ Waits m k pid) (ha : m'.allocated = m.allocated)
    (hp : ∀ q, (m'.packets q).flags = (m.packets q).flags)
    (hl : ∀ k, (m'.mem k).lastTxPacket = (m.mem k).lastTxPacket)
    (hip : ∀ k, k ≠ a → (m'.mem k).ipv4Handle = (m.mem k).ipv4Handle)
    (hself : ∀ q, Waits m' a q → Waits m a q ∨ q = pid) : Custody m' D := by
  have hother {k : Fin n} {q : PacketId} (hk : k ≠ a) (hq : Waits m' k q) : Waits m k q :=
    (waits_congr (hip k hk)).mp hq
  have honce (k : Fin n) (q : PacketId) (hk : k ≠ a) (hq : Waits m' a q) : ¬ Waits m' k q := by
    intro hq'
    rcases hself q hq with hold | rfl
    · exact hk (hc.waitingOnce k a q (hother hk hq') hold)
    · exact hw k hk (hother hk hq')
  refine ⟨hc.nodup, ?_, ?_, fun h q hq => ?_, fun h k q hq hq' => ?_, fun h q hq => ?_,
    fun h k q hq hq' => ?_⟩
  · rw [ha]
    exact hc.driver
  · rw [ha]
    exact hc.allocated
  · rw [ha, hp]
    exact hc.pending h q (hl h ▸ hq)
  · exact hc.pendingOnce h k q (hl h ▸ hq) (hl k ▸ hq')
  · rw [ha]
    by_cases hh : h = a
    · subst hh
      rcases hself q hq with hold | rfl
      · exact hc.waiting h q hold
      · exact ⟨hin, hD⟩
    · exact hc.waiting h q (hother hh hq)
  · by_cases hh : h = a
    · by_contra hne
      rw [hh] at hq hne
      exact honce k q (fun he => hne he.symm) hq hq'
    · by_cases hk : k = a
      · rw [hk] at hq'
        exact absurd hq (honce h q hh hq')
      · exact hc.waitingOnce h k q (hother hh hq) (hother hk hq')

end Custody

section Transmission

variable {m m₁ : Stack n} {D : List PacketId} {a : Fin n} {pid : PacketId} {sent : Ipv4.Sent}
  {lower : Lower}

/-- The driver is given a packet that no one else has. -/
theorem passes_hands (new : List (Obs n)) (hc : Custody m₁ D) (hlog : m₁.log = m.log ++ new)
    (hnew : Spared D new) (hacc : new.filterMap Obs.accepted = [])
    (hfree : sent.handed = true → pid ∉ D ∧ pid ∈ m₁.allocated ∧ ∀ k, ¬ Waits m₁ k pid) :
    Passes D (D ++ taken sent pid) m (recordHanded m₁ a pid sent) := by
  unfold recordHanded taken
  by_cases hh : sent.handed = true
  · obtain ⟨hD, hin, hw⟩ := hfree hh
    rw [if_pos hh]
    refine ⟨new ++ [.handed a pid sent.ret], by rw [Stack.record_log, hlog, List.append_assoc],
      (spared_append _ _ _).mpr ⟨hnew, ?_, trivial⟩, ?_, ?_⟩
    · rw [hacc, List.append_nil]
      cases sent.ret <;> first | exact hD | trivial
    · rw [List.filterMap_append, hacc, List.nil_append]
      by_cases hs : sent.ret = .success
      · rw [if_pos ⟨hh, hs⟩, hs]
        rfl
      · rw [if_neg fun h => hs h.2]
        cases hr : sent.ret <;> first | exact absurd hr hs | rfl
    · by_cases hs : sent.ret = .success
      · rw [if_pos ⟨hh, hs⟩]
        exact (hc.take hD hin hw).record _
      · rw [if_neg fun h => hs h.2, List.append_nil]
        exact hc.record _
  · rw [if_neg hh, if_neg fun h => hh h.1, List.append_nil]
    exact ⟨new, hlog, hnew, by rw [hacc, List.append_nil], hc⟩

/-- A frame is given to the IPv4 layer: unless the handle is busy, neither the driver nor an
ARP request has its packet. -/
theorem Custody.sends (hc : Custody m D) {header : Ipv4Header} {p : Packet} {o : Obs n}
    (hsent : sent = Ipv4.sendPacket lower (m.mem a).ipv4Handle header pid p)
    (hin : pid ∈ m.allocated)
    (hfree : (m.mem a).ipv4Handle.busy = false → pid ∉ D ∧ ∀ k, ¬ Waits m k pid)
    (hlog : m₁.log = m.log ++ [o]) (ho : o.Spares D) (hacc : o.accepted = none)
    (ha : m₁.allocated = m.allocated) (hp : ∀ q, (m₁.packets q).flags = (m.packets q).flags)
    (hl : ∀ k, (m₁.mem k).lastTxPacket = (m.mem k).lastTxPacket)
    (hip : ∀ k, (m₁.mem k).ipv4Handle = if k = a then sent.handle else (m.mem k).ipv4Handle) :
    Passes D (D ++ taken sent pid) m (recordHanded m₁ a pid sent) := by
  have hother (k : Fin n) (hk : k ≠ a) : (m₁.mem k).ipv4Handle = (m.mem k).ipv4Handle :=
    (hip k).trans (if_neg hk)
  have hself : (m₁.mem a).ipv4Handle = sent.handle := (hip a).trans (if_pos rfl)
  have hacc' : [o].filterMap Obs.accepted = [] := List.filterMap_cons_none hacc
  cases hb : (m.mem a).ipv4Handle.busy with
  | true =>
    rw [Ipv4.sendPacket_busy hb] at hsent
    have hc₁ : Custody m₁ D := by
      refine hc.congr ha hp (fun k => ?_) hl
      by_cases hk : k = a
      · rw [hk, hself, hsent]
      · exact hother k hk
    refine passes_hands [o] hc₁ hlog ⟨ho, trivial⟩ hacc' fun hh => ?_
    rw [hsent] at hh
    cases hh
  | false =>
    obtain ⟨hD, hw⟩ := hfree hb
    have hwaits (q : PacketId) (hq : Waits m₁ a q) : sent.handed = false ∧ q = pid := by
      obtain ⟨hbusy, hpacket⟩ := hq
      rw [hself] at hbusy hpacket
      rw [hsent] at hbusy
      obtain ⟨hno, hcase⟩ := Ipv4.sendPacket_waits hbusy
      rw [← hsent] at hno hcase hbusy
      rcases hcase with hsame | ⟨-, hpid, -⟩
      · rw [hsame, hb] at hbusy
        cases hbusy
      · exact ⟨hno, Option.some.inj (hpacket.symm.trans hpid)⟩
    have hc₁ : Custody m₁ D := hc.wait hD hin (fun k _ => hw k) ha hp hl hother fun q hq =>
      .inr (hwaits q hq).2
    refine passes_hands [o] hc₁ hlog ⟨ho, trivial⟩ hacc' fun hh => ⟨hD, ha ▸ hin, fun k hk => ?_⟩
    by_cases hka : k = a
    · subst hka
      rw [(hwaits pid hk).1] at hh
      cases hh
    · exact hw k ((waits_congr (hother k hka)).mp hk)

theorem finalizeAndSendPacket_ipv4Handle (m : Stack n) (a : Fin n) (flags : Byte) (pid : PacketId)
    (lower : Lower) (k : Fin n) :
    ((finalizeAndSendPacket m a flags pid lower).1.mem k).ipv4Handle = if k = a then
      (Ipv4.sendPacket lower (m.mem a).ipv4Handle (outputHeader (m.mem a) lower (m.packets pid)) pid
        (completePacket (m.mem a) flags (outputHeader (m.mem a) lower (m.packets pid))
          (m.packets pid))).handle
      else (m.mem k).ipv4Handle := by
  unfold finalizeAndSendPacket
  dsimp only
  rw [recordHanded_mem, Stack.record_mem, Stack.wait_mem, Stack.modify_mem,
    apply_ite Handle.ipv4Handle]

/-- `NANO_IP_TCP_FinalizeAndSendPacket` on a packet that no one else has. -/
theorem Custody.finalizeAndSendPacket (hc : Custody m D) (flags : Byte) (lower : Lower)
    (hin : pid ∈ m.allocated)
    (hfree : (m.mem a).ipv4Handle.busy = false → pid ∉ D ∧ ∀ k, ¬ Waits m k pid) :
    ∃ D', Passes D D' m (finalizeAndSendPacket m a flags pid lower).1 ∧
      ((NanoIp.Tcp.finalizeAndSendPacket m a flags pid lower).2.accepted = false → D' = D) := by
  unfold NanoIp.Tcp.finalizeAndSendPacket
  dsimp only
  refine ⟨_, hc.sends rfl hin hfree rfl trivial rfl rfl (fun q => ?_) (fun k => ?_) (fun k => ?_),
    fun hno => ?_⟩
  · change (Function.update m.packets pid _ q).flags = _
    rw [Function.update_apply]
    split
    · next hq => rw [hq, Ipv4.sendPacket_flags]; rfl
    · rfl
  · rw [Stack.record_mem, Stack.wait_mem, Stack.modify_mem]
    split
    · next hk => rw [hk]
    · rfl
  · rw [Stack.record_mem, Stack.wait_mem, Stack.modify_mem, apply_ite Handle.ipv4Handle]
  · rw [taken, if_neg, List.append_nil]
    rintro ⟨-, hs⟩
    rw [hs] at hno
    cases hno

/-- Where a refused packet was not waiting, it is not waiting now. -/
theorem refused_waits (flags : Byte) (lower : Lower) (hw : ∀ k, ¬ Waits m k pid)
    (hno : (finalizeAndSendPacket m a flags pid lower).2.accepted = false) (k : Fin n) :
    ¬ Waits (finalizeAndSendPacket m a flags pid lower).1 k pid := by
  intro hk
  have hip := finalizeAndSendPacket_ipv4Handle m a flags pid lower k
  by_cases hka : k = a
  · subst hka
    rw [if_pos rfl] at hip
    obtain ⟨hbusy, hpacket⟩ := hk
    rw [hip] at hbusy hpacket
    rcases (Ipv4.sendPacket_waits hbusy).2 with hsame | ⟨-, -, hret⟩
    · rw [hsame] at hbusy hpacket
      exact hw k ⟨hbusy, hpacket⟩
    · have hret' : (finalizeAndSendPacket m k flags pid lower).2 = .inProgress := hret
      rw [hret'] at hno
      cases hno
  · rw [if_neg hka] at hip
    exact hw k ((waits_congr hip).mp hk)

theorem Passes.custody {D' : List PacketId} (h : Passes D D' m m₁) : Custody m₁ D' := by
  obtain ⟨_, _, _, _, hc⟩ := h
  exact hc

theorem Passes.then {m' : Stack n} {D' D'' : List PacketId} (h : Passes D D' m m₁)
    (h' : Passes D' D'' m₁ m') :
    Passes D D'' m m' := by
  obtain ⟨new, hlog, hnew, rfl, -⟩ := h
  obtain ⟨new', hlog', hnew', rfl, hc⟩ := h'
  refine ⟨new ++
    new', by rw [hlog', hlog, List.append_assoc], (spared_append _ _ _).mpr ⟨hnew, hnew'⟩, ?_, hc⟩
  rw [List.filterMap_append, List.append_assoc]

theorem Custody.stays (hc : Custody m₁ D) (hlog : m₁.log = m.log) : Passes D D m m₁ :=
  ⟨[], by rw [hlog, List.append_nil], trivial, (List.append_nil D).symm, hc⟩

theorem Custody.logs {o : Obs n} (hc : Custody m₁ D) (hlog : m₁.log = m.log ++ [o])
    (ho : o.Spares D) (hacc : o.accepted = none) : Passes D D m m₁ :=
  ⟨[o], hlog,
    ⟨ho, trivial⟩, by rw [List.filterMap_cons_none hacc, List.filterMap_nil, List.append_nil], hc⟩

theorem Custody.allocatePacket (hc : Custody m D) (hpid : pid ∉ m.allocated) (size : BitVec 16) :
    Custody (allocatePacket m (.ok pid) size).1 D := by
  refine hc.allocate hpid ?_ (fun q hq => ?_) (allocatePacket_mem _ _ _)
  · unfold NanoIp.Tcp.allocatePacket
    dsimp only
    rw [if_neg hpid]
  · unfold NanoIp.Tcp.allocatePacket
    dsimp only
    rw [if_neg hpid]
    exact Function.update_of_ne hq _ _

/-- A control frame has a packet of its own. -/
theorem Custody.sendControlFrame (hc : Custody m D) (flags : Byte) (lower : Lower) :
    ∃ D', Passes D D' m (sendControlFrame m a flags lower).1 := by
  rcases sendControlFrame_cases m a flags lower with ⟨e, -, he⟩ | ⟨pid, hpid, m', ret, hf, he⟩
  · rw [he]
    exact ⟨D, hc.stays rfl⟩
  have hc₀ := hc.allocatePacket hpid 0#16
  set m₀ := (NanoIp.Tcp.allocatePacket m (.ok pid) 0#16).1 with hm₀
  have hmem : m₀.mem = m.mem := allocatePacket_mem _ _ _
  have hin : pid ∈ m₀.allocated := by
    rw [hm₀, NanoIp.Tcp.allocatePacket, if_neg hpid]
    exact List.mem_cons_self
  have hD : pid ∉ D := fun h => hpid (hc.driver pid h)
  have hw (k : Fin n) : ¬ Waits m₀ k pid := fun h =>
    hpid (hc.waiting k pid ((waits_congr (by rw [hmem])).mp h)).1
  obtain ⟨D', hpass, hno⟩ := hc₀.finalizeAndSendPacket (a := a) flags lower hin fun _ => ⟨hD, hw⟩
  have hrefused := refused_waits (a := a) flags lower hw
  have hlast (k : Fin n) : (m'.mem k).lastTxPacket = (m.mem k).lastTxPacket := by
    obtain ⟨ip, header, hfin⟩ := finalizeAndSendPacket_mem m₀ a flags pid lower
    rw [hf] at hfin
    rw [hfin, hmem, Function.update_apply]
    split
    · next hk => rw [hk]
    · rfl
  rw [hf] at hpass hno hrefused
  rw [he]
  have hsent : Passes D D' m m' := (hc₀.stays (allocatePacket_log _ _ _)).then hpass
  cases hret : ret.accepted with
  | true => exact ⟨D', by simpa only [hret, if_true] using hsent⟩
  | false =>
    obtain rfl := hno hret
    refine ⟨D', hsent.then ?_⟩
    rw [if_neg Bool.false_ne_true]
    refine Custody.logs (hpass.custody.release hD rfl rfl (fun k q hq => ⟨hq, ?_⟩) fun k q hq =>
      ⟨hq, ?_⟩) rfl hD rfl
    · rintro rfl
      exact hrefused hret k hq
    · rintro rfl
      rw [Stack.releasePacket_mem, hlast] at hq
      exact hpid (hc.pending k q hq).1

theorem passes_closed (D : List PacketId) (m : Stack n) :
    Closed fun m' => ∃ D', Passes D D' m m' where
  same h hs := by
    obtain ⟨D', hpass⟩ := h
    exact ⟨D', hpass.then ((hpass.custody.same hs).stays hs.log)⟩
  raise a event error packet h := by
    obtain ⟨D', hpass⟩ := h
    exact ⟨D', hpass.then ((hpass.custody.record _).logs rfl trivial rfl)⟩
  kept seg h := by
    obtain ⟨D', hpass⟩ := h
    exact ⟨D', hpass.then ((hpass.custody.record _).logs rfl trivial rfl)⟩
  control a flags lower h := by
    obtain ⟨D', hpass⟩ := h
    obtain ⟨D'', hsent⟩ := hpass.custody.sendControlFrame (a := a) flags lower
    exact ⟨D'', hpass.then hsent⟩

theorem Custody.modify (hc : Custody m D) (f : Handle n → Handle n)
    (hf : ∀ k, (f k).ipv4Handle = k.ipv4Handle ∧ (f k).lastTxPacket = k.lastTxPacket) :
    Custody (m.modify a f) D := by
  refine hc.congr rfl (fun _ => rfl) (fun k => ?_) fun k => ?_
  · rw [Stack.modify_mem]
    split
    · next hk => rw [hk, (hf _).1]
    · rfl
  · rw [Stack.modify_mem]
    split
    · next hk => rw [hk, (hf _).2]
    · rfl

/-- A packet that is not pending is kept by a handle that has none. -/
theorem Custody.keepPacket (hc : Custody m D) (hin : pid ∈ m.allocated) (hnot : ¬ Pending m pid) :
    Custody (keepPacket m a pid) D := by
  have hip (k : Fin n) : ((NanoIp.Tcp.keepPacket m a pid).mem k).ipv4Handle =
      (m.mem k).ipv4Handle := by
    rw [keepPacket_mem, Function.update_apply]
    split
    · next hk => rw [hk]
    · rfl
  have hlast (k : Fin n) : ((NanoIp.Tcp.keepPacket m a pid).mem k).lastTxPacket =
      if k = a then some pid else (m.mem k).lastTxPacket := by
    rw [keepPacket_mem, Function.update_apply, apply_ite Handle.lastTxPacket]
  have hold {k : Fin n} {q : PacketId}
    (hq : ((NanoIp.Tcp.keepPacket m a pid).mem k).lastTxPacket = some q) :
      k = a ∧ q = pid ∨ k ≠ a ∧ q ≠ pid ∧ (m.mem k).lastTxPacket = some q := by
    rw [hlast] at hq
    split at hq
    · next hk => exact .inl ⟨hk, (Option.some.inj hq).symm⟩
    · next hk =>
      refine .inr ⟨hk, ?_, hq⟩
      rintro rfl
      exact hnot ⟨k, hq⟩
  refine ⟨hc.nodup, hc.driver, hc.allocated, fun h q hq => ?_, fun h k q hq hq' => ?_,
    fun h q hq => ?_,
    fun h k q hq hq' => ?_⟩
  · rcases hold hq with ⟨rfl, rfl⟩ | ⟨hne, hqp, hq⟩
    · refine ⟨hin, ?_⟩
      change (Function.update m.packets q _ q).flags &&& _ ≠ _
      rw [Function.update_self]
      exact packetFlagKeepPacket_set _
    · obtain ⟨hin', hkeep⟩ := hc.pending h q hq
      refine ⟨hin', ?_⟩
      change (Function.update m.packets pid _ q).flags &&& _ ≠ _
      rwa [Function.update_of_ne hqp]
  · rcases hold hq with ⟨rfl, rfl⟩ | ⟨hne, hqp, hq⟩
    · rcases hold hq' with ⟨rfl, -⟩ | ⟨-, hqp', -⟩
      · rfl
      · exact absurd rfl hqp'
    · rcases hold hq' with ⟨-, rfl⟩ | ⟨-, -, hq'⟩
      · exact absurd rfl hqp
      · exact hc.pendingOnce h k q hq hq'
  · exact hc.waiting h q ((waits_congr (hip h)).mp hq)
  · exact hc.waitingOnce h k q ((waits_congr (hip h)).mp hq) ((waits_congr (hip k)).mp hq')

/-- The pending packet is given back when it is at rest. -/
theorem Custody.releaseLastTx (hc : Custody m D) (hl : (m.mem a).lastTxPacket = some pid)
    (hD : pid ∉ D) (hw : ∀ k, ¬ Waits m k pid) : Passes D D m (releaseLastTx m a) := by
  unfold NanoIp.Tcp.releaseLastTx
  rw [hl]
  refine Custody.logs (hc.release hD rfl rfl (fun k q hq => ?_) fun k q hq => ?_) rfl hD rfl
  · have hq' : Waits m k q := by
      refine (waits_congr ?_).mp hq
      dsimp only
      rw [Stack.modify_mem]
      split
      · next hk => rw [hk]; rfl
      · rfl
    refine ⟨hq', ?_⟩
    rintro rfl
    exact hw k hq'
  · dsimp only at hq
    rw [Stack.modify_mem] at hq
    split at hq
    · cases hq
    · next hk =>
      refine ⟨hq, ?_⟩
      rintro rfl
      exact hk (hc.pendingOnce k a q hq hl)

theorem Custody.sendPacket (hc : Custody m D)
    (hok : (m.mem a).lastTxPacket = none → (m.mem a).state = .established → pid ∈ m.allocated ∧
      ¬ Pending m pid ∧ pid ∉ D ∧ ∀ k, ¬ Waits m k pid) :
    ∃ D', Passes D D' m (sendPacket m a pid lower).1 := by
  unfold NanoIp.Tcp.sendPacket
  split_ifs with hl hs
  · exact ⟨D, hc.stays rfl⟩
  · obtain ⟨hin, hnot, hD, hw⟩ := hok (Option.not_isSome_iff_eq_none.mp hl) hs
    have hkeep := hc.keepPacket (a := a) hin hnot
    have hw' (k : Fin n) : ¬ Waits (NanoIp.Tcp.keepPacket m a pid) k pid := by
      intro hk
      refine hw k ((waits_congr ?_).mp hk)
      rw [keepPacket_mem, Function.update_apply]
      split
      · next hk => rw [hk]
      · rfl
    obtain ⟨D', hpass, -⟩ := hkeep.finalizeAndSendPacket (a := a) (flagPsh ||| flagAck) lower hin
      fun _ => ⟨hD, hw'⟩
    have hsent : Passes D D' m _ := (hkeep.stays rfl).then hpass
    dsimp only
    split_ifs
    · exact ⟨D', hsent.then ((hpass.custody.modify (fun k => { k with
        seqNumber := k.seqNumber + k.lastTxPacketCount.zeroExtend 32 }) fun _ =>
          ⟨rfl, rfl⟩).stays rfl)⟩
    · exact ⟨D', hsent⟩
  · exact ⟨D, hc.stays rfl⟩

theorem passes_ipv4ErrorCallback {D' : List PacketId} (h : Passes D D' m m₁) (error : Err) :
    Passes D D' m (ipv4ErrorCallback m₁ a error).1 := by
  unfold ipv4ErrorCallback
  split_ifs
  · exact h.then ((h.custody.record _).logs rfl trivial rfl)
  · exact h
  · exact h.then ((h.custody.record _).logs rfl trivial rfl)

/-- An ARP request ends: its packet goes to the driver, or back to the allocator if no handle
keeps it. -/
theorem Custody.arpResponse (hc : Custody m D) {mac : Option MacAddress} {driver : Err}
    (hb : (m.mem a).ipv4Handle.busy = true) (hspare : mac = none → ArpHarmless m a) :
    ∃ D', Passes D D' m (arpResponse m a mac driver).1 := by
  unfold NanoIp.Tcp.arpResponse
  cases hp : (m.mem a).ipv4Handle.packet with
  | none => exact ⟨D, hc.stays rfl⟩
  | some pid =>
    have hwait : Waits m a pid := ⟨hb, hp⟩
    obtain ⟨hin, hD⟩ := hc.waiting a pid hwait
    have hone (k : Fin n) (hk : k ≠ a) : ¬ Waits m k pid := fun h =>
      hk (hc.waitingOnce k a pid h hwait)
    cases mac with
    | none =>
      have hnot : ¬ Pending m pid := by
        have h := hspare rfl
        rwa [ArpHarmless, hp] at h
      dsimp only
      set m₂ := (m.releasePacket pid).modify a fun k =>
        { k with ipv4Handle := { k.ipv4Handle with busy := false } } with hm₂
      refine ⟨D, passes_ipv4ErrorCallback (?_ : Passes D D m m₂) _⟩
      refine Custody.logs (hc.release hD rfl rfl (fun k q hq => ?_) fun k q hq => ?_) rfl hD rfl
      · rw [Waits, hm₂, Stack.modify_mem] at hq
        split at hq
        · cases hq.1
        · next hk =>
          refine ⟨hq, ?_⟩
          rintro rfl
          exact hone k hk hq
      · have hq' : (m.mem k).lastTxPacket = some q := by
          rw [hm₂, Stack.modify_mem] at hq
          split at hq
          · next hk => rw [hk]; exact hq
          · exact hq
        refine ⟨hq', ?_⟩
        rintro rfl
        exact hnot ⟨k, hq'⟩
    | some mac =>
      dsimp only
      set sent := Ipv4.finalizeSendPacket { (m.mem a).ipv4Handle with arpMac := mac } driver
        (m.packets pid)
      set m₂ : Stack n := { m.modify a fun k =>
        { k with ipv4Handle := { sent.handle with busy := false } } with
        packets := Function.update m.packets pid sent.packet }
      have hmem (k : Fin n) : m₂.mem k = if k = a then
        { m.mem a with ipv4Handle := { sent.handle with busy := false } }
          else m.mem k :=
        Stack.modify_mem m a k fun k => { k with ipv4Handle := { sent.handle with busy := false } }
      have hself (q : PacketId) : ¬ Waits m₂ a q := by
        rintro ⟨hbusy, -⟩
        rw [hmem, if_pos rfl] at hbusy
        cases hbusy
      have hother (k : Fin n) (hk : k ≠ a) : m₂.mem k = m.mem k := (hmem k).trans (if_neg hk)
      have hc₂ : Custody m₂ D := by
        refine hc.wait hD hin hone rfl (fun q => ?_) (fun k => ?_) (fun k hk => by rw [hother k hk])
          fun q hq => absurd hq (hself q)
        · change (Function.update m.packets pid _ q).flags = _
          rw [Function.update_apply]
          split
          · next hq => rw [hq]; exact (Ipv4.finalizeSendPacket_same _ _ _).2
          · rfl
        · rw [hmem]
          split
          · next hk => rw [hk]
          · rfl
      refine ⟨D ++ taken sent pid, passes_ipv4ErrorCallback (passes_hands [] hc₂
        (List.append_nil _).symm trivial rfl fun _ => ⟨hD, hin, fun k hk => ?_⟩) _⟩
      by_cases hka : k = a
      · exact hself pid (hka ▸ hk)
      · exact hone k hka ((waits_congr (by rw [hother k hka])).mp hk)

/-- A retry: the packet is given back when it is at rest, or sent again when it has left the
driver. -/
theorem Custody.retryPacket (hc : Custody m D) {timestamp : BitVec 32}
    (hl : (m.mem a).lastTxPacket = some pid)
    (hback : (m.mem a).txRetryCount + 1#8 = maxRetryCount → pid ∉ D ∧ ∀ k, ¬ Waits m k pid)
    (hagain : (m.mem a).txRetryCount + 1#8 ≠ maxRetryCount → (m.mem a).ipv4Handle.busy = false →
      pid ∉ D ∧ ∀ k, ¬ Waits m k pid) :
    ∃ D', Passes D D' m (retryPacket m a pid timestamp lower).1 := by
  have hc₁ := hc.modify (a := a) (fun k => { k with txRetryCount := k.txRetryCount + 1#8 }) fun _ =>
    ⟨rfl, rfl⟩
  unfold NanoIp.Tcp.retryPacket
  dsimp only
  set m' := m.modify a fun k => { k with txRetryCount := k.txRetryCount + 1#8 } with hm'
  have hself : m'.mem a = { m.mem a with txRetryCount := (m.mem a).txRetryCount + 1#8 } :=
    Stack.modify_self m a _
  have hwaits (k : Fin n) (hk : ¬ Waits m k pid) : ¬ Waits m' k pid := by
    intro hk'
    refine hk ((waits_congr ?_).mp hk')
    rw [hm', Stack.modify_mem]
    split
    · next hk => rw [hk]
    · rfl
  rw [hself]
  split_ifs with hr
  · obtain ⟨hD, hw⟩ := hback hr
    have hrel := hc₁.releaseLastTx (a := a) (by rw [hself]; exact hl) hD fun k => hwaits k (hw k)
    have hclosed := passes_closed D m
    exact hclosed.raise _ _ _ _
      (hclosed.removeHandle (hclosed.setState ⟨D, (hc₁.stays rfl).then hrel⟩ _))
  · unfold resendPacket
    dsimp only
    refine ⟨_, (hc₁.stays rfl).then (hc₁.sends rfl (hc.pending a pid hl).1 (fun hb => ?_) rfl
      trivial rfl rfl
      (fun q => ?_)
      (fun k => ?_) fun k => ?_)⟩
    · rw [hself] at hb
      obtain ⟨hD, hw⟩ := hagain hr hb
      exact ⟨hD, fun k => hwaits k (hw k)⟩
    · change (Function.update m'.packets pid _ q).flags = _
      rw [Function.update_apply]
      split
      · next hq => rw [hq]; exact Ipv4.sendPacket_flags _ _ _ _ _
      · rfl
    · rw [Stack.record_mem, Stack.wait_mem, Stack.modify_mem]
      split
      · next hk => rw [hk]
      · rfl
    · rw [Stack.record_mem, Stack.wait_mem, Stack.modify_mem, apply_ite Handle.ipv4Handle]

end Transmission

section Step

variable {w w' : World n} {l l' : List PacketId}

/-- A careful step of the module. -/
theorem passes_step {i : Input n} {y : Stack n × Pc n} (hc : Custody w.module.1 w.inDriver)
    (hok : w.Careful (.module i)) (hs : step w.module i = some y) :
    ∃ D', Passes w.inDriver D' w.module.1 y.1 := by
  obtain ⟨hright, hrest, harp⟩ := hok
  refine (passes_closed w.inDriver w.module.1).step ⟨_, hc.stays rfl⟩ ?_ hs
  constructor
  · rintro answer size rfl
    cases answer with
    | error e => exact ⟨_, hc.stays rfl⟩
    | ok pid =>
      by_cases hpid : pid ∈ w.module.1.allocated
      · refine ⟨_, Custody.stays ?_ (allocatePacket_log _ _ _)⟩
        rwa [allocatePacket, if_pos hpid]
      · exact ⟨_, (hc.allocatePacket hpid size).stays (allocatePacket_log _ _ _)⟩
  · rintro pid bs rfl
    have hc' : Custody (writePacket w.module.1 pid bs) w.inDriver := by
      refine hc.congr rfl (fun q => ?_) (fun _ => rfl) fun _ => rfl
      change (Function.update w.module.1.packets pid _ q).flags = _
      rw [Function.update_apply]
      split
      · next hq => rw [hq]; rfl
      · rfl
    exact ⟨_, hc'.stays rfl⟩
  · rintro h pid lower rfl
    exact hc.sendPacket hright
  · rintro pid rfl
    obtain ⟨-, hnot, hD, hw⟩ := hright
    refine ⟨_, Custody.logs (hc.release hD rfl rfl (fun k q hq => ⟨hq, ?_⟩) fun k q hq =>
      ⟨hq, ?_⟩) rfl hD rfl⟩
    · rintro rfl
      exact hw k hq
    · rintro rfl
      exact hnot ⟨k, hq⟩
  · intro h seg lower ha hst hf hsome
    obtain ⟨pid, hl⟩ := Option.isSome_iff_exists.mp hsome
    rcases ha.1 with ⟨rfl, hpc, hlook, -⟩ | ⟨-, -, hrst, -, -⟩
    · have hgives : GivesBack h w.module (.rxFrame seg lower) := by
        simp only [GivesBack, hpc]
        exact ⟨hlook, hst, ha.2, hf⟩
      obtain ⟨hD, hw⟩ := hrest h pid hl (.inl hgives)
      exact ⟨_, hc.releaseLastTx hl hD hw⟩
    · -- a reset is no pure acknowledgement
      rw [Segment.hasFlag, hf] at hrst
      exact absurd hrst (by decide)
  · rintro h pid timestamp lower ⟨rfl, hpc, hst, hl, he⟩
    refine hc.retryPacket hl (fun hr => hrest h pid hl (.inl ?_)) fun hr hb =>
      hrest h pid hl (.inr ?_)
    · simp only [GivesBack, hpc]
      exact ⟨trivial, hst, he, hr⟩
    · simp only [Resends, hpc]
      exact ⟨trivial, hst, he, hr, hb⟩
  · intro h mac driver hi hb
    refine hc.arpResponse hb fun hmac => ?_
    rcases hi with rfl | ⟨rfl, -⟩
    · exact harp hmac
    · exact harp rfl hb

/-- The driver's packets are those of its queues, and everything else is where it belongs. -/
structure World.Sound (w : World n) (l l' : List PacketId) : Prop where
  holds : w.driver.Holds l l'
  custody : Custody w.module.1 (w.sent.toList ++ (l' ++ l))

namespace World.Sound

theorem inDriver (h : w.Sound l l') : w.inDriver = w.sent.toList ++ (l' ++ l) := by
  rw [World.inDriver, h.holds.packets]

theorem apart (h : w.Sound l l') : ∀ p ∈ l', p ∉ l := by
  intro p hp hp'
  have hnodup := (List.nodup_append.mp h.custody.nodup).2.1
  exact (List.nodup_append.mp hnodup).2.2 p hp p hp' rfl

theorem oneOwner (h : w.Sound l l') : w.OneOwner := by
  rw [World.OneOwner, h.inDriver]
  exact ⟨h.custody.nodup, h.custody.driver⟩

theorem moduleStep (h : w.Sound l l') {i : Tcp.Input n} (hok : w.Careful (.module i))
    (hs : World.moduleStep w i = some w') :
    ∃ l₁, w'.Sound l₁ l' ∧ Spared w.inDriver (newEntries w.module w'.module) := by
  obtain ⟨y, hy, rfl⟩ := Option.map_eq_some_iff.mp hs
  have hc := h.custody
  rw [← h.inDriver] at hc
  obtain ⟨D', new, hlog, hnew, hD', hc'⟩ := passes_step hc hok hy
  have hentries : newEntries w.module y = new := newEntries_eq hlog
  rw [h.inDriver, List.append_assoc] at hD'
  rw [hD'] at hc'
  dsimp only
  rw [hentries]
  refine ⟨l ++ new.filterMap Obs.accepted, ⟨h.holds.sendPackets _ ?_, ?_⟩, hnew⟩
  · exact (List.nodup_append.mp hc'.nodup).2.1
  · dsimp only
    rwa [← List.append_assoc l' l]

theorem allocatePacket (h : w.Sound l l') {pid : PacketId} {size : BitVec 16}
    (hs : w.allocatePacket pid size = some w') :
    w'.Sound l l' ∧ newEntries w.module w'.module = [] := by
  unfold World.allocatePacket at hs
  split_ifs at hs with hpid
  obtain rfl := Option.some.inj hs
  refine ⟨⟨h.holds, h.custody.allocate hpid rfl (fun q hq => Function.update_of_ne hq _ _) rfl⟩, ?_⟩
  exact newEntries_eq (List.append_nil _).symm

theorem sendPacket (h : w.Sound l l') {pid : PacketId} {ret : Err}
    (hok : w.Rightful (.sendPacket pid ret)) :
    ∃ l₁, (w.sendPacket pid ret).Sound l₁ l' := by
  obtain ⟨hin, -, hD, hw⟩ := hok
  rw [h.inDriver] at hD
  unfold World.sendPacket
  split_ifs
  · refine ⟨l ++ [pid], h.holds.sendPacket ?_ ?_ h.apart, ?_⟩
    · exact fun hl => hD (List.mem_append_right _ (List.mem_append_right _ hl))
    · exact fun hl => hD (List.mem_append_right _ (List.mem_append_left _ hl))
    · have hc := h.custody.take hD hin hw
      rwa [List.append_assoc, List.append_assoc] at hc
  · exact ⟨l, h⟩

theorem getNextTxPacket (h : w.Sound l l') (hs : w.getNextTxPacket = some w') :
    ∃ l₁, w'.Sound l l₁ ∧ newEntries w.module w'.module = [] := by
  unfold World.getNextTxPacket at hs
  cases hsent : w.sent with
  | some pid => rw [hsent] at hs; cases hs
  | none =>
    rw [hsent] at hs
    cases hd : w.driver.getNextTxPacket with
    | none => rw [hd] at hs; cases hs
    | some r =>
      obtain ⟨pid, d⟩ := r
      rw [hd] at hs
      obtain rfl := Option.some.inj hs
      obtain ⟨l₁, rfl, hholds⟩ := h.holds.getNextTxPacket h.apart hd
      have hc := h.custody
      rw [hsent] at hc
      exact ⟨l₁, ⟨hholds, hc⟩, newEntries_eq (List.append_nil _).symm⟩

/-- The network task releases the packet it tests only if no handle keeps it. -/
theorem testPacket (h : w.Sound l l') (hs : w.testPacket = some w') :
    w'.Sound l l' ∧ Spared w.driver.packets (newEntries w.module w'.module) := by
  unfold World.testPacket at hs
  cases hsent : w.sent with
  | none => rw [hsent] at hs; cases hs
  | some pid =>
    rw [hsent] at hs
    dsimp only at hs
    have hc := h.custody
    rw [hsent] at hc
    obtain ⟨hD, hnodup⟩ := List.nodup_cons.mp hc.nodup
    have hrest : Custody w.module.1 (l' ++ l) :=
      { hc with
        nodup := hnodup
        driver := fun q hq => hc.driver q (List.mem_cons_of_mem pid hq)
        waiting := fun k q hq => (hc.waiting k q hq).imp_right fun hnot hq' =>
          hnot (List.mem_cons_of_mem pid hq') }
    rw [h.holds.packets]
    split_ifs at hs with hflag
    · obtain rfl := Option.some.inj hs
      refine ⟨⟨h.holds, hrest.release hD rfl rfl (fun k q hq => ⟨hq, ?_⟩) fun k q hq =>
        ⟨hq, ?_⟩⟩, ?_⟩
      · rintro rfl
        exact (hc.waiting k q hq).2 List.mem_cons_self
      · rintro rfl
        exact (hc.pending k q hq).2 hflag
      · have hlog : newEntries w.module (w.module.1.releasePacket pid, w.module.2) =
          [.released pid] :=
          newEntries_eq rfl
        rw [hlog]
        exact ⟨hD, trivial⟩
    · obtain rfl := Option.some.inj hs
      refine ⟨⟨h.holds, hrest⟩, ?_⟩
      rw [newEntries_eq (List.append_nil _).symm]
      trivial

end World.Sound

theorem sound_step {i : World.Input n} (h : w.Sound l l') (hok : w.Careful i)
    (hs : World.step w i = some w') :
    (∃ l₁ l₁', w'.Sound l₁ l₁') ∧ Spared (w.remaining i) (newEntries w.module w'.module) := by
  have hsame {D : List PacketId} (hnew : newEntries w.module w'.module = []) :
      Spared D (newEntries w.module w'.module) := by
    rw [hnew]
    trivial
  cases i with
  | module i =>
    obtain ⟨l₁, hw', hnew⟩ := h.moduleStep hok hs
    exact ⟨⟨l₁, l', hw'⟩, hnew⟩
  | allocatePacket pid packetSize =>
    obtain ⟨hw', hnew⟩ := h.allocatePacket hs
    exact ⟨⟨l, l', hw'⟩, hsame hnew⟩
  | sendPacket pid ret =>
    obtain rfl := Option.some.inj hs
    obtain ⟨l₁, hw'⟩ := h.sendPacket hok.1
    refine ⟨⟨l₁, l', hw'⟩, hsame (newEntries_eq ?_)⟩
    rw [List.append_nil, World.sendPacket]
    split_ifs <;> rfl
  | transmit =>
    obtain ⟨d, hd, rfl⟩ := Option.map_eq_some_iff.mp hs
    obtain ⟨pid, l₁, rfl, hholds⟩ := h.holds.transmit h.apart hd
    refine ⟨⟨l₁, l' ++ [pid], hholds, ?_⟩, hsame (newEntries_eq (List.append_nil _).symm)⟩
    rw [List.append_assoc]
    exact h.custody
  | getNextTxPacket =>
    obtain ⟨l₁, hw', hnew⟩ := h.getNextTxPacket hs
    exact ⟨⟨l, l₁, hw'⟩, hsame hnew⟩
  | testPacket =>
    obtain ⟨hw', hnew⟩ := h.testPacket hs
    exact ⟨⟨l, l', hw'⟩, hnew⟩

end Step

/-- In every run of careful steps, no packet is in the driver twice, none that is there is
free, and none is released before the network task is done with it. -/
theorem transmitted_once (packets : PacketId → Packet) (port : BitVec 16) (time : Nat) {w : World n}
    (hr : Lib.Reach World.step World.Careful (World.initial n packets port time) w) :
    w.OneOwner ∧ ∀ i w', w.Careful i → World.step w i = some w' →
      Spared (w.remaining i) (newEntries w.module w'.module) := by
  have hinit : (World.initial n packets port time).Sound [] [] := by
    refine ⟨⟨Lib.queued_empty _, Lib.queued_empty _, Nat.le_refl 0⟩, List.nodup_nil,
      List.forall_mem_nil _,
      List.nodup_nil, fun h pid hp => ?_, fun h k pid hp => ?_, fun h pid hw => ?_,
        fun h k pid hw => ?_⟩
    · cases hp
    · cases hp
    · cases hw.1
    · cases hw.1
  obtain ⟨l, l', hw⟩ : ∃ l l', w.Sound l l' := by
    refine hr.invariant (I := fun w => ∃ l l', w.Sound l l')
      ⟨[], [], hinit⟩ fun w i w' h hok hs => ?_
    obtain ⟨l, l', hw⟩ := h
    exact (sound_step hw hok hs).1
  exact ⟨hw.oneOwner, fun i w' hok hs => (sound_step hw hok hs).2⟩

/-- The inputs up to the transmission of packet 7, the frames of the handshake being done. -/
def transmission (h : Fin n) : List (World.Input n) :=
  (handshake h 7 100#32 ++ compose 7 (List.replicate 40 65#8)).map .module ++
    [.transmit, .getNextTxPacket, .testPacket, .transmit, .getNextTxPacket, .testPacket,
      .module (.sendPacket h 7 (transmitting 8))]

def acknowledgement : World.Input 1 :=
  .module (.rxFrame (peerSegment 101#32 48#32 flagAck []) (transmitting 9))

/-- The driver is done with the packet before it is acknowledged. -/
theorem transmitted_once_in_time :
    ∃ w w' : World 1, w.OneOwner ∧ World.step w acknowledgement = some w' ∧
    newEntries w.module w'.module = [.released 7, .raised 0 .tx .success none] ∧
    Spared (w.remaining acknowledgement) (newEntries w.module w'.module) := by
  obtain ⟨w, hr, hw⟩ := Lib.exists_of_runInputs World.step World.Careful
    (World.initial 1 (fun _ => blankPacket) portPoolStart 7)
    (transmission 0 ++ [.transmit, .getNextTxPacket, .testPacket])
    (fun w => World.Careful w acknowledgement ∧ (World.step w acknowledgement).any fun w' =>
      newEntries w.module w'.module = [.released 7, .raised 0 .tx .success none]) (by decide)
  obtain ⟨hok, hstep⟩ := of_decide_eq_true hw
  obtain ⟨w', hs, hnew⟩ := (Option.any_eq_true _ _).mp hstep
  obtain ⟨hone, hspared⟩ := transmitted_once _ _ _ hr
  exact ⟨w, w', hone, hs, of_decide_eq_true hnew, hspared _ _ hok hs⟩

/-- An acknowledgement that overtakes the driver frees the packet in its queue. -/
theorem acknowledged_in_driver :
    ¬ ∀ (n : Nat) (packets : PacketId → Packet) (port : BitVec 16) (time : Nat)
    (w : World n), Lib.Reach World.step World.Rightful (World.initial n packets port time) w →
    w.OneOwner ∧ ∀ i w', w.Rightful i → World.step w i = some w' →
      Spared (w.remaining i) (newEntries w.module w'.module) := by
  intro hall
  obtain ⟨w, hr, hw⟩ := Lib.exists_of_runInputs World.step World.Rightful
    (World.initial 1 (fun _ => blankPacket) portPoolStart 7) (transmission 0 ++ [acknowledgement])
    (fun w => ¬ w.OneOwner) (by decide)
  exact of_decide_eq_true hw (hall 1 _ _ _ w hr).1

end NanoIp.Tcp
