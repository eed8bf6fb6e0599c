import NanoIp.Sockets.Send

/-!
# A send transmits once

The call of a blocking socket that returns success has handed exactly one packet with
the data to the layer below. On UDP this fails when a wait ends the loop before the
handle was found ready, on TCP when the packet is taken to be sent later: `*sent` is
not set there. A TCP handle that is once busy keeps the loop from returning success.
-/
namespace NanoIp.Sockets

variable {n k : Nat}

/-- The packet ends with the data, and announces nothing else. -/
def Carries (data : List Byte) (p : Packet) : Prop :=
  p.count.toNat = data.length ∧ p.bytes (p.current - data.length) data.length = data

/-- Every packet given to the call was released or taken by the layer below. -/
def Accounted (s : Sending) : Prop := s.allocated.Perm (s.released ++ s.accepted.map TxPacket.id)

/-- What a call promises once it returns. -/
def SendsOnce (data : List Byte) (result : Option (Err × Sending)) : Prop :=
  ∀ ret s, result = some (ret, s) →
    (ret = .success → s.sent = data.length ∧ ∃ p, s.accepted = [p] ∧ Carries data p.packet) ∧
    (ret ≠ .success → Accounted s)

/-- The handle is busy and a wait ends the loop of UDP, before any turn found it ready. -/
def UdpMisses : List UdpTurn → Prop
  | [] => False
  | t :: ts => t.ready ≠ .success ∧ t.wait.result = .success ∧ (t.wait.ready = true ∨ UdpMisses ts)

/-- The first packet on TCP is taken to be sent later. -/
def TcpMisses : List TcpTurn → Prop
  | [] => False
  | t :: _ => (∃ p, t.alloc = .ok p) ∧ t.send = .inProgress ∧ t.wait.result = .success

/-- The answers that make a call break its promise. -/
def Misses (m : Module n k) (socketId : BitVec 32) (data : List Byte) (endPoint : Option Endpoint)
    (udp : List UdpTurn) (tcp : List TcpTurn) : Prop :=
  ∃ i, m.get socketId = some i ∧
    match (m.sockets i).type with
    | .udp => endPoint ≠ none ∧ UdpMisses udp
    | .tcp => data ≠ [] ∧ TcpMisses tcp

section Packets

theorem packetSize_toNat {data : List Byte} (hd : data.length < 2 ^ 16) :
    (packetSize data).toNat = data.length := Nat.mod_eq_of_lt hd

theorem fill_eq {data : List Byte} (hd : data.length < 2 ^ 16) (p : Packet) :
    fill data p = p.writeBuffer data := by
  rw [fill, packetSize_toNat hd, List.take_length]

theorem fill_carries {data : List Byte} (hd : data.length < 2 ^ 16) {p : Packet}
    (hp : p.count = 0#16) :
    Carries data (fill data p) := by
  rw [fill_eq hd]
  constructor
  · show (p.count + BitVec.ofNat 16 data.length).toNat = data.length
    rw [hp, BitVec.zero_add]
    exact Nat.mod_eq_of_lt hd
  · apply List.ext_getElem
    · exact Packet.bytes_length _ _ _
    · intro i _ hi
      rw [Packet.bytes_getElem]
      show Packet.store p.data p.current data (p.current + data.length - data.length + i) = data[i]
      rw [Nat.add_sub_cancel]
      exact Packet.store_inside _ _ _ _ hi

end Packets

section Accounts

theorem accounted_start : Accounted .start := List.Perm.nil

theorem Accounted.sent {s : Sending} (h : Accounted s) (sent : Nat) :
    Accounted { s with sent := sent } := h

theorem Accounted.take {s : Sending} (h : Accounted s) (id : PacketId) (p : Packet)
    (endPoint : Option Endpoint) : Accounted ((s.allocate id).take ⟨id, p, endPoint⟩) := by
  show (s.allocated ++ [id]).Perm
    (s.released ++ List.map TxPacket.id (s.accepted ++ [⟨id, p, endPoint⟩]))
  rw [List.map_append, ← List.append_assoc]
  exact h.append_right _

theorem Accounted.release {s : Sending} (h : Accounted s) (id : PacketId) :
    Accounted ((s.allocate id).release id) := by
  show (s.allocated ++ [id]).Perm ((s.released ++ [id]) ++ s.accepted.map TxPacket.id)
  rw [List.append_assoc]
  refine (h.append_right _).trans ?_
  rw [List.append_assoc]
  exact List.Perm.append_left _ List.perm_append_comm

theorem udpAttempt_accounted {s : Sending} (h : Accounted s) (endPoint : Endpoint)
    (data : List Byte) (t : UdpTurn) : Accounted (udpAttempt endPoint data t s).2.1 := by
  unfold udpAttempt
  by_cases hready : t.ready = .success
  · rw [if_pos hready]
    cases t.alloc with
    | error e => exact h
    | ok p =>
      dsimp only
      split_ifs
      · exact (h.take _ _ _).sent _
      · exact h.release _
  · rw [if_neg hready]
    exact h

theorem udpTurn_accounted {s : Sending} (h : Accounted s) (nonBlocking : Bool) (endPoint : Endpoint)
    (data : List Byte) (t : UdpTurn) : Accounted (udpTurn nonBlocking endPoint data t s).2.1 := by
  have ha := udpAttempt_accounted h endPoint data t
  simp only [udpTurn]
  split_ifs
  · exact ha.sent 0
  · exact ha
  · exact ha

theorem udpSend_accounted (nonBlocking : Bool) (endPoint : Endpoint) (data : List Byte) :
    ∀ (ts : List UdpTurn) (s : Sending), Accounted s →
      ∀ ret s', udpSend nonBlocking endPoint data ts s = some (ret, s') → Accounted s' := by
  intro ts
  induction ts with
  | nil => intro s _ ret s' h; cases h
  | cons t ts ih =>
    intro s hs ret s' h
    have ht := udpTurn_accounted hs nonBlocking endPoint data t
    simp only [udpSend] at h
    split_ifs at h with hc
    · exact ih _ ht ret s' h
    · obtain ⟨-, hs'⟩ := Prod.mk.inj (Option.some.inj h)
      rwa [hs'] at ht

theorem tcpTurn_accounted {s : Sending} (h : Accounted s) (nonBlocking : Bool) (data : List Byte)
    (t : TcpTurn) (resend : Bool) : Accounted (tcpTurn nonBlocking data t resend s).2.1 := by
  rw [tcpTurn]
  cases t.alloc with
  | error e => exact h
  | ok p =>
    dsimp only
    split
    · exact (h.take _ _ _).sent _
    · exact h.take _ _ _
    · exact h.release _
    · exact h.release _

theorem tcpSend_accounted (nonBlocking : Bool) (data : List Byte) :
    ∀ (ts : List TcpTurn) (resend : Bool) (s : Sending), Accounted s →
      ∀ ret s', tcpSend nonBlocking data ts resend s = some (ret, s') → Accounted s' := by
  intro ts
  induction ts with
  | nil => intro resend s _ ret s' h; cases h
  | cons t ts ih =>
    intro resend s hs ret s' h
    have ht := tcpTurn_accounted hs nonBlocking data t resend
    simp only [tcpSend] at h
    split_ifs at h with hc
    · exact ih _ _ ht ret s' h
    · obtain ⟨-, hs'⟩ := Prod.mk.inj (Option.some.inj h)
      rwa [hs'] at ht

end Accounts

section Udp

/-- A turn that finds the handle ready ends the loop; with success it sent the data. -/
theorem udpTurn_ready (endPoint : Endpoint) {data : List Byte} (hd : data.length < 2 ^ 16)
    {t : UdpTurn} (hr : t.ready = .success) (s : Sending) :
    (udpTurn false endPoint data t s).2.2 = false ∧
    ((udpTurn false endPoint data t s).1 = .success →
      (udpTurn false endPoint data t s).2.1.sent = data.length ∧
      ∃ p, (udpTurn false endPoint data t s).2.1.accepted = s.accepted ++ [p] ∧
        Carries data p.packet) := by
  have hattempt : ∃ ret s', udpAttempt endPoint data t s = (ret, s', false) ∧
      (ret = .success ∨ ret = .inProgress → s'.sent = data.length ∧
        ∃ p, s'.accepted = s.accepted ++ [p] ∧ Carries data p.packet) := by
    rw [udpAttempt, if_pos hr]
    cases t.alloc with
    | error e => exact ⟨_, _, rfl, fun h => absurd ((accepted_iff e.1).mpr h) (by rw [e.2]; decide)⟩
    | ok p =>
      by_cases hsend : t.send.accepted = true
      · refine ⟨_, _, if_pos hsend, fun _ => ⟨packetSize_toNat hd, _, rfl, ?_⟩⟩
        exact fill_carries hd rfl
      · refine ⟨_, _, if_neg hsend, fun h => absurd ((accepted_iff _).mpr h) hsend⟩
  obtain ⟨ret, s', he, hsent⟩ := hattempt
  simp only [udpTurn, he]
  by_cases hp : ret = .inProgress
  · have hdone := hsent (.inr hp)
    simp only [hp, Bool.false_eq_true, or_true, not_false_eq_true, and_self, ↓reduceIte,
      Bool.false_and,
      true_and]
    intro hw
    rw [if_neg (by rw [hw]; decide)]
    exact hdone
  · simp only [hp, Bool.false_eq_true, or_self, false_and, ↓reduceIte, true_and]
    exact fun hs => hsent (.inl hs)

theorem udpTurn_busy (endPoint : Endpoint) (data : List Byte) {t : UdpTurn}
    (hr : t.ready ≠ .success) (s : Sending) :
    (udpTurn false endPoint data t s).1 = t.wait.result ∧
    (udpTurn false endPoint data t s).2.1.accepted = s.accepted ∧
    (udpTurn false endPoint data t s).2.2 = !t.wait.ready := by
  simp only [udpTurn, udpAttempt, if_neg hr, Bool.false_eq_true, not_false_eq_true, true_or,
    and_self, ↓reduceIte,
    Bool.true_and, true_and, and_true]
  split_ifs <;> rfl

/-- With success, the loop sent the data once, or it missed to send it. -/
theorem udpSend_success {endPoint : Endpoint} {data : List Byte} (hd : data.length < 2 ^ 16) :
    ∀ (ts : List UdpTurn) (s s' : Sending), s.accepted = [] →
      udpSend false endPoint data ts s = some (.success, s') →
      (UdpMisses ts ∧ s'.accepted = []) ∨
      (¬ UdpMisses ts ∧ s'.sent = data.length ∧ ∃ p, s'.accepted = [p] ∧
        Carries data p.packet) := by
  intro ts
  induction ts with
  | nil => intro s s' _ h; cases h
  | cons t ts ih =>
    intro s s' hs h
    simp only [udpSend] at h
    by_cases hr : t.ready = .success
    · obtain ⟨hretry, hdone⟩ := udpTurn_ready endPoint hd hr s
      rw [hretry, if_neg (by simp)] at h
      obtain ⟨hret, hs'⟩ := Prod.mk.inj (Option.some.inj h)
      obtain ⟨hsent, p, hp, hc⟩ := hdone hret
      rw [hs', hs] at hp
      rw [hs'] at hsent
      exact .inr ⟨fun hm => hm.1 hr, hsent, p, hp, hc⟩
    · obtain ⟨hret, hacc, hretry⟩ := udpTurn_busy endPoint data hr s
      rw [hret, hretry] at h
      by_cases hw : t.wait.result = .success
      · by_cases hready : t.wait.ready = true
        · rw [if_neg (by simp [hready])] at h
          obtain ⟨-, hs'⟩ := Prod.mk.inj (Option.some.inj h)
          exact .inl ⟨⟨hr, hw, .inl hready⟩, by rw [← hs', hacc, hs]⟩
        · rw [if_pos ⟨by simpa using hready, hw⟩] at h
          have hmiss : UdpMisses (t :: ts) ↔ UdpMisses ts :=
            ⟨fun hm => hm.2.2.resolve_left hready, fun hm => ⟨hr, hw, .inr hm⟩⟩
          rw [hmiss]
          exact ih _ s' (hacc.trans hs) h
      · rw [if_neg (fun hc => hw hc.2)] at h
        exact absurd (Prod.mk.inj (Option.some.inj h)).1 hw

theorem udpSend_of_misses (endPoint : Endpoint) (data : List Byte) :
    ∀ (ts : List UdpTurn) (s : Sending), UdpMisses ts →
      ∃ s', udpSend false endPoint data ts s = some (.success, s') := by
  intro ts
  induction ts with
  | nil => intro s h; exact h.elim
  | cons t ts ih =>
    intro s ⟨hr, hw, hm⟩
    obtain ⟨hret, -, hretry⟩ := udpTurn_busy endPoint data hr s
    simp only [udpSend, hret, hretry, hw, and_true]
    by_cases hready : t.wait.ready = true
    · exact ⟨_, if_neg (by simp [hready])⟩
    · rw [if_pos (by simpa using hready)]
      exact ih _ (hm.resolve_left hready)

end Udp

section Tcp

theorem tcpTurn_resend (data : List Byte) (t : TcpTurn) (s : Sending) :
    (tcpTurn false data t true s).2.2 = true := by
  rw [tcpTurn]
  cases t.alloc with
  | error e => rfl
  | ok p =>
    dsimp only
    split <;> rfl

/-- `resend` is never reset: once set, the loop does not return success. -/
theorem tcpSend_resend (data : List Byte) :
    ∀ (ts : List TcpTurn) (s s' : Sending), tcpSend false data ts true s ≠ some (.success, s') := by
  intro ts
  induction ts with
  | nil => intro s s' h; cases h
  | cons t ts ih =>
    intro s s' h
    simp only [tcpSend, tcpTurn_resend, and_true] at h
    split_ifs at h with hret
    · exact ih _ s' h
    · exact hret (Prod.mk.inj (Option.some.inj h)).1

/-- With success, the first turn ended the loop: what it sent is the data, and `*sent`
says so unless the packet is still to be sent. -/
theorem tcpSend_success {data : List Byte} (hd : data.length < 2 ^ 16) {ts : List TcpTurn}
    {s' : Sending} (h : tcpSend false data ts false .start = some (.success, s')) :
    (∃ p, s'.accepted = [p] ∧ Carries data p.packet) ∧
    ((TcpMisses ts ∧ s'.sent = 0) ∨ (¬ TcpMisses ts ∧ s'.sent = data.length)) := by
  cases ts with
  | nil => cases h
  | cons t ts =>
    obtain ⟨alloc, send, wait⟩ := t
    cases alloc with
    | error e =>
      simp only [tcpSend, tcpTurn, Bool.false_eq_true, and_false, ↓reduceIte] at h
      have he := e.2
      rw [(Prod.mk.inj (Option.some.inj h)).1] at he
      cases he
    | ok p =>
      cases send
      case success =>
        simp only [tcpSend, tcpTurn, Bool.false_eq_true, and_false, ↓reduceIte] at h
        obtain ⟨-, rfl⟩ := Prod.mk.inj (Option.some.inj h)
        exact ⟨⟨_, rfl, fill_carries hd rfl⟩,
          .inr ⟨fun hm => (nomatch hm.2.1), packetSize_toNat hd⟩⟩
      case inProgress =>
        simp only [tcpSend, tcpTurn, Bool.false_eq_true, and_false, ↓reduceIte] at h
        obtain ⟨hret, rfl⟩ := Prod.mk.inj (Option.some.inj h)
        exact ⟨⟨_, rfl, fill_carries hd rfl⟩, .inl ⟨⟨⟨p, rfl⟩, rfl, hret⟩, rfl⟩⟩
      case busy =>
        simp only [tcpSend, tcpTurn, Bool.false_eq_true, and_true, ↓reduceIte] at h
        split_ifs at h with hret
        · exact absurd h (tcpSend_resend data ts _ s')
        · exact absurd (Prod.mk.inj (Option.some.inj h)).1 hret
      -- the other results end the loop
      all_goals
        simp only [tcpSend, tcpTurn, Bool.false_eq_true, and_false, ↓reduceIte] at h
        cases (Prod.mk.inj (Option.some.inj h)).1

theorem tcpSend_of_misses (data : List Byte) {ts : List TcpTurn} (h : TcpMisses ts) :
    ∃ s', tcpSend false data ts false .start = some (.success, s') := by
  cases ts with
  | nil => exact h.elim
  | cons t ts =>
    obtain ⟨⟨p, ha⟩, hsend, hret⟩ := h
    simp only [tcpSend, tcpTurn, ha, hsend, hret, Bool.false_eq_true, and_false, ↓reduceIte]
    exact ⟨_, rfl⟩

end Tcp

theorem sendsOnce_invalidArg (data : List Byte) : SendsOnce data (some (.invalidArg, .start)) := by
  intro ret s h
  obtain ⟨rfl, rfl⟩ := Prod.mk.inj (Option.some.inj h)
  exact ⟨nofun, fun _ => accounted_start⟩

theorem udpSend_sendsOnce_iff (endPoint : Endpoint) {data : List Byte} (hd : data.length < 2 ^ 16)
    (ts : List UdpTurn) :
    SendsOnce data (udpSend false endPoint data ts .start) ↔ ¬ UdpMisses ts := by
  constructor
  · intro hone hm
    obtain ⟨s', hs'⟩ := udpSend_of_misses endPoint data ts .start hm
    obtain ⟨-, p, hp, -⟩ := (hone _ _ hs').1 rfl
    rcases udpSend_success hd ts .start s' rfl hs' with ⟨-, hnone⟩ | ⟨hno, -⟩
    · rw [hnone] at hp
      cases hp
    · exact hno hm
  · intro hno ret s' hs'
    refine ⟨fun hret => ?_, fun _ => udpSend_accounted _ _ _ ts _ accounted_start _ _ hs'⟩
    rw [hret] at hs'
    rcases udpSend_success hd ts .start s' rfl hs' with ⟨hm, -⟩ | ⟨-, hone⟩
    · exact absurd hm hno
    · exact hone

theorem tcpSend_sendsOnce_iff {data : List Byte} (hd : data.length < 2 ^ 16) (ts : List TcpTurn) :
    SendsOnce data (tcpSend false data ts false .start) ↔ ¬ (data ≠ [] ∧ TcpMisses ts) := by
  constructor
  · rintro hone ⟨hne, hm⟩
    obtain ⟨s', hs'⟩ := tcpSend_of_misses data hm
    have hsent := ((hone _ _ hs').1 rfl).1
    rcases (tcpSend_success hd hs').2 with ⟨-, hzero⟩ | ⟨hno, -⟩
    · exact hne (List.length_eq_zero_iff.mp (hsent.symm.trans hzero))
    · exact hno hm
  · intro hno ret s' hs'
    refine ⟨fun hret => ?_, fun _ => tcpSend_accounted _ _ ts _ _ accounted_start _ _ hs'⟩
    rw [hret] at hs'
    obtain ⟨hp, hsent⟩ := tcpSend_success hd hs'
    refine ⟨?_, hp⟩
    rcases hsent with ⟨hm, hzero⟩ | ⟨-, hsent⟩
    · rw [hzero]
      by_contra hne
      exact hno ⟨fun hnil => hne (by rw [hnil]; rfl), hm⟩
    · exact hsent

/-- A call on a blocking socket sends once exactly if the answers it gets are not
those that make its loop miss. -/
theorem sendsOnce_iff (m : Module n k) (socketId : BitVec 32) (data : List Byte)
    (endPoint : Option Endpoint) (udp : List UdpTurn) (tcp : List TcpTurn)
    (hd : data.length < 2 ^ 16)
    (hb : ∀ i, m.get socketId = some i → (m.sockets i).nonBlocking = false) :
    SendsOnce data (sendTo m socketId data endPoint udp tcp) ↔
      ¬ Misses m socketId data endPoint udp tcp := by
  unfold sendTo Misses
  cases hget : m.get socketId with
  | none => exact iff_of_true (sendsOnce_invalidArg data) (by rintro ⟨i, hi, -⟩; cases hi)
  | some i =>
    have hsome (P : Fin n → Prop) : (∃ j, some i = some j ∧ P j) ↔ P i :=
      ⟨by rintro ⟨j, hj, hp⟩; cases hj; exact hp, fun hp => ⟨i, rfl, hp⟩⟩
    rw [hsome]
    cases ht : (m.sockets i).type with
    | udp =>
      cases endPoint with
      | none =>
        simp only [ht]
        exact iff_of_true (sendsOnce_invalidArg data) (fun h => h.1 rfl)
      | some e =>
        simp only [ht, hb i hget]
        rw [udpSend_sendsOnce_iff e hd]
        exact not_congr ⟨fun h => ⟨nofun, h⟩, fun h => h.2⟩
    | tcp =>
      simp only [ht, hb i hget]
      exact tcpSend_sendsOnce_iff hd tcp

def sending (type : SocketType) : Module 1 1 :=
  (Module.init : Module 1 1).modify ⟨0, Nat.one_pos⟩ fun s =>
    { s with isFree := false, type := type }

def blank : Packet := ⟨fun _ => 0#8, 0, 0#16, 0#16, 0#32, none⟩

/-- The handle is ready at once and the driver takes the datagram; a TCP packet is
taken at once. -/
theorem sendsOnce_iff_ready :
    SendsOnce [1, 2, 3] (sendTo (sending .udp) 0#32 [1, 2, 3] (some ⟨0x0A000002#32, 80#16⟩)
      [⟨.success, .ok (0, blank), .success, ⟨.success, 0#32, false⟩⟩] []) ∧
    SendsOnce [1, 2, 3] (sendTo (sending .tcp) 0#32 [1, 2, 3] none []
      [⟨.ok (0, blank), .success, ⟨.success, 0#32, false⟩⟩]) := by
  constructor
  · refine (sendsOnce_iff (sending .udp) 0#32 [1, 2, 3] _ _ [] (by decide) (by decide)).mpr ?_
    rintro ⟨i, hi, hm⟩
    obtain rfl : i = 0 := Subsingleton.elim _ _
    exact hm.2.1 rfl
  · refine (sendsOnce_iff (sending .tcp) 0#32 [1, 2, 3] none [] _ (by decide) (by decide)).mpr ?_
    rintro ⟨i, hi, hm⟩
    obtain rfl : i = 0 := Subsingleton.elim _ _
    exact absurd hm.2.2.1 (by decide)

/-- The handle is busy at first and a transmission ends: the call returns success
with nothing sent. -/
theorem busy_datagram_lost : ¬ ∀ (m : Module 1 1) (socketId : BitVec 32) (data : List Byte)
    (endPoint : Option Endpoint) (udp : List UdpTurn) (tcp : List TcpTurn), data.length < 2 ^ 16 →
    (∀ i, m.get socketId = some i → (m.sockets i).nonBlocking = false) →
    SendsOnce data (sendTo m socketId data endPoint udp tcp) := by
  intro hall
  have hone := hall (sending .udp) 0#32 [1, 2, 3] (some ⟨0x0A000002#32, 80#16⟩)
    [⟨.busy, .ok (0, blank), .success, ⟨.success, eventTx, false⟩⟩] [] (by decide) (by decide)
  obtain ⟨-, p, hp, -⟩ := (hone .success .start rfl).1 rfl
  cases hp

end NanoIp.Sockets
