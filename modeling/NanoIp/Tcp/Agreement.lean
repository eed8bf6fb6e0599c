import NanoIp.Tcp.Unreliable

/-!
# Stop-and-wait agreement

Each direction of a connection over the unreliable network is a stop-and-wait transfer:
the data segments of the sender are numbered by what it accepted before, and the pure
acknowledgements of the receiver announce what it has delivered. The handles follow
their transfers as long as they are established.
-/
namespace NanoIp.Tcp

open Lib (Side Transfer)

variable {n : Nat}

/-- The handle has sent its SYN and is not closing. -/
def State.sending : State → Bool
  | .synSent | .synReceived | .established => true
  | _ => false

def Stack.items (m : Stack n) (h : Fin n) : List (Nat × List Byte) :=
  ((m.sent h).filter Segment.isData).map fun seg => (seg.seqNumber.toNat, seg.payload)

def Stack.announced (m : Stack n) (h : Fin n) : List Nat :=
  ((m.sent h).filter fun seg => seg.flags = flagAck).map fun seg => seg.ackNumber.toNat

/-- The transfer from handle `h` to handle `p`. -/
def transfer (h p : Fin n) (m m' : Stack n) : Transfer (List Byte) where
  accepted := m.accepted h
  confirmed := m.confirmed h
  delivered := m'.delivered p
  items := m.items h
  announced := m'.announced p

/-- The number behind payloads that start at `base`. -/
abbrev numberBehind (base : Nat) (l : List (List Byte)) : Nat := Transfer.behind List.length base l

/-- Either everything accepted is confirmed, or all but the last, which is pending. -/
inductive Handle.Pending (k : Handle n) (accepted : List (List Byte)) (confirmed : Nat) : Prop
  | none (hl : k.lastTxPacket = none) (hc : confirmed = accepted.length)
  | some (pid : PacketId) (earlier : List (List Byte)) (payload : List Byte)
      (hl : k.lastTxPacket = some pid)
      (ha : accepted = earlier ++ [payload]) (hc : confirmed = earlier.length)
      (hn : k.lastTxPacketCount.toNat = payload.length)

/-- How the handles stand to the transfer from `h` to `p`, whose first byte has number `base`. -/
structure Direction (h p : Fin n) (base : Nat) (m m' : Stack n) : Prop where
  run : Transfer.Reaches List.length base (transfer h p m m')
  fits : numberBehind base (m.accepted h) < 2 ^ 32
  syn : ∀ seg ∈ m.sent h, seg.hasFlag flagSyn = true → seg.seqNumber + 1#32 = BitVec.ofNat 32 base
  number : (m.mem h).state.receiving = true →
    (m.mem h).seqNumber = BitVec.ofNat 32 (numberBehind base (m.accepted h))
  pending : (m.mem h).state.sending = true → (m.mem h).Pending (m.accepted h) (m.confirmed h)
  heard : (m'.mem p).state.receiving = true → Opened h m ∧
    (m'.mem p).ackNumber = BitVec.ofNat 32 (numberBehind base (m'.delivered p))
  answered : ∀ seg ∈ m'.sent p, seg.flags = flagAck → Opened h m
  greeted : ∀ seg ∈ m'.sent p, seg.flags = flagSyn ||| flagAck → Opened h m ∧
    seg.ackNumber = BitVec.ofNat 32 base

theorem toNat_of_eq_ofNat {a : BitVec 32} {k : Nat} (ha : a = BitVec.ofNat 32 k) (hk : k < 2 ^ 32) :
    a.toNat = k := by
  rw [ha, BitVec.toNat_ofNat, Nat.mod_eq_of_lt hk]

namespace Direction

variable {h p : Fin n} {base : Nat} {x y z : Stack n × Pc n} {i : Input n} {m : Stack n}

theorem agreed {m' : Stack n} (hd : Direction h p base m m') :
    Transfer.Agreed List.length base (transfer h p m m') := hd.run.agreed

theorem delivered_lt {m' : Stack n} (hd : Direction h p base m m') :
    numberBehind base (m'.delivered p) < 2 ^ 32 :=
  Nat.lt_of_le_of_lt (Transfer.behind_le hd.agreed.ordered) hd.fits

end Direction

section Sent

variable {h : Fin n} {x y : Stack n × Pc n} {i : Input n}

theorem step_items (hs : step x i = some y) (h : Fin n) : y.1.items h =
    x.1.items h ++ ((newlySent h x y).filter Segment.isData).map fun seg =>
      (seg.seqNumber.toNat, seg.payload) := by
  rw [Stack.items, step_sent hs, List.filter_append, List.map_append]
  rfl

theorem step_announced (hs : step x i = some y) (h : Fin n) : y.1.announced h = x.1.announced h ++
    ((newlySent h x y).filter fun seg => seg.flags = flagAck).map fun seg =>
      seg.ackNumber.toNat := by
  rw [Stack.announced, step_sent hs, List.filter_append, List.map_append]
  rfl

theorem same_data (hs : step x i = some y) (hno : ¬ ∃ pid lower, i = .sendPacket h pid lower ∧
    (x.1.mem h).state = .established ∧ (x.1.mem h).lastTxPacket = none) :
    y.1.accepted h = x.1.accepted h ∧ y.1.items h = x.1.items h := by
  rw [step_accepted hs, step_items hs, no_data hs hno, List.map_nil, List.map_nil, List.append_nil,
    List.append_nil]
  exact ⟨rfl, rfl⟩

theorem Own.no_accepted (ho : Own h x) (hno : ¬ Opened h x.1) :
    x.1.accepted h = [] ∧ x.1.items h = [] := by
  have hnone : (x.1.sent h).filter Segment.isData = [] := by
    rw [List.filter_eq_nil_iff]
    exact fun seg hin hd => hno (ho.speaks seg hin (.inl hd))
  rw [Stack.accepted, Stack.items, hnone]
  exact ⟨rfl, rfl⟩

theorem Own.not_busy (ho : Own h x) : (x.1.mem h).ipv4Handle.busy = false := by
  rw [Bool.eq_false_iff]
  intro hbusy
  obtain ⟨o, hin, hq⟩ := ho.queued hbusy
  have hreg := ho.regular o hin
  cases hq with
  | output seg => cases (hreg rfl).1
  | resent pid => cases hreg rfl

/-- The handle has its SYN behind it and keeps its pending packet. -/
structure KeepsPending (k k' : Handle n) : Prop where
  sending : k.state.sending = true
  lastTxPacket : k'.lastTxPacket = k.lastTxPacket
  lastTxPacketCount : k'.lastTxPacketCount = k.lastTxPacketCount

/-- What a step other than an accepted packet does to the sender: it confirms the pending
packet, begins the connection, or leaves it as it is. -/
theorem sender_cases (ho : Own h x) (hs : step x i = some y)
    (hno : ¬ ∃ pid lower, i = .sendPacket h pid lower ∧ (x.1.mem h).state = .established ∧
      (x.1.mem h).lastTxPacket = none) :
    (∃ seg lower pid, Acknowledges x h i seg lower ∧ (x.1.mem h).state = .established ∧
      (x.1.mem h).lastTxPacket = some pid ∧ seg.flags = flagAck ∧
      (y.1.mem h).conn = { (x.1.mem h).conn with lastTxPacket := none } ∧
      y.1.confirmed h = x.1.confirmed h + 1) ∨
    (y.1.confirmed h = x.1.confirmed h ∧
      (((x.1.mem h).state = .idle ∧ ((y.1.mem h).state = .synSent ∨ (y.1.mem h).state = .synReceived) ∧
          (y.1.mem h).lastTxPacket = (x.1.mem h).lastTxPacket) ∨
        ((y.1.mem h).state.sending = true → KeepsPending (x.1.mem h) (y.1.mem h)))) := by
  obtain ⟨k, new, heff, hk, he⟩ := step_effect hs h
  have hst : (y.1.mem h).state = k.state := by rw [← hk]; rfl
  have hlast : (y.1.mem h).lastTxPacket = k.lastTxPacket := by rw [← hk]; rfl
  have hcount : (y.1.mem h).lastTxPacketCount = k.lastTxPacketCount := by rw [← hk]; rfl
  have hconf := confirmed_append he
  have hkeep (hnew : new.countP (fun e => e.1 = .tx) = 0)
      (hor : ((x.1.mem h).state = .idle ∧ (k.state = .synSent ∨ k.state = .synReceived) ∧
          k.lastTxPacket = (x.1.mem h).lastTxPacket) ∨
        (k.state.sending = true → KeepsPending (x.1.mem h) k)) :
      y.1.confirmed h = x.1.confirmed h ∧
      (((x.1.mem h).state = .idle ∧ ((y.1.mem h).state = .synSent ∨ (y.1.mem h).state = .synReceived) ∧
          (y.1.mem h).lastTxPacket = (x.1.mem h).lastTxPacket) ∨
        ((y.1.mem h).state.sending = true → KeepsPending (x.1.mem h) (y.1.mem h))) := by
    rw [hconf, hnew, hst, hlast]
    refine ⟨rfl, hor.imp_right fun hsame hsending => ?_⟩
    obtain ⟨h1, h2, h3⟩ := hsame hsending
    exact ⟨h1, hlast.trans h2, hcount.trans h3⟩
  cases heff with
  | acked seg lower pid hack hx hl hf => exact .inl ⟨seg, lower, pid, hack, hx, hl, hf, hk, hconf⟩
  | sent pid lower hi hl hx => exact absurd ⟨pid, lower, hi, hx, hl⟩ hno
  | arpSent mac driver hi =>
    subst hi
    cases step_move hs with
    | arpResponse _ _ _ _ hb =>
      rw [ho.not_busy] at hb
      cases hb
    | call _ _ _ hc => cases hc
  | connected _ _ _ _ hx => exact .inr (hkeep rfl (.inl ⟨hx, .inl rfl, rfl⟩))
  | answered _ _ _ _ _ _ _ hx => exact .inr (hkeep rfl (.inl ⟨hx, .inr rfl, rfl⟩))
  | bound _ _ _ hx | connectRefused _ _ _ _ hx | answerRefused _ _ _ _ _ _ _ hx | openRefused _ _ _ hx =>
    exact .inr (hkeep rfl (.inr fun hk => by simp [hx, State.sending] at hk))
  | opened | listening | closedByCall | reset | invalid | fin | closeAcknowledged |
      finAcknowledged | finWait
  | exhausted => exact .inr (hkeep rfl (.inr fun hk => by simp [State.sending] at hk))
  | timedOut _ _ event _ _ _ hevent =>
    refine .inr (hkeep ?_ (.inr fun hk => by simp [State.sending] at hk))
    rcases hevent with ⟨-, rfl⟩ | ⟨-, rfl⟩ | ⟨-, rfl⟩ <;> rfl
  | accepted _ _ _ hx | synAcknowledged _ _ _ hx =>
    exact .inr (hkeep rfl (.inr fun _ => ⟨by rw [hx]; rfl, rfl, rfl⟩))
  | _ => exact .inr (hkeep rfl (.inr fun hk => ⟨hk, rfl, rfl⟩))

/-- The sequence number of a handle that receives is the one it had, the one that the SYN|ACK
acknowledges, or the one behind the SYN|ACK it sends. -/
theorem step_seqNumber (ho : Own h x) (hs : step x i = some y)
    (hno : ¬ ∃ pid lower, i = .sendPacket h pid lower ∧ (x.1.mem h).state = .established ∧
      (x.1.mem h).lastTxPacket = none) (hy : (y.1.mem h).state.receiving = true) :
    ((x.1.mem h).state.receiving = true ∧ (y.1.mem h).seqNumber = (x.1.mem h).seqNumber) ∨
    ((x.1.mem h).state = .synSent ∧ ∃ seg lower, Acknowledges x h i seg lower ∧
      seg.flags = flagSyn ||| flagAck ∧ (y.1.mem h).seqNumber = seg.ackNumber) ∨
    ((x.1.mem h).state = .idle ∧ (y.1.mem h).state = .synReceived) := by
  obtain ⟨k, new, heff, hk, -⟩ := step_effect hs h
  have hst : (y.1.mem h).state = k.state := by rw [← hk]; rfl
  have hseq : (y.1.mem h).seqNumber = k.seqNumber := by rw [← hk]; rfl
  rw [hst] at hy ⊢
  rw [hseq]
  cases heff with
  | synAcknowledged seg lower hack hx hf =>
      exact .inr (.inl ⟨hx, seg, lower, hack, hf, hack.2.symm⟩)
  | answered _ _ _ _ _ _ _ hx => exact .inr (.inr ⟨hx, rfl⟩)
  | sent pid lower hi hl hx => exact absurd ⟨pid, lower, hi, hx, hl⟩ hno
  | accepted _ _ _ hx => exact .inl ⟨by rw [hx]; rfl, rfl⟩
  | listener seg _ _ _ _ _ hpc =>
    have hrec := (ho.accepting h seg hpc).2 rfl
    cases hrec.symm.trans hy
  | connectRefused _ _ _ _ hx | answerRefused _ _ _ _ _ _ _ hx => simp [hx, State.receiving] at hy
  | opened | connected | listening | closedByCall | reset | invalid | fin | closeAcknowledged |
      finAcknowledged
  | finWait | timedOut | exhausted => cases hy
  | _ => exact .inl ⟨hy, rfl⟩

end Sent

section Data

variable {h : Fin n} {x y : Stack n × Pc n} {pid : PacketId} {lower : Lower}

theorem sendPacket_frames {k : Fin n} {flags : Byte}
    (hf : Frames x (.sendPacket h pid lower) k flags) : k = h := by
  cases hf with
  | sendPacket _ _ hi => cases hi; rfl
  | connect _ _ _ hi | close _ hi | accept _ _ _ _ hi => cases hi
  | acknowledge _ _ _ hack => rcases hack.1 with ⟨hi, -⟩ | ⟨_, _, _, hi, -⟩ <;> cases hi
  | reset _ _ hp => rcases hp with ⟨hi, -⟩ | ⟨_, _, _, hi, -⟩ <;> cases hi

theorem sendPacket_newlySent (hs : step x (.sendPacket h pid lower) = some y) :
    newlySent h x y = (newEntries x y).filterMap Obs.transmitted := by
  refine List.filterMap_congr fun o ho => ?_
  cases (step_writes hs).entries ho with
  | output k flags seg ret hf _ =>
    obtain rfl := sendPacket_frames hf
    cases ret <;> simp [Obs.sentBy, Obs.transmitted]
  | _ => rfl

theorem sendPacket_success (hs : step x (.sendPacket h pid lower) = some y)
    (hreg : ∀ o ∈ y.1.log, o.Regular h) (hst : (x.1.mem h).state = .established)
    (hl : (x.1.mem h).lastTxPacket = none) :
    (sendPacket x.1 h pid lower).2 = .success := by
  cases step_move hs with
  | call _ m' _ hc =>
    obtain rfl := Option.some.inj hc
    obtain ⟨rest, hlog⟩ := finalizeAndSendPacket_log (keepPacket x.1 h pid) h
      (flagPsh ||| flagAck) lower pid
    obtain ⟨seg, hin⟩ : ∃ seg,
      .output h seg (finalizeAndSendPacket (keepPacket x.1 h pid) h (flagPsh ||| flagAck) pid
        lower).2 ∈ (finalizeAndSendPacket (keepPacket x.1 h pid) h (flagPsh ||| flagAck) pid
          lower).1.log :=
      ⟨_, hlog ▸ List.mem_append.mpr (.inr List.mem_cons_self)⟩
    rw [sendPacket_eq pid lower hl hst] at hreg ⊢
    dsimp only at hreg ⊢
    refine (hreg (.output h seg _) ?_ rfl).1
    split_ifs
    · exact hin
    · exact hin

/-- An accepted packet is one data segment with the number of the handle, which moves behind it. -/
theorem sendPacket_data (hs : step x (.sendPacket h pid lower) = some y)
    (hreg : ∀ o ∈ y.1.log, o.Regular h) (hst : (x.1.mem h).state = .established)
    (hl : (x.1.mem h).lastTxPacket = none) : ∃ seg : Segment,
      newlySent h x y = [seg] ∧ seg.isData = true ∧ seg.payload ≠ [] ∧
      seg.seqNumber.toNat + seg.payload.length < 2 ^ 32 ∧
      seg.seqNumber = (x.1.mem h).seqNumber ∧ (y.1.mem h).seqNumber = seg.nextSeq ∧
      (y.1.mem h).state = .established ∧ (y.1.mem h).lastTxPacket = some pid ∧
      (y.1.mem h).lastTxPacketCount.toNat = seg.payload.length ∧ y.1.eventsOf h =
        x.1.eventsOf h := by
  have hr := sendPacket_success hs hreg hst hl
  have hnew := sendPacket_newlySent hs
  cases step_move hs with
  | call _ m' _ hc =>
    obtain rfl := Option.some.inj hc
    obtain ⟨seg, hfrom, hlen, hout⟩ := send_outcome hl hst hr
    have hlog := step_log hs
    have hone : newlySent h x ((sendPacket x.1 h pid lower).1, x.2) = [seg] := by
      rw [hnew]
      have he := hout.outputs
      rw [Stack.outputs, hlog, List.filterMap_append] at he
      exact List.append_cancel_left he
    have hin : .output h seg .success ∈ (sendPacket x.1 h pid lower).1.log :=
      hlog ▸ List.mem_append.mpr (.inr (mem_newlySent.mp (hone ▸ List.mem_singleton_self seg)))
    have hdata : seg.isData = true := decide_eq_true hfrom.flags
    obtain ⟨-, hspan, hne⟩ := hreg _ hin rfl
    have hconn := hout.only.conn
    have hcount : ((sendPacket x.1 h pid lower).1.mem h).lastTxPacketCount =
      (x.1.packets pid).count :=
      congrArg Handle.lastTxPacketCount hconn
    refine ⟨seg, hone, hdata, hne hdata, ?_, hfrom.seqNumber, congrArg Handle.seqNumber hconn,
      (congrArg Handle.state hconn).trans hst,
        congrArg Handle.lastTxPacket hconn, by rw [hcount, hlen], ?_⟩
    · rw [Segment.span] at hspan
      omega
    · rw [hout.events, List.append_nil]

end Data

theorem Processes.carried {h : Fin n} {x : Stack n × Pc n} {i : Input n} {seg : Segment}
    {lower : Lower} {carried : List Segment} (hp : Processes x h i seg lower)
    (hr : seg.hasFlag flagRst = false) (hf : FromPeer h carried x i) : seg ∈ carried := by
  obtain ⟨rfl, -, hl⟩ := hp.received hr
  exact hf hl

section Sender

variable {h p : Fin n} {base : Nat} {x y : Stack n × Pc n} {i : Input n} {m' : Stack n}

namespace Direction

theorem unopened (hd : Direction h p base x.1 m') (ho : Own h x) (hno : ¬ Opened h x.1) :
    x.1.confirmed h = 0 ∧ m'.delivered p = [] ∧ m'.announced p = [] := by
  have hacc := (ho.no_accepted hno).1
  have hdel : m'.delivered p = [] := by
    have hordered : m'.delivered p <+: x.1.accepted h := hd.agreed.ordered
    rw [hacc] at hordered
    exact List.prefix_nil.mp hordered
  have hknown : x.1.confirmed h ≤ (m'.delivered p).length := hd.agreed.known
  rw [hdel] at hknown
  refine ⟨Nat.le_zero.mp hknown, hdel, ?_⟩
  have hnone : (m'.sent p).filter (fun seg => seg.flags = flagAck) = [] := by
    rw [List.filter_eq_nil_iff]
    exact fun seg hin hf => hno (hd.answered seg hin (of_decide_eq_true hf))
  rw [Stack.announced, hnone]
  rfl

/-- With the SYN the direction gets its first number. -/
theorem opens (hd : Direction h p base x.1 m') (ho : Own h x) (hs : step x i = some y)
    (hno : ¬ Opened h x.1) :
    Direction h p (y.1.mem h).seqNumber.toNat y.1 m' := by
  obtain ⟨hacc, hitems⟩ := ho.no_accepted hno
  obtain ⟨hconf, hdel, hann⟩ := hd.unopened ho hno
  have hest (hx : (x.1.mem h).state = .established) : False := hno (ho.opened (.inr (.inr hx)))
  have hcall : ¬ ∃ pid lower, i = .sendPacket h pid lower ∧ (x.1.mem h).state = .established ∧
      (x.1.mem h).lastTxPacket = none := fun ⟨_, _, _, hx, _⟩ => hest hx
  obtain ⟨haccy, hitemsy⟩ := same_data hs hcall
  rw [hacc] at haccy
  rw [hitems] at hitemsy
  have hconfy : y.1.confirmed h = 0 := by
    rcases sender_cases ho hs hcall with ⟨_, _, _, -, hx, -⟩ | ⟨he, -⟩
    · exact (hest hx).elim
    · exact he.trans hconf
  refine ⟨?_, ?_, fun seg hin hf => ?_, fun _ => ?_, fun hsending => ?_, fun hp => ?_,
    fun seg hin hf => ?_,
    fun seg hin hf => ?_⟩
  · rw [transfer, haccy, hconfy, hdel, hitemsy, hann]
    exact .refl
  · rw [haccy, numberBehind, Transfer.behind_nil]
    exact BitVec.isLt _
  · rw [step_sent hs] at hin
    rcases List.mem_append.mp hin with hold | hnew
    · exact absurd ⟨seg, hold, hf⟩ hno
    · rw [BitVec.ofNat_toNat, BitVec.setWidth_eq]
      exact (syn_number hs (mem_newlySent.mp hnew) hf).2.1
  · rw [haccy, numberBehind, Transfer.behind_nil, BitVec.ofNat_toNat, BitVec.setWidth_eq]
  · rw [haccy, hconfy]
    have hnone := ho.pending hno
    refine .none ?_ rfl
    rcases sender_cases ho hs hcall with ⟨_, _, _, -, hx, -⟩ | ⟨-, ⟨-, -, he⟩ | hkeep⟩
    · exact (hest hx).elim
    · exact he.trans hnone
    · exact (hkeep hsending).lastTxPacket.trans hnone
  · exact absurd (hd.heard hp).1 hno
  · exact absurd (hd.answered seg hin hf) hno
  · exact absurd (hd.greeted seg hin hf).1 hno

theorem no_syn (ho : Own h x) (hs : step x i = some y) (hopen : Opened h x.1) {seg : Segment}
    (hin : seg ∈ y.1.sent h) (hf : seg.hasFlag flagSyn = true) : seg ∈ x.1.sent h := by
  rw [step_sent hs] at hin
  rcases List.mem_append.mp hin with hold | hnew
  · exact hold
  · exact absurd hopen (ho.unopened (.inl (syn_number hs (mem_newlySent.mp hnew) hf).1))

/-- An accepted packet is the next item. -/
theorem sends {pid : PacketId} {lower : Lower} (hd : Direction h p base x.1 m') (ho : Own h x)
    (hs : step x (.sendPacket h pid lower) = some y) (hreg : ∀ o ∈ y.1.log, o.Regular h)
    (hst : (x.1.mem h).state = .established) (hl : (x.1.mem h).lastTxPacket = none) :
    Direction h p base y.1 m' := by
  obtain ⟨seg, hnew, hdata, hne, hspan, hseq, hnext, hsty, hlast, hcount, hevents⟩ :=
    sendPacket_data hs hreg hst hl
  have hopen : Opened h x.1 := ho.opened (.inr (.inr hst))
  have hnumber : seg.seqNumber.toNat = numberBehind base (x.1.accepted h) := by
    rw [hseq]
    exact toNat_of_eq_ofNat (hd.number (by rw [hst]; rfl)) hd.fits
  have hacc : y.1.accepted h = x.1.accepted h ++ [seg.payload] := by
    rw [step_accepted hs, hnew, List.filter_cons_of_pos hdata]
    rfl
  have hitems : y.1.items h =
      x.1.items h ++ [(numberBehind base (x.1.accepted h), seg.payload)] := by
    rw [step_items hs, hnew, List.filter_cons_of_pos hdata, ← hnumber]
    rfl
  have hconf : y.1.confirmed h = x.1.confirmed h := by
    rw [Stack.confirmed, hevents, Stack.confirmed]
  have hbehind : numberBehind base (y.1.accepted h) = seg.seqNumber.toNat + seg.payload.length := by
    rw [hacc, numberBehind, Transfer.behind_append, hnumber]
    rfl
  have hc : x.1.confirmed h = (x.1.accepted h).length := by
    cases hd.pending (by rw [hst]; rfl) with
    | none _ hc => exact hc
    | some _ _ _ hsome => cases hl.symm.trans hsome
  refine ⟨?_, by
    rw [hbehind]; exact hspan, fun seg hin hf => hd.syn seg (no_syn ho hs hopen hin hf) hf,
    fun _ => ?_,
    fun _ => ?_, fun hp => ?_, fun seg hin hf =>
      (hd.answered seg hin hf).step hs, fun seg hin hf => ?_⟩
  · rw [transfer, hacc, hitems, hconf]
    exact hd.run.tail (.accept seg.payload (List.length_pos_iff.mpr hne) hc)
  · rw [hnext, hbehind, Segment.nextSeq, BitVec.ofNat_add, BitVec.ofNat_toNat, BitVec.setWidth_eq]
  · rw [hconf]
    exact .some pid (x.1.accepted h) seg.payload hlast hacc hc hcount
  · exact ⟨(hd.heard hp).1.step hs, (hd.heard hp).2⟩
  · exact ⟨(hd.greeted seg hin hf).1.step hs, (hd.greeted seg hin hf).2⟩

theorem announced {seg : Segment} {lower : Lower} (hd : Direction h p base x.1 m')
    (hpeer : FromPeer h (m'.carried p) x i) (hack : Acknowledges x h i seg lower)
    (hf : seg.flags = flagAck) (hst : (x.1.mem h).state = .established) :
    numberBehind base (x.1.accepted h) ∈ m'.announced p := by
  have hin : seg ∈ m'.sent p :=
    mem_carried.mp (hack.1.carried (by rw [Segment.hasFlag, hf]; decide) hpeer)
  have hnumber : seg.ackNumber.toNat = numberBehind base (x.1.accepted h) := by
    rw [hack.2]
    exact toNat_of_eq_ofNat (hd.number (by rw [hst]; rfl)) hd.fits
  rw [← hnumber]
  exact List.mem_map.mpr ⟨seg, List.mem_filter.mpr ⟨hin, decide_eq_true hf⟩, rfl⟩

theorem number_step (hd : Direction h p base x.1 m') (ho : Own h x)
    (hpeer : FromPeer h (m'.carried p) x i) (hs : step x i = some y) (hopen : Opened h x.1)
    (hno : ¬ ∃ pid lower, i = .sendPacket h pid lower ∧ (x.1.mem h).state = .established ∧
      (x.1.mem h).lastTxPacket = none) (hy : (y.1.mem h).state.receiving = true) :
    (y.1.mem h).seqNumber = BitVec.ofNat 32 (numberBehind base (x.1.accepted h)) := by
  rcases step_seqNumber ho hs hno hy with ⟨hx, he⟩ | ⟨hx, seg, lower, hack, hf, he⟩ | ⟨hx, -⟩
  · rw [he]
    exact hd.number hx
  · have hin : seg ∈ m'.sent p :=
      mem_carried.mp (hack.1.carried (by rw [Segment.hasFlag, hf]; decide) hpeer)
    rw [he, (ho.waiting (.inr (.inl hx))).2, numberBehind, Transfer.behind_nil]
    exact (hd.greeted seg hin hf).2
  · exact absurd hopen (ho.unopened (.inl hx))

/-- Any other step of the sender confirms its packet or leaves the direction as it is. -/
theorem acts (hd : Direction h p base x.1 m') (ho : Own h x) (hpeer : FromPeer h (m'.carried p) x i)
    (hs : step x i = some y) (hopen : Opened h x.1)
    (hno : ¬ ∃ pid lower, i = .sendPacket h pid lower ∧ (x.1.mem h).state = .established ∧
      (x.1.mem h).lastTxPacket = none) : Direction h p base y.1 m' := by
  obtain ⟨hacc, hitems⟩ := same_data hs hno
  have hnumber (hy : (y.1.mem h).state.receiving = true) := hd.number_step ho hpeer hs hopen hno hy
  have hcases := sender_cases ho hs hno
  refine ⟨?_, by
    rw [hacc]; exact hd.fits, fun seg hin hf => hd.syn seg (no_syn ho hs hopen hin hf) hf,
    fun hy => ?_,
    fun hsending => ?_, fun hp => ⟨hopen.step hs, (hd.heard hp).2⟩, fun _ _ _ => hopen.step hs,
    fun seg hin hf => ⟨hopen.step hs, (hd.greeted seg hin hf).2⟩⟩
  · rw [transfer, hacc, hitems]
    rcases hcases with ⟨seg, lower, pid, hack, hst, hl, hf, -, hconf⟩ | ⟨hconf, -⟩
    · rw [hconf]
      refine hd.run.tail (.confirm (hd.announced hpeer hack hf hst) ?_)
      show x.1.confirmed h < (x.1.accepted h).length
      cases hd.pending (by rw [hst]; rfl) with
      | none hnone => cases hl.symm.trans hnone
      | some _ earlier payload _ ha hc =>
        rw [hc, ha, List.length_append, List.length_singleton]
        exact Nat.lt_succ_self _
    · rw [hconf]
      exact hd.run
  · rw [hacc]
    exact hnumber hy
  · rw [hacc]
    rcases hcases with ⟨seg, lower, pid, hack, hst, hl, hf, hconn, hconf⟩ | ⟨hconf, ⟨hx, -⟩ | hkeep⟩
    · refine .none (congrArg Handle.lastTxPacket hconn) ?_
      cases hd.pending (by rw [hst]; rfl) with
      | none hnone => cases hl.symm.trans hnone
      | some _ earlier payload _ ha hc =>
        rw [hconf, hc, ha, List.length_append, List.length_singleton]
    · exact absurd hopen (ho.unopened (.inl hx))
    · obtain ⟨hsend, hlast, hcount⟩ := hkeep hsending
      rw [hconf]
      cases hd.pending hsend with
      | none hl hc => exact .none (hlast.trans hl) hc
      | some pid earlier payload hl ha hc hn =>
        exact .some pid earlier payload (hlast.trans hl) ha hc (by rw [hcount, hn])

theorem from_step (hd : Direction h p base x.1 m') (ho : Own h x)
    (hpeer : FromPeer h (m'.carried p) x i) (hreg : ∀ o ∈ y.1.log, o.Regular h)
    (hs : step x i = some y) : ∃ base', Direction h p base' y.1 m' := by
  by_cases hopen : Opened h x.1
  · by_cases hcall : ∃ pid lower, i = .sendPacket h pid lower ∧ (x.1.mem h).state = .established ∧
        (x.1.mem h).lastTxPacket = none
    · obtain ⟨pid, lower, rfl, hst, hl⟩ := hcall
      exact ⟨base, hd.sends ho hs hreg hst hl⟩
    · exact ⟨base, hd.acts ho hpeer hs hopen hcall⟩
  · exact ⟨_, hd.opens ho hs hopen⟩

end Direction

end Sender

section Receiver

variable {h p : Fin n} {base : Nat} {x y : Stack n × Pc n} {i : Input n} {m : Stack n}

theorem HandsOff.answers {seg : Segment} {lower : Lower} (hh : HandsOff p x i)
    (hp : Acknowledges x p i seg lower) (hr : seg.hasFlag flagRst = false)
    (ha : (x.1.mem p).Answers seg) : controlResult x.1 p lower = .success := by
  obtain ⟨rfl, -, hl⟩ := hp.1.received hr
  exact hh.1 hl ha

/-- What the number of a handle that receives acknowledges after a step without data: what it did
before, the SYN|ACK it waited for, or the SYN it answers. -/
inductive Acknowledged (p : Fin n) (x : Stack n × Pc n) (i : Input n) (ackNumber : BitVec 32) : Prop
  | kept (hx : (x.1.mem p).state.receiving = true) (ha : ackNumber = (x.1.mem p).ackNumber)
  | connected (seg : Segment) (lower : Lower) (hx : (x.1.mem p).state = .synSent)
      (hp : Processes x p i seg lower) (hf : seg.flags = flagSyn ||| flagAck)
        (ha : ackNumber = seg.seqNumber + 1#32)
  | answered (l : Fin n) (seg : Segment) (release : Bool) (lower : Lower)
      (hx : (x.1.mem p).state = .idle)
      (hi : i = .ret release (some p) lower) (hpc : x.2 = .inAccepting l seg)
        (ha : ackNumber = seg.seqNumber + 1#32)

/-- The receiver takes the payload with its number, or takes nothing. -/
theorem receiver_cases (hh : HandsOff p x i) (hs : step x i = some y) :
    (∃ seg lower, Processes x p i seg lower ∧ (x.1.mem p).state = .established ∧ seg.isData = true ∧
      seg.seqNumber = (x.1.mem p).ackNumber ∧ (y.1.mem p).ackNumber = seg.nextSeq ∧
      y.1.delivered p = x.1.delivered p ++ [seg.payload]) ∨
    (y.1.delivered p = x.1.delivered p ∧
      ((y.1.mem p).state.receiving = true → Acknowledged p x i (y.1.mem p).ackNumber)) := by
  obtain ⟨k, new, heff, hk, he⟩ := step_effect hs p
  have hst : (y.1.mem p).state = k.state := by rw [← hk]; rfl
  have hack : (y.1.mem p).ackNumber = k.ackNumber := by rw [← hk]; rfl
  have hdel := delivered_append he
  rw [hst, hack]
  have hnothing (hnew : received new = [])
    (hor : k.state.receiving = true → Acknowledged p x i k.ackNumber) :
      y.1.delivered p = x.1.delivered p ∧
        (k.state.receiving = true → Acknowledged p x i k.ackNumber) := by
    rw [hnew, List.map_nil, List.append_nil] at hdel
    exact ⟨hdel, hor⟩
  cases heff with
  | data seg lower hp hx _ hf hseq _ =>
      exact .inl ⟨seg, lower, hp.1, hx, decide_eq_true hf, hseq, rfl, hdel⟩
  | dataRefused seg lower hp hx hl hf hseq hr =>
    have hne : seg.payload ≠ [] := fun he => hl (List.length_eq_zero_iff.mpr he)
    refine absurd (hh.answers hp (by rw [Segment.hasFlag, hf]; decide) ?_) hr
    exact ⟨hp.2, .inr ⟨hx, .inl ⟨hne, hf, hseq⟩⟩⟩
  | finRefused seg lower hp hx hf hr =>
    exact absurd (hh.answers hp (by rw [Segment.hasFlag, hf]; decide) ⟨hp.2, .inr ⟨hx, .inr hf⟩⟩) hr
  | synAcknowledged seg lower hp hx hf =>
    exact .inr (hnothing rfl fun _ => .connected seg lower hx hp.1 hf rfl)
  | answered l seg release lower _ hi hpc hx =>
    exact .inr (hnothing rfl fun _ => .answered l seg release lower hx hi hpc rfl)
  | accepted _ _ _ hx => exact .inr (hnothing rfl fun _ => .kept (by rw [hx]; rfl) rfl)
  | synRefused _ _ _ hx | answerRefused _ _ _ _ _ _ _ hx =>
    exact .inr (hnothing rfl fun hy => by simp [hx, State.receiving] at hy)
  | finWaitRefused _ _ _ hx =>
    exact .inr
      (hnothing rfl fun hy => by rcases hx with hx | hx <;> simp [hx, State.receiving] at hy)
  | timedOut _ _ event _ _ _ hevent =>
    refine .inr (hnothing ?_ fun hy => by cases hy)
    rcases hevent with ⟨-, rfl⟩ | ⟨-, rfl⟩ | ⟨-, rfl⟩ <;> rfl
  | opened | connected | listening | closedByCall | reset | invalid | fin | closeAcknowledged |
      finAcknowledged
  | finWait | exhausted => exact .inr (hnothing rfl fun hy => by cases hy)
  | _ => exact .inr (hnothing rfl fun hy => .kept hy rfl)

/-- A handle that sends a pure acknowledgement counts what it receives. -/
theorem receiving_of_pureAck (ho : Own p x) (hs : step x i = some y) {seg : Segment}
    (hin : seg ∈ newlySent p x y) (hf : seg.flags = flagAck) :
    (y.1.mem p).state.receiving = true ∧ seg.ackNumber = (y.1.mem p).ackNumber := by
  obtain ⟨hnum, hy, hx⟩ := pureAck_number hs (mem_newlySent.mp hin) hf
  refine ⟨?_, hnum⟩
  rcases hy with hy | hy
  · rw [hy]
    rfl
  -- TIME_WAIT follows the two states that the handle is never in
  · have hne : (x.1.mem p).state ≠ .timeWait := by
      rcases hx with hx | hx | hx | ⟨hx, -⟩ <;> rw [hx] <;> decide
    have hg := step_goes hs p
    have hclosing := ho.closing
    rw [hy] at hg
    generalize (x.1.mem p).state = s at hg hne hclosing
    cases hg with
    | same => exact absurd rfl hne
    | finWait _ hx => exact (hx.elim hclosing.1 hclosing.2).elim

/-- A SYN|ACK is sent by a handle that answers a SYN. -/
theorem synReceived_of_synAck (hs : step x i = some y) {seg : Segment} (hin : seg ∈ newlySent p x y)
    (hf : seg.flags = flagSyn ||| flagAck) :
    (y.1.mem p).state = .synReceived ∧ seg.ackNumber = (y.1.mem p).ackNumber := by
  have ho := mem_newlySent.mp hin
  obtain ⟨hx, -, hy, hnum⟩ := syn_number hs ho (by rw [Segment.hasFlag, hf]; decide)
  refine ⟨hy.resolve_left fun hy => ?_, hnum hf⟩
  cases (step_writes hs).entries ho with
  | output _ flags _ _ hframes hflags =>
    rw [hf] at hflags
    cases hframes with
    | connect | close | sendPacket | reset => exact absurd hflags (by decide)
    | acknowledge _ _ _ _ _ hflags' =>
        rcases hflags' with rfl | rfl <;> exact absurd hflags (by decide)
    | accept l seg' release lower hi =>
      have hg := step_goes hs p
      rw [hx, hy] at hg
      cases hg with
      | connected _ _ _ hi' => cases hi.symm.trans hi'

namespace Direction

theorem first {seg : Segment} (hd : Direction h p base m x.1) (hin : seg ∈ m.carried h)
    (hf : seg.hasFlag flagSyn = true) : Opened h m ∧ seg.seqNumber + 1#32 = BitVec.ofNat 32 base :=
  have hsent := mem_carried.mp hin
  ⟨⟨seg, hsent, hf⟩, hd.syn seg hsent hf⟩

/-- What a step acknowledges is what was delivered before it. -/
theorem acknowledged {ackNumber : BitVec 32} (hd : Direction h p base m x.1) (ho : Own p x)
    (hpeer : FromPeer p (m.carried h) x i) (ha : Acknowledged p x i ackNumber) :
    Opened h m ∧ ackNumber = BitVec.ofNat 32 (numberBehind base (x.1.delivered p)) := by
  cases ha with
  | kept hx ha =>
    rw [ha]
    exact hd.heard hx
  | connected seg lower hx hp hf ha =>
    have hin := hp.carried (by rw [Segment.hasFlag, hf]; decide) hpeer
    obtain ⟨hopen, hnum⟩ := hd.first hin (by rw [Segment.hasFlag, hf]; decide)
    rw [ha, hnum, (ho.waiting (.inr (.inl hx))).1, numberBehind, Transfer.behind_nil]
    exact ⟨hopen, rfl⟩
  | answered l seg release lower hx hi hpc ha =>
    subst hi
    have hin : seg ∈ m.carried h := by
      obtain ⟨m', pc⟩ := x
      dsimp only at hpc
      subst hpc
      exact hpeer rfl
    have hf := (ho.accepting l seg hpc).1
    obtain ⟨hopen, hnum⟩ := hd.first hin (by rw [Segment.hasFlag, hf]; decide)
    rw [ha, hnum, (ho.waiting (.inl (ho.unopened (.inl hx)))).1, numberBehind, Transfer.behind_nil]
    exact ⟨hopen, rfl⟩

/-- The payload that is taken is the item with the number that was reached. -/
theorem takes (hd : Direction h p base m x.1) (ho : Own p x) (hpeer : FromPeer p (m.carried h) x i)
    (hh : HandsOff p x i) (hs : step x i = some y) :
    Transfer.Reaches List.length base { transfer h p m x.1 with delivered := y.1.delivered p } ∧
      ((y.1.mem p).state.receiving = true →
        Opened h m ∧ (y.1.mem p).ackNumber =
          BitVec.ofNat 32 (numberBehind base (y.1.delivered p))) := by
  rcases receiver_cases hh hs with ⟨seg, lower, hp, hx, hdata, hseq, hack, hdel⟩ | ⟨hdel, hkept⟩
  · obtain ⟨hopen, hnum⟩ := hd.heard (by rw [hx]; rfl)
    have hnumber : seg.seqNumber.toNat = numberBehind base (x.1.delivered p) := by
      rw [hseq]
      exact toNat_of_eq_ofNat hnum hd.delivered_lt
    have hin : seg ∈ m.sent h := mem_carried.mp
      (hp.carried (by rw [Segment.hasFlag, of_decide_eq_true hdata]; decide) hpeer)
    have hitem : (numberBehind base (x.1.delivered p), seg.payload) ∈ m.items h := by
      rw [← hnumber]
      exact List.mem_map.mpr ⟨seg, List.mem_filter.mpr ⟨hin, hdata⟩, rfl⟩
    rw [hdel, hack]
    refine ⟨hd.run.tail (.deliver seg.payload hitem), fun _ => ⟨hopen, ?_⟩⟩
    rw [numberBehind, Transfer.behind_append, ← numberBehind, ← hnumber, Segment.nextSeq,
      BitVec.ofNat_add,
      BitVec.ofNat_toNat, BitVec.setWidth_eq]
    rfl
  · rw [hdel]
    exact ⟨hd.run, fun hy => hd.acknowledged ho hpeer (hkept hy)⟩

/-- Whatever the receiver does, it keeps the direction. -/
theorem to_step (hd : Direction h p base m x.1) (ho : Own p x) (hoy : Own p y)
    (hpeer : FromPeer p (m.carried h) x i) (hh : HandsOff p x i) (hs : step x i = some y) :
    Direction h p base m y.1 := by
  obtain ⟨hrun, hheard⟩ := hd.takes ho hpeer hh hs
  have hlt : numberBehind base (y.1.delivered p) < 2 ^ 32 :=
    Nat.lt_of_le_of_lt (Transfer.behind_le hrun.agreed.ordered) hd.fits
  refine ⟨?_, hd.fits, hd.syn, hd.number, hd.pending, hheard, fun seg hin hf => ?_,
    fun seg hin hf => ?_⟩
  · rw [transfer, step_announced hs]
    refine hrun.announces _ fun q hq => ?_
    obtain ⟨seg, hin, rfl⟩ := List.mem_map.mp hq
    obtain ⟨hnew, hf⟩ := List.mem_filter.mp hin
    obtain ⟨hy, hack⟩ := receiving_of_pureAck ho hs hnew (of_decide_eq_true hf)
    rw [hack]
    exact toNat_of_eq_ofNat (hheard hy).2 hlt
  · rw [step_sent hs] at hin
    rcases List.mem_append.mp hin with hold | hnew
    · exact hd.answered seg hold hf
    · exact (hheard (receiving_of_pureAck ho hs hnew hf).1).1
  · rw [step_sent hs] at hin
    rcases List.mem_append.mp hin with hold | hnew
    · exact hd.greeted seg hold hf
    · obtain ⟨hy, hack⟩ := synReceived_of_synAck hs hnew hf
      obtain ⟨hopen, hnum⟩ := hheard (by rw [hy]; rfl)
      rw [(hoy.waiting (.inr (.inr hy))).1, numberBehind, Transfer.behind_nil] at hnum
      exact ⟨hopen, hack.trans hnum⟩

end Direction

end Receiver

section Run

variable {h : Side → Fin n} {d : Side → Stack n × Pc n}

/-- Both modules at the start. -/
def initialEnds (n : Nat) (packets : Side → PacketId → Packet)
    (nextFreeLocalPort : Side → BitVec 16) (time : Side → Nat) (s : Side) : Stack n × Pc n :=
  initial n (packets s) (nextFreeLocalPort s) (time s)

theorem own_initial (h : Fin n) (packets : PacketId → Packet) (port : BitVec 16) (time : Nat) :
    Own h (initial n packets port time) where
  regular := List.forall_mem_nil _
  queued hb := by cases hb
  accepting _ _ hpc := by cases hpc
  closing := ⟨fun hx => (by cases hx), fun hx => (by cases hx)⟩
  unopened hx := by rcases hx with hx | hx <;> cases hx
  opened hx := by rcases hx with hx | hx | hx <;> cases hx
  speaks _ hin := by cases hin
  pending _ := rfl
  waiting _ := ⟨rfl, rfl⟩

theorem direction_initial (h p : Fin n) (packets : Side → PacketId → Packet)
    (port : Side → BitVec 16) (time : Side → Nat) (s : Side) :
    Direction h p 0 (initialEnds n packets port time s).1
      (initialEnds n packets port time s.other).1 where
  run := .refl
  fits := Nat.two_pow_pos 32
  syn _ hin := by cases hin
  number hx := by cases hx
  pending hx := by cases hx
  heard hx := by cases hx
  answered _ hin := by cases hin
  greeted _ hin := by cases hin

theorem exchanged_direction {packets : Side → PacketId → Packet} {port : Side → BitVec 16}
    {time : Side → Nat}
    (hr : Lib.Reach (Lib.Parties.step step) (Exchanged h) (initialEnds n packets port time) d)
    (s : Side) :
    Own (h s) (d s) ∧ Own (h s.other) (d s.other) ∧
      ∃ base, Direction (h s) (h s.other) base (d s).1 (d s.other).1 := by
  refine Lib.Parties.invariant (I := fun s x y => Own (h s) x ∧ Own (h s.other) y ∧
    ∃ base, Direction (h s) (h s.other) base x.1 y.1) hr (fun s => ?_) ?_ ?_ s
  · exact ⟨own_initial _ _ _ _, own_initial _ _ _ _, 0, direction_initial _ _ _ _ _ s⟩
  · rintro d s i y ⟨hpeer, hopen, hh⟩ hs ⟨ho, hoo, base, hd⟩
    have hoy := ho.step hopen hh hs
    exact ⟨hoy, hoo, hd.from_step ho hpeer hoy.regular hs⟩
  · rintro d s i y ⟨hpeer, hopen, hh⟩ hs ⟨hoo, ho, base, hd⟩
    rw [Side.other_other] at ho hd ⊢
    have hoy := ho.step hopen hh hs
    exact ⟨hoo, hoy, base, hd.to_step ho hoy hpeer hh hs⟩

section Agreement

variable {a p : Fin n} {base : Nat} {x y : Stack n × Pc n} {i : Input n} {m' : Stack n}

/-- The receiver's number is the sender's, or the one before the pending packet. -/
theorem Direction.numbers (hd : Direction a p base x.1 m') (hx : (x.1.mem a).state = .established)
    (hp : (m'.mem p).state = .established) : (m'.mem p).ackNumber = (x.1.mem a).seqNumber ∨
      (x.1.mem a).lastTxPacket.isSome = true ∧
        (m'.mem p).ackNumber = (x.1.mem a).seqNumber -
          (x.1.mem a).lastTxPacketCount.zeroExtend 32 := by
  have hseq := hd.number (by rw [hx]; rfl)
  have hack := (hd.heard (by rw [hp]; rfl)).2
  rcases hd.agreed.outstanding with he | ⟨payload, he, hlt⟩
  · have hall : m'.delivered p = x.1.accepted a := he
    rw [hall] at hack
    exact .inl (hack.trans hseq.symm)
  · have hlast : x.1.accepted a = m'.delivered p ++ [payload] := he
    have hopen : x.1.confirmed a < (x.1.accepted a).length := hlt
    cases hd.pending (by rw [hx]; rfl) with
    | none _ hc => exact absurd hopen (by rw [hc]; exact Nat.lt_irrefl _)
    | some pid earlier payload' hl ha _ hn =>
      obtain ⟨-, hpay⟩ := List.append_inj' (hlast.symm.trans ha) rfl
      obtain rfl := List.head_eq_of_cons_eq hpay
      have hcount : (x.1.mem a).lastTxPacketCount.zeroExtend 32 =
          BitVec.ofNat 32 payload.length := by
        rw [← ofNat_toNat_zeroExtend, hn]
      have hsum : ([payload].map List.length).sum = payload.length := rfl
      refine .inr ⟨by rw [hl]; rfl, ?_⟩
      rw [hseq, hlast, numberBehind, Transfer.behind_append, hsum, BitVec.ofNat_add, hcount,
        BitVec.add_sub_cancel]
      exact hack

/-- A packet is confirmed when the peer has been given it. -/
theorem Direction.confirms (hd : Direction a p base x.1 m') (ho : Own a x)
    (hpeer : FromPeer a (m'.carried p) x i) (hreg : ∀ o ∈ y.1.log, o.Regular a)
    (hs : step x i = some y) (hlt : x.1.confirmed a < y.1.confirmed a) :
    ∃ (pid : PacketId) (earlier : List (List Byte)) (payload : List Byte),
      (x.1.mem a).lastTxPacket = some pid ∧ x.1.accepted a = earlier ++ [payload] ∧
      earlier.length = x.1.confirmed a ∧ m'.delivered p = earlier ++ [payload] := by
  by_cases hcall : ∃ pid lower, i = .sendPacket a pid lower ∧ (x.1.mem a).state = .established ∧
      (x.1.mem a).lastTxPacket = none
  · obtain ⟨pid, lower, rfl, hst, hl⟩ := hcall
    obtain ⟨_, -, -, -, -, -, -, -, -, -, hevents⟩ := sendPacket_data hs hreg hst hl
    rw [Stack.confirmed, Stack.confirmed, hevents] at hlt
    exact absurd hlt (Nat.lt_irrefl _)
  · rcases sender_cases ho hs hcall with ⟨seg, lower, pid, hack, hst, hl, hf, -⟩ | ⟨he, -⟩
    · have hall : m'.delivered p = x.1.accepted a :=
        hd.agreed.all_delivered (hd.announced hpeer hack hf hst)
      cases hd.pending (by rw [hst]; rfl) with
      | none hnone => cases hl.symm.trans hnone
      | some _ earlier payload _ ha hc =>
          exact ⟨pid, earlier, payload, hl, ha, hc.symm, hall.trans ha⟩
    · exact absurd hlt (by rw [he]; exact Nat.lt_irrefl _)

end Agreement

/-- In every state that two ends reach, whatever the network loses, repeats, delays or reorders:
where both are established the receiver's number is the sender's or the one before its pending
packet, a packet is confirmed only when the peer has been given it, and the peer has been given
the first of the payloads accepted, in order and each once. -/
theorem exchanged_agreement {packets : Side → PacketId → Packet} {port : Side → BitVec 16}
    {time : Side → Nat}
    (hr : Lib.Reach (Lib.Parties.step step) (Exchanged h) (initialEnds n packets port time) d)
    (s : Side) :
    (((d s).1.mem (h s)).state = .established → ((d s.other).1.mem (h s.other)).state =
      .established →
      ((d s.other).1.mem (h s.other)).ackNumber = ((d s).1.mem (h s)).seqNumber ∨
        ((d s).1.mem (h s)).lastTxPacket.isSome = true ∧ ((d s.other).1.mem (h s.other)).ackNumber =
          ((d s).1.mem (h s)).seqNumber - ((d s).1.mem (h s)).lastTxPacketCount.zeroExtend 32) ∧
    (∀ i d', Exchanged h d (s, i) → Lib.Parties.step step d (s, i) = some d' →
      (d s).1.confirmed (h s) < (d' s).1.confirmed (h s) →
      ∃ (pid : PacketId) (earlier : List (List Byte)) (payload : List Byte),
        ((d s).1.mem (h s)).lastTxPacket = some pid ∧ (d s).1.accepted (h s) =
          earlier ++ [payload] ∧
        earlier.length = (d s).1.confirmed (h s) ∧
        (d s.other).1.delivered (h s.other) = earlier ++ [payload]) ∧
    (d s.other).1.delivered (h s.other) <+: (d s).1.accepted (h s) := by
  obtain ⟨ho, -, base, hd⟩ := exchanged_direction hr s
  refine ⟨hd.numbers, fun i d' hok hs hlt => ?_, hd.agreed.ordered⟩
  obtain ⟨hpeer, hopen, hh⟩ := hok
  obtain ⟨y, hy, rfl⟩ := Lib.Parties.step_some hs
  rw [Function.update_self] at hlt
  exact hd.confirms ho hpeer (ho.step hopen hh hy).regular hy hlt

end Run

/-- A segment of the end that connected, to the one that sends `peerSegment`. -/
def ownSegment (seqNumber ackNumber : BitVec 32) (flags : Byte) (payload : List Byte) : Segment :=
  { peerSegment seqNumber ackNumber flags payload with
    srcAddress := 0x0A000001#32
    destAddress := 0x0A000002#32
    srcPort := 5000#16
    destPort := 80#16 }

/-- The payload of the run below, long enough for the IPv4 layer to send it again. -/
def fortyBytes : List Byte := List.replicate 40 7#8

/-- The ends connect, and the right one is given a payload that arrives twice and is sent again,
before the left one hears of it. -/
def repeated : List (Side × Input 2) :=
  let h : Fin 2 := ⟨0, Nat.zero_lt_two⟩
  let listener : Fin 2 := ⟨1, Nat.one_lt_two⟩
  [(.left, .open_ h 5000#16 []), (.left, .connect h 0x0A000002#32 80#16 (transmitting 0)),
    (.right, .open_ listener 80#16 []), (.right, .listen listener), (.right, .open_ h 81#16 []),
    (.right, .rxFrame (ownSegment 1000#32 0#32 flagSyn []) (transmitting 0)),
    (.right, .ret false (some h) (transmitting 1)),
    (.left, .rxFrame (peerSegment 0#32 1001#32 (flagSyn ||| flagAck) []) (transmitting 1)),
    (.left, .ret true none (transmitting 0)),
    (.right, .rxFrame (ownSegment 1001#32 1#32 flagAck []) (transmitting 2)),
      (.right, .ret true none (transmitting 0)),
    (.left, .allocatePacket (.ok 2) 40#16), (.left, .writePacket 2 fortyBytes),
    (.left, .sendPacket h 2 (transmitting 3)),
    (.right, .rxFrame (ownSegment 1001#32 1#32 (flagPsh ||| flagAck) fortyBytes) (transmitting 4)),
    (.right, .ret true none (transmitting 0)),
    (.left, .elapse 600), (.left, .periodicTask), (.left, .visit (transmitting 3)),
      (.left, .visit (transmitting 3)),
    (.right, .rxFrame (ownSegment 1001#32 1#32 (flagPsh ||| flagAck) fortyBytes) (transmitting 5))]

def heard : Side × Input 2 :=
  (.left, .rxFrame (peerSegment 1#32 1041#32 flagAck []) (transmitting 6))

theorem exchanged_agreement_repeated : ∃ d d' : Side → Stack 2 × Pc 2,
    .resent ⟨0, Nat.zero_lt_two⟩ 2 .success ∈ (d .left).1.log ∧
    (d .right).1.delivered ⟨0, Nat.zero_lt_two⟩ = [fortyBytes] ∧
    (d .right).1.delivered ⟨0, Nat.zero_lt_two⟩ <+: (d .left).1.accepted ⟨0, Nat.zero_lt_two⟩ ∧
    Lib.Parties.step step d heard = some d' ∧
    ∃ pid earlier payload, ((d .left).1.mem ⟨0, Nat.zero_lt_two⟩).lastTxPacket = some pid ∧
      (d .left).1.accepted ⟨0, Nat.zero_lt_two⟩ = earlier ++ [payload] ∧
      earlier.length = (d .left).1.confirmed ⟨0, Nat.zero_lt_two⟩ ∧
      (d .right).1.delivered ⟨0, Nat.zero_lt_two⟩ = earlier ++ [payload] := by
  obtain ⟨d, hr, hd⟩ := Lib.exists_of_runInputs (Lib.Parties.step step)
    (Exchanged fun _ => ⟨0, Nat.zero_lt_two⟩)
    (initialEnds 2 (fun _ _ => blankPacket) (fun _ => 0#16) fun s =>
      if s = .left then 1000 else 2000) repeated
    (fun d => .resent ⟨0, Nat.zero_lt_two⟩ 2 .success ∈ (d .left).1.log ∧
      (d .right).1.delivered ⟨0, Nat.zero_lt_two⟩ = [fortyBytes] ∧
        Exchanged (fun _ => ⟨0, Nat.zero_lt_two⟩) d heard ∧
      (Lib.Parties.step step d heard).any fun d' =>
        (d .left).1.confirmed ⟨0, Nat.zero_lt_two⟩ < (d' .left).1.confirmed ⟨0, Nat.zero_lt_two⟩)
          (by decide +kernel)
  obtain ⟨hresent, hdelivered, hok, hstep⟩ := of_decide_eq_true hd
  obtain ⟨d', hs, hlt⟩ := (Option.any_eq_true _ _).mp hstep
  obtain ⟨-, hconfirms, hordered⟩ := exchanged_agreement hr .left
  exact ⟨d, d', hresent, hdelivered, hordered, hs, hconfirms _ d' hok hs (of_decide_eq_true hlt)⟩

end NanoIp.Tcp
