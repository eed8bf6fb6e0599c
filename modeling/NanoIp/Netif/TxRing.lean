import Mathlib.Data.List.Infix
import Mathlib.Data.List.Nodup
import NanoIp.Netif.LpcEmac

/-!
# The transmit ring of the LPC EMAC driver

`nano_ip_lpc_emac.c`, with the transmit part of the controller: its DMA sends the descriptors from
`TxConsumeIndex` to the one before `TxProduceIndex`, and resetting the transmit datapath clears
`TxConsumeIndex`. The driver learns from `TxConsumeIndex` alone which packets were sent, and keeps
an index of its own of those it has reported.
-/
namespace NanoIp.LpcEmac.Tx

/-- `LPC_EMAC_NET_IF_TX_DESC_COUNT`. -/
def txDescCount : Nat := 10

/-- A packet to send: the address of its buffer, and how much of it is the frame. -/
structure Packet where
  data : Nat
  count : BitVec 16
  deriving DecidableEq

/-- `lpc_emac_tx_desc_t`. -/
structure TxDesc where
  packet : Nat
  control : BitVec 32
  deriving DecidableEq

/-- The registers of the transmit path: the enable bit of `Command`, `IntEnable` and the ring. -/
structure Regs where
  txEnable : Bool
  intEnable : Bool
  txDescriptorNumber : Nat
  txProduceIndex : Nat
  txConsumeIndex : Nat

/-- The transmit part of `lpc_emac_drv_t`, with the registers and the buffers. `sending` is the
packet of a send that has moved `TxProduceIndex` and not yet queued it. -/
structure State where
  started : Bool
  transmittingPackets : List Packet
  transmittedPackets : List Packet
  txDescs : Nat → TxDesc
  txDescriptorProducedIndex : Nat
  regs : Regs
  sending : Option Packet
  buffers : Nat → List Byte

def Packet.desc (packet : Packet) : TxDesc :=
  ⟨packet.data, (packet.count.setWidth 32 - 1#32) ||| 1#32 <<< 30 ||| 1#32 <<< 31⟩

def Packet.frame (packet : Packet) (buffers : Nat → List Byte) : List Byte :=
  (buffers packet.data).take packet.count.toNat

/-- What the DMA sends for a descriptor: the size is in the low bits of the control word. -/
def TxDesc.frame (desc : TxDesc) (buffers : Nat → List Byte) : List Byte :=
  (buffers desc.packet).take ((desc.control &&& 0x7FF#32).toNat + 1)

/-- `NANO_IP_LPC_EMAC_DrvStart`, which fails when no packet is queued for reception. -/
def drvStart (s : State) (rxDescriptorCount : Nat) : Err × State :=
  let s :=
    { s with
      regs := { s.regs with txDescriptorNumber := txDescCount - 1, txProduceIndex := 0 }
      txDescriptorProducedIndex := 0 }
  if rxDescriptorCount = 0 then (.failure, s)
  else (.success, { s with regs := { s.regs with txEnable := true, intEnable := true },
                           started := true })

/-- `NANO_IP_LPC_EMAC_DrvStop`, which waits for the last packet. -/
def drvStop (s : State) : Option State :=
  match s.transmittingPackets with
  | [] =>
    some
      { s with
        regs := { s.regs with txEnable := false, txConsumeIndex := 0, intEnable := false }
        started := false }
  | _ :: _ => none

/-- `NANO_IP_LPC_EMAC_DrvSendPacket` up to `TxProduceIndex`: it waits for a free descriptor. -/
def drvSendPacket (s : State) (packet : Packet) : Option (Err × State) :=
  if s.started then
    let nextIndex := nextIndex txDescCount s.regs.txProduceIndex
    if nextIndex = s.regs.txConsumeIndex then none
    else
      some (.success,
        { s with
          txDescs := Function.update s.txDescs s.regs.txProduceIndex packet.desc
          regs := { s.regs with intEnable := false, txProduceIndex := nextIndex }
          sending := some packet })
  else some (.failure, s)

/-- The rest of `NANO_IP_LPC_EMAC_DrvSendPacket`. -/
def queuePacket (s : State) : Option State :=
  s.sending.map fun packet =>
    { s with
      transmittingPackets := s.transmittingPackets ++ [packet]
      regs := { s.regs with intEnable := true }
      sending := none }

/-- `NANO_IP_LPC_EMAC_DrvGetNextTxPacket`, which leaves the other packets. -/
def drvGetNextTxPacket (s : State) : Option Packet × State :=
  (s.transmittedPackets.head?,
    { s with transmittedPackets := s.transmittedPackets.tail,
             regs := { s.regs with intEnable := true } })

/-- One round of the loop of `NANO_IP_LPC_EMAC_InterruptHandler` over the transmitted packets,
unless it ends. -/
def transmitRound (s : State) : Option State :=
  match s.transmittingPackets with
  | [] => none
  | packet :: packets =>
    if s.regs.txConsumeIndex ≠ s.txDescriptorProducedIndex then
      some
        { s with
          transmittingPackets := packets
          transmittedPackets := s.transmittedPackets ++ [packet]
          txDescriptorProducedIndex := nextIndex txDescCount s.txDescriptorProducedIndex }
    else none

/-- `NANO_IP_LPC_EMAC_InterruptHandler`, when nothing is sent meanwhile. -/
def interruptHandler : Nat → State → State
  | 0, s => s
  | fuel + 1, s =>
    match transmitRound s with
    | none => s
    | some s' => interruptHandler fuel s'

/-- The index behind `TxConsumeIndex`. -/
def Regs.nextConsume (regs : Regs) : Nat :=
  if regs.txConsumeIndex = regs.txDescriptorNumber then 0 else regs.txConsumeIndex + 1

/-- The DMA sends the next descriptor. -/
def dmaSend (s : State) : Option (List Byte × State) :=
  if s.regs.txEnable = true ∧ s.regs.txConsumeIndex ≠ s.regs.txProduceIndex then
    some ((s.txDescs s.regs.txConsumeIndex).frame s.buffers,
      { s with regs := { s.regs with txConsumeIndex := s.regs.nextConsume } })
  else none

/-- What happens. The DMA may send between the two parts of a send, and a round of the interrupt
handler is an event of its own. -/
inductive Event where
  | write (data : Nat) (bytes : List Byte)
  | send (packet : Packet)
  | queue
  | dmaSend
  | round
  | getNext
  | start (rxDescriptorCount : Nat)
  | stop

def State.owned (s : State) : List Nat :=
  (s.transmittingPackets ++ s.sending.toList ++ s.transmittedPackets).map Packet.data

/-- A packet is sent, and its buffer written, only when the driver does not have it. The calls that
the stack mutex serializes wait for the end of a send. -/
def step (s : State) : Event → Option State
  | .write data bytes =>
    if s.owned.contains data then none else some
      { s with buffers := Function.update s.buffers data bytes }
  | .send packet =>
    if s.sending.isSome || s.owned.contains packet.data then none
    else (drvSendPacket s packet).map Prod.snd
  | .queue => queuePacket s
  | .dmaSend => (dmaSend s).map Prod.snd
  | .round => if s.regs.intEnable then transmitRound s else none
  | .getNext => some (drvGetNextTxPacket s).2
  | .start rxDescriptorCount =>
      if s.sending.isSome then none else some (drvStart s rxDescriptorCount).2
  | .stop => if s.sending.isSome then none else drvStop s

/-- The driver that `NANO_IP_LPC_EMAC_Init` and `NANO_IP_LPC_EMAC_DrvInit` leave. -/
def State.init : State where
  started := false
  transmittingPackets := []
  transmittedPackets := []
  txDescs := fun _ => ⟨0, 0#32⟩
  txDescriptorProducedIndex := 0
  regs := ⟨false, false, 0, 0, 0⟩
  sending := none
  buffers := fun _ => []

/-- The packets that a send accepted with their frames at that time, the frames on the wire, and the
packets that were handed back. -/
structure Log where
  sent : List (Packet × List Byte)
  wire : List (List Byte)
  returned : List Packet

def Log.init : Log := ⟨[], [], []⟩

def log (w : Log) (s : State) (e : Event) (_ : State) : Log :=
  match e with
  | .send packet => if s.started then
      { w with sent := w.sent ++ [(packet, packet.frame s.buffers)] } else w
  | .dmaSend => { w with wire := w.wire ++ ((dmaSend s).map Prod.fst).toList }
  | .getNext => { w with returned := w.returned ++ s.transmittedPackets.head?.toList }
  | _ => w

/-- A frame that is sent has a size that the descriptor can hold, and a start finds the driver
stopped. -/
def Meets (x : State × Log) : Event → Prop
  | .send packet => 1 ≤ packet.count.toNat ∧ packet.count.toNat ≤ 2048
  | .start _ => x.1.started = false
  | _ => True

instance (x : State × Log) (e : Event) : Decidable (Meets x e) := by
  cases e <;> unfold Meets <;> infer_instance

/-- Every packet is handed back once, in the order of sending and behind its transmission, with the
frames on the wire as they were when they were sent. -/
structure Kept (s : State) (w : Log) : Prop where
  order : w.sent.map Prod.fst =
    w.returned ++ s.transmittedPackets ++ (s.transmittingPackets ++ s.sending.toList)
  wire : w.wire <+: w.sent.map Prod.snd
  late : w.returned.length + s.transmittedPackets.length ≤ w.wire.length
  index : s.started = true → s.regs.txProduceIndex < txDescCount
  /-- What was sent less than a circle ago is reported at the next interrupt. -/
  reports : s.sending = none → w.wire.length < w.returned.length + s.transmittedPackets.length +
    txDescCount →
    w.returned.length +
      (interruptHandler s.transmittingPackets.length s).transmittedPackets.length = w.wire.length

/-- The descriptors behind the last report: those that were sent, and those that the DMA sends
next. -/
structure Running (s : State) (done pending : List Packet) : Prop where
  number : s.regs.txDescriptorNumber = txDescCount - 1
  produced : s.txDescriptorProducedIndex < txDescCount
  consume : s.regs.txConsumeIndex = (s.txDescriptorProducedIndex + done.length) % txDescCount
  produce : s.regs.txProduceIndex = (s.regs.txConsumeIndex + pending.length) % txDescCount
  room : pending.length < txDescCount
  descs : Lib.InRing s.txDescs txDescCount s.regs.txConsumeIndex (pending.map Packet.desc)
  enable : s.regs.txEnable = true
  interrupts : s.sending = none → s.regs.intEnable = true

/-- Behind the packets that were handed back, the first ones of the driver have been sent and are
not reported yet, and the others have the next descriptors. -/
structure Inv (s : State) (w : Log) (done pending : List Packet) : Prop where
  owned : s.owned.Nodup
  queue : s.transmittingPackets ++ s.sending.toList = done ++ pending
  order : w.sent.map Prod.fst = w.returned ++ s.transmittedPackets ++ (done ++ pending)
  contents : w.sent.map Prod.snd = w.wire ++ pending.map fun packet => packet.desc.frame s.buffers
  reported : w.wire.length = w.returned.length + s.transmittedPackets.length + done.length
  running : s.started = true → Running s done pending
  stopped : s.started = false →
    s.transmittingPackets = [] ∧ s.sending = none ∧ s.regs.txEnable = false ∧
      s.regs.txConsumeIndex = 0

theorem nextIndex_txDescCount {i : Nat} (hi : i < txDescCount) :
    nextIndex txDescCount i = (i + 1) % txDescCount :=
  Lib.wrap_mod hi

/-- The DMA sends what the packet has, when that is a size of the descriptor. -/
theorem desc_frame {packet : Packet} (hpos : 1 ≤ packet.count.toNat)
    (hle : packet.count.toNat ≤ 2048) (buffers : Nat → List Byte) :
    packet.desc.frame buffers = packet.frame buffers := by
  have hlow : packet.desc.control &&& 0x7FF#32 = (packet.count.setWidth 32 - 1#32) &&&
      0x7FF#32 := by
    -- the two control bits are above the size
    have hbits : (1#32 <<< 30 ||| 1#32 <<< 31) &&& 0x7FF#32 = 0#32 := by decide
    show (packet.count.setWidth 32 - 1#32 ||| 1#32 <<< 30 ||| 1#32 <<< 31) &&& 0x7FF#32 = _
    rw [BitVec.or_assoc, BitVec.and_or_distrib_right, hbits, BitVec.or_zero]
  have hsize : (packet.desc.control &&& 0x7FF#32).toNat = packet.count.toNat - 1 := by
    rw [hlow]
    have hmask : ((packet.count.setWidth 32 - 1#32) &&& 0x7FF#32).toNat =
        (packet.count.setWidth 32 - 1#32).toNat % 2 ^ 11 := by
      rw [BitVec.toNat_and]
      exact Nat.and_two_pow_sub_one_eq_mod _ 11
    rw [hmask]
    have hlt := packet.count.isLt
    simp only [BitVec.toNat_sub, BitVec.toNat_setWidth, BitVec.toNat_ofNat]
    omega
  rw [TxDesc.frame, hsize, Nat.sub_add_cancel hpos]
  rfl

section Steps

variable {s s' : State} {w : Log} {done pending : List Packet}

theorem inv_init : Inv State.init Log.init [] [] where
  owned := List.nodup_nil
  queue := rfl
  order := rfl
  contents := rfl
  reported := rfl
  running := fun h => Bool.noConfusion h
  stopped := fun _ => ⟨rfl, rfl, rfl, rfl⟩

theorem Inv.settled (h : Inv s w done pending) (hs : s.transmittingPackets = [])
    (hsend : s.sending = none) :
    done = [] ∧ pending = [] := by
  have hqueue := h.queue
  rw [hs, hsend] at hqueue
  exact List.append_eq_nil_iff.mp hqueue.symm

theorem Inv.started (h : Inv s w done pending) (henable : s.regs.txEnable = true) :
    s.started = true := by
  by_contra hs
  obtain ⟨-, -, hdisable, -⟩ := h.stopped (Bool.eq_false_of_not_eq_true hs)
  exact Bool.noConfusion (henable.symm.trans hdisable)

theorem Inv.pending_owned (h : Inv s w done pending) {packet : Packet} (hp : packet ∈ pending) :
    packet.data ∈ s.owned := by
  apply List.mem_map_of_mem
  rw [h.queue]
  exact List.mem_append_left _ (List.mem_append_right _ hp)

theorem write_inv (h : Inv s w done pending) {data : Nat} (hfree : data ∉ s.owned)
    (bytes : List Byte) :
    Inv { s with buffers := Function.update s.buffers data bytes } w done pending := by
  refine ⟨h.owned, h.queue, h.order, ?_, h.reported, fun hs => ?_, h.stopped⟩
  · rw [h.contents]
    congr 1
    apply List.map_congr_left
    intro packet hp
    have hne : packet.data ≠ data := fun heq => hfree (heq ▸ h.pending_owned hp)
    show (s.buffers packet.data).take _ = (Function.update s.buffers data bytes packet.data).take _
    rw [Function.update_of_ne hne]
  · obtain ⟨hnumber, hproduced, hconsume, hproduce, hroom, hdescs, henable, hint⟩ := h.running hs
    exact ⟨hnumber, hproduced, hconsume, hproduce, hroom, hdescs, henable, hint⟩

/-- A send takes the descriptor behind those that are used, which leaves one free. -/
theorem Running.push (h : Running s done pending) (packet : Packet)
    (hnext : nextIndex txDescCount s.regs.txProduceIndex ≠ s.regs.txConsumeIndex) :
    Running
      { s with
        txDescs := Function.update s.txDescs s.regs.txProduceIndex packet.desc
        regs := { s.regs with intEnable := false, txProduceIndex := nextIndex txDescCount s.regs.txProduceIndex }
        sending := some packet }
      done (pending ++ [packet]) := by
  obtain ⟨hnumber, hproduced, hconsume, hproduce, hroom, hdescs, henable, hint⟩ := h
  have hlt : s.regs.txProduceIndex < txDescCount := hproduce ▸ Nat.mod_lt _ (by decide)
  have hwrap : nextIndex txDescCount s.regs.txProduceIndex =
      (s.regs.txConsumeIndex + (pending.length + 1)) % txDescCount := by
    rw [nextIndex_txDescCount hlt, ← Lib.offset_offset, ← hproduce]
  have hmore : pending.length + 1 < txDescCount := by
    refine lt_of_le_of_ne hroom fun heq => hnext ?_
    have hconsumed : s.regs.txConsumeIndex < txDescCount := hconsume ▸ Nat.mod_lt _ (by decide)
    rw [hwrap, heq, Nat.add_mod_right, Nat.mod_eq_of_lt hconsumed]
  refine ⟨hnumber, hproduced, hconsume, ?_, ?_, ?_, henable, fun hnone =>
    absurd hnone (Option.some_ne_none packet)⟩
  · show nextIndex txDescCount s.regs.txProduceIndex = _
    rw [hwrap, List.length_append]
    rfl
  · rw [List.length_append]
    exact hmore
  · have hpush := hdescs.push (by rw [List.length_map]; exact hroom) packet.desc
    rw [List.length_map, ← hproduce] at hpush
    rw [List.map_append]
    exact hpush

theorem send_inv (h : Inv s w done pending) {packet : Packet} (hsend : s.sending = none)
    (hfree : packet.data ∉ s.owned) (hmeets : 1 ≤ packet.count.toNat ∧ packet.count.toNat ≤ 2048)
    {r : Err × State} (hs : drvSendPacket s packet = some r) :
    ∃ pending', Inv r.2 (log w s (.send packet) r.2) done pending' := by
  unfold drvSendPacket at hs
  by_cases hstarted : s.started = true
  · rw [if_pos hstarted] at hs
    simp only at hs
    split_ifs at hs with hnext
    obtain rfl := Option.some.inj hs
    have hqueue : s.transmittingPackets = done ++ pending := by
      have hall := h.queue
      rwa [hsend, Option.toList_none, List.append_nil] at hall
    refine ⟨pending ++ [packet], ?_⟩
    rw [log, if_pos hstarted]
    refine ⟨?_, ?_, ?_, ?_, h.reported, fun _ => (h.running hstarted).push packet hnext, ?_⟩
    · have howned := h.owned
      have hnew := hfree
      rw [State.owned, hsend, Option.toList_none, List.append_nil] at howned hnew
      show ((s.transmittingPackets ++ [packet] ++ s.transmittedPackets).map Packet.data).Nodup
      rw [List.map_append] at howned hnew
      rw [List.append_assoc, List.map_append, List.map_append]
      exact List.nodup_middle.mpr (List.nodup_cons.mpr ⟨hnew, howned⟩)
    · show s.transmittingPackets ++ [packet] = _
      rw [hqueue, List.append_assoc]
    · rw [List.map_append, h.order]
      simp only [List.map_cons, List.map_nil, List.append_assoc]
    · rw [List.map_append, List.map_append, h.contents, List.map_singleton, List.map_singleton, List.append_assoc,
        desc_frame hmeets.1 hmeets.2]
    · exact fun hstop => Bool.noConfusion (hstarted.symm.trans hstop)
  · rw [if_neg hstarted] at hs
    obtain rfl := Option.some.inj hs
    refine ⟨pending, ?_⟩
    rw [log, if_neg hstarted]
    exact h

theorem queue_inv (h : Inv s w done pending) (hs : queuePacket s = some s') :
    Inv s' w done pending := by
  obtain ⟨packet, hsend, rfl⟩ := Option.map_eq_some_iff.mp hs
  have hstarted : s.started = true := by
    by_contra hstop
    obtain ⟨-, hnone, -, -⟩ := h.stopped (Bool.eq_false_of_not_eq_true hstop)
    exact Option.some_ne_none _ (hsend.symm.trans hnone)
  have hqueue := h.queue
  have howned := h.owned
  rw [State.owned, hsend] at howned
  rw [hsend] at hqueue
  refine ⟨?_, ?_, h.order, h.contents, h.reported, fun _ => ?_, fun hstop => ?_⟩
  · show ((s.transmittingPackets ++ [packet] ++ [] ++ s.transmittedPackets).map Packet.data).Nodup
    rw [List.append_nil]
    exact howned
  · show s.transmittingPackets ++ [packet] ++ [] = _
    rw [List.append_nil]
    exact hqueue
  · obtain ⟨hnumber, hproduced, hconsume, hproduce, hroom, hdescs, henable, hint⟩ :=
      h.running hstarted
    exact ⟨hnumber, hproduced, hconsume, hproduce, hroom, hdescs, henable, fun _ => rfl⟩
  · exact Bool.noConfusion (hstarted.symm.trans hstop)

theorem dmaSend_some {r : List Byte × State} (h : dmaSend s = some r) :
    s.regs.txEnable = true ∧ s.regs.txConsumeIndex ≠ s.regs.txProduceIndex ∧
    r = ((s.txDescs s.regs.txConsumeIndex).frame s.buffers,
      { s with regs := { s.regs with txConsumeIndex := s.regs.nextConsume } }) := by
  rw [dmaSend] at h
  split_ifs at h with hsend
  exact ⟨hsend.1, hsend.2, (Option.some.inj h).symm⟩

/-- The DMA sends the first pending packet. -/
theorem dma_inv (h : Inv s w done pending) {r : List Byte × State} (hs : dmaSend s = some r) :
    ∃ packet pending', pending = packet :: pending' ∧
      Inv r.2 { w with wire := w.wire ++ [r.1] } (done ++ [packet]) pending' := by
  obtain ⟨henable, hne, rfl⟩ := dmaSend_some hs
  have hstarted := h.started henable
  obtain ⟨hnumber, hproduced, hconsume, hproduce, hroom, hdescs, henable, hint⟩ :=
    h.running hstarted
  have hlt : s.regs.txConsumeIndex < txDescCount := hconsume ▸ Nat.mod_lt _ (by decide)
  cases pending with
  | nil =>
    rw [List.length_nil, Nat.add_zero, Nat.mod_eq_of_lt hlt] at hproduce
    exact absurd hproduce.symm hne
  | cons packet pending =>
    have hnext : s.regs.nextConsume = (s.regs.txConsumeIndex + 1) % txDescCount := by
      rw [← nextIndex_txDescCount hlt, Regs.nextConsume, hnumber]
      exact if_congr (Nat.succ_inj).symm rfl rfl
    rw [List.map_cons] at hdescs
    refine ⟨packet, pending, rfl, h.owned, ?_, ?_, ?_, ?_,
      fun _ => ⟨hnumber, hproduced, ?_, ?_, ?_, ?_, henable, hint⟩, ?_⟩
    · rw [List.append_assoc]
      exact h.queue
    · rw [List.append_assoc done]
      exact h.order
    · rw [List.append_assoc, h.contents, hdescs.head hlt]
      rfl
    · rw [List.length_append, List.length_append, h.reported]
      rfl
    · show s.regs.nextConsume = _
      rw [hnext, hconsume, Lib.offset_offset, List.length_append]
      rfl
    · show s.regs.txProduceIndex = (s.regs.nextConsume + _) % _
      rw [hnext, Lib.offset_offset, hproduce, List.length_cons, Nat.add_comm 1]
    · rw [List.length_cons] at hroom
      omega
    · show Lib.InRing _ _ s.regs.nextConsume _
      rw [hnext]
      exact hdescs.tail
    · exact fun hstop => Bool.noConfusion (hstarted.symm.trans hstop)

theorem transmitRound_some (h : transmitRound s = some s') : ∃ packet packets,
    s.transmittingPackets = packet :: packets ∧ s.regs.txConsumeIndex ≠
      s.txDescriptorProducedIndex ∧
    s' =
      { s with
        transmittingPackets := packets
        transmittedPackets := s.transmittedPackets ++ [packet]
        txDescriptorProducedIndex := nextIndex txDescCount s.txDescriptorProducedIndex } := by
  unfold transmitRound at h
  split at h
  · cases h
  · next packet packets hq =>
    split_ifs at h with hne
    exact ⟨packet, packets, hq, hne, (Option.some.inj h).symm⟩

/-- Something was sent when the indices differ, and the first of it is reported. -/
theorem round_inv (h : Inv s w done pending) (hs : transmitRound s = some s') :
    ∃ packet done', done = packet :: done' ∧ s'.transmittedPackets =
      s.transmittedPackets ++ [packet] ∧
      Inv s' w done' pending := by
  obtain ⟨packet, packets, hq, hne, rfl⟩ := transmitRound_some hs
  have hstarted : s.started = true := by
    by_contra hstop
    obtain ⟨hnil, -⟩ := h.stopped (Bool.eq_false_of_not_eq_true hstop)
    exact List.cons_ne_nil _ _ (hq.symm.trans hnil)
  obtain ⟨hnumber, hproduced, hconsume, hproduce, hroom, hdescs, henable, hint⟩ :=
    h.running hstarted
  have hqueue := h.queue
  rw [hq, List.cons_append] at hqueue
  cases done with
  | nil =>
    rw [List.length_nil, Nat.add_zero, Nat.mod_eq_of_lt hproduced] at hconsume
    exact absurd hconsume hne
  | cons first done =>
    obtain ⟨rfl, hrest⟩ := List.cons.inj hqueue
    have howned := h.owned
    rw [State.owned, hq] at howned
    refine ⟨packet, done, rfl, rfl, ?_, hrest, ?_, h.contents, ?_, fun _ => ?_, ?_⟩
    · show ((packets ++ s.sending.toList ++ (s.transmittedPackets ++ [packet])).map
        Packet.data).Nodup
      rw [← List.append_assoc, List.map_append]
      exact (List.perm_append_singleton _ _).nodup_iff.mpr howned
    · rw [h.order]
      simp only [List.append_assoc, List.cons_append, List.nil_append]
    · rw [h.reported, List.length_append, List.length_cons, List.length_singleton]
      omega
    · rw [List.length_cons, Nat.add_comm done.length, ← Lib.offset_offset,
        ← nextIndex_txDescCount hproduced] at hconsume
      refine ⟨hnumber, ?_, ?_, hproduce, hroom, hdescs, henable, hint⟩
      · show nextIndex txDescCount s.txDescriptorProducedIndex < _
        rw [nextIndex_txDescCount hproduced]
        exact Nat.mod_lt _ (by decide)
      · exact hconsume
    · exact fun hstop => Bool.noConfusion (hstarted.symm.trans hstop)

theorem getNext_inv (h : Inv s w done pending) :
    Inv (drvGetNextTxPacket s).2
      { w with returned := w.returned ++ s.transmittedPackets.head?.toList } done
      pending := by
  have hsplit : s.transmittedPackets = s.transmittedPackets.head?.toList ++
      s.transmittedPackets.tail := by
    cases s.transmittedPackets <;> rfl
  refine ⟨?_, h.queue, ?_, h.contents, ?_, fun hs => ?_, h.stopped⟩
  · refine h.owned.sublist (List.Sublist.map _ (List.Sublist.append_left ?_ _))
    exact List.tail_sublist _
  · show _ = w.returned ++ s.transmittedPackets.head?.toList ++ s.transmittedPackets.tail ++ _
    rw [List.append_assoc w.returned, ← hsplit]
    exact h.order
  · show _ = (w.returned ++ s.transmittedPackets.head?.toList).length +
      s.transmittedPackets.tail.length + _
    have hlength := congrArg List.length hsplit
    rw [List.length_append] at hlength
    rw [h.reported, List.length_append]
    omega
  · obtain ⟨hnumber, hproduced, hconsume, hproduce, hroom, hdescs, henable, hint⟩ := h.running hs
    exact ⟨hnumber, hproduced, hconsume, hproduce, hroom, hdescs, henable, fun _ => rfl⟩

/-- A start finds the ring empty, and `TxConsumeIndex` reset by the stop before it. -/
theorem start_inv (h : Inv s w done pending) (hstop : s.started = false) (rxDescriptorCount : Nat) :
    Inv (drvStart s rxDescriptorCount).2 w done pending := by
  obtain ⟨hnil, hsend, hdisable, hconsume⟩ := h.stopped hstop
  obtain ⟨rfl, rfl⟩ := h.settled hnil hsend
  have hstopped : s.started = true → False := fun hs => Bool.noConfusion (hs.symm.trans hstop)
  unfold drvStart
  by_cases hcount : rxDescriptorCount = 0
  · rw [if_pos hcount]
    exact ⟨h.owned, h.queue, h.order, h.contents, h.reported, fun hs =>
      (hstopped hs).elim, h.stopped⟩
  · rw [if_neg hcount]
    refine ⟨h.owned, h.queue, h.order, h.contents, h.reported, fun _ => ?_,
      fun hs => Bool.noConfusion hs⟩
    have hpos : 0 < txDescCount := by decide
    refine ⟨rfl, hpos, hconsume, ?_, hpos, Lib.inRing_nil _ _ _, rfl, fun _ => rfl⟩
    show 0 = (s.regs.txConsumeIndex + 0) % txDescCount
    rw [hconsume]
    rfl

theorem stop_inv (h : Inv s w done pending) (hsend : s.sending = none) (hs : drvStop s = some s') :
    Inv s' w done pending := by
  unfold drvStop at hs
  split at hs
  · next hnil =>
    obtain rfl := Option.some.inj hs
    exact ⟨h.owned, h.queue, h.order, h.contents, h.reported, fun hs => Bool.noConfusion hs,
      fun _ => ⟨hnil, hsend, rfl, rfl⟩⟩
  · cases hs

theorem step_inv {e : Event} (h : Inv s w done pending) (hmeets : Meets (s, w) e) (hs : step s e = some s') :
    ∃ done' pending', Inv s' (log w s e s') done' pending' := by
  cases e with
  | write data bytes =>
    rw [step] at hs
    split_ifs at hs with hfree
    obtain rfl := Option.some.inj hs
    exact ⟨done, pending, write_inv h (fun hmem => hfree (List.contains_iff_mem.mpr hmem)) bytes⟩
  | send packet =>
    rw [step] at hs
    split_ifs at hs with hfree
    obtain ⟨r, hr, rfl⟩ := Option.map_eq_some_iff.mp hs
    rw [Bool.or_eq_true, not_or, Bool.not_eq_true, Option.isSome_eq_false_iff,
      Option.isNone_iff_eq_none] at hfree
    obtain ⟨hsend, hnew⟩ := hfree
    obtain ⟨pending', h'⟩ := send_inv h hsend (fun hmem => hnew (List.contains_iff_mem.mpr hmem))
      hmeets hr
    exact ⟨done, pending', h'⟩
  | queue => exact ⟨done, pending, queue_inv h hs⟩
  | dmaSend =>
    obtain ⟨r, hr, rfl⟩ := Option.map_eq_some_iff.mp hs
    obtain ⟨packet, pending', -, h'⟩ := dma_inv h hr
    rw [log, hr]
    exact ⟨_, pending', h'⟩
  | round =>
    rw [step] at hs
    split_ifs at hs
    obtain ⟨-, done', -, -, h'⟩ := round_inv h hs
    exact ⟨done', pending, h'⟩
  | getNext =>
    obtain rfl := Option.some.inj hs
    exact ⟨done, pending, getNext_inv h⟩
  | start rxDescriptorCount =>
    rw [step] at hs
    split_ifs at hs
    obtain rfl := Option.some.inj hs
    exact ⟨done, pending, start_inv h hmeets rxDescriptorCount⟩
  | stop =>
    rw [step] at hs
    split_ifs at hs with hsend
    rw [Bool.not_eq_true, Option.isSome_eq_false_iff, Option.isNone_iff_eq_none] at hsend
    exact ⟨done, pending, stop_inv h hsend hs⟩

theorem Inv.started_of_done (h : Inv s w done pending) (hne : done ++ pending ≠ []) :
    s.started = true := by
  by_contra hstop
  obtain ⟨hempty, hsend, -, -⟩ := h.stopped (Bool.eq_false_of_not_eq_true hstop)
  obtain ⟨rfl, rfl⟩ := h.settled hempty hsend
  exact hne rfl

theorem round_none (h : Inv s w done pending) (hsend : s.sending = none)
    (hdone : done.length < txDescCount) (hround : transmitRound s = none) : done = [] := by
  by_contra hne
  have hqueue := h.queue
  rw [hsend, Option.toList_none, List.append_nil] at hqueue
  obtain ⟨packet, done', rfl⟩ := List.exists_cons_of_ne_nil hne
  obtain ⟨-, hproduced, hconsume, -⟩ := h.running (h.started_of_done (List.cons_ne_nil _ _))
  -- the packet stands in the queue, and the indices differ
  have hindex : s.regs.txConsumeIndex ≠ s.txDescriptorProducedIndex := by
    have hapart := Lib.offset_ne (c := s.txDescriptorProducedIndex) (i := 0) (Nat.succ_pos _) hdone
    rw [Nat.add_zero, Nat.mod_eq_of_lt hproduced] at hapart
    rw [hconsume]
    exact hapart.symm
  rw [transmitRound, hqueue] at hround
  simp only [List.cons_append, if_pos hindex] at hround
  cases hround

/-- With less than a circle of reports open, the handler makes all of them. -/
theorem interruptHandler_reports (fuel : Nat) (h : Inv s w done pending) (hsend : s.sending = none)
    (hdone : done.length < txDescCount) (hfuel : done.length ≤ fuel) :
    (interruptHandler fuel s).transmittedPackets = s.transmittedPackets ++ done := by
  induction fuel generalizing s done with
  | zero =>
    rw [List.length_eq_zero_iff.mp (Nat.le_zero.mp hfuel), List.append_nil]
    rfl
  | succ fuel ih =>
    rw [interruptHandler]
    cases hround : transmitRound s with
    | some s' =>
      obtain ⟨packet, done', rfl, htransmitted, h'⟩ := round_inv h hround
      have hsend' : s'.sending = none := by
        obtain ⟨-, -, -, -, rfl⟩ := transmitRound_some hround
        exact hsend
      rw [List.length_cons] at hdone hfuel
      show (interruptHandler fuel s').transmittedPackets = _
      rw [ih h' hsend' (by omega) (by omega), htransmitted, List.append_assoc]
      rfl
    | none =>
      show s.transmittedPackets = _
      rw [round_none h hsend hdone hround, List.append_nil]

theorem Inv.kept (h : Inv s w done pending) : Kept s w where
  order := by
    rw [h.queue]
    exact h.order
  wire := by
    rw [h.contents]
    exact List.prefix_append _ _
  late := by
    have hreported := h.reported
    omega
  index := fun hs => by
    obtain ⟨-, -, -, hproduce, -⟩ := h.running hs
    exact hproduce ▸ Nat.mod_lt _ (by decide)
  reports := fun hsend hlt => by
    have hreported := h.reported
    have hqueue := congrArg List.length h.queue
    rw [hsend, Option.toList_none, List.append_nil, List.length_append] at hqueue
    rw [interruptHandler_reports _ h hsend (by omega) (by omega), List.length_append]
    omega

end Steps

def unreported (x : State × Log) : Nat :=
  x.2.wire.length - (x.2.returned.length + x.1.transmittedPackets.length)

/-- Without further calls: the send that is under way, and the DMA with an interrupt handler that is
never a whole circle behind. -/
def Drives (x : State × Log) : Event → Prop
  | .queue | .round => True
  | .dmaSend => unreported x + 1 < txDescCount
  | _ => False

instance (x : State × Log) (e : Event) : Decidable (Drives x e) := by
  cases e <;> unfold Drives <;> infer_instance

/-- What is left to do for the packets of the driver. -/
def Rank (x : State × Log) (r : Nat) : Prop :=
  ∃ done pending, Inv x.1 x.2 done pending ∧ done.length < txDescCount ∧
    r = 2 * pending.length + done.length + x.1.sending.toList.length

section Drain

variable {x y : State × Log} {r : Nat}

theorem Inv.unreported {done pending : List Packet} (h : Inv x.1 x.2 done pending) :
    unreported x = done.length := by
  rw [Tx.unreported, h.reported]
  omega

theorem drives_rank {e : Event} (h : Rank x r) (hok : Drives x e) (hs : Lib.observe step log x e = some y) :
    ∃ r' < r, Rank y r' := by
  obtain ⟨done, pending, hinv, hdone, rfl⟩ := h
  obtain ⟨hstep, hlog⟩ := Lib.observe_some.mp hs
  cases e with
  | queue =>
    have h' := queue_inv hinv hstep
    obtain ⟨packet, hsend, hy⟩ := Option.map_eq_some_iff.mp hstep
    have hsent : y.1.sending = none := by rw [← hy]
    refine ⟨2 * pending.length + done.length, ?_, done, pending, hlog ▸ h', hdone, ?_⟩
    · rw [hsend]
      exact Nat.lt_succ_self _
    · rw [hsent]
      rfl
  | dmaSend =>
    rw [Drives, hinv.unreported] at hok
    obtain ⟨f, hf, hy⟩ := Option.map_eq_some_iff.mp hstep
    obtain ⟨packet, pending, rfl, h'⟩ := dma_inv hinv hf
    obtain ⟨-, -, rfl⟩ := dmaSend_some hf
    have hsending : y.1.sending = x.1.sending := by rw [← hy]
    rw [log, hf] at hlog
    refine ⟨2 * pending.length + (done.length + 1) + x.1.sending.toList.length, ?_, done ++
      [packet], pending, ?_, ?_,
      ?_⟩
    · rw [List.length_cons]
      omega
    · rw [hlog, ← hy]
      exact h'
    · rw [List.length_append]
      exact hok
    · rw [hsending, List.length_append, List.length_singleton]
  | round =>
    rw [step] at hstep
    split_ifs at hstep
    obtain ⟨packet, done, rfl, -, h'⟩ := round_inv hinv hstep
    have hsending : y.1.sending = x.1.sending := by
      obtain ⟨_, _, -, -, hy⟩ := transmitRound_some hstep
      rw [hy]
    rw [List.length_cons] at hdone
    refine ⟨2 * pending.length + done.length + x.1.sending.toList.length, ?_, done, pending,
      hlog ▸ h', by omega, ?_⟩
    · rw [List.length_cons]
      omega
    · rw [hsending]
  | _ => exact hok.elim

/-- When nothing drives the driver on, it has nothing. -/
theorem rank_stuck (h : Rank x r) (hstuck : ∀ e, Drives x e → Lib.observe step log x e = none) :
    x.1.transmittingPackets = [] ∧ x.1.sending = none ∧ x.2.wire = x.2.sent.map Prod.snd := by
  obtain ⟨done, pending, hinv, hdone, -⟩ := h
  have hnone : ∀ e, Drives x e → step x.1 e = none := fun e he => Option.map_eq_none_iff.mp
    (hstuck e he)
  have hsend : x.1.sending = none := Option.map_eq_none_iff.mp (hnone .queue trivial)
  have hround := hnone .round trivial
  have hempty : done = [] := by
    by_contra hne
    have hring := hinv.running (hinv.started_of_done fun h => hne (List.append_eq_nil_iff.mp h).1)
    rw [step, if_pos (hring.interrupts hsend)] at hround
    exact hne (round_none hinv hsend hdone hround)
  have hidle : pending = [] := by
    by_contra hne
    have hring := hinv.running (hinv.started_of_done fun h => hne (List.append_eq_nil_iff.mp h).2)
    have hunreported : unreported x + 1 < txDescCount := by
      rw [hinv.unreported, hempty]
      decide
    have hindex : x.1.regs.txConsumeIndex ≠ x.1.regs.txProduceIndex := by
      have hapart := Lib.offset_ne (c := x.1.regs.txConsumeIndex)
        (i := 0) (List.length_pos_iff.mpr hne) hring.room
      rw [Nat.add_zero, Nat.mod_eq_of_lt (hring.consume ▸ Nat.mod_lt _ (by decide))] at hapart
      rw [hring.produce]
      exact hapart
    have hdma := Option.map_eq_none_iff.mp (hnone .dmaSend hunreported)
    rw [dmaSend, if_pos ⟨hring.enable, hindex⟩] at hdma
    cases hdma
  obtain ⟨rfl, rfl⟩ := And.intro hempty hidle
  have hqueue := hinv.queue
  rw [hsend, Option.toList_none, List.append_nil] at hqueue
  refine ⟨hqueue, hsend, ?_⟩
  rw [hinv.contents]
  exact (List.append_nil _).symm

end Drain

theorem reach_inv {x : State × Log}
    (h : Lib.Reach (Lib.observe step log) Meets (State.init, Log.init) x) :
    ∃ done pending, Inv x.1 x.2 done pending := by
  refine h.invariant (I := fun x => ∃ done pending, Inv x.1 x.2 done pending) ⟨[], [], inv_init⟩ ?_
  intro y e z hy hmeets hs
  obtain ⟨done, pending, hy⟩ := hy
  obtain ⟨hstep, hlog⟩ := Lib.observe_some.mp hs
  rw [hlog]
  exact step_inv hy hmeets hstep

/-- In a run in which each frame fits into a descriptor and no start finds the driver running, every
packet that was accepted is sent as it was, and handed back once, in order and when it is sent. -/
theorem sent_in_order {x : State × Log}
    (h : Lib.Reach (Lib.observe step log) Meets (State.init, Log.init) x) :
    Kept x.1 x.2 := by
  obtain ⟨done, pending, hinv⟩ := reach_inv h
  exact hinv.kept

/-- The DMA sends the second packet before it is queued, and the interrupt leaves its report open.
-/
theorem sent_in_order_open : ∃ x, Lib.Reach (Lib.observe step log) Meets (State.init, Log.init) x ∧
    (x.2.wire = [[1#8], [2#8]] ∧ x.2.returned = [⟨0, 1#16⟩] ∧ x.1.transmittedPackets = []) ∧
      Kept x.1 x.2 := by
  obtain ⟨x, hreach, hend⟩ :=
    Lib.exists_of_runInputs (Lib.observe step log) Meets (State.init, Log.init)
    [.write 0 [1#8], .write 1 [2#8], .start 4, .send ⟨0, 1#16⟩, .queue, .dmaSend,
      .send ⟨1, 1#16⟩, .dmaSend,
      .getNext, .round, .getNext, .queue]
    (fun x => x.2.wire = [[1#8], [2#8]] ∧ x.2.returned = [⟨0, 1#16⟩] ∧ x.1.transmittedPackets =
      []) (by decide +kernel)
  exact ⟨x, hreach, of_decide_eq_true hend, sent_in_order hreach⟩

/-- Less than a circle behind, the driver gets rid of its packets without further calls, in whatever
order the DMA, the interrupt handler and the send that is under way go on. -/
theorem stop_waits {x y : State × Log} {es : List Event}
    (h : Lib.Reach (Lib.observe step log) Meets (State.init, Log.init) x)
    (hbehind : unreported x < txDescCount)
    (hrun : Lib.runInputs (Lib.observe step log) Drives x es = some y) :
    es.length ≤ 2 * (x.1.transmittingPackets.length + x.1.sending.toList.length) +
      x.1.sending.toList.length ∧
      ((∀ e, Drives y e → Lib.observe step log y e = none) →
        (step y.1 .stop).isSome ∧ y.2.wire = y.2.sent.map Prod.snd) := by
  obtain ⟨done, pending, hinv⟩ := reach_inv h
  rw [hinv.unreported] at hbehind
  have hrank : Rank x (2 * pending.length + done.length + x.1.sending.toList.length) :=
    ⟨done, pending, hinv, hbehind, rfl⟩
  obtain ⟨r, hy, hle⟩ := Lib.runInputs_ranked (P := Rank) (fun _ _ _ _ => drives_rank) hrank hrun
  have hqueue := congrArg List.length hinv.queue
  rw [List.length_append, List.length_append] at hqueue
  refine ⟨by omega, fun hstuck => ?_⟩
  obtain ⟨hempty, hsend, hwire⟩ := rank_stuck hy hstuck
  refine ⟨?_, hwire⟩
  rw [step, hsend, drvStop, hempty]
  rfl

/-- One packet is on its way, and its send not over. -/
theorem stop_waits_one : ∃ x y, Lib.Reach (Lib.observe step log) Meets (State.init, Log.init) x ∧
    Lib.runInputs (Lib.observe step log) Drives x [.dmaSend, .queue, .round] = some y ∧
    3 ≤ 2 * (x.1.transmittingPackets.length + x.1.sending.toList.length) +
      x.1.sending.toList.length ∧
    (step y.1 .stop).isSome ∧ y.2.wire = y.2.sent.map Prod.snd := by
  obtain ⟨x, hreach, hend⟩ :=
    Lib.exists_of_runInputs (Lib.observe step log) Meets (State.init, Log.init)
    [.write 0 [1#8], .start 4, .send ⟨0, 1#16⟩]
    (fun x => unreported x < txDescCount ∧
      (Lib.runInputs (Lib.observe step log) Drives x [.dmaSend, .queue, .round]).any fun y =>
        [Event.queue, .round, .dmaSend].all fun e =>
          (Lib.observe step log y e).isNone) (by decide +kernel)
  obtain ⟨hbehind, hrun⟩ := of_decide_eq_true hend
  obtain ⟨y, hy, hrest⟩ := (Option.any_eq_true _ _).mp hrun
  have hnone : ∀ e ∈ [Event.queue, .round, .dmaSend], Lib.observe step log y e = none :=
    fun e he => Option.isNone_iff_eq_none.mp (List.all_eq_true.mp hrest e he)
  obtain ⟨hbound, hstop⟩ := stop_waits hreach hbehind hy
  refine ⟨x, y, hreach, hy, hbound, hstop fun e he => hnone e ?_⟩
  cases e with
  | queue | round | dmaSend => simp
  | write | send | getNext | start | stop => exact absurd he id

end NanoIp.LpcEmac.Tx
