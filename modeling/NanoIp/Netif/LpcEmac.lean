import NanoIp.Core.Types
import NanoIp.Lib.Ring
import NanoIp.Lib.Run

/-!
# The receive ring of the LPC EMAC driver

`nano_ip_lpc_emac.c`, with the receive part of the controller: its DMA fills the descriptors from
`RxProduceIndex` to the one before `RxConsumeIndex`, and resetting the receive datapath clears
`RxProduceIndex`. The packets of a queue are given as a list, and a packet by its buffer.
-/
namespace NanoIp.LpcEmac

/-- `LPC_EMAC_NET_IF_RX_DESC_COUNT`. -/
def rxDescCount : Nat := 10

/-- A packet: the address of its buffer, and how long that is. -/
structure Packet where
  data : Nat
  size : BitVec 16
  deriving DecidableEq

/-- `lpc_emac_rx_desc_t`. -/
structure RxDesc where
  packet : Nat
  control : BitVec 32
  deriving DecidableEq

/-- The registers of the receive path: the enable bit of `Command`, `IntEnable` and the ring. -/
structure Regs where
  rxEnable : Bool
  intEnable : Bool
  rxDescriptorNumber : Nat
  rxProduceIndex : Nat
  rxConsumeIndex : Nat

/-- What the driver writes into a packet that was received. -/
structure Received where
  packet : Packet
  count : BitVec 16
  error : Bool
  deriving DecidableEq

/-- What the DMA writes for one descriptor. -/
structure Frame where
  data : List Byte
  statusInfo : BitVec 32
  deriving DecidableEq

/-- The receive part of `lpc_emac_drv_t`, with the registers and the buffers. -/
structure State where
  started : Bool
  receivedPackets : List Received
  rxQueuedPackets : List Packet
  rxDescs : Nat → RxDesc
  rxStatusDescs : Nat → BitVec 32
  rxDescriptorCount : Nat
  rxDescriptorConsumeIndex : Nat
  regs : Regs
  buffers : Nat → List Byte

def Packet.desc (packet : Packet) : RxDesc :=
  ⟨packet.data, (packet.size.setWidth 32 - 1#32) ||| 0x80000000#32⟩

/-- The index behind one, which begins again at `count`. -/
def nextIndex (count index : Nat) : Nat := if index + 1 = count then 0 else index + 1

/-- The loop of `NANO_IP_LPC_EMAC_DrvStart` that fills the descriptors. -/
def fillDescs (s : State) : List Packet → State
  | [] => s
  | packet :: packets =>
    fillDescs
      { s with
        rxDescs := Function.update s.rxDescs s.rxDescriptorCount packet.desc
        rxStatusDescs := Function.update s.rxStatusDescs s.rxDescriptorCount 0xFFFFFFFF#32
        rxDescriptorCount := s.rxDescriptorCount + 1 } packets

/-- `NANO_IP_LPC_EMAC_DrvStart`. -/
def drvStart (s : State) : Err × State :=
  let s := fillDescs { s with rxDescriptorCount := 0 } s.rxQueuedPackets
  if s.rxDescriptorCount = 0 then (.failure, s)
  else
    (.success,
      { s with
        regs :=
          { s.regs with
            rxDescriptorNumber := s.rxDescriptorCount - 1, rxConsumeIndex := 0,
              rxEnable := true, intEnable := true }
        rxDescriptorConsumeIndex := 0
        started := true })

/-- `NANO_IP_LPC_EMAC_DrvStop`. -/
def drvStop (s : State) : State :=
  { s with regs := { s.regs with rxEnable := false, rxProduceIndex := 0, intEnable := false },
           started := false }

/-- `NANO_IP_LPC_EMAC_DrvAddRxPacket`. -/
def drvAddRxPacket (s : State) (packet : Packet) : State :=
  if s.started then
    { s with
      rxDescs := Function.update s.rxDescs s.regs.rxConsumeIndex packet.desc
      rxStatusDescs := Function.update s.rxStatusDescs s.regs.rxConsumeIndex 0xFFFFFFFF#32
      regs :=
        { s.regs with
          rxConsumeIndex := nextIndex s.rxDescriptorCount s.regs.rxConsumeIndex, intEnable := true }
      rxQueuedPackets := s.rxQueuedPackets ++ [packet] }
  else { s with rxQueuedPackets := s.rxQueuedPackets ++ [packet] }

/-- `NANO_IP_LPC_EMAC_DrvGetNextRxPacket`, which leaves the other packets. -/
def drvGetNextRxPacket (s : State) : Option Received × State :=
  (s.receivedPackets.head?,
    { s with receivedPackets := s.receivedPackets.tail, regs := { s.regs with intEnable := true } })

/-- What the driver reads from the status of a frame. -/
def received (packet : Packet) (statusInfo : BitVec 32) : Received where
  packet := packet
  count := (statusInfo &&& 0x3FF#32).setWidth 16 + 1#16 - 4#16
  error := statusInfo &&& (1#32 <<< 23 ||| 1#32 <<< 25 ||| 1#32 <<< 27) ≠ 0#32 ∨
    statusInfo &&& 1#32 <<< 30 = 0#32

/-- One round of the loop of `NANO_IP_LPC_EMAC_InterruptHandler` over the received packets, unless
it ends. -/
def receiveRound (s : State) : Option State :=
  match s.rxQueuedPackets with
  | [] => none
  | packet :: packets =>
    if s.regs.rxProduceIndex ≠ s.rxDescriptorConsumeIndex then
      some
        { s with
          rxQueuedPackets := packets
          receivedPackets := s.receivedPackets ++
            [received packet (s.rxStatusDescs s.rxDescriptorConsumeIndex)]
          rxDescriptorConsumeIndex := nextIndex s.rxDescriptorCount s.rxDescriptorConsumeIndex }
    else none

/-- `NANO_IP_LPC_EMAC_InterruptHandler`, when no frame arrives meanwhile. -/
def interruptHandler : Nat → State → State
  | 0, s => s
  | fuel + 1, s =>
    match receiveRound s with
    | none => s
    | some s' => interruptHandler fuel s'

/-- The index behind `RxProduceIndex`. -/
def Regs.nextProduce (regs : Regs) : Nat :=
  if regs.rxProduceIndex = regs.rxDescriptorNumber then 0 else regs.rxProduceIndex + 1

/-- The DMA fills the next descriptor. -/
def dmaFill (s : State) (frame : Frame) : Option State :=
  if s.regs.rxEnable = true ∧ s.regs.nextProduce ≠ s.regs.rxConsumeIndex then
    some
      { s with
        buffers := Function.update s.buffers (s.rxDescs s.regs.rxProduceIndex).packet frame.data
        rxStatusDescs := Function.update s.rxStatusDescs s.regs.rxProduceIndex frame.statusInfo
        regs := { s.regs with rxProduceIndex := s.regs.nextProduce } }
  else none

/-- What happens. A round of the interrupt handler is an event of its own, so that frames may arrive
between two of them. -/
inductive Event where
  | add (packet : Packet)
  | start
  | stop
  | frame (frame : Frame)
  | round
  | getNext

def State.owned (s : State) : List Nat :=
  s.rxQueuedPackets.map Packet.data ++ s.receivedPackets.map fun r => r.packet.data

/-- A packet is added only when the driver does not have it, and its buffer is no other's. -/
def step (s : State) : Event → Option State
  | .add packet => if s.owned.contains packet.data then none else some (drvAddRxPacket s packet)
  | .start => some (drvStart s).2
  | .stop => some (drvStop s)
  | .frame frame => dmaFill s frame
  | .round => if s.regs.intEnable then receiveRound s else none
  | .getNext => some (drvGetNextRxPacket s).2

/-- The driver that `NANO_IP_LPC_EMAC_Init` and `NANO_IP_LPC_EMAC_DrvInit` leave. -/
def State.init : State where
  started := false
  receivedPackets := []
  rxQueuedPackets := []
  rxDescs := fun _ => ⟨0, 0#32⟩
  rxStatusDescs := fun _ => 0#32
  rxDescriptorCount := 0
  rxDescriptorConsumeIndex := 0
  regs := ⟨false, false, 0, 0, 0⟩
  buffers := fun _ => []

/-- The descriptors that the driver or the DMA accesses. -/
def touched (s : State) : Event → List Nat
  | .add _ => if s.started then [s.regs.rxConsumeIndex] else []
  | .start => List.range s.rxQueuedPackets.length
  | .frame _ => [s.regs.rxProduceIndex]
  | .round => [s.rxDescriptorConsumeIndex]
  | .stop | .getNext => []

section Functions

variable {s s' : State}

theorem fillDescs_eq (s : State) (packets : List Packet) : ∃ descs status,
    fillDescs s packets =
      { s with rxDescs := descs, rxStatusDescs := status,
               rxDescriptorCount := s.rxDescriptorCount + packets.length } ∧
    (∀ i < s.rxDescriptorCount, descs i = s.rxDescs i) ∧
    ∀ k packet, packets[k]? = some packet → descs (s.rxDescriptorCount + k) = packet.desc := by
  induction packets generalizing s with
  | nil =>
    refine ⟨s.rxDescs, s.rxStatusDescs, rfl, fun _ _ => rfl, fun _ _ h => ?_⟩
    exact absurd (List.mem_of_getElem? h) List.not_mem_nil
  | cons packet packets ih =>
    obtain ⟨descs, status, heq, hbelow, hslot⟩ := ih
      { s with
        rxDescs := Function.update s.rxDescs s.rxDescriptorCount packet.desc
        rxStatusDescs := Function.update s.rxStatusDescs s.rxDescriptorCount 0xFFFFFFFF#32
        rxDescriptorCount := s.rxDescriptorCount + 1 }
    refine ⟨descs, status, ?_, fun i hi => ?_, fun k p hk => ?_⟩
    · rw [fillDescs, heq, List.length_cons, Nat.add_assoc, Nat.add_comm 1]
    · exact (hbelow i (hi.trans (Nat.lt_succ_self _))).trans (Function.update_of_ne hi.ne _ _)
    · cases k with
      | zero =>
        obtain rfl := Option.some.inj hk
        exact (hbelow _ (Nat.lt_succ_self _)).trans (Function.update_self _ _ _)
      | succ k =>
        rw [Nat.add_comm k, ← Nat.add_assoc]
        exact hslot k p hk

/-- A start makes a ring of the queued packets, if there are some. -/
theorem drvStart_eq (s : State) :
    (s.rxQueuedPackets = [] ∧ (drvStart s).2 = { s with rxDescriptorCount := 0 }) ∨
    s.rxQueuedPackets ≠ [] ∧ ∃ descs status,
      (drvStart s).2 =
        { s with
          rxDescs := descs
          rxStatusDescs := status
          rxDescriptorCount := s.rxQueuedPackets.length
          regs :=
            { s.regs with
              rxDescriptorNumber := s.rxQueuedPackets.length - 1
              rxConsumeIndex := 0
              rxEnable := true
              intEnable := true }
          rxDescriptorConsumeIndex := 0
          started := true } ∧
      ∀ k packet, s.rxQueuedPackets[k]? = some packet → descs k = packet.desc := by
  obtain ⟨descs, status, heq, -, hslot⟩ :=
    fillDescs_eq { s with rxDescriptorCount := 0 } s.rxQueuedPackets
  simp only [Nat.zero_add] at heq hslot
  by_cases hq : s.rxQueuedPackets = []
  · refine .inl ⟨hq, ?_⟩
    rw [drvStart, hq]
    rfl
  · have hlength : s.rxQueuedPackets.length ≠ 0 := fun h => hq (List.length_eq_zero_iff.mp h)
    refine .inr ⟨hq, descs, status, ?_, hslot⟩
    simp only [drvStart, heq, if_neg hlength]

theorem receiveRound_some (h : receiveRound s = some s') :
    ∃ packet packets, s.rxQueuedPackets = packet :: packets ∧
    s.regs.rxProduceIndex ≠ s.rxDescriptorConsumeIndex ∧
    s' =
      { s with
        rxQueuedPackets := packets
        receivedPackets := s.receivedPackets ++
          [received packet (s.rxStatusDescs s.rxDescriptorConsumeIndex)]
        rxDescriptorConsumeIndex := nextIndex s.rxDescriptorCount s.rxDescriptorConsumeIndex } := by
  unfold receiveRound at h
  split at h
  · cases h
  · next packet packets hq =>
    split_ifs at h with hne
    exact ⟨packet, packets, hq, hne, (Option.some.inj h).symm⟩

theorem dmaFill_some {frame : Frame} (h : dmaFill s frame = some s') :
    s.regs.rxEnable = true ∧ s.regs.nextProduce ≠ s.regs.rxConsumeIndex ∧
    s' =
      { s with
        buffers := Function.update s.buffers (s.rxDescs s.regs.rxProduceIndex).packet frame.data
        rxStatusDescs := Function.update s.rxStatusDescs s.regs.rxProduceIndex frame.statusInfo
        regs := { s.regs with rxProduceIndex := s.regs.nextProduce } } := by
  rw [dmaFill] at h
  split_ifs at h with hfill
  exact ⟨hfill.1, hfill.2, (Option.some.inj h).symm⟩

theorem interruptHandler_done (fuel : Nat) (hfuel : s.rxQueuedPackets.length ≤ fuel) :
    receiveRound (interruptHandler fuel s) = none := by
  induction fuel generalizing s with
  | zero =>
    have hq : s.rxQueuedPackets = [] := List.length_eq_zero_iff.mp (Nat.le_zero.mp hfuel)
    rw [interruptHandler, receiveRound, hq]
  | succ fuel ih =>
    rw [interruptHandler]
    cases hround : receiveRound s with
    | none => exact hround
    | some s' =>
      obtain ⟨packet, packets, hq, -, rfl⟩ := receiveRound_some hround
      apply ih
      rw [hq, List.length_cons] at hfuel
      exact Nat.le_of_succ_le_succ hfuel

theorem interruptHandler_run (fuel : Nat) (hint : s.regs.intEnable = true) :
    Lib.Reach step (fun _ e => e = .round) s (interruptHandler fuel s) := by
  induction fuel generalizing s with
  | zero => exact .refl
  | succ fuel ih =>
    rw [interruptHandler]
    cases hround : receiveRound s with
    | none => exact .refl
    | some s' =>
      have hstep : step s .round = some s' := (if_pos hint).trans hround
      obtain ⟨packet, packets, -, -, hs'⟩ := receiveRound_some hround
      have hint' : s'.regs.intEnable = true := by
        rw [hs']
        exact hint
      have hfirst : Lib.Reach step (fun _ e => e = .round) s s' := .tail .refl rfl hstep
      exact hfirst.trans (ih hint')

end Functions

end NanoIp.LpcEmac
