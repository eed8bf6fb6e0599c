import Mathlib.Data.List.Forall2
import NanoIp.Netif.LpcEmac

/-!
# Alignment of the receive ring

Started with at most ten packets, and given no more packets than the ring has free descriptors, the
driver reports each frame with the packet whose buffer has it. A restart makes the ring as large as
the queue is then, and packets that the stack returns later do not fit in any more: they are written
over descriptors in use, and the queue is shifted against the ring from there on.
-/
namespace NanoIp.LpcEmac

/-- The frames that were filled and not reported since the ring was made, those of the received
packets, and the descriptors that were accessed. -/
structure Log where
  filled : List Frame
  reported : List (Option Frame)
  indices : List Nat

def Log.init : Log := ⟨[], [], []⟩

/-- A round reports the frame that was filled first. -/
def log (w : Log) (s : State) (e : Event) (_ : State) : Log :=
  match e with
  | .add _ => { w with indices := w.indices ++ touched s e }
  | .start => { w with filled := [], indices := w.indices ++ touched s e }
  | .stop => { w with filled := [] }
  | .frame frame => { w with filled := w.filled ++ [frame], indices := w.indices ++ touched s e }
  | .round =>
    { filled := w.filled.tail, reported := w.reported ++ [w.filled.head?],
      indices := w.indices ++ touched s e }
  | .getNext => { w with reported := w.reported.tail }

/-- A received packet is that of a frame, and has its length and errors. -/
def Holds (buffers : Nat → List Byte) (r : Received) (frame : Option Frame) : Prop :=
  ∃ f, frame = some f ∧ buffers r.packet.data = f.data ∧ r = received r.packet f.statusInfo

/-- The first packets have these frames in their buffers. -/
def Filled (buffers : Nat → List Byte) (frames : List Frame) (packets : List Packet) : Prop :=
  ∀ (k : Nat) (f : Frame) (packet : Packet), frames[k]? = some f → packets[k]? = some packet →
    buffers packet.data = f.data

/-- The first queued packets have the frames that were filled, the others the next descriptors. -/
structure Kept (s : State) (w : Log) : Prop where
  indices : ∀ i ∈ w.indices, i < rxDescCount
  filled : Filled s.buffers w.filled s.rxQueuedPackets
  queued : s.started = true → ∀ (k : Nat) (packet : Packet),
    s.rxQueuedPackets[w.filled.length + k]? = some packet →
    s.rxDescs ((s.regs.rxProduceIndex + k) % s.rxDescriptorCount) = packet.desc
  received : List.Forall₂ (Holds s.buffers) s.receivedPackets w.reported

/-- A start finds the receive path reset and no more packets than descriptors; a packet that is
added to a running ring finds a descriptor free; and interrupts occur only in a running one. -/
def Meets (x : State × Log) : Event → Prop
  | .start => x.1.regs.rxProduceIndex = 0 ∧ x.1.rxQueuedPackets.length ≤ rxDescCount
  | .add _ => x.1.started = true → x.1.rxQueuedPackets.length < x.1.rxDescriptorCount
  | .round => x.1.started = true
  | .stop | .frame _ | .getNext => True

instance (x : State × Log) : ∀ e, Decidable (Meets x e)
  | .start => inferInstanceAs (Decidable (_ ∧ _))
  | .add _ => inferInstanceAs (Decidable (_ → _))
  | .round => inferInstanceAs (Decidable (_ = _))
  | .stop | .frame _ | .getNext => inferInstanceAs (Decidable True)

/-- The ring of a started driver. From `rxDescriptorConsumeIndex` on it has the queued packets, the
first of them filled, up to `RxConsumeIndex`. -/
structure Running (s : State) (w : Log) : Prop where
  count : s.rxDescriptorCount ≤ rxDescCount
  number : s.regs.rxDescriptorNumber + 1 = s.rxDescriptorCount
  first : s.rxDescriptorConsumeIndex < s.rxDescriptorCount
  produce : s.regs.rxProduceIndex = (s.rxDescriptorConsumeIndex + w.filled.length) %
    s.rxDescriptorCount
  consume : s.regs.rxConsumeIndex = (s.rxDescriptorConsumeIndex + s.rxQueuedPackets.length) %
    s.rxDescriptorCount
  unfilled : w.filled.length < s.rxQueuedPackets.length
  descs : Lib.InRing s.rxDescs s.rxDescriptorCount s.rxDescriptorConsumeIndex
    (s.rxQueuedPackets.map Packet.desc)
  status : Lib.InRing s.rxStatusDescs s.rxDescriptorCount s.rxDescriptorConsumeIndex
    (w.filled.map Frame.statusInfo)

/-- What every event keeps. -/
structure Inv (s : State) (w : Log) : Prop where
  owned : s.owned.Nodup
  indices : ∀ i ∈ w.indices, i < rxDescCount
  filled : Filled s.buffers w.filled s.rxQueuedPackets
  received : List.Forall₂ (Holds s.buffers) s.receivedPackets w.reported
  running : s.started = true → Running s w
  stopped : s.started = false → s.regs.rxEnable = false ∧ w.filled = []

section Steps

variable {s s' : State} {w : Log}

theorem inv_init : Inv State.init Log.init where
  owned := List.nodup_nil
  indices := fun _ h => absurd h List.not_mem_nil
  filled := fun _ _ _ h => absurd (List.mem_of_getElem? h) List.not_mem_nil
  received := .nil
  running := Bool.noConfusion
  stopped := fun _ => ⟨rfl, rfl⟩

theorem Inv.kept (h : Inv s w) : Kept s w := by
  refine ⟨h.indices, h.filled, fun hstarted k packet hk => ?_, h.received⟩
  have hring := h.running hstarted
  rw [hring.produce, Lib.offset_offset]
  apply hring.descs.slot
  rw [List.getElem?_map, hk, Option.map_some]

theorem Inv.room (h : Inv s w) (hstarted : s.started = true) :
    s.rxQueuedPackets.length ≤ s.rxDescriptorCount := by
  have hroom := (h.running hstarted).descs.room
  rw [List.length_map] at hroom
  exact hroom

theorem Inv.accessed (h : Inv s w) {l : List Nat} (hl : ∀ i ∈ l, i < rxDescCount) :
    ∀ i ∈ w.indices ++ l, i < rxDescCount := by
  intro i hi
  rcases List.mem_append.mp hi with hi | hi
  · exact h.indices i hi
  · exact hl i hi

theorem nextIndex_eq {count index : Nat} (h : index < count) :
    nextIndex count index = (index + 1) % count :=
  Lib.wrap_mod h

/-- A packet finds a free descriptor behind those of the others. -/
theorem add_inv (h : Inv s w) {packet : Packet} (hnew : packet.data ∉ s.owned)
    (hroom : s.started = true → s.rxQueuedPackets.length < s.rxDescriptorCount) :
    Inv (drvAddRxPacket s packet) { w with indices := w.indices ++ touched s (.add packet) } := by
  have howned : (s.rxQueuedPackets ++ [packet]).map Packet.data ++ s.receivedPackets.map
    (fun r => r.packet.data) =
      s.rxQueuedPackets.map Packet.data ++ packet.data :: s.receivedPackets.map fun r =>
        r.packet.data := by
    rw [List.map_append, List.append_assoc]
    rfl
  have hnodup : ((s.rxQueuedPackets ++ [packet]).map Packet.data ++
      s.receivedPackets.map fun r => r.packet.data).Nodup := by
    rw [howned, List.perm_middle.nodup_iff]
    exact List.nodup_cons.mpr ⟨hnew, h.owned⟩
  have hfilled : (w.filled.length ≤ s.rxQueuedPackets.length) →
      Filled s.buffers w.filled (s.rxQueuedPackets ++ [packet]) := by
    intro hle k f p hf hp
    obtain ⟨hk, -⟩ := List.getElem?_eq_some_iff.mp hf
    rw [List.getElem?_append_left (hk.trans_le hle)] at hp
    exact h.filled k f p hf hp
  cases hstarted : s.started with
  | false =>
    obtain ⟨henable, hempty⟩ := h.stopped hstarted
    have hstop : ¬ s.started = true := fun hs => Bool.noConfusion (hstarted.symm.trans hs)
    rw [drvAddRxPacket, if_neg hstop, touched, if_neg hstop, List.append_nil]
    exact
      { owned := hnodup
        indices := h.indices
        filled := hfilled (by rw [hempty]; exact Nat.zero_le _)
        received := h.received
        running := fun hs => absurd hs hstop
        stopped := fun _ => ⟨henable, hempty⟩ }
  | true =>
    have hring := h.running hstarted
    have hfree := hroom hstarted
    have hconsume : s.regs.rxConsumeIndex < s.rxDescriptorCount :=
      hring.consume ▸ Nat.mod_lt _ (by omega)
    rw [drvAddRxPacket, if_pos hstarted, touched, if_pos hstarted]
    refine ⟨hnodup, h.accessed fun i hi => ?_, hfilled hring.unfilled.le, h.received, fun _ => ?_,
      fun hs => ?_⟩
    · rw [List.mem_singleton.mp hi]
      exact hconsume.trans_le hring.count
    · refine ⟨hring.count, hring.number, hring.first, hring.produce, ?_, ?_, ?_, ?_⟩
      · show nextIndex _ _ = (_ + (s.rxQueuedPackets ++ [packet]).length) % _
        rw [nextIndex_eq hconsume, hring.consume, Lib.offset_offset, List.length_append]
        rfl
      · show _ < (s.rxQueuedPackets ++ [packet]).length
        rw [List.length_append]
        exact hring.unfilled.trans (Nat.lt_succ_self _)
      · have hpush := hring.descs.push (by rw [List.length_map]; exact hfree) packet.desc
        rw [List.length_map, ← hring.consume] at hpush
        show Lib.InRing _ _ _ ((s.rxQueuedPackets ++ [packet]).map Packet.desc)
        rw [List.map_append]
        exact hpush
      · have hupdate := hring.status.update (by rw [List.length_map]; exact hring.unfilled.le) hfree
          0xFFFFFFFF#32
        rw [← hring.consume] at hupdate
        exact hupdate
    · exact Bool.noConfusion (hstarted.symm.trans hs)

/-- A start behind a reset makes a ring of the queued packets, none of them filled. -/
theorem start_inv (h : Inv s w) (hreset : s.regs.rxProduceIndex = 0)
    (hle : s.rxQueuedPackets.length ≤ rxDescCount) :
    Inv (drvStart s).2 { w with filled := [], indices := w.indices ++ touched s .start } := by
  have hindices := h.accessed (l := touched s .start) fun i hi =>
    (List.mem_range.mp hi).trans_le hle
  have hfilled : Filled s.buffers [] s.rxQueuedPackets :=
    fun _ _ _ hk => absurd (List.mem_of_getElem? hk) List.not_mem_nil
  rcases drvStart_eq s with ⟨hq, heq⟩ | ⟨hq, descs, status, heq, hslot⟩
  · have hstop : ¬ s.started = true := by
      intro hs
      have hunfilled := (h.running hs).unfilled
      rw [hq] at hunfilled
      exact Nat.not_lt_zero _ hunfilled
    rw [heq]
    exact ⟨h.owned, hindices, hfilled, h.received, fun hs => absurd hs hstop, fun hs =>
      ⟨(h.stopped hs).1, rfl⟩⟩
  · have hpos : 0 < s.rxQueuedPackets.length := List.length_pos_iff.mpr hq
    rw [heq]
    refine ⟨h.owned, hindices, hfilled, h.received, fun _ => ?_, fun hs => Bool.noConfusion hs⟩
    refine ⟨hle, Nat.sub_add_cancel hpos, hpos, ?_, ?_, hpos, ?_, Lib.inRing_nil _ _ _⟩
    · exact hreset.trans (Nat.zero_mod _).symm
    · show 0 = (0 + s.rxQueuedPackets.length) % s.rxQueuedPackets.length
      rw [Nat.zero_add, Nat.mod_self]
    · have hring : Lib.InRing descs (s.rxQueuedPackets.map Packet.desc).length 0
          (s.rxQueuedPackets.map Packet.desc) := by
        apply Lib.inRing_filled
        intro k desc hk
        rw [List.getElem?_map, Option.map_eq_some_iff] at hk
        obtain ⟨packet, hpacket, rfl⟩ := hk
        exact hslot k packet hpacket
      rw [List.length_map] at hring
      exact hring

theorem stop_inv (h : Inv s w) : Inv (drvStop s) { w with filled := [] } where
  owned := h.owned
  indices := h.indices
  filled := fun _ _ _ hk => absurd (List.mem_of_getElem? hk) List.not_mem_nil
  received := h.received
  running := fun hs => Bool.noConfusion hs
  stopped := fun _ => ⟨rfl, rfl⟩

theorem holds_tail {buffers : Nat → List Byte} {l : List Received} {frames : List (Option Frame)}
    (h : List.Forall₂ (Holds buffers) l frames) :
    List.Forall₂ (Holds buffers) l.tail frames.tail := by
  cases h with
  | nil => exact .nil
  | cons _ hrest => exact hrest

theorem getNext_inv (h : Inv s w) :
    Inv (drvGetNextRxPacket s).2 { w with reported := w.reported.tail } where
  owned := by
    refine h.owned.sublist (List.Sublist.append_left ?_ _)
    exact (List.tail_sublist _).map _
  indices := h.indices
  filled := h.filled
  received := holds_tail h.received
  running := fun hs =>
    have hring := h.running hs
    ⟨hring.count, hring.number, hring.first, hring.produce, hring.consume, hring.unfilled,
      hring.descs, hring.status⟩
  stopped := h.stopped

/-- `RxProduceIndex` wraps as the indices of the driver do. -/
theorem Running.nextProduce (h : Running s w) :
    s.regs.nextProduce = (s.rxDescriptorConsumeIndex + (w.filled.length + 1)) %
      s.rxDescriptorCount := by
  have hfirst := h.first
  have hproduce : s.regs.rxProduceIndex < s.rxDescriptorCount := h.produce ▸ Nat.mod_lt _ (by omega)
  rw [← Lib.offset_offset, ← h.produce, ← Lib.wrap_mod hproduce, ← h.number]
  exact if_congr (Nat.succ_inj).symm rfl rfl

theorem Running.next (h : Running s w) :
    ∃ packet, s.rxQueuedPackets[w.filled.length]? = some packet ∧
    s.rxDescs s.regs.rxProduceIndex = packet.desc := by
  refine ⟨_, List.getElem?_eq_getElem h.unfilled, ?_⟩
  rw [h.produce]
  apply h.descs.slot
  rw [List.getElem?_map, List.getElem?_eq_getElem h.unfilled, Option.map_some]

theorem Filled.push {buffers : Nat → List Byte} {frames : List Frame} {packets : List Packet}
    {packet : Packet} (h : Filled buffers frames packets) (hnodup : (packets.map Packet.data).Nodup)
    (hnext : packets[frames.length]? = some packet) (frame : Frame) :
    Filled (Function.update buffers packet.data frame.data) (frames ++ [frame]) packets := by
  intro k f p hf hp
  by_cases hlast : k < frames.length
  · -- a packet that was filled before has another buffer
    have hne : p.data ≠ packet.data := by
      intro heq
      have hmap : (packets.map Packet.data)[k]? = (packets.map Packet.data)[frames.length]? := by
        rw [List.getElem?_map, List.getElem?_map, hp, hnext, Option.map_some, Option.map_some, heq]
      obtain ⟨hlt, -⟩ := List.getElem?_eq_some_iff.mp hp
      have hindex := (List.getElem?_inj (by rw [List.length_map]; exact hlt) hnodup).mp hmap
      omega
    rw [List.getElem?_append_left hlast] at hf
    exact (Function.update_of_ne hne _ _).trans (h k f p hf hp)
  · obtain ⟨hlt, -⟩ := List.getElem?_eq_some_iff.mp hf
    have hk : k = frames.length := by
      rw [List.length_append, List.length_singleton] at hlt
      omega
    rw [hk, List.getElem?_concat_length] at hf
    rw [hk, hnext] at hp
    obtain rfl := Option.some.inj hf
    obtain rfl := Option.some.inj hp
    exact Function.update_self _ _ _

theorem holds_update {buffers : Nat → List Byte} {l : List Received} {frames : List (Option Frame)}
    {a : Nat} (h : List.Forall₂ (Holds buffers) l frames) (hne : ∀ r ∈ l, r.packet.data ≠ a)
    (data : List Byte) :
    List.Forall₂ (Holds (Function.update buffers a data)) l frames := by
  refine ((List.forall₂_and_left _ _).mpr ⟨hne, h⟩).imp fun r frame hr => ?_
  obtain ⟨hother, f, hf, hdata, hreceived⟩ := hr
  exact ⟨f, hf, (Function.update_of_ne hother _ _).trans hdata, hreceived⟩

/-- The DMA fills the first queued packet that is not filled yet, and stops in front of the last. -/
theorem frame_inv (h : Inv s w) {frame : Frame} (hs : dmaFill s frame = some s') :
    Inv s' { w with filled := w.filled ++ [frame],
                    indices := w.indices ++ touched s (.frame frame) } := by
  obtain ⟨henable, hnext, rfl⟩ := dmaFill_some hs
  have hstarted : s.started = true := by
    by_contra hstop
    have hdisabled := (h.stopped (Bool.eq_false_of_not_eq_true hstop)).1
    exact Bool.noConfusion (henable.symm.trans hdisabled)
  have hring := h.running hstarted
  have hroom := h.room hstarted
  have hunfilled := hring.unfilled
  have hproduce : s.regs.rxProduceIndex < s.rxDescriptorCount :=
    hring.produce ▸ Nat.mod_lt _ (by omega)
  have hmore : w.filled.length + 1 < s.rxQueuedPackets.length := by
    rw [hring.nextProduce, hring.consume] at hnext
    exact lt_of_le_of_ne hunfilled fun heq => hnext (by rw [heq])
  obtain ⟨packet, hpacket, hdesc⟩ := hring.next
  obtain ⟨hqueued, -, hapart⟩ := List.nodup_append.mp h.owned
  have hmem : packet.data ∈ s.rxQueuedPackets.map Packet.data :=
    List.mem_map_of_mem (List.mem_of_getElem? hpacket)
  rw [hdesc]
  refine ⟨h.owned, h.accessed fun i hi => ?_, h.filled.push hqueued hpacket frame, ?_, fun _ => ?_,
    fun hs => ?_⟩
  · rw [List.mem_singleton.mp hi]
    exact hproduce.trans_le hring.count
  · -- the buffer of a received packet is not that of a queued one
    exact holds_update h.received
      (fun r hr => (hapart _ hmem _ (List.mem_map_of_mem hr)).symm) frame.data
  · refine ⟨hring.count, hring.number, hring.first, ?_, hring.consume, ?_, hring.descs, ?_⟩
    · show s.regs.nextProduce = _
      rw [hring.nextProduce, List.length_append]
      rfl
    · show (w.filled ++ [frame]).length < _
      rw [List.length_append]
      exact hmore
    · have hpush := hring.status.push (by rw [List.length_map]; omega) frame.statusInfo
      rw [List.length_map, ← hring.produce] at hpush
      show Lib.InRing _ _ _ ((w.filled ++ [frame]).map Frame.statusInfo)
      rw [List.map_append]
      exact hpush
  · exact Bool.noConfusion (hstarted.symm.trans hs)

theorem Running.filled_cons (h : Running s w)
    (hne : s.regs.rxProduceIndex ≠ s.rxDescriptorConsumeIndex) :
    ∃ f frames, w.filled = f :: frames := by
  apply List.exists_cons_of_ne_nil
  intro hempty
  apply hne
  rw [h.produce, hempty, List.length_nil, Nat.add_zero, Nat.mod_eq_of_lt h.first]

/-- Without the first packet and its frame the ring begins one descriptor later. -/
theorem Running.tail (h : Running s w) {packet : Packet} {packets : List Packet} {f : Frame}
    {frames : List Frame} (hq : s.rxQueuedPackets = packet :: packets)
    (hfilled : w.filled = f :: frames) (received : List Received) (reported : List (Option Frame))
    (indices : List Nat) :
    Running
      { s with
        rxQueuedPackets := packets
        receivedPackets := received
        rxDescriptorConsumeIndex := nextIndex s.rxDescriptorCount s.rxDescriptorConsumeIndex }
      ⟨frames, reported, indices⟩ := by
  obtain ⟨hcount, hnumber, hfirst, hproduce, hconsume, hunfilled, hdescs, hstatus⟩ := h
  rw [hq, hfilled, List.length_cons, List.length_cons] at hunfilled
  rw [hfilled, List.length_cons, Nat.add_comm frames.length, ← Lib.offset_offset] at hproduce
  rw [hq, List.length_cons, Nat.add_comm packets.length, ← Lib.offset_offset] at hconsume
  rw [hq, List.map_cons] at hdescs
  rw [hfilled, List.map_cons] at hstatus
  rw [nextIndex_eq hfirst]
  exact
    { count := hcount
      number := hnumber
      first := Nat.mod_lt _ (by omega)
      produce := hproduce
      consume := hconsume
      unfilled := Nat.lt_of_succ_lt_succ hunfilled
      descs := hdescs.tail
      status := hstatus.tail }

/-- A round reports the packet of the first descriptor, which the DMA has filled first. -/
theorem round_inv (h : Inv s w) (hstarted : s.started = true) (hs : receiveRound s = some s') :
    Inv s'
      { filled := w.filled.tail
        reported := w.reported ++ [w.filled.head?]
        indices := w.indices ++ touched s .round } := by
  obtain ⟨packet, packets, hq, hne, rfl⟩ := receiveRound_some hs
  have hring := h.running hstarted
  obtain ⟨f, frames, hfilled⟩ := hring.filled_cons hne
  have hstatus := hring.status
  rw [hfilled, List.map_cons] at hstatus
  have hholds : Holds s.buffers (received packet (s.rxStatusDescs s.rxDescriptorConsumeIndex))
      (some f) := by
    refine ⟨f, rfl, h.filled 0 f packet ?_ ?_, ?_⟩
    · rw [hfilled]
      rfl
    · rw [hq]
      rfl
    · rw [hstatus.head hring.first]
      rfl
  have howned : (packets.map Packet.data ++ (s.receivedPackets ++
      [received packet (s.rxStatusDescs s.rxDescriptorConsumeIndex)]).map fun r =>
        r.packet.data).Nodup := by
    have hnodup := h.owned
    rw [State.owned, hq, List.map_cons, List.cons_append] at hnodup
    rw [List.map_append, ← List.append_assoc]
    exact (List.perm_append_singleton _ _).nodup_iff.mpr hnodup
  rw [hfilled]
  refine ⟨howned, h.accessed fun i hi => ?_, fun k f p hf hp => ?_, ?_, fun _ => ?_, fun hs => ?_⟩
  · rw [List.mem_singleton.mp hi]
    exact hring.first.trans_le hring.count
  · refine h.filled (k + 1) f p ?_ ?_
    · rw [hfilled]
      exact hf
    · rw [hq]
      exact hp
  · exact List.rel_append h.received (.cons hholds .nil)
  · exact hring.tail hq hfilled _ _ _
  · exact Bool.noConfusion (hstarted.symm.trans hs)

theorem step_inv {e : Event} (h : Inv s w) (hmeets : Meets (s, w) e) (hs : step s e = some s') :
    Inv s' (log w s e s') := by
  cases e with
  | add packet =>
    rw [step] at hs
    split_ifs at hs with hnew
    obtain rfl := Option.some.inj hs
    exact add_inv h (fun hmem => hnew (List.contains_iff_mem.mpr hmem)) hmeets
  | start =>
    obtain rfl := Option.some.inj hs
    exact start_inv h hmeets.1 hmeets.2
  | stop =>
    obtain rfl := Option.some.inj hs
    exact stop_inv h
  | frame frame => exact frame_inv h hs
  | round =>
    rw [step] at hs
    split_ifs at hs
    exact round_inv h hmeets hs
  | getNext =>
    obtain rfl := Option.some.inj hs
    exact getNext_inv h

end Steps

/-- In a run in which no start is given more packets than descriptors, no running ring more than it
has free ones, and no stopped one an interrupt, the queue and the ring stay aligned. -/
theorem ring_kept {x : State × Log}
    (h : Lib.Reach (Lib.observe step log) Meets (State.init, Log.init) x) :
    Kept x.1 x.2 := by
  have hinv : Inv x.1 x.2 := by
    refine h.invariant (I := fun x => Inv x.1 x.2) inv_init ?_
    intro y e z hy hmeets hs
    obtain ⟨hstep, hlog⟩ := Lib.observe_some.mp hs
    rw [hlog]
    exact step_inv hy hmeets hstep
  exact hinv.kept

/-- A packet is returned to the running ring, and another while it is stopped. -/
theorem ring_kept_returned : ∃ x, Lib.Reach (Lib.observe step log) Meets (State.init, Log.init) x ∧
    x.1.rxQueuedPackets.length = 3 ∧ Kept x.1 x.2 := by
  obtain ⟨x, hreach, hlength⟩ :=
    Lib.exists_of_runInputs (Lib.observe step log) Meets (State.init, Log.init)
    [.add ⟨0, 1536#16⟩, .add ⟨1, 1536#16⟩, .add ⟨2, 1536#16⟩, .start, .frame ⟨[7#8], 0x4000003F#32⟩,
      .round, .getNext,
      .add ⟨0, 1536#16⟩, .frame ⟨[8#8], 0x4000003F#32⟩, .round, .getNext, .stop,
        .add ⟨1, 1536#16⟩, .start,
      .frame ⟨[9#8], 0x4000003F#32⟩]
    (fun x => x.1.rxQueuedPackets.length = 3) (by decide +kernel)
  exact ⟨x, hreach, of_decide_eq_true hlength, ring_kept hreach⟩

/-- Two of four packets are held over a restart and then returned: the next frame is filled into the
first of them, and reported with a packet whose buffer is empty. -/
theorem held_packets_shift :
    ∃ x, Lib.Reach (Lib.observe step log) Lib.anyStep (State.init, Log.init) x ∧
    (x.1.receivedPackets.map fun r => x.1.buffers r.packet.data) = [[]] ∧
    (x.2.reported.map fun f => f.map Frame.data) = [some [9#8]] ∧ ¬ Kept x.1 x.2 := by
  obtain ⟨x, hreach, hend⟩ := Lib.exists_of_runInputs (Lib.observe step log) Lib.anyStep
    (State.init, Log.init)
    [.add ⟨0, 1536#16⟩, .add ⟨1, 1536#16⟩, .add ⟨2, 1536#16⟩, .add ⟨3, 1536#16⟩, .start,
      .frame ⟨[7#8], 0x4000003F#32⟩, .frame ⟨[8#8], 0x4000003F#32⟩, .round, .round, .getNext,
        .getNext, .stop, .start,
      .add ⟨0, 1536#16⟩, .add ⟨1, 1536#16⟩, .frame ⟨[9#8], 0x4000003F#32⟩, .round]
    (fun x => (x.1.receivedPackets.map fun r => x.1.buffers r.packet.data) = [[]] ∧
      (x.2.reported.map fun f => f.map Frame.data) = [some [9#8]]) (by decide +kernel)
  obtain ⟨hempty, hframe⟩ := of_decide_eq_true hend
  refine ⟨x, hreach, hempty, hframe, fun h => ?_⟩
  obtain ⟨r, hr, hbuffer⟩ := List.map_eq_singleton_iff.mp hempty
  obtain ⟨f, hf, hdata⟩ := List.map_eq_singleton_iff.mp hframe
  have hholds := h.received
  rw [hr, hf, List.forall₂_cons] at hholds
  obtain ⟨frame, rfl, hcontent, -⟩ := hholds.1
  rw [hbuffer] at hcontent
  rw [Option.map_some, ← hcontent] at hdata
  exact absurd (Option.some.inj hdata) (by decide)

end NanoIp.LpcEmac
