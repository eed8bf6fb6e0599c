import NanoIp.Netif.Pcap
import NanoIp.Packets.Allocated
import Mathlib.Data.Fintype.BigOperators
import Mathlib.Data.List.Perm.Basic

/-!
# A packet the pcap driver refuses

The driver queues every packet it is given, also one that `pcap_sendpacket` refused: the
module that releases it shares it with the network task from then on. Where
`pcap_sendpacket` does not fail, and a packet that is kept is left alone until the driver
is done with it, each packet is released once.
-/
namespace NanoIp.Pcap

open Allocator (Config Desc)

variable {g : Config} {s s' : State g} {x y : State g × Trace g} {l : List (Desc g)} {d k : Desc g}

instance : Fintype Allocator.Class := ⟨{.big, .small}, fun c => by cases c <;> decide⟩

theorem Desc.length_le (h : l.Nodup) :
    l.length ≤ g.bigBuffersCount.toNat + g.smallBuffersCount.toNat := by
  have hcard : Fintype.card (Desc g) = g.bigBuffersCount.toNat + g.smallBuffersCount.toNat := by
    rw [Fintype.card_sigma]
    have huniv : (Finset.univ : Finset Allocator.Class) = {.big, .small} := rfl
    rw [huniv, Finset.sum_pair (by decide), Fintype.card_fin, Fintype.card_fin]
    rfl
  rw [← hcard]
  exact h.length_le_card

theorem State.queued_eq (h : Lib.Queued s.next s.transmittedPackets l) : s.queued = l :=
  h.linked.chain_eq (Desc.length_le h.nodup)

/-- The packets between the call of the driver and what the network task does with them. -/
def State.InDriver (s : State g) (l : List (Desc g)) (d : Desc g) : Prop :=
  d ∈ l ∨ s.task = .holding d

/-- The packets that some module has, or has again when its call returns. -/
def State.owned (s : State g) : List (Desc g) :=
  s.held ++ (s.calls.filter Call.keep).map Call.packet

/-- What is carried through a run. -/
structure Inv (x : State g × Trace g) (l : List (Desc g)) : Prop where
  alloc : Allocator.Inv (x.1.allocator, x.2.ledger)
  queue : Lib.Queued x.1.next x.1.transmittedPackets l
  used : ∀ d, x.1.InDriver l d → x.2.ledger.Holds d
  apart : ∀ d, x.1.task = .holding d → d ∉ l
  free : ∀ d, x.1.InDriver l d → x.1.kept d = false → d ∉ x.1.owned
  owned : x.1.owned.Nodup
  ownedUsed : ∀ d ∈ x.1.owned, x.2.ledger.Holds d
  success : ∀ c ∈ x.1.calls, c.ret = .success
  once : ∀ r ∈ x.2.releases, r.2 = .success
  going : l ≠ [] → x.1.packetSent = true ∨ x.1.task ≠ .waiting ∨ x.1.calls ≠ []

theorem kept_congr (h : (s'.allocator.mem k).packet = (s.allocator.mem k).packet) :
    s'.kept k = s.kept k := by
  unfold State.kept State.flags
  rw [h]

theorem setFlags_packet (a : Allocator.State g) (flags : BitVec 32) (hk : k ≠ d) :
    ((a.setFlags d flags).mem k).packet = (a.mem k).packet := by
  unfold Allocator.State.setFlags
  dsimp only
  rw [Function.update_of_ne hk]

theorem keep_kept_self (s : State g) (d : Desc g) : (s.keep d).kept d = true := by
  have hflags : (s.keep d).flags d = s.flags d ||| packetFlagKeepPacket := by
    unfold State.keep State.flags Allocator.State.setFlags
    dsimp only
    rw [Function.update_self]
  unfold State.kept
  rw [hflags, decide_eq_true_eq]
  exact packetFlagKeepPacket_set _

theorem Inv.allocatePacket (hsizes : g.smallBufferSize ≤ g.bigBufferSize) (h : Inv x l)
    (size : BitVec 16) :
    Inv (allocatePacket x.1 size, see x.2 x.1 (.allocatePacket size) (allocatePacket x.1 size))
      l := by
  have halloc := Allocator.inv_allocate hsizes h.alloc size
  unfold NanoIp.Pcap.allocatePacket see
  dsimp only
  rcases Allocator.allocate_cases hsizes h.alloc size with ⟨e, he⟩ | ⟨a, d, hd, hnot, hsame⟩
  · unfold Allocator.see
    dsimp only at he ⊢
    rw [he]
    exact h
  · have hledger : ∀ k, (Allocator.see x.2.ledger x.1.allocator (.allocate size) a).Holds k ↔
        k = d ∨ x.2.ledger.Holds k := by
      intro k
      unfold Allocator.see
      dsimp only at hd ⊢
      rw [hd]
      exact List.mem_cons
    dsimp only at hd hnot hsame halloc ⊢
    rw [hd] at halloc ⊢
    have hdriver : ¬ x.1.InDriver l d := fun hin => hnot (h.used d hin)
    have howned : d ∉ x.1.owned := fun hin => hnot (h.ownedUsed d hin)
    refine ⟨halloc.setFlags d _, h.queue, fun k hk => (hledger k).mpr (.inr (h.used k hk)), h.apart,
      fun k hk hkept => ?_, List.nodup_cons.mpr ⟨howned, h.owned⟩, fun k hk => ?_, h.success,
        h.once, h.going⟩
    · have hkd : k ≠ d := by
        rintro rfl
        exact hdriver hk
      rw [kept_congr ((setFlags_packet a _ hkd).trans (hsame k hkd))] at hkept
      exact fun hin => h.free k hk hkept ((List.mem_cons.mp hin).resolve_left hkd)
    · rcases List.mem_cons.mp hk with rfl | hk
      · exact (hledger k).mpr (.inl rfl)
      · exact (hledger k).mpr (.inr (h.ownedUsed k hk))

theorem Inv.keep (h : Inv x l) (d : Desc g) : Inv (x.1.keep d, x.2) l := by
  refine ⟨h.alloc.setFlags d _, h.queue, h.used, h.apart, fun k hk hkept => ?_, h.owned,
    h.ownedUsed, h.success,
    h.once, h.going⟩
  by_cases hkd : k = d
  · rw [hkd, keep_kept_self] at hkept
    cases hkept
  · rw [kept_congr (setFlags_packet x.1.allocator _ hkd)] at hkept
    exact h.free k hk hkept

/-- A packet that a module has, and the driver does not, goes to the end of the queue. -/
theorem Inv.send (h : Inv x l) (hd : d ∈ x.1.held) (hl : d ∉ l) (ht : x.1.task ≠ .holding d) :
    Inv ({ x.1.addToQueue d with
      held := x.1.held.erase d, calls := ⟨d, x.1.kept d, .success⟩ :: x.1.calls }, x.2)
        (l ++ [d]) := by
  have hin : d ∈ x.1.owned := List.mem_append_left _ hd
  set rest := (x.1.calls.filter Call.keep).map Call.packet with hrest
  have hperm : List.Perm (d :: (x.1.held.erase d ++ rest)) x.1.owned := by
    rw [State.owned, ← List.cons_append]
    exact (List.perm_cons_erase hd).symm.append_right rest
  obtain ⟨hnot, hnodup⟩ := List.nodup_cons.mp (hperm.nodup_iff.mpr h.owned)
  have howned : ∀ k, k ∈ ({ x.1.addToQueue d with
      held := x.1.held.erase d, calls := ⟨d, x.1.kept d, .success⟩ :: x.1.calls } : State g).owned ↔
        k ∈ x.1.held.erase d ++ rest ∨ k = d ∧ x.1.kept d = true := by
    intro k
    unfold State.owned
    cases hk : x.1.kept d with
    | true => simp [hrest, or_comm, or_left_comm]
    | false => simp [hrest]
  have hmem : ∀ {k}, k ∈ x.1.held.erase d ++ rest → k ∈ x.1.owned :=
    fun hk => hperm.mem_iff.mp (List.mem_cons_of_mem d hk)
  refine ⟨h.alloc, h.queue.add hl, fun k hk => ?_, fun k hk hin' => ?_,
    fun k hk hkept hin' => ?_, ?_, fun k hk => ?_,
    fun c hc => ?_, h.once, fun _ => .inr (.inr (List.cons_ne_nil _ _))⟩
  · rcases hk with hk | hk
    · rcases List.mem_append.mp hk with hk | hk
      · exact h.used k (.inl hk)
      · rw [List.mem_singleton.mp hk]
        exact h.ownedUsed d hin
    · exact h.used k (.inr hk)
  · rcases List.mem_append.mp hin' with hk' | hk'
    · exact h.apart k hk hk'
    · rw [List.mem_singleton.mp hk'] at hk
      exact ht hk
  · change x.1.kept k = false at hkept
    rcases (howned k).mp hin' with hk' | ⟨rfl, hk'⟩
    · have hkd : k ≠ d := by
        rintro rfl
        exact hnot hk'
      refine h.free k ?_ hkept (hmem hk')
      rcases hk with hk | hk
      · exact .inl ((List.mem_append.mp hk).resolve_right fun hs => hkd (List.mem_singleton.mp hs))
      · exact .inr hk
    · rw [hkept] at hk'
      cases hk'
  · unfold State.owned
    cases hk : x.1.kept d with
    | true =>
      dsimp only
      rw [List.filter_cons_of_pos rfl, List.map_cons]
      exact List.nodup_middle.mpr (List.nodup_cons.mpr ⟨hnot, hnodup⟩)
    | false =>
      dsimp only
      rw [List.filter_cons_of_neg Bool.false_ne_true]
      exact hnodup
  · rcases (howned k).mp hk with hk | ⟨rfl, -⟩
    · exact h.ownedUsed k (hmem hk)
    · exact h.ownedUsed k hin
  · rcases List.mem_cons.mp hc with rfl | hc
    · rfl
    · exact h.success c hc

/-- A call that returns success gives the module back what it keeps. -/
theorem Inv.sendReturns {c : Call g} (h : Inv x l) (hc : c ∈ x.1.calls) :
    Inv (sendReturns x.1 c, x.2) l := by
  have hperm : List.Perm (NanoIp.Pcap.sendReturns x.1 c).owned x.1.owned := by
    have hcalls := ((List.perm_cons_erase hc).filter Call.keep).map Call.packet
    unfold NanoIp.Pcap.sendReturns State.owned
    dsimp only
    cases hk : c.keep with
    | true =>
      rw [List.filter_cons_of_pos hk, List.map_cons] at hcalls
      rw [if_neg (by simp), List.cons_append]
      exact List.perm_middle.symm.trans (hcalls.symm.append_left _)
    | false =>
      rw [List.filter_cons_of_neg (by rw [hk]; exact Bool.false_ne_true)] at hcalls
      rw [if_pos ⟨h.success c hc, rfl⟩]
      exact hcalls.symm.append_left _
  exact ⟨h.alloc, h.queue, h.used, h.apart, fun k hk hkept hin =>
    h.free k hk hkept (hperm.mem_iff.mp hin),
    hperm.nodup_iff.mpr h.owned, fun k hk => h.ownedUsed k (hperm.mem_iff.mp hk),
    fun c' hc' => h.success c' (List.mem_of_mem_erase hc'), h.once, fun _ => .inl rfl⟩

/-- The allocator takes back a packet that the driver does not have and no module has any
more. -/
theorem Inv.release (hsizes : g.smallBufferSize ≤ g.bigBufferSize) (h : Inv x l)
    (hd : x.2.ledger.Holds d) {held : List (Desc g)} (task : Task g) (hsub : held.Sublist x.1.held)
    (hnot : d ∉ held ++ (x.1.calls.filter Call.keep).map Call.packet) (hl : d ∉ l)
    (ht : task ≠ .holding d) (htask : ∀ k, task = .holding k → x.1.task = .holding k)
    (hgoing : l ≠ [] → x.1.packetSent = true ∨ task ≠ .waiting ∨ x.1.calls ≠ []) :
    (Allocator.release x.1.allocator d).2 = .success ∧
      Inv ({ x.1 with allocator := (Allocator.release x.1.allocator d).1, held := held,
                      task := task },
        x.2.release x.1 d) l := by
  have halloc := Allocator.inv_release hsizes h.alloc d
  obtain ⟨a, ha, hgiven⟩ := Allocator.release_held h.alloc hd
  dsimp only at ha halloc
  have hledger : ∀ k, (Allocator.see x.2.ledger x.1.allocator (.release d) a).Holds k ↔
    x.2.ledger.Holds k ∧ k ≠ d :=
    fun k => Allocator.Ledger.holds_release ha
  have howned : (held ++ (x.1.calls.filter Call.keep).map Call.packet).Sublist x.1.owned :=
    hsub.append_right _
  unfold Trace.release
  rw [ha] at halloc ⊢
  refine ⟨rfl, halloc, h.queue, fun k hk => (hledger k).mpr ⟨h.used k (hk.imp_right (htask k)), ?_⟩,
    fun k hk => h.apart k (htask k hk), fun k hk hkept hin => ?_,
      h.owned.sublist howned, fun k hk =>
    (hledger k).mpr ⟨h.ownedUsed k (howned.subset hk), ?_⟩, h.success, fun r hr => ?_, hgoing⟩
  · rintro rfl
    exact hk.elim hl ht
  · rw [kept_congr (hgiven.same k).1] at hkept
    exact h.free k (hk.imp_right (htask k)) hkept (howned.subset hin)
  · rintro rfl
    exact hnot hk
  · rcases List.mem_append.mp hr with hr | hr
    · exact h.once r hr
    · rw [List.mem_singleton.mp hr]

theorem Inv.releasePacket (hsizes : g.smallBufferSize ≤ g.bigBufferSize) (h : Inv x l)
    (hd : d ∈ x.1.held) (hok : x.1.kept d = true → x.1.Completed d) :
    Inv (releasePacket x.1 d, x.2.release x.1 d) l := by
  have hin : d ∈ x.1.owned := List.mem_append_left _ hd
  have hdriver : ¬ x.1.InDriver l d := by
    intro hdr
    cases hk : x.1.kept d with
    | false => exact h.free d hdr hk hin
    | true =>
      obtain ⟨hq, ht⟩ := hok hk
      rw [State.queued_eq h.queue] at hq
      exact hdr.elim hq ht
  obtain ⟨hl, ht⟩ := not_or.mp hdriver
  refine (h.release hsizes (h.ownedUsed d hin) x.1.task List.erase_sublist ?_ hl ht
    (fun _ hk => hk) h.going).2
  have hperm : List.Perm (d :: (x.1.held.erase d ++ (x.1.calls.filter Call.keep).map Call.packet))
      x.1.owned := by
    rw [State.owned, ← List.cons_append]
    exact (List.perm_cons_erase hd).symm.append_right _
  exact (List.nodup_cons.mp (hperm.nodup_iff.mpr h.owned)).1

theorem Inv.rxTask (hsizes : g.smallBufferSize ≤ g.bigBufferSize) (h : Inv x l)
    (hs : rxTask x.1 = some s') :
    ∃ l', Inv (s', see x.2 x.1 .rxTask s') l' := by
  unfold NanoIp.Pcap.rxTask at hs
  unfold see
  cases ht : x.1.task with
  | waiting =>
    rw [ht] at hs
    dsimp only at hs ⊢
    split at hs
    · obtain rfl := Option.some.inj hs
      refine ⟨l, h.alloc, h.queue, fun k hk =>
        h.used k (.inl (hk.resolve_right (by simp))), by simp,
        fun k hk => h.free k (.inl (hk.resolve_right (by simp))), h.owned, h.ownedUsed,
          h.success, h.once,
        fun _ => .inr (.inl (by simp))⟩
    · cases hs
  | looking =>
    rw [ht] at hs
    dsimp only at hs ⊢
    unfold drvGetNextTxPacket at hs
    cases l with
    | nil =>
      rw [h.queue.pop_none.mpr rfl] at hs
      obtain rfl := Option.some.inj hs
      exact ⟨[], h.alloc, h.queue, fun k hk => absurd hk (by simp [State.InDriver]), by simp,
        fun k hk => absurd hk (by simp [State.InDriver]), h.owned, h.ownedUsed, h.success, h.once,
          fun hne => absurd rfl hne⟩
    | cons a l =>
      obtain ⟨q, hq, hqueue⟩ := h.queue.pop
      rw [hq] at hs
      obtain rfl := Option.some.inj hs
      have hin : ∀ k, (k ∈ l ∨ Task.holding a = .holding k) → x.1.InDriver (a :: l) k := by
        rintro k (hk | hk)
        · exact .inl (List.mem_cons_of_mem a hk)
        · rw [← Task.holding.inj hk]
          exact .inl List.mem_cons_self
      refine ⟨l, h.alloc, hqueue, fun k hk => h.used k (hin k hk), fun k hk => ?_, fun k hk =>
        h.free k (hin k hk),
        h.owned,
        h.ownedUsed, h.success, h.once, fun _ => .inr (.inl (by simp))⟩
      rw [← Task.holding.inj hk]
      exact (List.nodup_cons.mp h.queue.nodup).1
  | holding d =>
    rw [ht] at hs
    dsimp only at hs ⊢
    split at hs
    · next hk =>
      have hdr : x.1.InDriver l d := .inr ht
      obtain ⟨hret, hinv⟩ := h.release hsizes (h.used d hdr) .looking (List.Sublist.refl _)
        (h.free d hdr hk)
        (h.apart d ht) (by simp) (by simp) (fun _ => .inr (.inl (by simp)))
      rw [if_pos hk]
      rw [if_pos hret] at hs
      obtain rfl := Option.some.inj hs
      exact ⟨l, hinv⟩
    · next hk =>
      rw [if_neg hk]
      obtain rfl := Option.some.inj hs
      exact ⟨l, h.alloc, h.queue, fun k hk => h.used k (.inl (hk.resolve_right (by simp))), by simp,
        fun k hk => h.free k (.inl (hk.resolve_right (by simp))), h.owned, h.ownedUsed,
          h.success, h.once,
        fun _ => .inr (.inl (by simp))⟩

theorem inv_initial {mem : Desc g → Allocator.Buffer g} (hmem : ∀ d, (mem d).packet.data = none)
    (next : Desc g → Option (Desc g)) : Inv (initial mem next) [] where
  alloc := Allocator.inv_init hmem
  queue := Lib.queued_empty next
  used d hd := absurd hd (by simp [State.InDriver, initial])
  apart d hd := absurd hd (by simp [initial])
  free d hd := absurd hd (by simp [State.InDriver, initial])
  owned := List.nodup_nil
  ownedUsed d hd := absurd hd List.not_mem_nil
  success c hc := absurd hc List.not_mem_nil
  once r hr := absurd hr List.not_mem_nil
  going hne := absurd rfl hne

theorem inv_step (hsizes : g.smallBufferSize ≤ g.bigBufferSize) (h : Inv x l) {i : Input g}
    (hok : Sends i ∧ Patient x.1 i)
    (hs : step x.1 i = some s') : ∃ l', Inv (s', see x.2 x.1 i s') l' := by
  cases i with
  | allocatePacket size =>
    obtain rfl := Option.some.inj hs
    exact ⟨l, h.allocatePacket hsizes size⟩
  | sendPacket d keep pcapRet =>
    obtain ⟨rfl, hq, ht⟩ : pcapRet = 0 ∧ x.1.Completed d := hok
    unfold step at hs
    dsimp only at hs
    split at hs
    · next hd =>
      obtain rfl := Option.some.inj hs
      rw [State.queued_eq h.queue] at hq
      refine ⟨l ++ [d], ?_⟩
      cases keep with
      | true => exact (h.keep d).send hd hq ht
      | false => exact h.send hd hq ht
    · cases hs
  | sendReturns c =>
    unfold step at hs
    dsimp only at hs
    split at hs
    · next hc =>
      obtain rfl := Option.some.inj hs
      exact ⟨l, h.sendReturns hc⟩
    · cases hs
  | releasePacket d =>
    unfold step at hs
    dsimp only at hs
    split at hs
    · next hd =>
      obtain rfl := Option.some.inj hs
      exact ⟨l, h.releasePacket hsizes hd hok.2⟩
    · cases hs
  | rxTask => exact h.rxTask hsizes hs

theorem Inv.sound (h : Inv x l) : Sound x where
  refused c hc hne := absurd (h.success c hc) hne
  once := h.once
  other d hd hin := h.free d (.inr hd.1) hd.2 (List.mem_append_left _ hin)
  drained ht hsent hcalls := by
    rw [State.queued_eq h.queue]
    by_contra hne
    rcases h.going hne with hgo | hgo | hgo
    · rw [hsent] at hgo
      cases hgo
    · exact hgo ht
    · exact hgo hcalls

/-- The driver queues the packet whatever `pcap_sendpacket` returns. -/
theorem drvSendPacket_queued (h : Inv x l) (hd : d ∉ l) (pcapRet : Int) :
    d ∈ (drvSendPacket x.1 d pcapRet).1.queued := by
  have hqueue : Lib.Queued (drvSendPacket x.1 d pcapRet).1.next
    (drvSendPacket x.1 d pcapRet).1.transmittedPackets
      (l ++ [d]) := h.queue.add hd
  rw [State.queued_eq hqueue]
  exact List.mem_append_right l (List.mem_singleton_self d)

/-- In every run in which `pcap_sendpacket` does not fail and kept packets are left alone
until the driver is done with them, the transmission is sound; and a call of the driver
leaves a packet it refuses with its caller exactly when there is none. -/
theorem sent_once (hg : g.Valid) {mem : Desc g → Allocator.Buffer g}
    (hmem : ∀ d, (mem d).packet.data = none)
    (next : Desc g → Option (Desc g)) (h : Lib.Reach (Lib.observe step see)
      (fun x i => Sends i ∧ Patient x.1 i)
      (initial mem next) x) :
    Sound x ∧ ∀ d, x.1.Completed d → ∀ pcapRet,
      ((drvSendPacket x.1 d pcapRet).2 ≠ .success → d ∉ (drvSendPacket x.1 d pcapRet).1.queued) ↔
        pcapRet = 0 := by
  obtain ⟨l, hinv⟩ : ∃ l, Inv x l := by
    refine h.invariant (I := fun x => ∃ l, Inv x l) ⟨[], inv_initial hmem next⟩
      fun y i z hy hok hs => ?_
    obtain ⟨l, hy⟩ := hy
    obtain ⟨hstep, hsee⟩ := Lib.observe_some.mp hs
    obtain ⟨s, t⟩ := z
    obtain rfl : t = see y.2 y.1 i s := hsee
    exact inv_step hg.sizes hy hok hstep
  refine ⟨hinv.sound, fun d hd pcapRet => ⟨fun hrefused => ?_, ?_⟩⟩
  · have hl : d ∉ l := by
      rw [← State.queued_eq hinv.queue]
      exact hd.1
    by_contra hne
    refine hrefused ?_ (drvSendPacket_queued hinv hl pcapRet)
    unfold drvSendPacket
    rw [if_neg hne]
    exact (by decide : Err.failure ≠ .success)
  · rintro rfl hne
    exact absurd rfl hne

/-- The small packet and one of the big packets of the sample allocator. -/
def smallPacket : Desc Allocator.sampleConfig := ⟨.small, 0, by decide⟩
def bigPacket : Desc Allocator.sampleConfig := ⟨.big, 0, by decide⟩

/-- A ping answer in a small buffer, and a packet that is kept until its transmission is
complete. -/
theorem sent_once_sample : ∃ x : State Allocator.sampleConfig × Trace Allocator.sampleConfig,
    Sound x ∧ decide (x.1.queued = [] ∧ x.2.releases.length = 2) = true := by
  obtain ⟨x, hreach, hx⟩ := Lib.exists_of_runInputs (Lib.observe step see)
    (fun x i => Sends i ∧ Patient x.1 i)
    (initial Allocator.unusedBuffers fun _ => none)
    [.allocatePacket 60#16, .allocatePacket 1500#16, .sendPacket smallPacket false 0,
      .sendPacket bigPacket true 0, .sendReturns ⟨smallPacket, false, .success⟩, .rxTask, .rxTask,
      .rxTask, .sendReturns ⟨bigPacket, true, .success⟩, .rxTask, .rxTask, .rxTask,
      .releasePacket bigPacket]
    (fun x => decide (x.1.queued = [] ∧ x.2.releases.length = 2)) (by decide)
  exact ⟨x, (sent_once Allocator.sampleConfig_valid (fun _ => rfl) _ hreach).1, hx⟩

/-- A refused packet is released by its module and allocated by another one; then the
network task is about to release it. -/
theorem refused_reallocated :
    ¬ ∀ (g : Config) (mem : Desc g → Allocator.Buffer g) (next : Desc g → Option (Desc g))
    (x : State g × Trace g), g.Valid → (∀ d, (mem d).packet.data = none) →
    Lib.Reach (Lib.observe step see) (fun x i => Patient x.1 i) (initial mem next) x → Sound x := by
  intro hall
  obtain ⟨x, hreach, hx⟩ := Lib.exists_of_runInputs (Lib.observe step see)
    (fun x i => Patient x.1 i)
    (initial Allocator.unusedBuffers fun _ => none)
    [.allocatePacket 60#16, .sendPacket smallPacket false (-1),
      .sendReturns ⟨smallPacket, false, .failure⟩, .releasePacket smallPacket,
      .allocatePacket 60#16, .rxTask, .rxTask]
    (fun x => decide (x.1.releases smallPacket ∧ smallPacket ∈ x.1.held)) (by decide)
  obtain ⟨hreleases, hheld⟩ := of_decide_eq_true hx
  exact (hall _ _ _ x Allocator.sampleConfig_valid (fun _ => rfl) hreach).other _ hreleases hheld

end NanoIp.Pcap
