import NanoIp.Netif.Received

/-!
# Each received packet is handed over once

Every packet of an interface is in one place at a time: in the pool, received, with the
network task, in a consumer's queue or in its hand. A step moves one packet. A consumer that
releases a packet before the network task has tested it leaves the network task with a
packet that looks like its own.
-/
namespace NanoIp.Received

variable {κ : Type} {s s' : State κ} {pid : PacketId} {packets : List PacketId}

/-- Where a packet of the interface is. -/
inductive Spot (κ : Type) where
  | nowhere | at_ (p : Place κ) | held (k : κ) | task

/-- A consumer has the packet. -/
def Spot.consumer : Spot κ → Bool
  | .at_ (.queue _) | .held _ => true
  | _ => false

/-- The packet that the network task is busy with, as it should be. -/
def TaskAt (s : State κ) (w : PacketId → Spot κ) : Prop :=
  match s.task with
  | .idle => ∀ k, w k ≠ .task
  | .decoding pid => ∀ k, w k = .task ↔ k = pid
  | .called pid => (w pid).consumer = true ∧ ∀ k, w k ≠ .task
  | .testing pid =>
    (s.flags pid &&& packetFlagKeepPacket = 0#32 → ∀ k, w k = .task ↔ k = pid) ∧
    (s.flags pid &&& packetFlagKeepPacket ≠ 0#32 → (w pid).consumer = true ∧ ∀ k, w k ≠ .task)

/-- Every packet is where `w` says. -/
structure Located (s : State κ) (w : PacketId → Spot κ) : Prop where
  list : ∀ p k, k ∈ s.list p ↔ w k = .at_ p
  hand : ∀ j k, s.hand j = some k ↔ w k = .held j
  nodup : ∀ p, (s.list p).Nodup
  tx : ∀ k, w k ≠ .nowhere → s.flags k &&& packetFlagTx = 0#32
  clear : ∀ k, w k ≠ .nowhere → (w k).consumer = false → s.flags k &&& packetFlagKeepPacket = 0#32
  task : TaskAt s w
  once : ∀ k, w k ≠ .nowhere → s.receptions.count k = s.returns.count k + if k ∈
    s.rxPackets then 0 else 1

variable {w : PacketId → Spot κ} {spot : Spot κ}

/-- One packet is now at `spot`, the others are where they were. -/
structure Moved (s s' : State κ) (pid : PacketId) (spot : Spot κ) : Prop where
  list : ∀ p k, k ∈ s'.list p ↔ if k = pid then spot = .at_ p else k ∈ s.list p
  nodup : ∀ p, (s'.list p).Nodup
  hand : ∀ j k, s'.hand j = some k ↔ if k = pid then spot = .held j else s.hand j = some k
  flags : ∀ k, k ≠ pid → s'.flags k = s.flags k
  tx : s'.flags pid &&& packetFlagTx = 0#32
  clear : spot.consumer = false → s'.flags pid &&& packetFlagKeepPacket = 0#32
  others : ∀ k, k ≠ pid → s'.receptions.count k = s.receptions.count k ∧ s'.returns.count k =
    s.returns.count k
  back : spot = .at_ .pool → s'.receptions.count pid = s'.returns.count pid
  out : spot ≠ .at_ .pool → s'.receptions.count pid = s'.returns.count pid + 1

theorem Located.move (h : Located s w) (hm : Moved s s' pid spot)
    (htask : TaskAt s' (Function.update w pid spot)) : Located s' (Function.update w pid spot) := by
  have hne : ∀ {k}, k ≠ pid → Function.update w pid spot k = w k := fun hk =>
    Function.update_of_ne hk _ _
  have hself : Function.update w pid spot pid = spot := Function.update_self _ _ _
  refine ⟨fun p k => ?_, fun j k => ?_, hm.nodup, fun k hk => ?_, fun k hk hc => ?_, htask,
    fun k hk => ?_⟩
  · rw [hm.list]
    by_cases hkp : k = pid
    · rw [if_pos hkp, hkp, hself]
    · rw [if_neg hkp, hne hkp, h.list]
  · rw [hm.hand]
    by_cases hkp : k = pid
    · rw [if_pos hkp, hkp, hself]
    · rw [if_neg hkp, hne hkp, h.hand]
  · by_cases hkp : k = pid
    · rw [hkp]
      exact hm.tx
    · rw [hne hkp] at hk
      rw [hm.flags k hkp]
      exact h.tx k hk
  · by_cases hkp : k = pid
    · rw [hkp, hself] at hc
      rw [hkp]
      exact hm.clear hc
    · rw [hne hkp] at hk hc
      rw [hm.flags k hkp]
      exact h.clear k hk hc
  · have hpool : k ∈ s'.rxPackets ↔ if k = pid then spot = .at_ .pool else k ∈ s.rxPackets :=
      hm.list .pool k
    by_cases hkp : k = pid
    · rw [if_pos hkp] at hpool
      rw [hkp] at hpool ⊢
      by_cases hspot : spot = .at_ .pool
      · rw [if_pos (hpool.mpr hspot)]
        exact hm.back hspot
      · rw [if_neg fun hin => hspot (hpool.mp hin)]
        exact hm.out hspot
    · rw [if_neg hkp] at hpool
      rw [hne hkp] at hk
      rw [(hm.others k hkp).1, (hm.others k hkp).2, if_congr hpool rfl rfl]
      exact h.once k hk

/-- A packet that the network task is not busy with goes from a consumer or from the driver
to one of them. -/
theorem TaskAt.move (h : TaskAt s w) (ht : s'.task = s.task)
    (hflags : ∀ k, k ≠ pid → s'.flags k = s.flags k) (hpid : w pid ≠ .task) (hspot : spot ≠ .task)
    (hbusy : ¬ s.Tested pid → spot.consumer = true ∧ s'.flags pid = s.flags pid) :
    TaskAt s' (Function.update w pid spot) := by
  have hne : ∀ {k}, k ≠ pid → Function.update w pid spot k = w k := fun hk =>
    Function.update_of_ne hk _ _
  have hself : Function.update w pid spot pid = spot := Function.update_self _ _ _
  have hnot : (∀ k, w k ≠ .task) → ∀ k, Function.update w pid spot k ≠ .task := by
    intro hall k
    by_cases hk : k = pid
    · rw [hk, hself]
      exact hspot
    · rw [hne hk]
      exact hall k
  have honly : ∀ q, (∀ k, w k = .task ↔ k = q) → ∀ k, Function.update w pid spot k =
      .task ↔ k = q := by
    intro q hall k
    by_cases hk : k = pid
    · rw [hk, hself]
      exact iff_of_false hspot fun he => hpid ((hall pid).mpr he)
    · rw [hne hk]
      exact hall k
  have hconsumer : ∀ q, (q = pid → ¬ s.Tested pid) → (w q).consumer = true →
      (Function.update w pid spot q).consumer = true := by
    intro q hq hc
    by_cases hk : q = pid
    · rw [hk, hself]
      exact (hbusy (hq hk)).1
    · rwa [hne hk]
  unfold TaskAt at h ⊢
  rw [ht]
  cases htask : s.task with
  | idle =>
    rw [htask] at h
    exact hnot h
  | decoding q =>
    rw [htask] at h
    exact honly q h
  | called q =>
    rw [htask] at h
    exact ⟨hconsumer q (fun hq hn => hn.1 (by rw [htask, hq])) h.1, hnot h.2⟩
  | testing q =>
    rw [htask] at h
    have hq : q = pid → ¬ s.Tested pid := fun hq hn => hn.2 (by rw [htask, hq])
    have hsame : s'.flags q = s.flags q := by
      by_cases hk : q = pid
      · rw [hk]
        exact (hbusy (hq hk)).2
      · exact hflags q hk
    dsimp only at h ⊢
    rw [hsame]
    exact ⟨fun hk => honly q (h.1 hk), fun hk => ⟨hconsumer q hq (h.2 hk).1, hnot (h.2 hk).2⟩⟩

theorem Located.stays (h : Located s w) (p : Place κ) (spot : Spot κ) (hp : w pid ≠ .at_ p)
    (hs : spot ≠ .at_ p) (k : PacketId) :
    k ∈ s.list p ↔ if k = pid then spot = .at_ p else k ∈ s.list p := by
  by_cases hk : k = pid
  · rw [if_pos hk, hk]
    exact iff_of_false (fun hin => hp ((h.list p pid).mp hin)) hs
  · rw [if_neg hk]

theorem Located.leaves (h : Located s w) (p : Place κ) (spot : Spot κ) {rest : List PacketId}
    (hl : s.list p = pid :: rest)
    (hs : spot ≠ .at_ p) :
    w pid = .at_ p ∧ rest.Nodup ∧ ∀ k, k ∈ rest ↔ if k = pid then spot = .at_ p else k ∈
      s.list p := by
  have hn := h.nodup p
  rw [hl, List.nodup_cons] at hn
  refine ⟨(h.list p pid).mp (by rw [hl]; exact List.mem_cons_self), hn.2, fun k => ?_⟩
  by_cases hk : k = pid
  · rw [if_pos hk, hk]
    exact iff_of_false hn.1 hs
  · rw [if_neg hk, hl, List.mem_cons, or_iff_right hk]

theorem Located.enters (h : Located s w) (pid : PacketId) (p : Place κ) (hp : w pid ≠ .at_ p) :
    (s.list p ++ [pid]).Nodup ∧ ∀ k, k ∈ s.list p ++ [pid] ↔
      if k = pid then Spot.at_ p = .at_ p else k ∈ s.list p := by
  have hnot : pid ∉ s.list p := fun hin => hp ((h.list p pid).mp hin)
  refine ⟨List.nodup_append.mpr ⟨h.nodup p, List.nodup_singleton pid, fun a ha b hb he => ?_⟩,
    fun k => ?_⟩
  · rw [List.mem_singleton.mp hb] at he
    exact hnot (he ▸ ha)
  · rw [List.mem_append, List.mem_singleton]
    by_cases hk : k = pid
    · rw [if_pos hk]
      exact iff_of_true (.inr hk) rfl
    · rw [if_neg hk, or_iff_left hk]

theorem Located.hands (h : Located s w) (hw : ∀ j, w pid ≠ .held j) (hs : ∀ j, spot ≠ .held j)
    (j : κ) (k : PacketId) :
    s.hand j = some k ↔ if k = pid then spot = .held j else s.hand j = some k := by
  by_cases hk : k = pid
  · rw [if_pos hk, hk]
    exact iff_of_false (fun hh => hw j ((h.hand j pid).mp hh)) (hs j)
  · rw [if_neg hk]

/-- The packet the network task is busy with is its own or a consumer's. -/
theorem Located.tested (h : Located s w) (ht : w pid ≠ .task) (hc : (w pid).consumer = false) :
    s.Tested pid := by
  have htask := h.task
  unfold TaskAt at htask
  constructor
  · intro he
    rw [he] at htask
    dsimp only at htask
    rw [hc] at htask
    cases htask.1
  · intro he
    rw [he] at htask
    dsimp only at htask
    by_cases hk : s.flags pid &&& packetFlagKeepPacket = 0#32
    · exact ht ((htask.1 hk pid).mpr rfl)
    · have hconsumer := (htask.2 hk).1
      rw [hc] at hconsumer
      cases hconsumer

theorem or_and_zero {f e t : BitVec 32} (hf : f &&& t = 0#32) (he : e &&& t = 0#32) :
    (f ||| e) &&& t = 0#32 := by
  rw [BitVec.and_or_distrib_right, hf, he]
  rfl

/-- A packet taken out of its place, and then given back to the driver. -/
theorem Located.requeue (h : Located s w) (s₁ : State κ) (task : NetTask) (hpid : w pid ≠ .nowhere)
    (hlist : ∀ p k, k ∈ s₁.list p ↔ k ≠ pid ∧ k ∈ s.list p) (hnodup : ∀ p, (s₁.list p).Nodup)
    (hhand : ∀ j k, s₁.hand j = some k ↔ k ≠ pid ∧ s.hand j = some k) (hflags : s₁.flags = s.flags)
    (hreceptions : s₁.receptions = s.receptions) (hreturns : s₁.returns = s.returns)
    (hpool : w pid ≠ .at_ .pool) :
    Moved s { s₁.addRxPacket pid with task := task } pid (.at_ .pool) := by
  have honce := h.once pid hpid
  have hin : pid ∉ s.rxPackets := fun hin => hpool ((h.list .pool pid).mp hin)
  rw [if_neg hin] at honce
  have hnot : ∀ p, pid ∉ s₁.list p := fun p hin => ((hlist p pid).mp hin).1 rfl
  have hsame : ∀ p k, p ≠ .pool → (k ∈ s₁.list p ↔ if k = pid then Spot.at_ .pool = .at_ p else k ∈
      s.list p) := by
    intro p k hp
    rw [hlist]
    by_cases hk : k = pid
    · rw [if_pos hk]
      exact iff_of_false (fun hin => hin.1 hk) fun he => hp (Spot.at_.inj he).symm
    · rw [if_neg hk, and_iff_right hk]
  refine ⟨fun p k => ?_, fun p => ?_, fun j k => ?_, fun k hk => ?_, ?_, fun _ => ?_, fun k hk =>
    ⟨?_, ?_⟩, fun _ => ?_,
    fun hn => absurd rfl hn⟩
  · cases p with
    | pool =>
      change k ∈ s₁.list .pool ++ [pid] ↔ _
      rw [List.mem_append, List.mem_singleton, hlist]
      by_cases hk : k = pid
      · rw [if_pos hk]
        exact iff_of_true (.inr hk) rfl
      · rw [if_neg hk, or_iff_left hk, and_iff_right hk]
    | received => exact hsame .received k nofun
    | queue j => exact hsame (.queue j) k nofun
  · cases p with
    | pool =>
      refine List.nodup_append.mpr ⟨hnodup .pool, List.nodup_singleton pid, fun a ha b hb he => ?_⟩
      rw [List.mem_singleton.mp hb] at he
      exact hnot .pool (he ▸ ha)
    | received => exact hnodup .received
    | queue j => exact hnodup (.queue j)
  · change s₁.hand j = some k ↔ _
    rw [hhand]
    by_cases hk : k = pid
    · rw [if_pos hk]
      exact iff_of_false (fun hin => hin.1 hk) nofun
    · rw [if_neg hk, and_iff_right hk]
  · change Function.update s₁.flags pid _ k = _
    rw [Function.update_of_ne hk, hflags]
  · change Function.update s₁.flags pid _ pid &&& _ = _
    rw [Function.update_self]
    rfl
  · change Function.update s₁.flags pid _ pid &&& _ = _
    rw [Function.update_self]
    rfl
  · change s₁.receptions.count k = _
    rw [hreceptions]
  · change (s₁.returns ++ [pid]).count k = _
    rw [List.count_append, hreturns, List.count_singleton, if_neg (by simpa using Ne.symm hk),
      Nat.add_zero]
  · change s₁.receptions.count pid = (s₁.returns ++ [pid]).count pid
    rw [hreceptions, hreturns, List.count_append, List.count_singleton_self]
    exact honce

theorem Located.receive (h : Located s w) {error : Bool} (hs : receive s error = some s') :
    ∃ pid spot, w pid ≠ .nowhere ∧ spot ≠ .nowhere ∧ Located s' (Function.update w pid spot) := by
  unfold NanoIp.Received.receive at hs
  cases hl : s.rxPackets with
  | nil =>
    rw [hl] at hs
    cases hs
  | cons pid rest =>
    rw [hl] at hs
    obtain ⟨hpid, hrest, hleaves⟩ := h.leaves .pool (.at_ .received) hl nofun
    have hne : w pid ≠ .nowhere := by rw [hpid]; nofun
    obtain ⟨hnodup, henters⟩ := h.enters pid .received (by rw [hpid]; nofun)
    have hclear := h.clear pid hne (by rw [hpid]; rfl)
    have htx := h.tx pid hne
    have htested : s.Tested pid := h.tested (by rw [hpid]; nofun) (by rw [hpid]; rfl)
    have honce := h.once pid hne
    rw [if_pos (by rw [hl]; exact List.mem_cons_self)] at honce
    obtain ⟨f, hf, hftx, hfkeep, rfl⟩ : ∃ f : PacketId → BitVec 32,
      (∀ k, k ≠ pid → f k = s.flags k) ∧
        f pid &&& packetFlagTx = 0#32 ∧ f pid &&& packetFlagKeepPacket = 0#32 ∧
        s' = { s with
          rxPackets := rest, receivedPackets := s.receivedPackets ++ [pid]
          receptions := s.receptions ++ [pid], flags := f } := by
      obtain rfl := Option.some.inj hs
      cases error with
      | false => exact ⟨s.flags, fun _ _ => rfl, htx, hclear, rfl⟩
      | true =>
        refine ⟨_, fun k hk => Function.update_of_ne hk _ _, ?_, ?_, rfl⟩
        · rw [Function.update_self]
          exact or_and_zero htx rfl
        · rw [Function.update_self]
          exact or_and_zero hclear rfl
    refine ⟨pid, .at_ .received, hne, nofun, h.move ⟨fun p k => ?_, fun p => ?_, ?_, hf, hftx,
      fun _ => hfkeep,
      fun k hk => ⟨?_, rfl⟩, nofun, fun _ => ?_⟩ (h.task.move rfl hf (by rw [hpid]; nofun) nofun
        fun hn => absurd htested hn)⟩
    · cases p with
      | pool => exact hleaves k
      | received => exact henters k
      | queue j => exact h.stays (.queue j) (.at_ .received) (by rw [hpid]; nofun) nofun k
    · cases p with
      | pool => exact hrest
      | received => exact hnodup
      | queue j => exact h.nodup (.queue j)
    · exact h.hands (fun j => by rw [hpid]; nofun) (fun j => nofun)
    · change (s.receptions ++ [pid]).count k = _
      rw [List.count_append, List.count_singleton, if_neg (by simpa using Ne.symm hk)]
      rfl
    · change (s.receptions ++ [pid]).count pid = _
      rw [List.count_append, List.count_singleton_self, honce]

theorem Located.getNextRxPacket (h : Located s w) (hs : getNextRxPacket s = some s') :
    ∃ pid spot, w pid ≠ .nowhere ∧ spot ≠ .nowhere ∧ Located s' (Function.update w pid spot) := by
  unfold NanoIp.Received.getNextRxPacket at hs
  split at hs
  · next pid rest ht hl =>
    obtain rfl := Option.some.inj hs
    obtain ⟨hpid, hrest, hleaves⟩ := h.leaves .received .task hl nofun
    have hne : w pid ≠ .nowhere := by rw [hpid]; nofun
    have honce := h.once pid hne
    rw [if_neg fun hin => by cases hpid.symm.trans ((h.list .pool pid).mp hin)] at honce
    refine ⟨pid, .task, hne, nofun, h.move ⟨fun p k => ?_, fun p => ?_, ?_, fun _ _ =>
      rfl, h.tx pid hne,
      fun _ => h.clear pid hne (by rw [hpid]; rfl), fun _ _ => ⟨rfl, rfl⟩, nofun, fun _ =>
        honce⟩ fun k => ?_⟩
    · cases p with
      | pool => exact h.stays (.pool) (.task) (by rw [hpid]; nofun) nofun k
      | received => exact hleaves k
      | queue j => exact h.stays (.queue j) (.task) (by rw [hpid]; nofun) nofun k
    · cases p with
      | pool => exact h.nodup .pool
      | received => exact hrest
      | queue j => exact h.nodup (.queue j)
    · exact h.hands (fun j => by rw [hpid]; nofun) (fun j => nofun)
    · -- the task was idle and had no packet
      have hidle := h.task
      unfold TaskAt at hidle
      rw [ht] at hidle
      by_cases hk : k = pid
      · rw [hk, Function.update_self]
        exact iff_of_true rfl rfl
      · rw [Function.update_of_ne hk]
        exact iff_of_false (hidle k) hk
  · cases hs

theorem Located.rxFrame [DecidableEq κ] (h : Located s w) {consumer : Option κ}
    (hs : rxFrame s consumer = some s') :
    ∃ pid spot, w pid ≠ .nowhere ∧ spot ≠ .nowhere ∧ Located s' (Function.update w pid spot) := by
  unfold NanoIp.Received.rxFrame at hs
  split at hs
  · next pid ht =>
    have htask := h.task
    unfold TaskAt at htask
    rw [ht] at htask
    have hpid : w pid = .task := (htask pid).mpr rfl
    have hne : w pid ≠ .nowhere := by rw [hpid]; nofun
    have hclear := h.clear pid hne (by rw [hpid]; rfl)
    have hdone : Located { s with task := .testing pid } (Function.update w pid .task) := by
      rw [← hpid, Function.update_eq_self]
      exact ⟨h.list, h.hand, h.nodup, h.tx, h.clear,
        ⟨fun _ => htask, fun hk => absurd hclear hk⟩, h.once⟩
    split at hs
    · cases consumer with
      | none =>
        obtain rfl := Option.some.inj hs
        exact ⟨pid, .task, hne, nofun, hdone⟩
      | some j =>
        obtain rfl := Option.some.inj hs
        have honce := h.once pid hne
        have hout : pid ∉ s.rxPackets :=
          fun hin => by cases hpid.symm.trans ((h.list .pool pid).mp hin)
        rw [if_neg hout] at honce
        obtain ⟨hnodup, henters⟩ := h.enters pid (.queue j) (by rw [hpid]; nofun)
        have hqueue : ∀ i, i ≠ j → Function.update s.queue j (s.queue j ++ [pid]) i = s.queue i :=
          fun i hi => Function.update_of_ne hi _ _
        have hself : Function.update s.queue j (s.queue j ++ [pid]) j = s.queue j ++ [pid] :=
          Function.update_self _ _ _
        refine ⟨pid, .at_ (.queue j), hne, nofun, h.move ⟨fun p k => ?_, fun p => ?_, ?_, fun _ _ =>
          rfl, h.tx pid hne,
          nofun, fun _ _ => ⟨rfl, rfl⟩, nofun, fun _ => honce⟩ ⟨?_, fun k => ?_⟩⟩
        · cases p with
          | pool => exact h.stays (.pool) (.at_ (.queue j)) (by rw [hpid]; nofun) nofun k
          | received => exact h.stays (.received) (.at_ (.queue j)) (by rw [hpid]; nofun) nofun k
          | queue i =>
            change k ∈ Function.update s.queue j _ i ↔ _
            by_cases hi : i = j
            · rw [hi, hself]
              exact henters k
            · rw [hqueue i hi]
              exact h.stays (.queue i) (.at_ (.queue j)) (by rw [hpid]; nofun)
                (fun he => hi (Place.queue.inj (Spot.at_.inj he)).symm) k
        · cases p with
          | pool => exact h.nodup .pool
          | received => exact h.nodup .received
          | queue i =>
            change (Function.update s.queue j _ i).Nodup
            by_cases hi : i = j
            · rw [hi, hself]
              exact hnodup
            · rw [hqueue i hi]
              exact h.nodup (.queue i)
        · exact h.hands (fun i => by rw [hpid]; nofun) (fun i => nofun)
        · rw [Function.update_self]
          rfl
        · by_cases hk : k = pid
          · rw [hk, Function.update_self]
            nofun
          · rw [Function.update_of_ne hk]
            exact fun he => hk ((htask k).mp he)
    · obtain rfl := Option.some.inj hs
      exact ⟨pid, .task, hne, nofun, hdone⟩
  · cases hs

theorem keep_set (f : BitVec 32) :
    (f ||| packetFlagKeepPacket) &&& packetFlagKeepPacket ≠ 0#32 := by
  intro hzero
  have hbit := congrArg (fun v : BitVec 32 => v.getLsbD 2) hzero
  simp [packetFlagKeepPacket] at hbit

theorem Located.keepPacket (h : Located s w) (hs : keepPacket s = some s') :
    ∃ pid spot, w pid ≠ .nowhere ∧ spot ≠ .nowhere ∧ Located s' (Function.update w pid spot) := by
  unfold NanoIp.Received.keepPacket at hs
  split at hs
  · next pid ht =>
    obtain rfl := Option.some.inj hs
    have htask := h.task
    unfold TaskAt at htask
    rw [ht] at htask
    have hself : Function.update s.flags pid (s.flags pid ||| packetFlagKeepPacket) pid =
        s.flags pid ||| packetFlagKeepPacket :=
      Function.update_self _ _ _
    have hne : w pid ≠ .nowhere := by
      intro he
      have hc : (w pid).consumer = true := htask.1
      rw [he] at hc
      cases hc
    refine ⟨pid, w pid, hne, hne, ?_⟩
    rw [Function.update_eq_self]
    refine ⟨h.list, h.hand, h.nodup, fun k hk => ?_, fun k hk hc => ?_,
      ⟨fun hz => ?_, fun _ => htask⟩, h.once⟩
    · change Function.update s.flags pid _ k &&& _ = _
      by_cases hkp : k = pid
      · rw [hkp, hself]
        exact or_and_zero (h.tx pid (hkp ▸ hk)) rfl
      · rw [Function.update_of_ne hkp]
        exact h.tx k hk
    · have hkp : k ≠ pid := by
        rintro rfl
        rw [htask.1] at hc
        cases hc
      change Function.update s.flags pid _ k &&& _ = _
      rw [Function.update_of_ne hkp]
      exact h.clear k hk hc
    · change Function.update s.flags pid _ pid &&& _ = _ at hz
      rw [hself] at hz
      exact absurd hz (keep_set _)
  · cases hs

theorem Located.testPacket (h : Located s w) (hs : testPacket s = some s') :
    ∃ pid spot, w pid ≠ .nowhere ∧ spot ≠ .nowhere ∧ Located s' (Function.update w pid spot) := by
  unfold NanoIp.Received.testPacket at hs
  split at hs
  · next pid ht =>
    have htask := h.task
    unfold TaskAt at htask
    rw [ht] at htask
    split at hs
    · next hk =>
      have hpid : w pid = .task := (htask.1 hk pid).mpr rfl
      have hne : w pid ≠ .nowhere := by rw [hpid]; nofun
      rw [State.releasePacket, if_pos (h.tx pid hne)] at hs
      obtain rfl := Option.some.inj hs
      refine ⟨pid, .at_ .pool, hne, nofun, h.move (h.requeue s .idle hne (fun p k => ?_) h.nodup
        (fun j k => ?_) rfl rfl rfl
        (by rw [hpid]; nofun)) fun k => ?_⟩
      · rw [iff_and_self]
        rintro hin rfl
        cases hpid.symm.trans ((h.list p k).mp hin)
      · rw [iff_and_self]
        rintro hin rfl
        cases hpid.symm.trans ((h.hand j k).mp hin)
      · by_cases hkp : k = pid
        · rw [hkp, Function.update_self]
          nofun
        · rw [Function.update_of_ne hkp]
          exact fun he => hkp ((htask.1 hk k).mp he)
    · next hk =>
      obtain rfl := Option.some.inj hs
      obtain ⟨hc, hnone⟩ := htask.2 hk
      have hne : w pid ≠ .nowhere := by
        intro he
        rw [he] at hc
        cases hc
      refine ⟨pid, w pid, hne, hne, ?_⟩
      rw [Function.update_eq_self]
      exact ⟨h.list, h.hand, h.nodup, h.tx, h.clear, hnone, h.once⟩
  · cases hs

/-- A consumer's queue without its first packet. -/
theorem Located.setQueue [DecidableEq κ] (h : Located s w) {k : κ} {rest : List PacketId}
    (hl : s.queue k = pid :: rest) :
    w pid = .at_ (.queue k) ∧ (∀ p j, j ∈ (s.setQueue k rest).list p ↔ j ≠ pid ∧ j ∈ s.list p) ∧
      ∀ p, ((s.setQueue k rest).list p).Nodup := by
  obtain ⟨hpid, hrest, hleaves⟩ := h.leaves (.queue k) .task hl nofun
  have hsame : ∀ p, p ≠ .queue k → (s.setQueue k rest).list p = s.list p := by
    intro p hp
    cases p with
    | pool => rfl
    | received => rfl
    | queue i => exact Function.update_of_ne (fun he => hp (congrArg Place.queue he)) _ _
  have hself : (s.setQueue k rest).list (.queue k) = rest := Function.update_self _ _ _
  refine ⟨hpid, fun p j => ?_, fun p => ?_⟩
  · by_cases hp : p = .queue k
    · rw [hp, hself, hleaves]
      by_cases hj : j = pid
      · rw [if_pos hj]
        exact iff_of_false nofun fun hn => hn.1 hj
      · rw [if_neg hj, and_iff_right hj]
    · rw [hsame p hp, iff_and_self]
      rintro hin rfl
      exact hp (Spot.at_.inj (((h.list p j).mp hin).symm.trans hpid))
  · by_cases hp : p = .queue k
    · rw [hp, hself]
      exact hrest
    · rw [hsame p hp]
      exact h.nodup p

theorem Located.receiveFrom [DecidableEq κ] (h : Located s w) {k : κ}
    (hok : ∀ pid ∈ (s.queue k).head?, s.Tested pid) (hs : receiveFrom s k = some s') :
    ∃ pid spot, w pid ≠ .nowhere ∧ spot ≠ .nowhere ∧ Located s' (Function.update w pid spot) := by
  unfold NanoIp.Received.receiveFrom at hs
  cases hl : s.queue k with
  | nil =>
    rw [hl] at hs
    cases hs
  | cons pid rest =>
    rw [hl] at hs hok
    have htested := hok pid rfl
    obtain ⟨hpid, hlist, hnodup⟩ := h.setQueue hl
    have hne : w pid ≠ .nowhere := by rw [hpid]; nofun
    dsimp only at hs
    split at hs
    · have htx : (s.setQueue k rest).flags pid &&& packetFlagTx = 0#32 := h.tx pid hne
      rw [State.releasePacket, if_pos htx] at hs
      obtain rfl := Option.some.inj hs
      have hm : Moved s ((s.setQueue k rest).addRxPacket pid) pid (.at_ .pool) :=
        h.requeue (s.setQueue k rest) s.task hne hlist hnodup (fun j i => ?_) rfl rfl rfl
          (by rw [hpid]; nofun)
      · exact ⟨pid, .at_ .pool, hne, nofun, h.move hm
          (h.task.move rfl hm.flags (by rw [hpid]; nofun) nofun fun hn => absurd htested hn)⟩
      · change s.hand j = some i ↔ _
        rw [iff_and_self]
        rintro hin rfl
        cases hpid.symm.trans ((h.hand j i).mp hin)
    · cases hs

theorem Located.take [DecidableEq κ] (h : Located s w) {k : κ} (hs : take s k = some s') :
    ∃ pid spot, w pid ≠ .nowhere ∧ spot ≠ .nowhere ∧ Located s' (Function.update w pid spot) := by
  unfold NanoIp.Received.take at hs
  split at hs
  · next pid rest hhand hl =>
    obtain rfl := Option.some.inj hs
    obtain ⟨hpid, hlist, hnodup⟩ := h.setQueue hl
    have hne : w pid ≠ .nowhere := by rw [hpid]; nofun
    have honce := h.once pid hne
    have hout : pid ∉ s.rxPackets := fun hin => by cases hpid.symm.trans ((h.list .pool pid).mp hin)
    rw [if_neg hout] at honce
    refine ⟨pid, .held k, hne, nofun, h.move ⟨fun p j => ?_, hnodup, fun j i => ?_, fun _ _ =>
      rfl, h.tx pid hne, nofun,
      fun _ _ => ⟨rfl, rfl⟩, nofun, fun _ => honce⟩
      (h.task.move rfl (fun _ _ => rfl) (by rw [hpid]; nofun) nofun fun _ => ⟨rfl, rfl⟩)⟩
    · change j ∈ (s.setQueue k rest).list p ↔ _
      rw [hlist]
      by_cases hj : j = pid
      · rw [if_pos hj]
        exact iff_of_false (fun hn => hn.1 hj) nofun
      · rw [if_neg hj, and_iff_right hj]
    · change Function.update s.hand k (some pid) j = some i ↔ _
      by_cases hj : j = k
      · rw [hj, Function.update_self, Option.some.injEq]
        by_cases hi : i = pid
        · rw [if_pos hi]
          exact iff_of_true hi.symm rfl
        · rw [if_neg hi, hhand]
          exact iff_of_false (fun he => hi he.symm) nofun
      · rw [Function.update_of_ne hj]
        by_cases hi : i = pid
        · rw [if_pos hi, hi]
          exact iff_of_false (fun hin => by cases hpid.symm.trans ((h.hand j pid).mp hin))
            fun he => hj (Spot.held.inj he).symm
        · rw [if_neg hi]
  · cases hs

theorem Located.releaseTaken [DecidableEq κ] (h : Located s w) {k : κ}
    (hok : ∀ pid ∈ s.hand k, s.Tested pid) (hs : releaseTaken s k = some s') :
    ∃ pid spot, w pid ≠ .nowhere ∧ spot ≠ .nowhere ∧ Located s' (Function.update w pid spot) := by
  unfold NanoIp.Received.releaseTaken at hs
  split at hs
  · next pid hhand =>
    have htested := hok pid hhand
    have hpid : w pid = .held k := (h.hand k pid).mp hhand
    have hne : w pid ≠ .nowhere := by rw [hpid]; nofun
    rw [State.releasePacket, if_pos (h.tx pid hne)] at hs
    obtain rfl := Option.some.inj hs
    have hm : Moved s ({ s with hand := Function.update s.hand k none }.addRxPacket pid) pid
        (.at_ .pool) := by
      refine h.requeue { s with hand := Function.update s.hand k none } s.task hne
        (fun p j => ?_) h.nodup
        (fun j i => ?_) rfl rfl rfl (by rw [hpid]; nofun)
      · change j ∈ s.list p ↔ _
        rw [iff_and_self]
        rintro hin rfl
        cases hpid.symm.trans ((h.list p j).mp hin)
      · change Function.update s.hand k none j = some i ↔ _
        by_cases hj : j = k
        · rw [hj, Function.update_self, hhand]
          exact iff_of_false nofun fun hn => hn.1 (Option.some.inj hn.2).symm
        · rw [Function.update_of_ne hj, iff_and_self]
          rintro hin rfl
          exact hj (Spot.held.inj (((h.hand j i).mp hin).symm.trans hpid))
    exact ⟨pid, .at_ .pool, hne, nofun, h.move hm
      (h.task.move rfl hm.flags (by rw [hpid]; nofun) nofun fun hn => absurd htested hn)⟩
  · cases hs

theorem Located.sound (h : Located s w) (hw : ∀ k, w k ≠ .nowhere ↔ k ∈ packets) :
    Sound packets s where
  nodup := h.nodup
  apart p q k hp hq := Spot.at_.inj (((h.list p k).mp hp).symm.trans ((h.list q k).mp hq))
  held j k hk := by
    have hwk := (h.hand j k).mp hk
    refine ⟨fun p hp => ?_, fun i hi => ?_⟩
    · cases hwk.symm.trans ((h.list p k).mp hp)
    · exact Spot.held.inj (((h.hand i k).mp hi).symm.trans hwk)
  mine k hk := by
    have hwk : w k = .task := by
      have ht := h.task
      unfold TaskAt at ht
      rcases hk with hk | ⟨hk, hkeep⟩
      · rw [hk] at ht
        exact (ht k).mpr rfl
      · rw [hk] at ht
        exact (ht.1 hkeep k).mpr rfl
    refine ⟨fun p hp => ?_, fun j hj => ?_⟩
    · cases hwk.symm.trans ((h.list p k).mp hp)
    · cases hwk.symm.trans ((h.hand j k).mp hj)
  somewhere k hk := by
    have hnw := (hw k).mpr hk
    cases hwk : w k with
    | nowhere => exact absurd hwk hnw
    | at_ p => exact .inl ⟨p, (h.list p k).mpr hwk⟩
    | held j => exact .inr (.inl ⟨j, (h.hand j k).mpr hwk⟩)
    | task =>
      refine .inr (.inr ?_)
      have ht := h.task
      unfold TaskAt at ht
      cases htask : s.task with
      | idle =>
        rw [htask] at ht
        exact absurd hwk (ht k)
      | decoding q =>
        rw [htask] at ht
        rw [(ht k).mp hwk]
        exact .inl htask
      | called q =>
        rw [htask] at ht
        exact absurd hwk (ht.2 k)
      | testing q =>
        rw [htask] at ht
        by_cases hkeep : s.flags q &&& packetFlagKeepPacket = 0#32
        · rw [(ht.1 hkeep k).mp hwk]
          exact .inr ⟨htask, hkeep⟩
        · exact absurd hwk ((ht.2 hkeep).2 k)
  once k hk := h.once k ((hw k).mpr hk)

/-- At the start every packet is in the pool. -/
theorem located_initial (hnodup : packets.Nodup) (flags : PacketId → BitVec 32) :
    Located (initial packets flags : State κ) fun k =>
      if k ∈ packets then .at_ .pool else .nowhere := by
  have hpool : ∀ {k p}, (if k ∈ packets then Spot.at_ .pool else .nowhere : Spot κ) = .at_ p ↔
      k ∈ packets ∧ p = .pool := by
    intro k p
    by_cases hk : k ∈ packets
    · rw [if_pos hk, Spot.at_.injEq, eq_comm, and_iff_right hk]
    · rw [if_neg hk]
      exact iff_of_false (by simp) fun hn => hk hn.1
  have hin : ∀ {k}, (if k ∈ packets then Spot.at_ .pool else .nowhere : Spot κ) ≠ .nowhere →
      k ∈ packets := by
    intro k hk
    by_contra hn
    exact hk (if_neg hn)
  have hflags : ∀ {k}, k ∈ packets → (initial packets flags : State κ).flags k = packetFlagRx :=
    fun hk => if_pos hk
  refine ⟨fun p k => ?_, fun j k => ?_, fun p => ?_, fun k hk => ?_, fun k hk _ => ?_,
    fun k he => ?_, fun k hk => ?_⟩
  · rw [hpool]
    cases p with
    | pool => exact (and_iff_left rfl).symm
    | received => exact iff_of_false List.not_mem_nil (by simp)
    | queue j => exact iff_of_false List.not_mem_nil (by simp)
  · refine iff_of_false (by simp [initial]) fun he => ?_
    split at he <;> cases he
  · cases p with
    | pool => exact hnodup
    | received => exact List.nodup_nil
    | queue j => exact List.nodup_nil
  · rw [hflags (hin hk)]
    rfl
  · rw [hflags (hin hk)]
    rfl
  · split at he <;> cases he
  · change 0 = 0 + if k ∈ packets then 0 else 1
    rw [if_pos (hin hk)]

section Runs

variable [DecidableEq κ] {kind : κ → Kind}

/-- A step moves at most one packet. -/
theorem located_step (h : Located s w) {i : Input κ} (hok : Late s i)
    (hs : step kind s i = some s') :
    ∃ pid spot, Located s' (Function.update w pid spot) ∧
      ∀ k, Function.update w pid spot k ≠ .nowhere ↔ w k ≠ .nowhere := by
  have hmoves : ∃ pid spot, w pid ≠ .nowhere ∧ spot ≠ .nowhere ∧
      Located s' (Function.update w pid spot) := by
    cases i with
    | receive error => exact h.receive hs
    | getNextRxPacket => exact h.getNextRxPacket hs
    | rxFrame consumer => exact h.rxFrame hs
    | testPacket => exact h.testPacket hs
    | keepPacket => exact h.keepPacket hs
    | receiveFrom k =>
      unfold step at hs
      dsimp only at hs
      split at hs
      · exact h.receiveFrom hok hs
      · cases hs
    | take k =>
      unfold step at hs
      dsimp only at hs
      split at hs
      · exact h.take hs
      · cases hs
    | releaseTaken k =>
      unfold step at hs
      dsimp only at hs
      split at hs
      · exact h.releaseTaken hok hs
      · cases hs
  obtain ⟨pid, spot, hpid, hspot, hlocated⟩ := hmoves
  refine ⟨pid, spot, hlocated, fun k => ?_⟩
  by_cases hk : k = pid
  · rw [hk, Function.update_self]
    exact iff_of_true hspot hpid
  · rw [Function.update_of_ne hk]

/-- In every run in which the consumers release no packet before the network task has tested
it, each received packet is handed over once. -/
theorem handed_once (kind : κ → Kind) (hnodup : packets.Nodup) (flags : PacketId → BitVec 32)
    (h : Lib.Reach (step kind) Late (initial packets flags) s) : Sound packets s := by
  obtain ⟨w, hw, hlocated⟩ : ∃ w : PacketId → Spot κ, (∀ k, w k ≠ .nowhere ↔ k ∈ packets) ∧
      Located s w := by
    refine h.invariant (I := fun s => ∃ w : PacketId → Spot κ, (∀ k, w k ≠ .nowhere ↔ k ∈ packets) ∧
      Located s w)
      ⟨_, fun k => ?_, located_initial hnodup flags⟩ fun s i s' hs hok hstep => ?_
    · by_cases hk : k ∈ packets
      · exact iff_of_true (by simp [hk]) hk
      · exact iff_of_false (by simp [hk]) hk
    · obtain ⟨w, hw, hlocated⟩ := hs
      obtain ⟨pid, spot, hl, hiff⟩ := located_step hlocated hok hstep
      exact ⟨_, fun k => (hiff k).trans (hw k), hl⟩
  exact hlocated.sound hw

end Runs

/-- A socket and a consumer task. -/
def sampleKind : Bool → Kind
  | false => .socket
  | true => .task

/-- One packet is read from the socket, one is released by the task, a damaged one is given
back at once. -/
theorem handed_once_sample :
    ∃ s : State Bool, Sound [0, 1] s ∧ decide (s.returns = [0, 1, 0]) = true := by
  obtain ⟨s, hreach, hs⟩ :=
    Lib.exists_of_runInputs (step sampleKind) Late (initial [0, 1] fun _ => 0#32)
    [.receive false, .receive false, .getNextRxPacket, .rxFrame (some false), .keepPacket,
      .testPacket,
      .receiveFrom false,
      .getNextRxPacket, .rxFrame (some true), .take true, .keepPacket, .testPacket,
        .releaseTaken true, .receive true,
      .getNextRxPacket, .rxFrame none, .testPacket]
    (fun s => decide (s.returns = [0, 1, 0])) (by decide)
  exact ⟨s, handed_once sampleKind (by decide) _ hreach, hs⟩

/-- The socket is read between the end of the decoding and the test of the KEEP flag: the
packet is given back to the driver twice. -/
theorem released_before_test :
    ¬ ∀ (packets : List PacketId) (flags : PacketId → BitVec 32) (s : State Bool),
    packets.Nodup → Lib.Reach (step sampleKind) Lib.anyStep (initial packets flags) s →
      Sound packets s := by
  intro hall
  obtain ⟨s, hreach, hs⟩ := Lib.exists_of_runInputs (step sampleKind) Lib.anyStep
    (initial [0] fun _ => 0#32)
    [.receive false, .getNextRxPacket, .rxFrame (some false), .keepPacket, .receiveFrom false,
      .testPacket]
    (fun s => decide (s.rxPackets = [0, 0])) (by decide)
  have hpool := (hall [0] _ s (by decide) hreach).nodup .pool
  rw [show s.list .pool = [0, 0] from of_decide_eq_true hs] at hpool
  exact absurd hpool (by decide)

end NanoIp.Received
