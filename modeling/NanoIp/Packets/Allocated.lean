import NanoIp.Packets.Allocator
import Mathlib.Data.List.Perm.Subperm

/-!
# The allocator over whole runs

Every class of buffers is a pool, an allocation takes from one pool and a release gives
back to the pool the buffer was taken from. The pools hold exactly what a ledger of the
allocations and releases says.
-/
namespace NanoIp.Allocator

variable {g : Config}

section Pointers

theorem pointer_offset (hg : g.Valid) (d : Desc g) :
    (pointer d).offset = ((d.2.1 * (g.bufferSize d.1).toNat : Nat) : Int) := by
  have hfits := hg.fits d.1
  have hle := Nat.mul_le_mul_right (g.bufferSize d.1).toNat (Nat.le_of_lt d.2.isLt)
  have hprod : (BitVec.ofNat 32 d.2.1 * (g.bufferSize d.1).zeroExtend 32).toNat =
      d.2.1 * (g.bufferSize d.1).toNat := by
    have hindex : d.2.1 < 2 ^ 32 :=
      Nat.lt_of_lt_of_le (Nat.lt_trans d.2.isLt (g.buffersCount d.1).isLt) (by decide)
    have hsize : (g.bufferSize d.1).toNat < 2 ^ 32 :=
      Nat.lt_of_lt_of_le (g.bufferSize d.1).isLt (by decide)
    have hwide : ((g.bufferSize d.1).zeroExtend 32).toNat = (g.bufferSize d.1).toNat :=
      (BitVec.toNat_setWidth 32 _).trans (Nat.mod_eq_of_lt hsize)
    rw [BitVec.toNat_mul, BitVec.toNat_ofNat, hwide, Nat.mod_eq_of_lt hindex,
      Nat.mod_eq_of_lt (by omega)]
  change (BitVec.ofNat 32 d.2.1 * (g.bufferSize d.1).zeroExtend 32).toInt = _
  rw [BitVec.toInt_eq_toNat_of_lt (by omega), hprod]

theorem pointer_within (hg : g.Valid) (d : Desc g) : Within g (pointer d) := by
  have hle := Nat.mul_le_mul_right (g.bufferSize d.1).toNat (Nat.succ_le_of_lt d.2.isLt)
  rw [Nat.succ_mul] at hle
  rw [Within, pointer_offset hg, show (pointer d).array = d.1 from rfl]
  omega

/-- Buffers of different descriptors lie apart. -/
theorem pointer_apart (hg : g.Valid) {d d' : Desc g} (hne : d ≠ d') :
    ¬ Overlap g (pointer d) (pointer d') := by
  rintro ⟨harray, hlt, hlt'⟩
  rw [pointer_offset hg, pointer_offset hg] at hlt hlt'
  obtain ⟨c, i⟩ := d
  obtain ⟨c', j⟩ := d'
  obtain rfl : c = c' := harray
  have hindex : i.1 ≠ j.1 := fun he => hne (by rw [Fin.ext he])
  change ((i.1 * (g.bufferSize c).toNat : Nat) : Int) <
    (j.1 * (g.bufferSize c).toNat : Nat) + ((g.bufferSize c).toNat : Int) at hlt
  change ((j.1 * (g.bufferSize c).toNat : Nat) : Int) <
    (i.1 * (g.bufferSize c).toNat : Nat) + ((g.bufferSize c).toNat : Int) at hlt'
  rcases Nat.lt_or_gt_of_ne hindex with h | h
  · have hle := Nat.mul_le_mul_right (g.bufferSize c).toNat (Nat.succ_le_of_lt h)
    rw [Nat.succ_mul] at hle
    omega
  · have hle := Nat.mul_le_mul_right (g.bufferSize c).toNat (Nat.succ_le_of_lt h)
    rw [Nat.succ_mul] at hle
    omega

end Pointers

section Lists

variable {s s' : State g} {a d : Desc g} {c : Class} {f u : List (Desc g)}

theorem next_update (mem : Desc g → Buffer g) (a : Desc g) (b : Buffer g) :
    (fun d => (Function.update mem a b d).next) =
      Function.update (fun d => (mem d).next) a b.next :=
  funext fun d => by
    by_cases h : d = a
    · subst h
      rw [Function.update_self, Function.update_self]
    · rw [Function.update_of_ne h, Function.update_of_ne h]

theorem Lists.length_le (h : Lists s c f u) : u.length ≤ (g.buffersCount c).toNat := by
  have hsub : u.map (fun d => d.2.1) ⊆ List.range (g.buffersCount c).toNat := by
    intro i hi
    obtain ⟨d, hd, rfl⟩ := List.mem_map.mp hi
    have hclass := (h.each d).mp (List.mem_append_right f hd)
    rw [List.mem_range, ← hclass]
    exact d.2.isLt
  have hinj : (u.map fun d => d.2.1).Nodup := by
    refine (List.nodup_append.mp h.pooled.nodup).2.1.map_on fun d hd d' hd' he => ?_
    have hclass := (h.each d).mp (List.mem_append_right f hd)
    have hclass' := (h.each d').mp (List.mem_append_right f hd')
    obtain ⟨k, i⟩ := d
    obtain ⟨k', j⟩ := d'
    obtain rfl : k = k' := hclass.trans hclass'.symm
    have hindex : i = j := Fin.ext he
    rw [hindex]
  have hle := (hinj.subperm hsub).length_le
  rwa [List.length_map, List.length_range] at hle

theorem Lists.usedBuffers (h : Lists s c f u) : s.usedBuffers c = u :=
  h.pooled.used.chain_eq h.length_le

theorem Lists.other (h : Lists s c f u) (hfree : s'.free c = s.free c)
    (hused : s'.used c = s.used c)
    (hnext : ∀ d : Desc g, d.1 = c → (s'.mem d).next = (s.mem d).next) : Lists s' c f u := by
  refine ⟨?_, h.each⟩
  rw [hfree, hused]
  exact h.pooled.congr fun d hd => hnext d ((h.each d).mp hd)

/-- A buffer has been taken from the free ones of its class. -/
structure Taken (s s' : State g) (a : Desc g) : Prop where
  mem : ∀ c f u, Lists s c f u → ∃ f' u', Lists s' c f' u' ∧ ∀ d, d ∈ u' ↔ d = a ∧ a.1 = c ∨ d ∈ u
  free : ∀ f u, Lists s a.1 f u → a ∈ f
  same : ∀ d, (s'.mem d).packet = (s.mem d).packet ∧ (s'.mem d).data = (s.mem d).data

theorem allocateBuffer_some (h : Lists s c f u) (ha : allocateBuffer s c = some (s', a)) :
    a.1 = c ∧ Taken s s' a := by
  unfold allocateBuffer at ha
  split at ha
  · cases ha
  · next b hfree =>
    obtain ⟨rfl, rfl⟩ := Prod.mk.inj (Option.some.inj ha)
    have hhead : ∀ f u, Lists s c f u → ∃ f', f = b :: f' := by
      intro f u h
      have hl := h.pooled.free
      rw [hfree] at hl
      cases f with
      | nil => cases hl
      | cons x f' => exact ⟨f', by rw [Option.some.inj hl.1]⟩
    have hclass : b.1 = c := by
      obtain ⟨f', rfl⟩ := hhead f u h
      exact (h.each b).mp List.mem_cons_self
    refine ⟨hclass, ⟨fun c' f₁ u₁ h₁ => ?_, fun f₁ u₁ h₁ => ?_, fun d => ?_⟩⟩
    · by_cases hc : c' = c
      · subst hc
        obtain ⟨f', rfl⟩ := hhead f₁ u₁ h₁
        refine ⟨f', b :: u₁, ⟨?_, fun d => ?_⟩, fun d => ?_⟩
        · have htake := h₁.pooled.take
          rw [← next_update s.mem b { s.mem b with next := s.used c' }] at htake
          dsimp only
          rw [Function.update_self, Function.update_self]
          exact htake
        · rw [← h₁.each d]
          simp only [List.mem_append, List.mem_cons]
          exact or_left_comm.trans or_assoc.symm
        · rw [List.mem_cons, and_iff_left hclass]
      · refine ⟨f₁, u₁, h₁.other (Function.update_of_ne hc _ _) (Function.update_of_ne hc _ _)
          fun d hd => ?_,
          fun d => ?_⟩
        · dsimp only
          rw [Function.update_of_ne]
          rintro rfl
          exact hc (hd.symm.trans hclass)
        · rw [or_iff_right]
          exact fun hd => hc (hd.2.symm.trans hclass)
    · obtain ⟨f', rfl⟩ := hhead f₁ u₁ (hclass ▸ h₁)
      exact List.mem_cons_self
    · by_cases hd : d = b
      · subst hd
        dsimp only
        rw [Function.update_self]
        exact ⟨rfl, rfl⟩
      · dsimp only
        rw [Function.update_of_ne hd]
        exact ⟨rfl, rfl⟩

theorem allocateBuffer_none (h : Lists s c f u) : allocateBuffer s c = none ↔ f = [] := by
  rw [← h.pooled.free_none]
  unfold allocateBuffer
  cases s.free c with
  | none => exact iff_of_true rfl rfl
  | some a => exact iff_of_false (Option.some_ne_none _) (Option.some_ne_none a)

/-- A buffer has been given back to the free ones of its class. -/
structure Given (s s' : State g) (a : Desc g) : Prop where
  mem : ∀ c f u, Lists s c f u → ∃ f' u', Lists s' c f' u' ∧ ∀ d, d ∈ u' ↔ d ∈ u ∧ d ≠ a
  same : ∀ d, (s'.mem d).packet = (s.mem d).packet ∧ (s'.mem d).data = (s.mem d).data

/-- What is found among the used buffers is given back. -/
theorem releaseBuffer_some (h : Lists s c f u) (ha : releaseBuffer s (some a) c = some s') :
    a ∈ u ∧ Given s s' a := by
  obtain ⟨prev, hprev, rfl⟩ := Option.map_eq_some_iff.mp ha
  rw [h.usedBuffers] at hprev
  have hmem : a ∈ u := by
    by_contra hnot
    rw [Lib.findPrev_none.mpr hnot] at hprev
    cases hprev
  have hclass : a.1 = c := (h.each a).mp (List.mem_append_right f hmem)
  -- removing the buffer is unlinking it
  have hused : (s.removeUsed c prev a).used c =
    (Lib.unlink (fun d => (s.mem d).next) (s.used c) a u).1 ∧
      (fun d => ((s.removeUsed c prev a).mem d).next) =
        (Lib.unlink (fun d => (s.mem d).next) (s.used c) a u).2 := by
    rw [Lib.unlink, hprev]
    cases prev with
    | none => exact ⟨Function.update_self _ _ _, rfl⟩
    | some p => exact ⟨rfl, next_update s.mem p _⟩
  have hfree : (s.removeUsed c prev a).free = s.free := by cases prev <;> rfl
  have hothers : ∀ c', c' ≠ c → (s.removeUsed c prev a).used c' = s.used c' := by
    intro c' hc
    cases prev with
    | none => exact Function.update_of_ne hc _ _
    | some p => rfl
  have hsame : ∀ d, ((s.removeUsed c prev a).mem d).packet = (s.mem d).packet ∧
      ((s.removeUsed c prev a).mem d).data = (s.mem d).data := by
    intro d
    cases prev with
    | none => exact ⟨rfl, rfl⟩
    | some p =>
      by_cases hd : d = p
      · subst hd
        simp [State.removeUsed]
      · simp [State.removeUsed, hd]
  refine ⟨hmem, ⟨fun c' f₁ u₁ h₁ => ?_, fun d => ?_⟩⟩
  · by_cases hc : c' = c
    · subst hc
      have hu : u₁ = u := by rw [← h₁.usedBuffers, h.usedBuffers]
      subst hu
      have hgive := h₁.pooled.give hmem
      rw [← hused.2, ← hused.1, ← hfree] at hgive
      refine ⟨a :: f₁, u₁.erase a, ⟨?_, fun d => ?_⟩, fun d => ?_⟩
      · dsimp only [State.addFree]
        rw [Function.update_self, next_update]
        exact hgive
      · rw [← h₁.each d, List.mem_append, List.mem_append, List.mem_cons]
        have hnodup := (List.nodup_append.mp h₁.pooled.nodup).2.1
        rw [hnodup.mem_erase_iff]
        by_cases hd : d = a
        · subst hd
          exact iff_of_true (.inl (.inl rfl)) (.inr hmem)
        · rw [or_iff_right hd, and_iff_right hd]
      · rw [(List.nodup_append.mp h₁.pooled.nodup).2.1.mem_erase_iff, and_comm]
    · refine ⟨f₁, u₁, h₁.other ?_ (hothers c' hc) fun d hd => ?_, fun d => ?_⟩
      · exact (Function.update_of_ne hc _ _).trans (congrFun hfree c')
      · have hda : d ≠ a := by
          rintro rfl
          exact hc (hd.symm.trans hclass)
        have hdu : d ∉ u := fun hin =>
          hc (hd.symm.trans ((h.each d).mp (List.mem_append_right f hin)))
        dsimp only [State.addFree]
        rw [Function.update_of_ne hda]
        exact (congrFun hused.2 d).trans (Lib.unlink_frame _ _ a hdu)
      · refine (and_iff_left_of_imp fun hd => ?_).symm
        rintro rfl
        exact hc (((h₁.each d).mp (List.mem_append_right f₁ hd)).symm.trans hclass)
  · by_cases hd : d = a
    · subst hd
      dsimp only [State.addFree]
      rw [Function.update_self]
      exact hsame d
    · dsimp only [State.addFree]
      rw [Function.update_of_ne hd]
      exact hsame d

theorem releaseBuffer_none (h : Lists s c f u) : releaseBuffer s (some a) c = none ↔ a ∉ u := by
  rw [releaseBuffer, Option.map_eq_none_iff, h.usedBuffers, Lib.findPrev_none]

end Lists


section Runs

variable {s : State g} {x y : State g × Ledger g}

/-- What is carried through a run. -/
structure Inv (x : State g × Ledger g) : Prop where
  lists : ∀ c, ∃ f u, Lists x.1 c f u ∧ ∀ d, d.1 = c → (d ∈ u ↔ x.2.Holds d)
  once : (x.2.held.map Prod.fst).Nodup
  data : ∀ d, (x.1.mem d).data = pointer d
  ever : ∀ d, x.2.Holds d → d ∈ x.2.ever
  known : ∀ d, d ∈ x.2.ever → (x.1.mem d).packet.data = some (pointer d) ∧
    (x.1.mem d).packet.allocatorData = some d ∧ (x.1.mem d).packet.size ≤ g.bufferSize d.1
  unknown : ∀ d, d ∉ x.2.ever → (x.1.mem d).packet.data = none
  size : ∀ h ∈ x.2.held, (x.1.mem h.1).packet.size = h.2

/-- What the choice of a buffer comes to. -/
theorem chooseBuffer_ok {s s' : State g} {a : Desc g} {size : BitVec 16}
    (h : ∀ c, ∃ f u, Lists s c f u) (ha : chooseBuffer s size = .ok (s', a))
    (hsizes : g.smallBufferSize ≤ g.bigBufferSize) :
    size ≤ g.bufferSize a.1 ∧ Taken s s' a := by
  have hclass : ∀ {c}, size ≤ g.bufferSize c → allocateBuffer s c = some (s', a) →
      size ≤ g.bufferSize a.1 ∧ Taken s s' a := by
    intro c hc hb
    obtain ⟨f, u, hl⟩ := h c
    obtain ⟨rfl, htaken⟩ := allocateBuffer_some hl hb
    exact ⟨hc, htaken⟩
  unfold chooseBuffer at ha
  split at ha
  · next hsmall =>
    split at ha
    · next r hr =>
      obtain rfl := Except.ok.inj ha
      exact hclass (c := .small) hsmall hr
    · split at ha
      · next r hr =>
        obtain rfl := Except.ok.inj ha
        exact hclass (c := .big) (BitVec.le_trans hsmall hsizes) hr
      · cases ha
  · split at ha
    · next hbig =>
      split at ha
      · next r hr =>
        obtain rfl := Except.ok.inj ha
        exact hclass (c := .big) hbig hr
      · cases ha
    · cases ha

theorem chooseBuffer_error {size : BitVec 16} (hsizes : g.smallBufferSize ≤ g.bigBufferSize) :
    (∃ e, chooseBuffer s size = .error e) ↔
      g.bigBufferSize < size ∨ ∀ c, size ≤ g.bufferSize c → allocateBuffer s c = none := by
  unfold chooseBuffer
  by_cases hsmall : size ≤ g.smallBufferSize
  · have hbig : size ≤ g.bigBufferSize := BitVec.le_trans hsmall hsizes
    rw [if_pos hsmall, or_iff_right (BitVec.not_lt.mpr hbig)]
    cases hs : allocateBuffer s .small with
    | some r =>
      refine iff_of_false (by simp) fun hall => ?_
      rw [hall .small hsmall] at hs
      cases hs
    | none =>
      cases hb : allocateBuffer s .big with
      | some r =>
        refine iff_of_false (by simp) fun hall => ?_
        rw [hall .big hbig] at hb
        cases hb
      | none =>
        refine iff_of_true ⟨_, rfl⟩ fun c _ => ?_
        cases c with
        | big => exact hb
        | small => exact hs
  · rw [if_neg hsmall]
    by_cases hbig : size ≤ g.bigBufferSize
    · rw [if_pos hbig, or_iff_right (BitVec.not_lt.mpr hbig)]
      cases hb : allocateBuffer s .big with
      | some r =>
        refine iff_of_false (by simp) fun hall => ?_
        rw [hall .big hbig] at hb
        cases hb
      | none =>
        refine iff_of_true ⟨_, rfl⟩ fun c hc => ?_
        cases c with
        | big => exact hb
        | small => exact absurd hc hsmall
    · rw [if_neg hbig]
      exact iff_of_true ⟨_, rfl⟩ (.inl (BitVec.not_le.mp hbig))

theorem Taken.not_held (h : Inv x) {s' : State g} {a : Desc g} (ht : Taken x.1 s' a) :
    ¬ x.2.Holds a := by
  intro hheld
  obtain ⟨f, u, hl, hiff⟩ := h.lists a.1
  exact (List.nodup_append.mp hl.pooled.nodup).2.2 a (ht.free f u hl) a ((hiff a rfl).mpr hheld) rfl

theorem fill_lists {c : Class} {f u : List (Desc g)} (h : Lists s c f u) (a : Desc g)
    (size : BitVec 16) :
    Lists (s.fill a size) c f u := by
  refine h.other rfl rfl fun d _ => ?_
  have hnext := congrFun (next_update s.mem a { s.mem a with
    packet := ⟨some (s.mem a).data, some (s.mem a).data, size, 0#16, 0#32, some a, none⟩ }) d
  rw [Function.update_eq_self_iff.mpr rfl] at hnext
  exact hnext

theorem inv_allocate (hsizes : g.smallBufferSize ≤ g.bigBufferSize) (h : Inv x) (size : BitVec 16) :
    Inv ((allocate x.1 size).1, see x.2 x.1 (.allocate size) (allocate x.1 size).1) := by
  cases hchoose : chooseBuffer x.1 size with
  | error e =>
    have hallocate : allocate x.1 size = (x.1, .error e) := by rw [allocate, hchoose]
    simp only [see, hallocate]
    exact h
  | ok r =>
    obtain ⟨s', a⟩ := r
    have hallocate : allocate x.1 size = (s'.fill a size, .ok a) := by rw [allocate, hchoose]
    obtain ⟨hsize, htaken⟩ :=
      chooseBuffer_ok (fun c => (h.lists c).imp fun f hf => hf.imp fun u hu => hu.1) hchoose hsizes
    have hnot := htaken.not_held h
    have hsame : ∀ d, d ≠ a → ((s'.fill a size).mem d).packet = (x.1.mem d).packet := by
      intro d hd
      change (Function.update s'.mem a _ d).packet = _
      rw [Function.update_of_ne hd]
      exact (htaken.same d).1
    have hnew : ((s'.fill a size).mem a).packet =
        ⟨some (s'.mem a).data, some (s'.mem a).data, size, 0#16, 0#32, some a, none⟩ := by
      change (Function.update s'.mem a _ a).packet = _
      rw [Function.update_self]
    have hheld : ∀ d, (Ledger.mk ((a, size) :: x.2.held) (a :: x.2.ever)).Holds d ↔ d = a ∨
      x.2.Holds d :=
      fun d => List.mem_cons
    simp only [see, hallocate]
    refine ⟨fun c => ?_, List.nodup_cons.mpr ⟨hnot, h.once⟩, fun d => ?_, fun d hd => ?_,
      fun d hd => ?_,
      fun d hd => ?_,
      fun r hr => ?_⟩
    · obtain ⟨f, u, hl, hiff⟩ := h.lists c
      obtain ⟨f', u', hl', hmem⟩ := htaken.mem c f u hl
      refine ⟨f', u', fill_lists hl' a size, fun d hd => ?_⟩
      rw [hmem, hheld, hiff d hd]
      refine or_congr_left (and_iff_left_of_imp ?_)
      rintro rfl
      exact hd
    · rw [← h.data d, ← (htaken.same d).2]
      by_cases hd : d = a
      · subst hd
        simp [State.fill]
      · simp [State.fill, hd]
    · rcases (hheld d).mp hd with rfl | hd
      · exact List.mem_cons_self
      · exact List.mem_cons_of_mem a (h.ever d hd)
    · by_cases hda : d = a
      · subst hda
        rw [hnew, (htaken.same d).2, h.data d]
        exact ⟨rfl, rfl, hsize⟩
      · rw [hsame d hda]
        exact h.known d ((List.mem_cons.mp hd).resolve_left hda)
    · have hda : d ≠ a := fun he => hd (he ▸ List.mem_cons_self)
      rw [hsame d hda]
      exact h.unknown d fun hin => hd (List.mem_cons_of_mem a hin)
    · rcases List.mem_cons.mp hr with rfl | hr
      · rw [hnew]
      · have hra : r.1 ≠ a := fun he => hnot (he ▸ List.mem_map_of_mem hr)
        rw [hsame r.1 hra]
        exact h.size r hr

/-- An allocated packet is released from the class it came from. -/
theorem release_held (h : Inv x) {d : Desc g} (hd : x.2.Holds d) :
    ∃ s', release x.1 d = (s', .success) ∧ Given x.1 s' d := by
  obtain ⟨hdata, howner, hsize⟩ := h.known d (h.ever d hd)
  have hfind : ∀ c, d.1 = c → ∃ s', releaseBuffer x.1 (some d) c = some s' ∧ Given x.1 s' d := by
    intro c hc
    obtain ⟨f, u, hl, hiff⟩ := h.lists c
    cases hr : releaseBuffer x.1 (some d) c with
    | none => exact absurd ((hiff d hc).mpr hd) ((releaseBuffer_none hl).mp hr)
    | some s' => exact ⟨s', rfl, (releaseBuffer_some hl hr).2⟩
  have hmiss : ∀ c, d.1 ≠ c → releaseBuffer x.1 (some d) c = none := by
    intro c hc
    obtain ⟨f, u, hl, -⟩ := h.lists c
    exact (releaseBuffer_none hl).mpr fun hin => hc ((hl.each d).mp (List.mem_append_right f hin))
  rw [release, hdata, howner, if_neg (Option.some_ne_none _)]
  by_cases hsmall : (x.1.mem d).packet.size ≤ g.smallBufferSize
  · rw [if_pos hsmall]
    by_cases hclass : d.1 = .small
    · obtain ⟨s', hr, hgiven⟩ := hfind .small hclass
      exact ⟨s', by rw [hr], hgiven⟩
    · have hbig : d.1 = .big := by
        cases hc : d.1 with
        | big => rfl
        | small => exact absurd hc hclass
      obtain ⟨s', hr, hgiven⟩ := hfind .big hbig
      exact ⟨s', by rw [hmiss .small hclass, hr], hgiven⟩
  · have hbig : d.1 = .big := by
      cases hc : d.1 with
      | big => rfl
      | small =>
        rw [hc] at hsize
        exact absurd hsize hsmall
    obtain ⟨s', hr, hgiven⟩ := hfind .big hbig
    rw [hbig] at hsize
    rw [if_neg hsmall, if_pos (show _ ≤ g.bigBufferSize from hsize)]
    exact ⟨s', by rw [hr], hgiven⟩

/-- Any other release changes nothing. -/
theorem release_refused (hsizes : g.smallBufferSize ≤ g.bigBufferSize) (h : Inv x) {d : Desc g}
    (hd : ¬ x.2.Holds d) :
    release x.1 d = (x.1, if d ∈ x.2.ever then .packetNotFound else .invalidArg) := by
  by_cases hever : d ∈ x.2.ever
  · obtain ⟨hdata, howner, hsize⟩ := h.known d hever
    have hmiss : ∀ c, releaseBuffer x.1 (some d) c = none := by
      intro c
      obtain ⟨f, u, hl, hiff⟩ := h.lists c
      exact (releaseBuffer_none hl).mpr fun hin =>
        hd ((hiff d ((hl.each d).mp (List.mem_append_right f hin))).mp hin)
    have hbig : (x.1.mem d).packet.size ≤ g.bigBufferSize := by
      cases hc : d.1 with
      | big =>
        rw [hc] at hsize
        exact hsize
      | small =>
        rw [hc] at hsize
        exact BitVec.le_trans hsize hsizes
    rw [release, hdata, howner, if_pos hever, if_neg (Option.some_ne_none _), hmiss, hmiss,
      if_pos hbig, ite_self]
  · rw [release, h.unknown d hever, if_neg hever]
    rfl

theorem allocate_cases (hsizes : g.smallBufferSize ≤ g.bigBufferSize) (h : Inv x)
    (size : BitVec 16) :
    (∃ e, allocate x.1 size = (x.1, .error e)) ∨
    ∃ s' d, allocate x.1 size = (s', .ok d) ∧ ¬ x.2.Holds d ∧ ∀ k, k ≠ d → (s'.mem k).packet =
      (x.1.mem k).packet := by
  cases hchoose : chooseBuffer x.1 size with
  | error e => exact .inl ⟨e, by rw [allocate, hchoose]⟩
  | ok r =>
    obtain ⟨-, htaken⟩ := chooseBuffer_ok
      (fun c => (h.lists c).imp fun f hf => hf.imp fun u hu => hu.1) hchoose hsizes
    refine .inr ⟨_, r.2, by rw [allocate, hchoose], htaken.not_held h, fun k hk => ?_⟩
    change (Function.update r.1.mem r.2 _ k).packet = _
    rw [Function.update_of_ne hk]
    exact (htaken.same k).1

theorem Ledger.holds_release {ledger : Ledger g} {s s' s'' : State g} {d k : Desc g}
    (hr : release s d = (s', .success)) :
    (see ledger s (.release d) s'').Holds k ↔ ledger.Holds k ∧ k ≠ d := by
  unfold see
  dsimp only
  rw [hr, if_pos rfl]
  simp only [Ledger.Holds, List.mem_map, List.mem_filter, decide_eq_true_eq]
  constructor
  · rintro ⟨r, ⟨hr, hne⟩, rfl⟩
    exact ⟨⟨r, hr, rfl⟩, hne⟩
  · rintro ⟨⟨r, hr, rfl⟩, hne⟩
    exact ⟨r, ⟨hr, hne⟩, rfl⟩

theorem inv_release (hsizes : g.smallBufferSize ≤ g.bigBufferSize) (h : Inv x) (d : Desc g) :
    Inv ((release x.1 d).1, see x.2 x.1 (.release d) (release x.1 d).1) := by
  by_cases hd : x.2.Holds d
  · obtain ⟨s', hr, hgiven⟩ := release_held h hd
    unfold see
    dsimp only
    rw [hr, if_pos rfl]
    have hheld : ∀ k, (Ledger.mk (x.2.held.filter fun r => r.1 ≠ d) x.2.ever).Holds k ↔
        x.2.Holds k ∧ k ≠ d := by
      intro k
      have hiff : (see x.2 x.1 (.release d) s').Holds k ↔ x.2.Holds k ∧ k ≠ d :=
        Ledger.holds_release hr
      unfold see at hiff
      dsimp only at hiff
      rwa [hr, if_pos rfl] at hiff
    refine ⟨fun c => ?_, ?_, fun k => ?_, fun k hk => ?_, fun k hk => ?_, fun k hk => ?_,
      fun r hr => ?_⟩
    · obtain ⟨f, u, hl, hiff⟩ := h.lists c
      obtain ⟨f', u', hl', hmem⟩ := hgiven.mem c f u hl
      exact ⟨f', u', hl', fun k hk => by rw [hmem, hheld, hiff k hk]⟩
    · exact h.once.sublist (List.filter_sublist.map Prod.fst)
    · rw [← h.data k]
      exact (hgiven.same k).2
    · exact h.ever k ((hheld k).mp hk).1
    · rw [show (s'.mem k).packet = (x.1.mem k).packet from (hgiven.same k).1]
      exact h.known k hk
    · rw [show (s'.mem k).packet = (x.1.mem k).packet from (hgiven.same k).1]
      exact h.unknown k hk
    · rw [show (s'.mem r.1).packet = (x.1.mem r.1).packet from (hgiven.same r.1).1]
      exact h.size r (List.mem_of_mem_filter hr)
  · have hr := release_refused hsizes h hd
    unfold see
    dsimp only
    rw [hr]
    dsimp only
    rw [if_neg (by split <;> decide)]
    exact h

/-- The flags of a packet are not the allocator's. -/
theorem Inv.setFlags (h : Inv x) (a : Desc g) (flags : BitVec 32) :
    Inv (x.1.setFlags a flags, x.2) := by
  have hsame : ∀ k, ((x.1.setFlags a flags).mem k).data = (x.1.mem k).data ∧
      ((x.1.setFlags a flags).mem k).next = (x.1.mem k).next ∧
      ((x.1.setFlags a flags).mem k).packet.data = (x.1.mem k).packet.data ∧
      ((x.1.setFlags a flags).mem k).packet.size = (x.1.mem k).packet.size ∧
      ((x.1.setFlags a flags).mem k).packet.allocatorData = (x.1.mem k).packet.allocatorData := by
    intro k
    unfold State.setFlags
    by_cases hk : k = a
    · subst hk
      dsimp only
      rw [Function.update_self]
      exact ⟨rfl, rfl, rfl, rfl, rfl⟩
    · dsimp only
      rw [Function.update_of_ne hk]
      exact ⟨rfl, rfl, rfl, rfl, rfl⟩
  refine ⟨fun c => ?_, h.once, fun k => ?_, h.ever, fun k hk => ?_, fun k hk => ?_, fun r hr => ?_⟩
  · obtain ⟨f, u, hl, hiff⟩ := h.lists c
    exact ⟨f, u, hl.other rfl rfl fun d _ => (hsame d).2.1, hiff⟩
  · rw [(hsame k).1]
    exact h.data k
  · rw [(hsame k).2.2.1, (hsame k).2.2.2.1, (hsame k).2.2.2.2]
    exact h.known k hk
  · rw [(hsame k).2.2.1]
    exact h.unknown k hk
  · rw [(hsame r.1).2.2.2.1]
    exact h.size r hr

theorem inv_init {mem : Desc g → Buffer g} (hmem : ∀ d, (mem d).packet.data = none) :
    Inv (init mem, ⟨[], []⟩) where
  lists c := by
    refine ⟨(List.finRange (g.buffersCount c).toNat).map fun i =>
      ⟨c, i⟩, [], ⟨⟨?_, rfl, ?_⟩, fun d => ?_⟩,
      fun d _ => ?_⟩
    · have harray := Lib.linked_array (fun d : Desc g => ((init mem).mem d).next) (fun i => ⟨c, i⟩)
        (fun i => rfl) (g.buffersCount c).toNat 0 (Nat.zero_add _)
      rwa [List.drop_zero] at harray
    · rw [List.append_nil]
      refine (List.nodup_finRange _).map fun i j he => ?_
      exact eq_of_heq (Sigma.mk.inj he).2
    · rw [List.append_nil, List.mem_map]
      constructor
      · rintro ⟨i, -, rfl⟩
        rfl
      · rintro rfl
        exact ⟨d.2, List.mem_finRange d.2, rfl⟩
    · exact iff_of_false List.not_mem_nil List.not_mem_nil
  once := List.nodup_nil
  data _ := rfl
  ever d hd := absurd hd List.not_mem_nil
  known d hd := absurd hd List.not_mem_nil
  unknown d _ := hmem d
  size r hr := absurd hr List.not_mem_nil

/-- The invariant says what is wanted. -/
theorem Inv.sound (hg : g.Valid) (h : Inv x) : Sound x where
  lists := h.lists
  once := h.once
  buffers r hr := by
    obtain ⟨hdata, -, hsize⟩ := h.known r.1 (h.ever r.1 (List.mem_map_of_mem hr))
    rw [h.size r hr] at hsize
    exact ⟨pointer r.1, hdata, h.size r hr, hsize, pointer_within hg r.1⟩
  apart d d' p p' hd hd' hne hp hp' := by
    rw [(h.known d (h.ever d hd)).1] at hp
    rw [(h.known d' (h.ever d' hd')).1] at hp'
    obtain rfl := Option.some.inj hp
    obtain rfl := Option.some.inj hp'
    exact pointer_apart hg hne
  fails size := by
    have hchoose : (∃ e, (allocate x.1 size).2 = .error e) ↔ ∃ e, chooseBuffer x.1 size =
        .error e := by
      unfold allocate
      cases chooseBuffer x.1 size with
      | error e => exact iff_of_true ⟨e, rfl⟩ ⟨e, rfl⟩
      | ok r => exact iff_of_false (by simp) (by simp)
    rw [hchoose, chooseBuffer_error hg.sizes]
    refine or_congr_right ⟨fun hall d hd => ?_, fun hall c hc => ?_⟩
    · obtain ⟨f, u, hl, hiff⟩ := h.lists d.1
      have hempty := (allocateBuffer_none hl).mp (hall d.1 hd)
      have hmem := (hl.each d).mpr rfl
      rw [hempty, List.nil_append] at hmem
      exact (hiff d rfl).mp hmem
    · obtain ⟨f, u, hl, hiff⟩ := h.lists c
      rw [allocateBuffer_none hl]
      cases f with
      | nil => rfl
      | cons a f =>
        -- a free buffer of the class would be allocated
        have hclass : a.1 = c := (hl.each a).mp List.mem_cons_self
        have hused := (hiff a hclass).mpr (hall a (by rwa [hclass]))
        exact absurd rfl ((List.nodup_append.mp hl.pooled.nodup).2.2 a List.mem_cons_self a hused)
  released d hd := by
    obtain ⟨s', hr, -⟩ := release_held h hd
    rw [hr]
  refused d hd := release_refused hg.sizes h hd

end Runs

/-- In every run of allocations and releases the allocator is sound. -/
theorem allocator_sound (hg : g.Valid) {mem : Desc g → Buffer g}
    (hmem : ∀ d, (mem d).packet.data = none) {x : State g × Ledger g}
    (h : Lib.Reach (Lib.observe step see) Lib.anyStep (init mem, ⟨[], []⟩) x) : Sound x := by
  refine Inv.sound hg (h.invariant (inv_init hmem) fun y i z hy _ hs => ?_)
  obtain ⟨hstep, hsee⟩ := Lib.observe_some.mp hs
  obtain ⟨s, ledger⟩ := z
  obtain rfl : ledger = see y.2 y.1 i s := hsee
  cases i with
  | allocate size =>
    obtain rfl := Option.some.inj hstep
    exact inv_allocate hg.sizes hy size
  | release d =>
    obtain rfl := Option.some.inj hstep
    exact inv_release hg.sizes hy d

/-- Two big buffers of 1536 bytes and one small one of 128 bytes, not used yet. -/
def sampleConfig : Config := ⟨1536#16, 2#16, 128#16, 1#16⟩
def unusedBuffers : Desc sampleConfig → Buffer sampleConfig :=
  fun _ => ⟨⟨.big, 0⟩, ⟨none, none, 0#16, 0#16, 0#32, none, none⟩, none⟩

theorem sampleConfig_valid : sampleConfig.Valid where
  count c := by cases c <;> decide
  sizes := by decide
  fits c := by cases c <;> decide

theorem allocator_sound_sample :
    ∃ x, Lib.Reach (Lib.observe step see) Lib.anyStep (init unusedBuffers, ⟨[], []⟩) x ∧
    decide (x.2.held = [(⟨.big, 0, by decide⟩, 60#16)]) = true ∧ Sound x := by
  obtain ⟨x, hreach, hheld⟩ := Lib.exists_of_runInputs (Lib.observe step see) Lib.anyStep
    (init unusedBuffers, ⟨[], []⟩)
    [.allocate 100#16, .allocate 60#16, .release ⟨.small, 0, by decide⟩,
      .release ⟨.small, 0, by decide⟩]
    (fun x => decide (x.2.held = [(⟨.big, 0, by decide⟩, 60#16)])) (by decide)
  exact ⟨x, hreach, hheld, allocator_sound sampleConfig_valid (fun _ => rfl) hreach⟩

/-- A packet that was never allocated is refused as a wrong argument. -/
theorem release_unused :
    (release (init unusedBuffers) ⟨.big, 0, by decide⟩).2 ≠ .packetNotFound := by decide

end NanoIp.Allocator
