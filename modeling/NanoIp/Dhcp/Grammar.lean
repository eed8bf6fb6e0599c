import NanoIp.Dhcp.Parsing

/-!
# The grammar of options

Pads and the end flag have no length, and nothing counts behind the flag. The client cuts them
out of the field as any other option. What it takes of a field is what the grammar says if and
only if both readings have the same last options; in a field that cannot be cut, what stands in
memory behind the message decides.
-/
namespace NanoIp.Dhcp

/-- A field of pads and options with an end flag, and the options before the flag. -/
inductive Grammar : List Byte → List Tlv → Prop
  | finish (trailing : List Byte) : Grammar (endFlagOption :: trailing) []
  | pad {rest : List Byte} {os : List Tlv} (h : Grammar rest os) : Grammar (0#8 :: rest) os
  | option {rest : List Byte} {os : List Tlv} (o : Tlv) (ho : o.Fits) (hpad : o.code ≠ 0#8)
      (hend : o.code ≠ endFlagOption) (h : Grammar rest os) : Grammar (o.bytes ++ rest) (o :: os)

def lastOf (code size : Byte) (os : List Tlv) : Option (List Byte) :=
  ((os.filter fun o => o.code = code ∧ o.value.length = size.toNat).getLast?).map Tlv.value

def typeOf (os : List Tlv) : Byte :=
  ((lastOf requestTypeOption requestTypeOptionSize os).getD []).getD 0 0#8

/-- What options say. -/
def valuesOf (os : List Tlv) : Options where
  msgType := typeOf os
  ended := os.any fun o => o.code = endFlagOption
  serverId := (lastOf serverIdOption serverIdOptionSize os).map long
  netmask := (lastOf subnetMaskOption subnetMaskOptionSize os).map long
  gateway := (lastOf routerOption routerOptionSize os).map long
  leaseTime := (lastOf leaseTimeOption leaseTimeOptionSize os).map long
  renewalTime := (lastOf renewalTimeOption renewalTimeOptionSize os).map long
  rebindingTime := (lastOf rebindingTimeOption rebindingTimeOptionSize os).map long

section Values

variable {code size : Byte} {os : List Tlv} {o : Tlv}

theorem lastOf_concat : lastOf code size (os ++ [o]) =
    if o.code = code then o.store size (lastOf code size os) some else lastOf code size os := by
  rw [lastOf, List.filter_append, Tlv.store]
  by_cases hcode : o.code = code
  · by_cases hsize : o.value.length = size.toNat
    · simp [hcode, hsize]
    · simp [hcode, hsize, lastOf]
  · simp [hcode, lastOf]

theorem lastOf_concat_other (h : o.code ≠ code) :
    lastOf code size (os ++ [o]) = lastOf code size os := by
  rw [lastOf_concat, if_neg h]

theorem lastOf_length {v : List Byte} (h : lastOf code size os = some v) :
    v.length = size.toNat := by
  obtain ⟨o, ho, rfl⟩ := Option.map_eq_some_iff.mp h
  have hmem := List.mem_of_getLast? ho
  simp only [List.mem_filter, decide_eq_true_eq] at hmem
  exact hmem.2.2

/-- One more option. -/
theorem valuesOf_concat : valuesOf (os ++ [o]) = (valuesOf os).with o := by
  have hended : (os ++ [o]).any (fun o => o.code = endFlagOption) =
      (os.any (fun o => o.code = endFlagOption) || decide (o.code = endFlagOption)) := by
    rw [List.any_append, List.any_cons, List.any_nil, Bool.or_false]
  rw [valuesOf, typeOf, hended, Options.with]
  by_cases hcode : o.code ∈ [requestTypeOption, serverIdOption, subnetMaskOption, routerOption,
    leaseTimeOption,
      renewalTimeOption, rebindingTimeOption, endFlagOption]
  · simp only [List.mem_cons, List.not_mem_nil, or_false] at hcode
    -- each code is none of the others
    rcases hcode with h | h | h | h | h | h | h | h
    all_goals
      simp +decide only [valuesOf, typeOf, lastOf_concat, Tlv.store, h, if_true, if_false,
        decide_false, decide_true,
        Bool.or_false, Bool.or_true]
    all_goals split_ifs <;> rfl
  · simp only [List.mem_cons, List.not_mem_nil, or_false, not_or] at hcode
    obtain ⟨h₁, h₂, h₃, h₄, h₅, h₆, h₇, h₈⟩ := hcode
    rw [if_neg h₁, if_neg h₂, if_neg h₃, if_neg h₄, if_neg h₅, if_neg h₆, if_neg h₇, if_neg h₈]
    simp only [lastOf_concat_other h₁, lastOf_concat_other h₂, lastOf_concat_other h₃,
      lastOf_concat_other h₄,
      lastOf_concat_other h₅, lastOf_concat_other h₆, lastOf_concat_other h₇, decide_eq_false h₈,
        Bool.or_false]
    rfl

theorem foldl_with (os : List Tlv) : os.foldl Options.with noOptions = valuesOf os := by
  induction os using List.reverseRecOn with
  | nil => rfl
  | append_singleton os o ih =>
      rw [List.foldl_append, ih, valuesOf_concat, List.foldl_cons, List.foldl_nil]

theorem long_toNat (a b c d : Byte) :
    (long [a, b, c, d]).toNat = a.toNat * 2 ^ 24 + b.toNat * 2 ^ 16 + c.toNat * 2 ^ 8 +
      d.toNat := by
  have ha := a.isLt
  have hb := b.isLt
  have hc := c.isLt
  have hd := d.isLt
  simp only [long, List.getD_cons_zero, List.getD_cons_succ, BitVec.toNat_add,
    BitVec.toNat_shiftLeft,
    BitVec.zeroExtend, BitVec.toNat_setWidth, Nat.shiftLeft_eq]
  omega

theorem four_bytes {v : List Byte} (h : v.length = 4) : ∃ a b c d, v = [a, b, c, d] := by
  rcases v with _ | ⟨a, _ | ⟨b, _ | ⟨c, _ | ⟨d, _ | ⟨e, v⟩⟩⟩⟩⟩
  all_goals simp at h
  exact ⟨a, b, c, d, rfl⟩

theorem long_inj {v w : List Byte} (hv : v.length = 4) (hw : w.length = 4) (h : long v = long w) :
    v = w := by
  obtain ⟨a, b, c, d, rfl⟩ := four_bytes hv
  obtain ⟨a', b', c', d', rfl⟩ := four_bytes hw
  have heq := congrArg BitVec.toNat h
  rw [long_toNat, long_toNat] at heq
  have hlt : ∀ x : Byte, x.toNat < 2 ^ 8 := fun x => x.isLt
  have hd : d.toNat = d'.toNat := by have := hlt d; have := hlt d'; omega
  have hc : c.toNat = c'.toNat := by have := hlt c; have := hlt c'; omega
  have hb : b.toNat = b'.toNat := by have := hlt b; have := hlt b'; omega
  have ha : a.toNat = a'.toNat := by omega
  rw [BitVec.eq_of_toNat_eq ha, BitVec.eq_of_toNat_eq hb, BitVec.eq_of_toNat_eq hc,
    BitVec.eq_of_toNat_eq hd]

end Values

/-- The other options that count. -/
def valueCodes : List (Byte × Byte) :=
  [(serverIdOption, serverIdOptionSize), (subnetMaskOption, subnetMaskOptionSize),
    (routerOption, routerOptionSize),
    (leaseTimeOption, leaseTimeOptionSize), (renewalTimeOption, renewalTimeOptionSize),
    (rebindingTimeOption, rebindingTimeOptionSize)]

/-- Two readings of a field have the same last options; the first has an end flag. -/
structure Same (cs os : List Tlv) : Prop where
  ended : ∃ o ∈ cs, o.code = endFlagOption
  msgType : typeOf cs = typeOf os
  values : ∀ k ∈ valueCodes, lastOf k.1 k.2 cs = lastOf k.1 k.2 os

/-- The options of a message that is accepted by a client that waits for it, as an offer or as an
acknowledgement. -/
structure Acceptable (cs : List Tlv) : Prop where
  ended : ∃ o ∈ cs, o.code = endFlagOption
  meant : typeOf cs = ackMsgType ∨ typeOf cs = offerMsgType ∧
    (∃ v, lastOf subnetMaskOption subnetMaskOptionSize cs = some v ∧ long v ≠ 0#32) ∧
      ∀ v, lastOf leaseTimeOption leaseTimeOptionSize cs = some v → long v ≠ 0#32

/-- The client understands a field: what it takes of one with an end flag are the last values in
front of it, and any other is not accepted. -/
structure Understood (field : List Byte) : Prop where
  taken : ∀ os, Grammar field os → ∀ p, left p = field → ∃ fuel,
    (∀ c, optionLoop offerOption fuel ⟨c, 0#8, false⟩ p =
      some ⟨c.taking (valuesOf os), typeOf os, true⟩) ∧
      optionLoop ackOption fuel ⟨0#8, false⟩ p = some ⟨typeOf os, true⟩
  refused : (∀ os, ¬ Grammar field os) → ∀ p, left p = field → ∃ fuel,
    (∀ c yiaddr, ∃ x, optionLoop offerOption fuel ⟨Client.offered c yiaddr, 0#8, false⟩ p = some x ∧
      x.valid = false) ∧
      ∃ x, optionLoop ackOption fuel ⟨0#8, false⟩ p = some x ∧ x ≠ ⟨ackMsgType, true⟩

/-- Cut into options to its end, pads and flag included, the field has the same last options as
the grammar says, or none that would be accepted where there is no flag. -/
def Agrees (field : List Byte) : Prop :=
  ∃ cs, Cut field cs ∧ (∀ os, Grammar field os → Same cs os) ∧
  ((∀ os, ¬ Grammar field os) → ¬ Acceptable cs)

section Readings

variable {cs os : List Tlv}

theorem ended_iff : (valuesOf cs).ended = true ↔ ∃ o ∈ cs, o.code = endFlagOption := by
  simp only [valuesOf, List.any_eq_true, decide_eq_true_eq]

theorem lastOf_eq_of_long {code size : Byte} (hsize : size.toNat = 4)
    (h : (lastOf code size cs).map long = (lastOf code size os).map long) :
    lastOf code size cs = lastOf code size os := by
  cases hcs : lastOf code size cs with
  | none =>
    rw [hcs] at h
    exact (Option.map_eq_none_iff.mp h.symm).symm
  | some v =>
    rw [hcs] at h
    obtain ⟨w, hos, hlong⟩ := Option.map_eq_some_iff.mp h.symm
    rw [hos, long_inj ((lastOf_length hcs).trans hsize)
      ((lastOf_length hos).trans hsize) hlong.symm]

/-- Two readings say the same exactly if they have the same last options. -/
theorem same_iff : Same cs os ↔ valuesOf cs = { valuesOf os with ended := true } := by
  constructor
  · intro h
    have hvalues := h.values
    simp only [valueCodes, List.forall_mem_cons, List.not_mem_nil, false_implies, implies_true,
      and_true] at hvalues
    obtain ⟨h₁, h₂, h₃, h₄, h₅, h₆⟩ := hvalues
    have hended := ended_iff.mpr h.ended
    rw [valuesOf] at hended ⊢
    dsimp only at hended
    rw [hended, h.msgType, h₁, h₂, h₃, h₄, h₅, h₆]
    rfl
  · intro h
    refine ⟨ended_iff.mp (by rw [h]), congrArg Options.msgType h, ?_⟩
    simp only [valueCodes, List.forall_mem_cons, List.not_mem_nil, false_implies,
      implies_true, and_true]
    exact ⟨lastOf_eq_of_long rfl (congrArg Options.serverId h),
      lastOf_eq_of_long rfl (congrArg Options.netmask h),
      lastOf_eq_of_long rfl (congrArg Options.gateway h),
        lastOf_eq_of_long rfl (congrArg Options.leaseTime h),
      lastOf_eq_of_long rfl (congrArg Options.renewalTime h),
        lastOf_eq_of_long rfl (congrArg Options.rebindingTime h)⟩

theorem ack_with (x : Options) (o : Tlv) :
    (⟨x.msgType, x.ended⟩ : Ack).with o = ⟨(x.with o).msgType, (x.with o).ended⟩ := by
  unfold Ack.with Options.with
  by_cases hend : o.code = endFlagOption
  · simp +decide only [hend, if_true, if_false]
  · rw [if_neg hend, if_neg hend]
    unfold Tlv.store
    split_ifs <;> rfl

theorem foldl_ack (os : List Tlv) (x : Options) : os.foldl Ack.with ⟨x.msgType, x.ended⟩ =
    ⟨(os.foldl Options.with x).msgType, (os.foldl Options.with x).ended⟩ := by
  induction os generalizing x with
  | nil => rfl
  | cons o os ih => rw [List.foldl_cons, List.foldl_cons, ack_with, ih]

end Readings

section Runs

variable {α : Type} {handle : α → MsgOption → Option α} {p : Packet}

theorem optionLoop_more {fuel : Nat} (k : Nat) {x : α} :
    ∀ {a : α} {p : Packet}, optionLoop handle fuel a p = some x → optionLoop handle (fuel + k) a p =
      some x := by
  induction fuel with
  | zero => exact fun h => by cases h
  | succ fuel ih =>
    intro a p h
    rw [Nat.add_right_comm]
    rw [optionLoop] at h ⊢
    cases hparse : parseMessageOption p with
    | none =>
      rw [hparse] at h
      exact h
    | some t =>
      rw [hparse] at h
      obtain ⟨a', ha', h⟩ := Option.bind_eq_some_iff.mp h
      exact Option.bind_eq_some_iff.mpr ⟨a', ha', ih h⟩

theorem optionLoop_unique {fuel fuel' : Nat} {a x x' : α} (h : optionLoop handle fuel a p = some x)
    (h' : optionLoop handle fuel' a p = some x') : x = x' := by
  have hmore := optionLoop_more fuel' h
  rw [Nat.add_comm, optionLoop_more fuel h'] at hmore
  exact (Option.some.inj hmore).symm

theorem offerLoop_cut {field : List Byte} {cs : List Tlv} (hcut : Cut field cs)
    (hp : left p = field) (c : Client) :
    optionLoop offerOption (cs.length + 1) ⟨c, 0#8, false⟩ p =
      some ⟨c.taking (valuesOf cs), typeOf cs, (valuesOf cs).ended⟩ := by
  rw [offerLoop, optionsAt, optionLoop_cut read_handles hcut hp _ (Nat.lt_succ_self _), foldl_with]
  rfl

theorem ackLoop_cut {field : List Byte} {cs : List Tlv} (hcut : Cut field cs)
    (hp : left p = field) :
    optionLoop ackOption (cs.length + 1) ⟨0#8, false⟩ p =
      some ⟨typeOf cs, (valuesOf cs).ended⟩ := by
  rw [optionLoop_cut ack_handles hcut hp _ (Nat.lt_succ_self _)]
  have hfold := foldl_ack cs noOptions
  rw [foldl_with] at hfold
  exact congrArg some hfold

end Runs

section Escape

/-- An offer of this netmask, where the loop goes on behind the message. -/
def planted (netmask : Ipv4Address) : List Tlv :=
  [⟨requestTypeOption, [offerMsgType]⟩, ⟨subnetMaskOption, Packet.be32 netmask⟩,
    ⟨leaseTimeOption, Packet.be32 1#32⟩,
    ⟨endFlagOption, []⟩]

theorem planted_fits (netmask : Ipv4Address) : ∀ o ∈ planted netmask, o.Fits := by
  simp only [planted, List.forall_mem_cons, List.not_mem_nil, false_implies, implies_true, and_true]
  exact ⟨(by decide : 1 < 2 ^ 8), (by decide : 4 < 2 ^ 8), (by decide : 4 < 2 ^ 8),
    (by decide : 0 < 2 ^ 8)⟩

theorem cut_append {pre os : List Tlv} {rest : List Byte} (hpre : ∀ o ∈ pre, o.Fits)
    (h : Cut rest os) :
    Cut (pre.flatMap Tlv.bytes ++ rest) (pre ++ os) := by
  induction pre with
  | nil => exact h
  | cons o pre ih =>
    rw [List.flatMap_cons, List.append_assoc]
    exact .cons o (hpre o List.mem_cons_self)
      (ih fun o' ho' => hpre o' (List.mem_cons_of_mem _ ho'))

theorem cut_zeros (n : Nat) :
    ∃ zs : List Tlv, Cut (List.replicate n 0#8) zs ∧ ∀ o ∈ zs, o.code = 0#8 := by
  induction n using Nat.strongRecOn with
  | ind n ih =>
    match n with
    | 0 => exact ⟨[], .nil, fun _ h => (List.not_mem_nil h).elim⟩
    | 1 => exact ⟨[⟨0#8, []⟩], .alone 0#8, fun o ho => by rw [List.mem_singleton.mp ho]⟩
    | n + 2 =>
      obtain ⟨zs, hcut, hzs⟩ := ih n (by omega)
      refine ⟨⟨0#8, []⟩ :: zs, Cut.cons ⟨0#8, []⟩ (Nat.two_pow_pos 8) hcut, ?_⟩
      intro o ho
      rcases List.mem_cons.mp ho with rfl | ho
      · rfl
      · exact hzs o ho

theorem foldl_zeros {zs : List Tlv} (h : ∀ o ∈ zs, o.code = 0#8) (x : Options) :
    zs.foldl Options.with x = x := by
  induction zs with
  | nil => rfl
  | cons o zs ih =>
    have hsame : x.with o = x := by
      rw [Options.with, h o List.mem_cons_self]
      rfl
    rw [List.foldl_cons, hsame]
    exact ih fun o' ho' => h o' (List.mem_cons_of_mem _ ho')

theorem foldl_planted (x : Options) (netmask : Ipv4Address) :
    (planted netmask).foldl Options.with x =
      { x with msgType := offerMsgType, netmask := some netmask, leaseTime := some 1#32,
               ended := true } := by
  have hlong : ∀ v, long (Packet.be32 v) = v := Packet.be32_long
  have hmask : (Packet.be32 netmask).length = subnetMaskOptionSize.toNat := rfl
  simp +decide only [planted, List.foldl_cons, List.foldl_nil, Options.with, Tlv.store, if_true,
    if_false, hmask, hlong]
  rfl

theorem optionLoop_prefix {α : Type} {handle : α → MsgOption → Option α} {apply : α → Tlv → α}
    (hh : Handles handle apply) {pre : List Tlv} (hpre : ∀ o ∈ pre, o.Fits) {rest : List Byte} :
    ∀ {p : Packet}, left p = pre.flatMap Tlv.bytes ++ rest → ∃ q, left q = rest ∧
      q.current + q.count.toNat = p.current + p.count.toNat ∧ q.data = p.data ∧
      ∀ fuel a, optionLoop handle (fuel + pre.length) a p =
        optionLoop handle fuel (pre.foldl apply a) q := by
  induction pre with
  | nil => exact fun {p} hp => ⟨p, hp, rfl, rfl, fun _ _ => rfl⟩
  | cons o pre ih =>
    intro p hp
    rw [List.flatMap_cons, List.append_assoc] at hp
    obtain ⟨q, hq, hend, hdata, hloop⟩ := optionLoop_cons hh (hpre o List.mem_cons_self) hp
    obtain ⟨q', hq', hend', hdata', hloop'⟩ :=
      ih (fun o' ho' => hpre o' (List.mem_cons_of_mem _ ho')) hq
    refine ⟨q', hq', hend'.trans hend, hdata'.trans hdata, fun fuel a => ?_⟩
    rw [List.length_cons, ← Nat.add_assoc, hloop, hloop']
    rfl

/-- The packet with these bytes in memory, from a place behind it on, and zeros behind them. -/
def followedBy (p : Packet) (start : Nat) (content : List Byte) : Packet :=
  { p with data := fun i =>
    if i < p.current + p.count.toNat then p.data i else content.getD (i - start) 0#8 }

theorem left_followedBy (p : Packet) (start : Nat) (content : List Byte) :
    left (followedBy p start content) = left p := by
  refine List.map_congr_left fun i hi => if_pos ?_
  exact Nat.add_lt_add_left (List.mem_range.mp hi) _

theorem map_getD_range (content : List Byte) {n : Nat} (h : content.length ≤ n) :
    (List.range n).map (fun i => content.getD i 0#8) =
      content ++ List.replicate (n - content.length) 0#8 := by
  refine List.ext_getElem (by simp; omega) fun i h₁ h₂ => ?_
  rw [List.getElem_map, List.getElem_range, List.getD_eq_getElem?_getD]
  by_cases hi : i < content.length
  · rw [List.getElem_append_left hi, List.getElem?_eq_getElem hi, Option.getD_some]
  · rw [List.getElem_append_right (Nat.le_of_not_lt hi), List.getElem_replicate,
      List.getElem?_eq_none (Nat.le_of_not_lt hi), Option.getD_none]

/-- A field that cannot be cut is not what the loop takes the options of: they are those of what
stands behind it, or a null pointer is read. -/
theorem escapes {p : Packet} (h : ¬ Cuttable (left p)) (netmask : Ipv4Address) :
    ∃ q, left q = left p ∧
    ((∀ fuel, optionsAt fuel q = none) ∨ ∃ fuel x, optionsAt fuel q = some x ∧
      x.msgType = offerMsgType ∧
      x.ended = true ∧ x.netmask = some netmask ∧ x.leaseTime = some 1#32) := by
  rcases cuttable_or_truncated (left p) with hcut | ⟨pre, c, s, part, hpre, hfield, hpart⟩
  · exact absurd hcut h
  let content := (planted netmask).flatMap Tlv.bytes
  let start := p.current + p.count.toNat + (s.toNat - part.length)
  let q := followedBy p start content
  have hleft : left q = left p := left_followedBy ..
  refine ⟨q, hleft, ?_⟩
  obtain ⟨q₁, hq₁, hend₁, hdata₁, hloop₁⟩ :=
    optionLoop_prefix read_handles hpre (hleft.trans hfield)
  obtain ⟨q₂, hparse, hq₂, hcurrent₂, hdata₂⟩ := parseMessageOption_sized hq₁
  obtain ⟨hcurrent₃, hcount₃⟩ := behind_truncated hq₂ hpart
  have hlen₁ := left_length q₁
  rw [hq₁, List.length_cons, List.length_cons] at hlen₁
  have hs := s.isLt
  -- the memory that the count covers once it has wrapped
  have hend₂ : q₁.current + q₁.count.toNat = p.current + p.count.toNat := hend₁
  have hbehind : left (q₂.readSkipBytes (s.zeroExtend 16)) =
      content ++ List.replicate
        ((q₂.readSkipBytes (s.zeroExtend 16)).count.toNat - content.length) 0#8 := by
    have hfits : content.length ≤ (q₂.readSkipBytes (s.zeroExtend 16)).count.toNat := by
      change 17 ≤ _
      omega
    rw [← map_getD_range content hfits]
    refine List.map_congr_left fun i _ => ?_
    have hmem : (q₂.readSkipBytes (s.zeroExtend 16)).data = q.data := hdata₂.trans hdata₁
    have hat : (q₂.readSkipBytes (s.zeroExtend 16)).current + i = start + i := by
      change _ = p.current + p.count.toNat + (s.toNat - part.length) + i
      omega
    rw [hmem, hat]
    refine (if_neg ?_).trans (by rw [Nat.add_sub_cancel_left])
    change ¬ p.current + p.count.toNat + (s.toNat - part.length) + i < _
    omega
  obtain ⟨zs, hzeros, hzs⟩ :=
    cut_zeros ((q₂.readSkipBytes (s.zeroExtend 16)).count.toNat - content.length)
  have hcut := cut_append (planted_fits netmask) hzeros
  cases hread : Options.read (pre.foldl Options.with noOptions)
    ⟨c, s, if part = [] then none else some q₂⟩ with
  | none =>
    refine .inl fun fuel => ?_
    cases hrun : optionsAt fuel q with
    | none => rfl
    | some x =>
      have hmore := optionLoop_more (1 + pre.length) hrun
      rw [← Nat.add_assoc, hloop₁, optionLoop, hparse] at hmore
      dsimp only at hmore
      rw [hread] at hmore
      cases hmore
  | some x =>
    refine .inr ⟨(planted netmask ++ zs).length + 1 + 1 + pre.length,
      (planted netmask ++ zs).foldl Options.with x, ?_, ?_⟩
    · rw [optionsAt, hloop₁, optionLoop, hparse]
      dsimp only
      rw [hread, Option.bind_some]
      exact optionLoop_cut read_handles hcut hbehind x (Nat.lt_succ_self _)
    · rw [List.foldl_append, foldl_zeros hzs, foldl_planted]
      exact ⟨rfl, rfl, rfl, rfl⟩

end Escape

section Client

/-- Clients tell apart what options say, but for the type and the flag. -/
theorem taking_inj {x y : Options} (htype : x.msgType = y.msgType) (hended : x.ended = y.ended)
    (h : ∀ c : Client, c.taking x = c.taking y) : x = y := by
  have hgetD : ∀ {a b : Option (BitVec 32)}, a.getD 0#32 = b.getD 0#32 →
      a.getD 1#32 = b.getD 1#32 → a = b := by
    intro a b h₀ h₁
    cases a with
    | none =>
      cases b with
      | none => rfl
      | some b => exact absurd (h₀.trans h₁.symm) (by decide : (0#32 : BitVec 32) ≠ 1#32)
    | some a =>
      cases b with
      | none => exact absurd (h₀.symm.trans h₁) (by decide : (0#32 : BitVec 32) ≠ 1#32)
      | some b => exact congrArg some h₀
  let client (v : BitVec 32) : Client :=
    ⟨.selecting, v, v, v, none, Vector.replicate 6 0#8, v, v, v, v, v, v, v⟩
  have h₀ := h (client 0#32)
  have h₁ := h (client 1#32)
  simp only [client, Client.taking, Client.mk.injEq, true_and] at h₀ h₁
  obtain ⟨hserver₀, hmask₀, hgateway₀, hlease₀, hrenewal₀, hrebinding₀⟩ := h₀
  obtain ⟨hserver₁, hmask₁, hgateway₁, hlease₁, hrenewal₁, hrebinding₁⟩ := h₁
  cases x
  cases y
  dsimp only at *
  rw [htype, hended, hgetD hserver₀ hserver₁, hgetD hmask₀ hmask₁, hgetD hgateway₀ hgateway₁,
    hgetD hlease₀ hlease₁,
    hgetD hrenewal₀ hrenewal₁, hgetD hrebinding₀ hrebinding₁]

theorem valid_iff {c : Client} {yiaddr : Ipv4Address} {x : Options} :
    (⟨(c.offered yiaddr).taking x, x.msgType, x.ended⟩ : Offer).valid = true ↔
      x.msgType = offerMsgType ∧
      x.ended = true ∧ yiaddr ≠ 0#32 ∧ x.netmask.getD 0#32 ≠ 0#32 ∧
        x.leaseTime.getD c.leaseTime ≠ 0#32 := by
  simp only [Offer.valid, Bool.and_eq_true, decide_eq_true_eq, and_assoc]
  rfl

/-- What options are accepted. -/
theorem acceptable_iff {cs : List Tlv} : Acceptable cs ↔
    (⟨typeOf cs, (valuesOf cs).ended⟩ : Ack) = ⟨ackMsgType, true⟩ ∨
      ∃ (c : Client) (yiaddr : Ipv4Address),
      (⟨(c.offered yiaddr).taking (valuesOf cs), typeOf cs, (valuesOf cs).ended⟩ : Offer).valid =
        true := by
  constructor
  · rintro ⟨hended, hack | ⟨htype, ⟨v, hmask, hv⟩, hlease⟩⟩
    · exact .inl (by rw [ended_iff.mpr hended, hack])
    · refine .inr ⟨{ init (Vector.replicate 6 0#8) 0#32 with leaseTime := 1#32 }, 1#32,
        valid_iff.mpr ?_⟩
      refine ⟨htype, ended_iff.mpr hended, by decide, ?_, ?_⟩
      · rw [valuesOf]
        dsimp only
        rw [hmask]
        exact hv
      · rw [valuesOf]
        dsimp only
        cases h : lastOf leaseTimeOption leaseTimeOptionSize cs with
        | none => decide
        | some w => exact hlease w h
  · rintro (hack | ⟨c, yiaddr, hvalid⟩)
    · obtain ⟨htype, hended⟩ := Ack.mk.inj hack
      exact ⟨ended_iff.mp hended, .inl htype⟩
    · obtain ⟨htype, hended, -, hmask, hlease⟩ := valid_iff.mp hvalid
      refine ⟨ended_iff.mp hended, .inr ⟨htype, ?_, ?_⟩⟩
      · rw [valuesOf] at hmask
        dsimp only at hmask
        cases h : lastOf subnetMaskOption subnetMaskOptionSize cs with
        | none =>
          rw [h] at hmask
          exact absurd rfl hmask
        | some v =>
          rw [h] at hmask
          exact ⟨v, rfl, hmask⟩
      · intro v hv
        rw [valuesOf] at hlease
        dsimp only at hlease
        rw [hv] at hlease
        exact hlease

end Client

theorem optionsAt_of_taken {p : Packet} {os : List Tlv} {fuel : Nat}
    (h : ∀ c, optionLoop offerOption fuel ⟨c, 0#8, false⟩ p =
      some ⟨c.taking (valuesOf os), typeOf os, true⟩) :
    optionsAt fuel p = some { valuesOf os with ended := true } := by
  have hrun : ∀ c : Client, ∃ x, optionsAt fuel p = some x ∧ c.taking x = c.taking (valuesOf os) ∧
      x.msgType = typeOf os ∧ x.ended = true := by
    intro c
    have hc := h c
    rw [offerLoop] at hc
    obtain ⟨x, hx, hoffer⟩ := Option.map_eq_some_iff.mp hc
    obtain ⟨hclient, htype, hended⟩ := Offer.mk.inj hoffer
    exact ⟨x, hx, hclient, htype, hended⟩
  obtain ⟨x, hx, -, htype, hended⟩ := hrun (init (Vector.replicate 6 0#8) 0#32)
  refine hx.trans (congrArg some (taking_inj htype hended fun c => ?_))
  obtain ⟨x', hx', hclient, -, -⟩ := hrun c
  rw [Option.some.inj (hx.symm.trans hx'), hclient]
  rfl

/-- A field that is understood can be cut: else it is followed by an offer in memory. -/
theorem Understood.cuttable {p : Packet} (h : Understood (left p)) : Cuttable (left p) := by
  by_contra hcut
  by_cases hgrammar : ∃ os, Grammar (left p) os
  · obtain ⟨os, hos⟩ := hgrammar
    -- a netmask that the options do not give
    obtain ⟨netmask, hne⟩ : ∃ m, (valuesOf os).netmask ≠ some m := by
      by_cases h0 : (valuesOf os).netmask = some 0#32
      · exact ⟨1#32, fun h1 => absurd (Option.some.inj (h0.symm.trans h1)) (by decide)⟩
      · exact ⟨0#32, h0⟩
    obtain ⟨q, hq, hrun⟩ := escapes hcut netmask
    obtain ⟨fuel, htaken, -⟩ := h.taken os hos q hq
    have htaken' := optionsAt_of_taken htaken
    rcases hrun with hnone | ⟨fuel', x, hx, -, -, hmask, -⟩
    · rw [hnone] at htaken'
      cases htaken'
    · exact hne ((congrArg Options.netmask (optionLoop_unique htaken' hx)).trans hmask)
  · obtain ⟨q, hq, hrun⟩ := escapes hcut 1#32
    obtain ⟨fuel, hoffer, -⟩ := h.refused (not_exists.mp hgrammar) q hq
    obtain ⟨y, hy, hvalid⟩ := hoffer (init (Vector.replicate 6 0#8) 0#32) 1#32
    rw [offerLoop] at hy
    obtain ⟨x', hx', rfl⟩ := Option.map_eq_some_iff.mp hy
    rcases hrun with hnone | ⟨fuel', x, hx, htype, hended, hmask, hlease⟩
    · rw [hnone] at hx'
      cases hx'
    · obtain rfl := optionLoop_unique hx hx'
      have hmask' : x.netmask.getD 0#32 ≠ 0#32 := by rw [hmask]; decide
      have hlease' : ∀ t, x.leaseTime.getD t ≠ 0#32 := by
        rw [hlease]
        exact fun _ => (by decide : (1#32 : BitVec 32) ≠ 0#32)
      cases hvalid.symm.trans (valid_iff.mpr ⟨htype, hended, by decide, hmask', hlease' _⟩)

section Paired

/-- Pads in pairs, and nothing but zeros behind the flag. -/
inductive Paired : List Byte → List Tlv → Prop
  | finish (n : Nat) : Paired (endFlagOption :: List.replicate n 0#8) []
  | pads {rest : List Byte} {os : List Tlv} (h : Paired rest os) : Paired (0#8 :: 0#8 :: rest) os
  | option {rest : List Byte} {os : List Tlv} (o : Tlv) (ho : o.Fits) (hpad : o.code ≠ 0#8)
      (hend : o.code ≠ endFlagOption) (h : Paired rest os) : Paired (o.bytes ++ rest) (o :: os)

theorem Paired.grammar {field : List Byte} {os : List Tlv} (h : Paired field os) :
    Grammar field os := by
  induction h with
  | finish n => exact .finish _
  | pads h ih => exact .pad (.pad ih)
  | option o ho hpad hend h ih => exact .option o ho hpad hend ih

theorem bytes_append_inj {o o' : Tlv} {rest rest' : List Byte} (ho : o.Fits) (ho' : o'.Fits)
    (h : o.bytes ++ rest = o'.bytes ++ rest') : o = o' ∧ rest = rest' := by
  have hcons : o.code :: BitVec.ofNat 8 o.value.length :: (o.value ++ rest) =
      o'.code :: BitVec.ofNat 8 o'.value.length :: (o'.value ++ rest') := h
  obtain ⟨hcode, hbehind⟩ := List.cons_eq_cons.mp hcons
  obtain ⟨hsize, hvalues⟩ := List.cons_eq_cons.mp hbehind
  have hlen : o.value.length = o'.value.length := by
    have hnat := congrArg BitVec.toNat hsize
    rwa [BitVec.toNat_ofNat, BitVec.toNat_ofNat, Nat.mod_eq_of_lt ho, Nat.mod_eq_of_lt ho'] at hnat
  obtain ⟨hvalue, hrest⟩ := List.append_inj hvalues hlen
  cases o
  cases o'
  exact ⟨by rw [Tlv.mk.injEq]; exact ⟨hcode, hvalue⟩, hrest⟩

/-- A field has one reading. -/
theorem Grammar.unique {field : List Byte} {os os' : List Tlv} (h : Grammar field os)
    (h' : Grammar field os') :
    os = os' := by
  induction h generalizing os' with
  | finish trailing =>
    generalize hfield : endFlagOption :: trailing = field at h'
    cases h' with
    | finish => rfl
    | pad => exact absurd (List.cons_eq_cons.mp hfield).1 (by decide)
    | option o ho hpad hend => exact absurd (List.cons_eq_cons.mp hfield).1.symm hend
  | @pad rest os h ih =>
    generalize hfield : 0#8 :: rest = field at h'
    cases h' with
    | finish => exact absurd (List.cons_eq_cons.mp hfield).1 (by decide)
    | pad h' =>
      obtain ⟨-, rfl⟩ := List.cons_eq_cons.mp hfield
      exact ih h'
    | option o ho hpad => exact absurd (List.cons_eq_cons.mp hfield).1.symm hpad
  | @option rest os o ho hpad hend h ih =>
    generalize hfield : o.bytes ++ rest = field at h'
    cases h' with
    | finish => exact absurd (List.cons_eq_cons.mp hfield).1 hend
    | pad => exact absurd (List.cons_eq_cons.mp hfield).1 hpad
    | option o' ho' _ _ h' =>
      obtain ⟨rfl, rfl⟩ := bytes_append_inj ho ho' hfield
      rw [ih h']

def Tlv.counts (o : Tlv) : Bool := o.code ≠ 0#8 && o.code ≠ endFlagOption

theorem lastOf_counts {code size : Byte} (hpad : code ≠ 0#8) (hend : code ≠ endFlagOption)
    (cs : List Tlv) :
    lastOf code size (cs.filter Tlv.counts) = lastOf code size cs := by
  have hfilter : (cs.filter Tlv.counts).filter
    (fun o => o.code = code ∧ o.value.length = size.toNat) =
      cs.filter fun o => o.code = code ∧ o.value.length = size.toNat := by
    rw [List.filter_filter]
    refine List.filter_congr fun o _ => ?_
    by_cases hcode : o.code = code
    · rw [show o.counts = true by simp [Tlv.counts, hcode, hpad, hend], Bool.and_true]
    · simp [hcode]
  rw [lastOf, hfilter, lastOf]

/-- A pair of pads is cut into one option, and so is the flag with the zero behind it. -/
theorem Paired.cut {field : List Byte} {os : List Tlv} (h : Paired field os) :
    ∃ cs, Cut field cs ∧ cs.filter Tlv.counts = os ∧ ∃ o ∈ cs, o.code = endFlagOption := by
  induction h with
  | finish n =>
    cases n with
    | zero => exact ⟨[⟨endFlagOption, []⟩], .alone _, rfl, _, List.mem_cons_self, rfl⟩
    | succ n =>
      obtain ⟨zs, hcut, hzs⟩ := cut_zeros n
      refine ⟨⟨endFlagOption, []⟩ :: zs, .cons ⟨endFlagOption, []⟩ (Nat.two_pow_pos 8) hcut, ?_, _,
        List.mem_cons_self, rfl⟩
      refine List.filter_eq_nil_iff.mpr fun o ho => ?_
      rcases List.mem_cons.mp ho with rfl | ho
      · decide
      · rw [Tlv.counts, hzs o ho]
        decide
  | pads h ih =>
    obtain ⟨cs, hcut, hfilter, o, ho, hended⟩ := ih
    exact ⟨⟨0#8, []⟩ :: cs, .cons ⟨0#8, []⟩ (Nat.two_pow_pos 8) hcut, hfilter, o,
      List.mem_cons_of_mem _ ho, hended⟩
  | option o ho hpad hend h ih =>
    obtain ⟨cs, hcut, hfilter, o', ho', hended⟩ := ih
    refine ⟨o :: cs, .cons o ho hcut, ?_, o', List.mem_cons_of_mem _ ho', hended⟩
    have hcounts : o.counts = true := by simp [Tlv.counts, hpad, hend]
    rw [List.filter_cons_of_pos hcounts, hfilter]

theorem Paired.agrees {field : List Byte} {os : List Tlv} (h : Paired field os) : Agrees field := by
  obtain ⟨cs, hcut, rfl, hended⟩ := h.cut
  refine ⟨cs, hcut, fun os' hos' => ?_, fun hnone => absurd h.grammar (hnone _)⟩
  rw [← h.grammar.unique hos']
  refine ⟨hended, ?_, ?_⟩
  · rw [typeOf, typeOf, lastOf_counts (by decide) (by decide)]
  · have hcodes : ∀ k ∈ valueCodes, k.1 ≠ 0#8 ∧ k.1 ≠ endFlagOption := by
      simp only [valueCodes, List.forall_mem_cons, List.not_mem_nil, false_implies,
        implies_true, and_true]
      decide
    exact fun k hk => (lastOf_counts (hcodes k hk).1 (hcodes k hk).2 cs).symm

end Paired

/-- The client understands a field exactly if it can be cut and both readings have the same last
options. They have where pads come in pairs and nothing but zeros stands behind the flag. -/
theorem understood_iff (p : Packet) :
    (Understood (left p) ↔ Agrees (left p)) ∧ ∀ os, Paired (left p) os → Agrees (left p) := by
  refine ⟨?_, fun os h => h.agrees⟩
  constructor
  · intro h
    obtain ⟨cs, hcut⟩ := h.cuttable
    refine ⟨cs, hcut, fun os hos => same_iff.mpr ?_, fun hnone hacc => ?_⟩
    · obtain ⟨fuel, htaken, -⟩ := h.taken os hos p rfl
      have hrun := optionLoop_cut read_handles hcut rfl noOptions (Nat.lt_succ_self _)
      rw [foldl_with] at hrun
      exact optionLoop_unique hrun (optionsAt_of_taken htaken)
    · obtain ⟨fuel, hoffer, x, hx, hne⟩ := h.refused hnone p rfl
      rcases acceptable_iff.mp hacc with hack | ⟨c, yiaddr, hvalid⟩
      · exact hne ((optionLoop_unique hx (ackLoop_cut hcut rfl)).trans hack)
      · obtain ⟨y, hy, hvalid'⟩ := hoffer c yiaddr
        rw [optionLoop_unique hy (offerLoop_cut hcut rfl _), hvalid] at hvalid'
        cases hvalid'
  · rintro ⟨cs, hcut, hsame, hnone⟩
    refine ⟨fun os hos q hq => ⟨cs.length + 1, fun c => ?_, ?_⟩, fun h q hq =>
      ⟨cs.length + 1, fun c yiaddr => ?_, ?_⟩⟩
    · have hvalues := same_iff.mp (hsame os hos)
      rw [offerLoop_cut hcut hq, (hsame os hos).msgType, hvalues]
      rfl
    · have hvalues := same_iff.mp (hsame os hos)
      rw [ackLoop_cut hcut hq, (hsame os hos).msgType, hvalues]
    · refine ⟨_, offerLoop_cut hcut hq _, ?_⟩
      by_contra hvalid
      exact hnone h (acceptable_iff.mpr (.inr ⟨c, yiaddr, (Bool.not_eq_false _).mp hvalid⟩))
    · exact ⟨_, ackLoop_cut hcut hq, fun hack => hnone h (acceptable_iff.mpr (.inl hack))⟩

/-- An offer with netmask and lease time. -/
def paddedOptions : List Tlv :=
  [⟨requestTypeOption, [offerMsgType]⟩, ⟨subnetMaskOption, [255#8, 255#8, 255#8, 0#8]⟩,
    ⟨leaseTimeOption, [0#8, 0#8, 14#8, 16#8]⟩]

def paddedField : List Byte :=
  0#8 :: (paddedOptions.flatMap Tlv.bytes ++ endFlagOption :: List.replicate 50 0#8)

def paddedOffer : Packet := reply 1#32 sampleMac 0x0A000014#32 paddedField

/-- The pad takes the code behind it as its length: nothing is taken of the offer. -/
theorem pad_misread :
    ∃ msg p, decodeMessage paddedOffer = some (msg, p) ∧ Grammar (left p) paddedOptions ∧
    optionsAt 80 p = some noOptions ∧ ¬ Understood (left p) := by
  have hdecode : (decodeMessage paddedOffer).map (fun m => (left m.2, optionsAt 80 m.2)) =
      some (paddedField, some noOptions) := by decide +kernel
  obtain ⟨⟨msg, p⟩, hp, heq⟩ := Option.map_eq_some_iff.mp hdecode
  obtain ⟨hleft, hrun⟩ := Prod.mk.inj heq
  dsimp only at hleft hrun
  have hgrammar : Grammar (left p) paddedOptions := by
    rw [hleft]
    exact .pad (.option ⟨requestTypeOption, [offerMsgType]⟩ (by decide : 1 < 2 ^ 8)
      (by decide) (by decide)
      (.option ⟨subnetMaskOption, [255#8, 255#8, 255#8, 0#8]⟩ (by decide : 4 < 2 ^ 8)
        (by decide) (by decide)
        (.option ⟨leaseTimeOption, [0#8, 0#8, 14#8, 16#8]⟩ (by decide : 4 < 2 ^ 8)
          (by decide) (by decide)
          (.finish _))))
  refine ⟨msg, p, hp, hgrammar, hrun, fun h => ?_⟩
  obtain ⟨fuel, htaken, -⟩ := h.taken _ hgrammar p rfl
  cases congrArg Options.ended (optionLoop_unique hrun (optionsAt_of_taken htaken))

end NanoIp.Dhcp
