import NanoIp.Dhcp.Fields

/-!
# The bounds of parsing

`NANO_IP_DHCP_CLIENT_ParseMessageOption` with the variables it writes through its pointers, one
turn of the loop after the other. It subtracts the length of an option from the count of the
packet without comparing them: a field is parsed inside the message exactly if it can be cut,
and otherwise the count wraps and the loop goes on behind the message.
-/
namespace NanoIp.Dhcp

/-- `NANO_IP_DHCP_CLIENT_ParseMessageOption` as it leaves `option`, `option_size` and
`option_data`: what it does not write is that of the option before. -/
def parseInto (v : MsgOption) (p : Packet) : Option (MsgOption × Packet) :=
  if 1#16 ≤ p.count then
    let (option, p) := p.read8bits
    let (v, p) : MsgOption × Packet :=
      if 1#16 ≤ p.count then
        let (size, p) := p.read8bits
        (⟨option, size, if 1#16 ≤ p.count then some p else none⟩, p)
      else (⟨option, 0#8, v.data⟩, p)
    some (v, p.readSkipBytes (v.size.zeroExtend 16))
  else none

/-- The loops over the options of a message, with these variables. -/
def loopInto {α : Type} (handle : α → MsgOption → Option α) :
    Nat → α → MsgOption → Packet → Option α
  | 0, _, _, _ => none
  | fuel + 1, a, v, p =>
    match parseInto v p with
    | none => some a
    | some (v, p) => (handle a v).bind fun a => loopInto handle fuel a v p

/-- A turn of a loop: the packet before, the variables and the packet behind. -/
structure Iteration where
  before : Packet
  vars : MsgOption
  after : Packet

/-- The first turns of a loop. -/
def iterations : Nat → MsgOption → Packet → List Iteration
  | 0, _, _ => []
  | n + 1, v, p =>
    match parseInto v p with
    | none => []
    | some (v, q) => ⟨p, v, q⟩ :: iterations n v q

/-- The options whose data `NANO_IP_DHCP_CLIENT_ProcessOfferMessage` reads, and their sizes. -/
def offerSize (option : Byte) : Option Byte :=
  if option = requestTypeOption then some requestTypeOptionSize
  else if option = serverIdOption then some serverIdOptionSize
  else if option = subnetMaskOption then some subnetMaskOptionSize
  else if option = routerOption then some routerOptionSize
  else if option = leaseTimeOption then some leaseTimeOptionSize
  else if option = renewalTimeOption then some renewalTimeOptionSize
  else if option = rebindingTimeOption then some rebindingTimeOptionSize
  else none

/-- Those whose data `NANO_IP_DHCP_CLIENT_ProcessAckMessage` reads. -/
def ackSize (option : Byte) : Option Byte :=
  if option = requestTypeOption then some requestTypeOptionSize else none

theorem offerSize_pos (option : Byte) : offerSize option ≠ some 0#8 := by
  unfold offerSize
  split_ifs <;> decide

theorem ackSize_pos (option : Byte) : ackSize option ≠ some 0#8 := by
  unfold ackSize
  split_ifs <;> decide

/-- The body of a loop reads the data of these options only. -/
def Reads {α : Type} (sizes : Byte → Option Byte) (handle : α → MsgOption → Option α) : Prop :=
  ∀ (a : α) (o : MsgOption) (data : Option Packet), sizes o.option ≠ some o.size →
    handle a o = handle a { o with data := data }

theorem MsgOption.store_unread {α β : Type} {o : MsgOption} {size : Byte}
    (h : some size ≠ some o.size) (read : Packet → β) (a : α) (set : β → α) :
    o.store size read a set = some a :=
  if_neg fun hs => h (congrArg some hs.symm)

theorem ackOption_reads : Reads ackSize ackOption := by
  intro x o data h
  unfold ackSize at h
  unfold ackOption
  split_ifs at h ⊢
  · rw [MsgOption.store_unread h, MsgOption.store_unread (by exact h)]
  · rfl
  · rfl

theorem offerOption_reads : Reads offerSize offerOption := by
  intro x o data h
  unfold offerSize at h
  unfold offerOption
  split_ifs at h ⊢
  all_goals first | rfl | rw [MsgOption.store_unread h, MsgOption.store_unread (by exact h)]

/-- The loop stays in the message: it turns no more often than there are bytes, the count is that
of the bytes up to the end, and what is read is the value of the option just parsed. -/
structure InBounds (sizes : Byte → Option Byte) (v : MsgOption) (p : Packet) : Prop where
  short : ∀ n, (iterations n v p).length ≤ p.count.toNat
  counted : ∀ n, ∀ it ∈ iterations n v p, it.after.current + it.after.count.toNat =
    p.current + p.count.toNat
  data : ∀ n, ∀ it ∈ iterations n v p, sizes it.vars.option = some it.vars.size →
    ∃ d, it.vars.data = some d ∧ d.data = it.before.data ∧ d.current = it.before.current + 2 ∧
      p.current ≤ d.current ∧ d.current + it.vars.size.toNat ≤ p.current + p.count.toNat

/-- On every turn the size and the data are those of the option just parsed. -/
structure Own (v : MsgOption) (p : Packet) : Prop where
  size : ∀ n, ∀ it ∈ iterations n v p, it.vars.size =
    if 2 ≤ it.before.count.toNat then it.before.byteAt 1 else 0#8
  data : ∀ n, ∀ it ∈ iterations n v p, it.vars.data.map Packet.current =
    if 3 ≤ it.before.count.toNat then some (it.before.current + 2) else none

section Turn

variable {v : MsgOption} {p : Packet} {c s : Byte} {rest : List Byte}

theorem parseInto_nil (h : left p = []) : parseInto v p = none := if_neg (left_nil h)

theorem parseInto_alone (h : left p = [c]) :
    ∃ q, parseInto v p = some (⟨c, 0#8, v.data⟩, q) ∧ left q = [] ∧ q.current = p.current + 1 := by
  obtain ⟨hle, hcode, hrest⟩ := left_cons h
  refine ⟨(p.readSkipBytes 1#16).readSkipBytes 0#16, ?_, ?_, rfl⟩
  · rw [parseInto, if_pos hle]
    dsimp only [Packet.read8bits]
    rw [if_neg (left_nil hrest), hcode]
    rfl
  · rw [left_skip (Nat.zero_le _), hrest]
    rfl

theorem parseInto_sized (h : left p = c :: s :: rest) :
    ∃ q, parseInto v p = some (⟨c, s, if rest = [] then none else some q⟩,
      q.readSkipBytes (s.zeroExtend 16)) ∧
      left q = rest ∧ q.current = p.current + 2 ∧ q.data = p.data := by
  obtain ⟨hle, hcode, hrest⟩ := left_cons h
  obtain ⟨hle', hsize, hrest'⟩ := left_cons hrest
  refine ⟨(p.readSkipBytes 1#16).readSkipBytes 1#16, ?_, hrest', rfl, rfl⟩
  rw [parseInto, if_pos hle]
  dsimp only [Packet.read8bits]
  rw [if_pos hle', hcode, hsize]
  cases rest with
  | nil => rw [if_neg (left_nil hrest'), if_pos rfl]
  | cons b rest =>
    rw [if_pos (left_cons hrest').1, if_neg (List.cons_ne_nil b rest)]

theorem Byte.zeroExtend_toNat (s : Byte) : (s.zeroExtend 16).toNat = s.toNat := by
  rw [BitVec.zeroExtend, BitVec.toNat_setWidth, Nat.mod_eq_of_lt (Nat.lt_trans s.isLt (by decide))]

/-- The packet behind an option that is there. -/
theorem behind_sized {q : Packet} (hq : left q = rest) (hs : s.toNat ≤ rest.length) :
    left (q.readSkipBytes (s.zeroExtend 16)) = rest.drop s.toNat ∧
      (q.readSkipBytes (s.zeroExtend 16)).current = q.current + s.toNat ∧
      (q.readSkipBytes (s.zeroExtend 16)).current +
        (q.readSkipBytes (s.zeroExtend 16)).count.toNat =
        q.current + q.count.toNat := by
  have hlen := left_length q
  rw [hq] at hlen
  have hle : s.zeroExtend 16 ≤ q.count := by
    rw [BitVec.le_def, Byte.zeroExtend_toNat]
    omega
  have hcurrent : (q.readSkipBytes (s.zeroExtend 16)).current = q.current + s.toNat :=
    congrArg (q.current + ·) (Byte.zeroExtend_toNat s)
  have hcount : (q.readSkipBytes (s.zeroExtend 16)).count.toNat = q.count.toNat - s.toNat := by
    change (q.count - s.zeroExtend 16).toNat = _
    rw [BitVec.toNat_sub_of_le hle, Byte.zeroExtend_toNat]
  refine ⟨?_, hcurrent, ?_⟩
  · rw [left_skip hle, hq, Byte.zeroExtend_toNat]
  · omega

theorem behind_truncated {q : Packet} (hq : left q = rest) (hs : rest.length < s.toNat) :
    (q.readSkipBytes (s.zeroExtend 16)).current = q.current + s.toNat ∧
      (q.readSkipBytes (s.zeroExtend 16)).count.toNat = 2 ^ 16 - (s.toNat - rest.length) := by
  have hlen := left_length q
  rw [hq] at hlen
  have hlt := s.isLt
  refine ⟨congrArg (q.current + ·) (Byte.zeroExtend_toNat s), ?_⟩
  change (q.count - s.zeroExtend 16).toNat = _
  rw [BitVec.toNat_sub, Byte.zeroExtend_toNat, Nat.mod_eq_of_lt (by omega)]
  omega

/-- One turn on an option that is there. -/
theorem parseInto_cut {o : Tlv} (ho : o.Fits) (h : left p = o.bytes ++ rest) :
    ∃ d q, parseInto v p =
        some (⟨o.code, BitVec.ofNat 8 o.value.length,
          if o.value ++ rest = [] then none else some d⟩, q) ∧
      left q = rest ∧ d.data = p.data ∧ d.current = p.current + 2 ∧
      q.current + q.count.toNat = p.current + p.count.toNat ∧
      p.byteAt 1 = BitVec.ofNat 8 o.value.length ∧
        p.count.toNat = o.value.length + rest.length + 2 := by
  have hbytes : left p = o.code :: BitVec.ofNat 8 o.value.length :: (o.value ++ rest) := h
  obtain ⟨-, -, hrest⟩ := left_cons hbytes
  obtain ⟨q, hparse, hq, hcurrent, hdata⟩ := parseInto_sized (v := v) hbytes
  have hsize : (BitVec.ofNat 8 o.value.length).toNat = o.value.length := by
    rw [BitVec.toNat_ofNat, Nat.mod_eq_of_lt ho]
  have hthere : (BitVec.ofNat 8 o.value.length).toNat ≤ (o.value ++ rest).length := by
    rw [hsize, List.length_append]
    exact Nat.le_add_right _ _
  obtain ⟨hbehind, hnext, hend⟩ := behind_sized hq hthere
  have hlen := left_length p
  have hlen' := left_length q
  rw [hbytes, List.length_cons, List.length_cons, List.length_append] at hlen
  rw [hq, List.length_append] at hlen'
  refine ⟨q, _, hparse, ?_, hdata, hcurrent, by omega, ?_, by omega⟩
  · rw [hbehind, hsize, List.drop_left]
  · exact (Packet.readSkipBytes_byteAt p 1#16 0).symm.trans (left_cons hrest).2.1

theorem mem_iterations_cons {n : Nat} {v' : MsgOption} {q : Packet}
    (h : parseInto v p = some (v', q)) {it : Iteration} :
    it ∈ iterations n v p ↔ 0 < n ∧ (it = ⟨p, v', q⟩ ∨ it ∈ iterations (n - 1) v' q) := by
  cases n with
  | zero => simp [iterations]
  | succ n => simp [iterations, h]

theorem iterations_nil (h : left p = []) (n : Nat) : iterations n v p = [] := by
  cases n with
  | zero => rfl
  | succ n => rw [iterations, parseInto_nil h]

end Turn

section Bounds

variable {sizes : Byte → Option Byte} {v v' : MsgOption} {p q : Packet}

/-- One more turn in front. -/
theorem InBounds.cons (hparse : parseInto v p = some (v', q)) (h : InBounds sizes v' q)
    (hend : q.current + q.count.toNat = p.current + p.count.toNat)
    (hless : q.count.toNat < p.count.toNat)
    (hdata : sizes v'.option = some v'.size → ∃ d, v'.data = some d ∧ d.data = p.data ∧
      d.current = p.current + 2 ∧ d.current + v'.size.toNat ≤ p.current + p.count.toNat) :
    InBounds sizes v p where
  short n := by
    cases n with
    | zero => exact Nat.zero_le _
    | succ n =>
      have hrest := h.short n
      simp only [iterations, hparse, List.length_cons]
      omega
  counted n it hit := by
    rcases ((mem_iterations_cons hparse).mp hit).2 with rfl | hit
    · exact hend
    · exact (h.counted _ it hit).trans hend
  data n it hit hread := by
    rcases ((mem_iterations_cons hparse).mp hit).2 with rfl | hit
    · obtain ⟨d, hd, hmem, hcurrent, hto⟩ := hdata hread
      exact ⟨d, hd, hmem, hcurrent, by omega, hto⟩
    · obtain ⟨d, hd, hmem, hcurrent, hfrom, hto⟩ := h.data _ it hit hread
      exact ⟨d, hd, hmem, hcurrent, by omega, by omega⟩

theorem Own.cons (hparse : parseInto v p = some (v', q)) (h : Own v' q)
    (hsize : v'.size = if 2 ≤ p.count.toNat then p.byteAt 1 else 0#8)
    (hdata : v'.data.map Packet.current = if 3 ≤ p.count.toNat then some (p.current + 2)
      else none) : Own v p where
  size n it hit := by
    rcases ((mem_iterations_cons hparse).mp hit).2 with rfl | hit
    · exact hsize
    · exact h.size _ it hit
  data n it hit := by
    rcases ((mem_iterations_cons hparse).mp hit).2 with rfl | hit
    · exact hdata
    · exact h.data _ it hit

theorem Own.tail (hparse : parseInto v p = some (v', q)) (h : Own v p) : Own v' q where
  size n it hit := h.size (n + 1) it ((mem_iterations_cons hparse).mpr ⟨n.succ_pos, .inr hit⟩)
  data n it hit := h.data (n + 1) it ((mem_iterations_cons hparse).mpr ⟨n.succ_pos, .inr hit⟩)

theorem inBounds_nil (h : left p = []) : InBounds sizes v p where
  short n := by
    rw [iterations_nil h]
    exact Nat.zero_le _
  counted n it hit := by
    rw [iterations_nil h] at hit
    cases hit
  data n it hit := by
    rw [iterations_nil h] at hit
    cases hit

theorem own_nil (h : left p = []) : Own v p where
  size n it hit := by
    rw [iterations_nil h] at hit
    cases hit
  data n it hit := by
    rw [iterations_nil h] at hit
    cases hit

/-- A field that can be cut is parsed inside the message. -/
theorem inBounds_of_cut (hpos : ∀ option, sizes option ≠ some 0#8) {field : List Byte}
    {os : List Tlv} (h : Cut field os) :
    ∀ (v : MsgOption) {p : Packet}, left p = field → InBounds sizes v p := by
  induction h with
  | nil => exact fun v p hp => inBounds_nil hp
  | alone code =>
    intro v p hp
    obtain ⟨q, hparse, hq, hcurrent⟩ := parseInto_alone (v := v) hp
    have hlen := left_length p
    have hlen' := left_length q
    rw [hp] at hlen
    rw [hq] at hlen'
    simp only [List.length_cons, List.length_nil] at hlen hlen'
    exact InBounds.cons hparse (inBounds_nil hq) (by omega) (by omega) fun hread =>
      absurd hread (hpos _)
  | cons o ho h ih =>
    intro v p hp
    obtain ⟨d, q, hparse, hq, hdata, hcurrent, hend, -, hcount⟩ := parseInto_cut (v := v) ho hp
    have hlen := left_length q
    rw [hq] at hlen
    refine InBounds.cons hparse (ih _ hq) hend (by omega) fun hread => ⟨d, ?_, hdata, hcurrent, ?_⟩
    · refine if_neg fun hnil => hpos o.code ?_
      rw [(List.append_eq_nil_iff.mp hnil).1] at hread
      exact hread
    · rw [BitVec.toNat_ofNat, Nat.mod_eq_of_lt ho]
      omega

/-- A field whose bytes are counted right up to its end can be cut. -/
theorem cuttable_of_counted :
    (∀ n, ∀ it ∈ iterations n v p, it.after.current + it.after.count.toNat =
      p.current + p.count.toNat) →
      Cuttable (left p) := by
  intro h
  induction hn : p.count.toNat using Nat.strongRecOn generalizing v p with
  | ind n ih =>
    match hp : left p with
    | [] => exact ⟨[], .nil⟩
    | [c] => exact ⟨[⟨c, []⟩], .alone c⟩
    | c :: s :: rest =>
      obtain ⟨q, hparse, hq, hcurrent, -⟩ := parseInto_sized (v := v) hp
      have hlen := left_length p
      have hlen' := left_length q
      rw [hp, List.length_cons, List.length_cons] at hlen
      rw [hq] at hlen'
      have hcounted := h 1 _ ((mem_iterations_cons hparse).mpr ⟨Nat.one_pos, .inl rfl⟩)
      have hs : s.toNat ≤ rest.length := by
        by_contra hgt
        obtain ⟨hnext, hcount⟩ := behind_truncated hq (Nat.lt_of_not_le hgt)
        dsimp only at hcounted
        omega
      obtain ⟨hbehind, -, hend⟩ := behind_sized hq hs
      have hcount := left_length (q.readSkipBytes (s.zeroExtend 16))
      rw [hbehind, List.length_drop] at hcount
      have hbehind' : ∀ m, ∀ it ∈ iterations m ⟨c, s, if rest = [] then none else some q⟩
          (q.readSkipBytes (s.zeroExtend 16)), it.after.current + it.after.count.toNat =
            (q.readSkipBytes (s.zeroExtend 16)).current +
              (q.readSkipBytes (s.zeroExtend 16)).count.toNat := by
        intro m it hit
        exact (h (m + 1) it ((mem_iterations_cons hparse).mpr ⟨m.succ_pos, .inr hit⟩)).trans
          hcounted.symm
      obtain ⟨os, hcut⟩ := ih _ (by omega) hbehind' rfl
      rw [hbehind] at hcut
      exact ⟨_, cut_cons c hs hcut⟩

theorem inBounds_iff (hpos : ∀ option, sizes option ≠ some 0#8) :
    InBounds sizes v p ↔ Cuttable (left p) := by
  refine ⟨fun h => cuttable_of_counted h.counted, ?_⟩
  rintro ⟨os, hcut⟩
  exact inBounds_of_cut hpos hcut v rfl

end Bounds

/-- The field is one option behind the other, each with its length and its value. -/
def Whole (field : List Byte) : Prop :=
  ∃ os : List Tlv, (∀ o ∈ os, o.Fits) ∧ field = os.flatMap Tlv.bytes

theorem Whole.cons {o : Tlv} (ho : o.Fits) {rest : List Byte} (h : Whole rest) :
    Whole (o.bytes ++ rest) := by
  obtain ⟨os, hos, rfl⟩ := h
  refine ⟨o :: os, ?_, List.flatMap_cons.symm⟩
  intro o' ho'
  rcases List.mem_cons.mp ho' with rfl | ho'
  · exact ho
  · exact hos o' ho'

section Ownership

variable {v : MsgOption} {p : Packet}

theorem cut_of_fits {os : List Tlv} (hos : ∀ o ∈ os, o.Fits) : Cut (os.flatMap Tlv.bytes) os := by
  induction os with
  | nil => exact .nil
  | cons o os ih =>
    rw [List.flatMap_cons]
    exact .cons o (hos o List.mem_cons_self) (ih fun o' ho' => hos o' (List.mem_cons_of_mem _ ho'))

/-- Whole options are parsed each on its own. -/
theorem own_of_whole {os : List Tlv} (hos : ∀ o ∈ os, o.Fits) :
    ∀ (v : MsgOption) {p : Packet}, left p = os.flatMap Tlv.bytes → Own v p := by
  induction os with
  | nil => exact fun v p hp => own_nil hp
  | cons o os ih =>
    intro v p hp
    rw [List.flatMap_cons] at hp
    obtain ⟨d, q, hparse, hq, -, hcurrent, -, hbyte, hcount⟩ :=
      parseInto_cut (v := v) (hos o List.mem_cons_self) hp
    refine Own.cons hparse (ih (fun o' ho' => hos o' (List.mem_cons_of_mem _ ho')) _ hq) ?_ ?_
    · have htwo : 2 ≤ p.count.toNat := by omega
      rw [if_pos htwo]
      exact hbyte.symm
    · by_cases hnil : o.value ++ os.flatMap Tlv.bytes = []
      · have hlen := congrArg List.length hnil
        rw [List.length_append, List.length_nil] at hlen
        rw [if_pos hnil, if_neg (by omega)]
        rfl
      · have hlen := List.length_pos_of_ne_nil hnil
        rw [List.length_append] at hlen
        rw [if_neg hnil, if_pos (by omega), ← hcurrent]
        rfl

/-- A code that stands alone leaves the data of the option before it. -/
theorem whole_of_own {field : List Byte} {os : List Tlv} (h : Cut field os) :
    ∀ (v : MsgOption) {p : Packet}, v.data.isSome → left p = field → Own v p → Whole field := by
  induction h with
  | nil => exact fun _ _ _ _ _ => ⟨[], fun _ ho => (List.not_mem_nil ho).elim, rfl⟩
  | alone code =>
    intro v p hv hp hown
    obtain ⟨q, hparse, -, -⟩ := parseInto_alone (v := v) hp
    have hdata := hown.data 1 _ ((mem_iterations_cons hparse).mpr ⟨Nat.one_pos, .inl rfl⟩)
    have hlen := left_length p
    rw [hp, List.length_cons, List.length_nil] at hlen
    have hone : ¬ 3 ≤ p.count.toNat := by omega
    rw [if_neg hone] at hdata
    rw [Option.map_eq_none_iff.mp hdata] at hv
    cases hv
  | @cons rest os o ho h ih =>
    intro v p hv hp hown
    obtain ⟨d, q, hparse, hq, -, -, -, -, -⟩ := parseInto_cut (v := v) ho hp
    by_cases hrest : rest = []
    · subst hrest
      exact Whole.cons ho ⟨[], fun _ ho => (List.not_mem_nil ho).elim, rfl⟩
    · refine Whole.cons ho (ih _ ?_ hq (hown.tail hparse))
      rw [if_neg fun hnil => hrest (List.append_eq_nil_iff.mp hnil).2]
      rfl

end Ownership

section Bridge

variable {α : Type} {sizes : Byte → Option Byte} {handle : α → MsgOption → Option α}

/-- The loop does with its variables what it does with each option alone. -/
theorem loopInto_eq (hpos : ∀ option, sizes option ≠ some 0#8) (hreads : Reads sizes handle)
    (fuel : Nat) :
    ∀ (a : α) (v : MsgOption) (p : Packet), loopInto handle fuel a v p =
      optionLoop handle fuel a p := by
  induction fuel with
  | zero => exact fun _ _ _ => rfl
  | succ fuel ih =>
    intro a v p
    have hturn : parseInto v p = none ∧ parseMessageOption p = none ∨
        ∃ v' o q, parseInto v p = some (v', q) ∧ parseMessageOption p = some (o, q) ∧
          handle a v' = handle a o := by
      rw [parseInto, parseMessageOption]
      by_cases hp : 1#16 ≤ p.count
      · rw [if_pos hp, if_pos hp]
        dsimp only [Packet.read8bits]
        by_cases hq : 1#16 ≤ (p.readSkipBytes 1#16).count
        · rw [if_pos hq, if_pos hq]
          exact .inr ⟨_, _, _, rfl, rfl, rfl⟩
        · rw [if_neg hq, if_neg hq]
          exact .inr ⟨_, _, _, rfl, rfl, hreads a _ none (hpos _)⟩
      · rw [if_neg hp, if_neg hp]
        exact .inl ⟨rfl, rfl⟩
    rw [loopInto, optionLoop]
    rcases hturn with ⟨hinto, hparse⟩ | ⟨v', o, q, hinto, hparse, hhandle⟩
    · rw [hinto, hparse]
    · rw [hinto, hparse]
      dsimp only
      rw [hhandle]
      exact Option.bind_congr fun a' _ => ih a' v' q

end Bridge

/-- The loops over the options of a message stay in it, with the size and the data of the option
just parsed on every turn, if and only if it is one whole option behind the other. If its last
code stands alone the data are those of another option, but are not read; a message that cannot
be cut so is left behind. -/
theorem parsing_bounded_iff (p : Packet) :
    ((∀ v, InBounds offerSize v p ∧ Own v p) ↔ Whole (left p)) ∧
      ((∀ v, InBounds ackSize v p ∧ Own v p) ↔ Whole (left p)) ∧
      (∀ v, (InBounds offerSize v p ↔ Cuttable (left p)) ∧
        (InBounds ackSize v p ↔ Cuttable (left p))) ∧
      (Cuttable (left p) → ∀ fuel v, p.count.toNat < fuel →
        (∀ x, (loopInto offerOption fuel x v p).isSome) ∧
          ∀ x, (loopInto ackOption fuel x v p).isSome) := by
  have hown : ∀ {sizes : Byte → Option Byte}, (∀ option, sizes option ≠ some 0#8) →
      ((∀ v, InBounds sizes v p ∧ Own v p) ↔ Whole (left p)) := by
    intro sizes hpos
    refine ⟨fun h => ?_, ?_⟩
    · obtain ⟨hbounds, hown⟩ := h ⟨0#8, 0#8, some p⟩
      obtain ⟨os, hcut⟩ := (inBounds_iff hpos).mp hbounds
      exact whole_of_own hcut _ rfl rfl hown
    · rintro ⟨os, hos, hfield⟩ v
      refine ⟨(inBounds_iff hpos).mpr ⟨os, ?_⟩, own_of_whole hos v hfield⟩
      rw [hfield]
      exact cut_of_fits hos
  refine ⟨hown offerSize_pos, hown ackSize_pos, fun v =>
    ⟨inBounds_iff offerSize_pos, inBounds_iff ackSize_pos⟩, ?_⟩
  rintro ⟨os, hcut⟩ fuel v hfuel
  have hlen : os.length < fuel := by
    have hle := hcut.length_le
    rw [left_length] at hle
    exact Nat.lt_of_le_of_lt hle hfuel
  refine ⟨fun x => ?_, fun x => ?_⟩
  · rw [loopInto_eq offerSize_pos offerOption_reads, offerLoop_from,
      optionLoop_cut read_handles hcut rfl _ hlen]
    rfl
  · rw [loopInto_eq ackSize_pos ackOption_reads, optionLoop_cut ack_handles hcut rfl x hlen]
    rfl

def truncatedOffer : Packet := reply 1#32 sampleMac 0x0A000014#32 [requestTypeOption, 1#8]

/-- The type is read through a null pointer, and the count goes below zero. -/
theorem truncated_unbounded : ∃ msg p, decodeMessage truncatedOffer = some (msg, p) ∧
    ∀ v, ¬ InBounds offerSize v p ∧ ¬ InBounds ackSize v p := by
  have hleft : (decodeMessage truncatedOffer).map (fun m => left m.2) =
      some [requestTypeOption, 1#8] := by
    decide +kernel
  obtain ⟨⟨msg, p⟩, hdecode, hp⟩ := Option.map_eq_some_iff.mp hleft
  refine ⟨msg, p, hdecode, fun v => ?_⟩
  have hnot : ¬ Cuttable (left p) := by
    rintro ⟨os, hcut⟩
    rw [show left p = _ from hp] at hcut
    exact absurd hcut.head.1 (by decide)
  exact ⟨fun h => hnot ((inBounds_iff offerSize_pos).mp h), fun h =>
    hnot ((inBounds_iff ackSize_pos).mp h)⟩

end NanoIp.Dhcp
