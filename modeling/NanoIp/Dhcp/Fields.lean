import NanoIp.Dhcp.Offer

/-!
# Fields of options

`NANO_IP_DHCP_CLIENT_ParseMessageOption` cuts every option out of the field alike: a code, a
length and as many bytes, pads and end flags not excepted. A last code may stand alone. A field
that can be cut so is parsed to its end; what else it may be, an option of it is truncated.
-/
namespace NanoIp.Dhcp

/-- An option as it is cut out of a field. -/
structure Tlv where
  code : Byte
  value : List Byte
  deriving DecidableEq

def Tlv.bytes (o : Tlv) : List Byte := o.code :: BitVec.ofNat 8 o.value.length :: o.value

/-- A length that fits its byte. -/
def Tlv.Fits (o : Tlv) : Prop := o.value.length < 2 ^ 8

/-- A field and the options that are cut out of it. -/
inductive Cut : List Byte → List Tlv → Prop
  | nil : Cut [] []
  | alone (code : Byte) : Cut [code] [⟨code, []⟩]
  | cons {rest : List Byte} {os : List Tlv} (o : Tlv) (ho : o.Fits) (h : Cut rest os) :
      Cut (o.bytes ++ rest) (o :: os)

/-- Every length in the field is followed by as many bytes. -/
def Cuttable (field : List Byte) : Prop := ∃ os, Cut field os

def left (p : Packet) : List Byte := p.bytes p.current p.count.toNat

section Left

variable {p q : Packet} {c s : Byte} {rest : List Byte}

@[simp] theorem left_length (p : Packet) : (left p).length = p.count.toNat := Packet.bytes_length ..

theorem left_skip {size : BitVec 16} (h : size ≤ p.count) :
    left (p.readSkipBytes size) = (left p).drop size.toNat := by
  have hcount : (p.count - size).toNat = p.count.toNat - size.toNat := BitVec.toNat_sub_of_le h
  have hsplit : left p = p.bytes p.current size.toNat ++
      p.bytes (p.current + size.toNat) (p.count.toNat - size.toNat) := by
    rw [left, ← Packet.bytes_append, Nat.add_sub_cancel' h]
  rw [hsplit, List.drop_left' (Packet.bytes_length ..), ← hcount]
  rfl

theorem left_cons (h : left p = c :: rest) :
    1#16 ≤ p.count ∧ p.byteAt 0 = c ∧ left (p.readSkipBytes 1#16) = rest := by
  have hlen := left_length p
  rw [h, List.length_cons] at hlen
  have hle : 1#16 ≤ p.count := by
    rw [BitVec.le_def]
    change 1 ≤ _
    omega
  refine ⟨hle, ?_, ?_⟩
  · have hget : (left p)[0]? = some c := by rw [h]; rfl
    obtain ⟨hlt, hget⟩ := List.getElem?_eq_some_iff.mp hget
    exact (Packet.bytes_getElem p p.current p.count.toNat 0 hlt).symm.trans hget
  · rw [left_skip hle, h]
    rfl

theorem left_nil (h : left p = []) : ¬ 1#16 ≤ p.count := by
  have hlen := left_length p
  rw [h] at hlen
  rw [BitVec.le_def, ← hlen]
  decide

end Left

section Parse

variable {p : Packet} {c s : Byte} {rest : List Byte}

theorem parseMessageOption_nil (h : left p = []) : parseMessageOption p = none :=
  if_neg (left_nil h)

theorem parseMessageOption_alone (h : left p = [c]) :
    ∃ q, parseMessageOption p = some (⟨c, 0#8, none⟩, q) ∧ left q = [] := by
  obtain ⟨hle, hcode, hrest⟩ := left_cons h
  refine ⟨(p.readSkipBytes 1#16).readSkipBytes 0#16, ?_, ?_⟩
  · rw [parseMessageOption, if_pos hle]
    dsimp only [Packet.read8bits]
    rw [if_neg (left_nil hrest), hcode]
  · rw [left_skip (Nat.zero_le _), hrest]
    rfl

/-- An option with a length: its data begin behind it, if anything stands there, and the packet
goes on where they are said to end. -/
theorem parseMessageOption_sized (h : left p = c :: s :: rest) :
    ∃ q, parseMessageOption p =
        some (⟨c, s, if rest = [] then none else some q⟩, q.readSkipBytes (s.zeroExtend 16)) ∧
      left q = rest ∧ q.current = p.current + 2 ∧ q.data = p.data := by
  obtain ⟨hle, hcode, hrest⟩ := left_cons h
  obtain ⟨hle', hsize, hrest'⟩ := left_cons hrest
  refine ⟨(p.readSkipBytes 1#16).readSkipBytes 1#16, ?_, hrest', rfl, rfl⟩
  rw [parseMessageOption, if_pos hle]
  dsimp only [Packet.read8bits]
  rw [if_pos hle', hcode, hsize]
  cases rest with
  | nil => rw [if_neg (left_nil hrest'), if_pos rfl]
  | cons b rest => rw [if_pos (left_cons hrest').1, if_neg (List.cons_ne_nil b rest)]

end Parse

section Loop

variable {α : Type} {handle : α → MsgOption → Option α} {apply : α → Tlv → α}

/-- The body of a loop does to an option what `apply` says, wherever its value stands. -/
def Handles (handle : α → MsgOption → Option α) (apply : α → Tlv → α) : Prop :=
  ∀ (a : α) (o : Tlv) (data : Option Packet), o.Fits →
    (o.value ≠ [] → ∃ q, data = some q ∧ q.bytes q.current o.value.length = o.value) →
      handle a ⟨o.code, BitVec.ofNat 8 o.value.length, data⟩ = some (apply a o)

theorem Tlv.Fits.size {o : Tlv} (ho : o.Fits) :
    ((BitVec.ofNat 8 o.value.length).zeroExtend 16).toNat = o.value.length := by
  rw [BitVec.zeroExtend, BitVec.toNat_setWidth, BitVec.toNat_ofNat, Nat.mod_eq_of_lt ho,
    Nat.mod_eq_of_lt (Nat.lt_trans ho (by decide))]

/-- One turn of the loop on an option that is there. -/
theorem optionLoop_cons (hh : Handles handle apply) {p : Packet} {o : Tlv} (ho : o.Fits)
    {rest : List Byte} (h : left p = o.bytes ++ rest) :
    ∃ q, left q = rest ∧ q.current + q.count.toNat = p.current + p.count.toNat ∧ q.data = p.data ∧
      ∀ fuel a, optionLoop handle (fuel + 1) a p = optionLoop handle fuel (apply a o) q := by
  have hbytes : left p = o.code :: BitVec.ofNat 8 o.value.length :: (o.value ++ rest) := h
  obtain ⟨q, hparse, hleft, hcurrent, hdata⟩ := parseMessageOption_sized hbytes
  have hlen := left_length q
  have hlen' := left_length p
  rw [hleft, List.length_append] at hlen
  rw [hbytes, List.length_cons, List.length_cons, List.length_append] at hlen'
  have hsize := ho.size
  have hle : (BitVec.ofNat 8 o.value.length).zeroExtend 16 ≤ q.count := by
    rw [BitVec.le_def, hsize]
    omega
  have hcount : (q.count - (BitVec.ofNat 8 o.value.length).zeroExtend 16).toNat =
      q.count.toNat - o.value.length := by
    rw [BitVec.toNat_sub_of_le hle, hsize]
  refine ⟨q.readSkipBytes ((BitVec.ofNat 8 o.value.length).zeroExtend 16), ?_, ?_, hdata,
    fun fuel a => ?_⟩
  · rw [left_skip hle, hleft, hsize, List.drop_left]
  · change q.current + BitVec.toNat _ + (q.count - _).toNat = _
    rw [hcount, hsize, hcurrent]
    omega
  · have hvalue : o.value ≠ [] → ∃ q', (if o.value ++ rest = [] then none else some q) = some q' ∧
        q'.bytes q'.current o.value.length = o.value := by
      intro hne
      refine ⟨q, if_neg fun happ => hne (List.append_eq_nil_iff.mp happ).1, ?_⟩
      have hsplit : q.bytes q.current (o.value.length + rest.length) = o.value ++ rest := by
        rw [hlen]
        exact hleft
      rw [Packet.bytes_append] at hsplit
      exact (List.append_inj hsplit (Packet.bytes_length ..)).1
    rw [optionLoop, hparse]
    dsimp only
    rw [hh a o _ ho hvalue]
    rfl

/-- The loop over a field that can be cut handles one option after the other. -/
theorem optionLoop_cut (hh : Handles handle apply) {field : List Byte} {os : List Tlv}
    (h : Cut field os) :
    ∀ {p : Packet}, left p = field → ∀ (a : α) {fuel : Nat}, os.length < fuel →
      optionLoop handle fuel a p = some (os.foldl apply a) := by
  induction h with
  | nil =>
    intro p hp a fuel hfuel
    obtain ⟨fuel, rfl⟩ : ∃ f, fuel = f + 1 := ⟨fuel - 1, by omega⟩
    rw [optionLoop, parseMessageOption_nil hp]
    rfl
  | alone code =>
    intro p hp a fuel hfuel
    obtain ⟨fuel, rfl⟩ : ∃ f, fuel = f + 2 := ⟨fuel - 2, by simp at hfuel; omega⟩
    obtain ⟨q, hparse, hq⟩ := parseMessageOption_alone hp
    rw [optionLoop, hparse]
    dsimp only
    have hhandle := hh a ⟨code, []⟩ none (Nat.two_pow_pos 8) fun hne => absurd rfl hne
    rw [show (0#8 : Byte) = BitVec.ofNat 8 (⟨code, []⟩ : Tlv).value.length from rfl, hhandle,
      Option.bind_some,
      optionLoop, parseMessageOption_nil hq]
    rfl
  | cons o ho h ih =>
    intro p hp a fuel hfuel
    obtain ⟨fuel, rfl⟩ : ∃ f, fuel = f + 1 := ⟨fuel - 1, by simp at hfuel; omega⟩
    obtain ⟨q, hq, -, -, hloop⟩ := optionLoop_cons hh ho hp
    rw [hloop, ih hq (apply a o) (by simpa using hfuel)]
    rfl

end Loop

section Values

/-- The number that four bytes are. -/
def long (value : List Byte) : BitVec 32 :=
  ((value.getD 0 0#8).zeroExtend 32 <<< 24) + ((value.getD 1 0#8).zeroExtend 32 <<< 16) +
    ((value.getD 2 0#8).zeroExtend 32 <<< 8) + (value.getD 3 0#8).zeroExtend 32

def Tlv.store {α : Type} (o : Tlv) (size : Byte) (a : α) (set : List Byte → α) : α :=
  if o.value.length = size.toNat then set o.value else a

/-- What an option says of an offer. -/
def Options.with (x : Options) (o : Tlv) : Options :=
  if o.code = requestTypeOption then
    o.store requestTypeOptionSize x fun v => { x with msgType := v.getD 0 0#8 }
  else if o.code = serverIdOption then o.store serverIdOptionSize x fun v =>
    { x with serverId := some (long v) }
  else if o.code = subnetMaskOption then o.store subnetMaskOptionSize x fun v =>
    { x with netmask := some (long v) }
  else if o.code = routerOption then o.store routerOptionSize x fun v =>
    { x with gateway := some (long v) }
  else if o.code = leaseTimeOption then o.store leaseTimeOptionSize x fun v =>
    { x with leaseTime := some (long v) }
  else if o.code = renewalTimeOption then
    o.store renewalTimeOptionSize x fun v => { x with renewalTime := some (long v) }
  else if o.code = rebindingTimeOption then
    o.store rebindingTimeOptionSize x fun v => { x with rebindingTime := some (long v) }
  else if o.code = endFlagOption then { x with ended := true }
  else x

/-- What it says of an acknowledgement. -/
def Ack.with (x : Ack) (o : Tlv) : Ack :=
  if o.code = requestTypeOption then o.store requestTypeOptionSize x fun v =>
    { x with msgType := v.getD 0 0#8 }
  else if o.code = endFlagOption then { x with ended := true }
  else x

theorem bytes_getD (q : Packet) {n i : Nat} (h : i < n) :
    (q.bytes q.current n).getD i 0#8 = q.byteAt i := by
  have hlt : i < (q.bytes q.current n).length := by rwa [Packet.bytes_length]
  rw [List.getD_eq_getElem?_getD, List.getElem?_eq_getElem hlt, Option.getD_some]
  exact Packet.bytes_getElem ..

theorem long_bytes (q : Packet) : long (q.bytes q.current 4) = q.longAt 0 := by
  rw [long, bytes_getD q (by decide), bytes_getD q (by decide), bytes_getD q (by decide),
    bytes_getD q (by decide)]
  rfl

variable {α β : Type}

/-- A case of the switches on an option whose value is where the data are. -/
theorem MsgOption.store_tlv {o : Tlv} (ho : o.Fits) {data : Option Packet} {size : Byte}
    (hpos : size ≠ 0#8)
    (hvalue : o.value ≠ [] → ∃ q, data = some q ∧ q.bytes q.current o.value.length = o.value)
    {read : Packet → β} {value : List Byte → β}
    (hread : ∀ q, read q = value (q.bytes q.current size.toNat)) (a : α) (set : β → α) :
    MsgOption.store ⟨o.code, BitVec.ofNat 8 o.value.length, data⟩ size read a set =
      some (o.store size a fun v => set (value v)) := by
  have hlen : (BitVec.ofNat 8 o.value.length).toNat = o.value.length := by
    rw [BitVec.toNat_ofNat, Nat.mod_eq_of_lt ho]
  have hiff : BitVec.ofNat 8 o.value.length = size ↔ o.value.length = size.toNat := by
    rw [← BitVec.toNat_inj, hlen]
  rw [MsgOption.store, Tlv.store]
  by_cases hs : o.value.length = size.toNat
  · have hne : o.value ≠ [] := by
      intro hnil
      rw [hnil, List.length_nil] at hs
      exact hpos (BitVec.eq_of_toNat_eq hs.symm)
    obtain ⟨q, rfl, hq⟩ := hvalue hne
    rw [if_pos (hiff.mpr hs), if_pos hs, Option.map_some, hread, ← hs, hq]
  · rw [if_neg fun h => hs (hiff.mp h), if_neg hs]

theorem ite_some {c : Prop} [Decidable c] {a b : Option α} {a' b' : α} (ha : a = some a')
    (hb : b = some b') :
    (if c then a else b) = some (if c then a' else b') := by
  rw [ha, hb]
  exact (apply_ite some c a' b').symm

theorem msgType_bytes (q : Packet) :
    q.byteAt 0 = (q.bytes q.current requestTypeOptionSize.toNat).getD 0 0#8 :=
  (bytes_getD q (by decide)).symm

theorem read_handles : Handles Options.read Options.with := by
  intro x o data ho hvalue
  rw [Options.read, Options.with]
  refine ite_some ?_ (ite_some ?_ (ite_some ?_ (ite_some ?_ (ite_some ?_ (ite_some ?_ (ite_some ?_
    (ite_some rfl rfl)))))))
  · exact MsgOption.store_tlv ho (by decide) hvalue msgType_bytes x _
  all_goals exact MsgOption.store_tlv ho (by decide) hvalue (fun q => (long_bytes q).symm) x _

theorem ack_handles : Handles ackOption Ack.with := by
  intro x o data ho hvalue
  rw [ackOption, Ack.with]
  exact ite_some (MsgOption.store_tlv ho (by decide) hvalue msgType_bytes x _) (ite_some rfl rfl)

theorem offerLoop_from (fuel : Nat) (x : Offer) (p : Packet) :
    optionLoop offerOption fuel x p =
      (optionLoop Options.read fuel ⟨x.msgType, x.ended, none, none, none, none, none, none⟩
        p).map fun y =>
        ⟨x.client.taking y, y.msgType, y.ended⟩ :=
  optionLoop_map (fun y : Options => (⟨x.client.taking y, y.msgType, y.ended⟩ : Offer))
    (fun y o => offerOption_taking x.client y o) fuel
      ⟨x.msgType, x.ended, none, none, none, none, none, none⟩ p

end Values

theorem Cut.length_le {field : List Byte} {os : List Tlv} (h : Cut field os) :
    os.length ≤ field.length := by
  induction h with
  | nil => exact Nat.le_refl _
  | alone code => exact Nat.le_refl _
  | cons o ho h ih =>
    rw [List.length_cons, List.length_append, Tlv.bytes, List.length_cons]
    omega

theorem cut_cons (c : Byte) {s : Byte} {rest : List Byte} {os : List Tlv}
    (hs : s.toNat ≤ rest.length) (h : Cut (rest.drop s.toNat) os) :
    Cut (c :: s :: rest) (⟨c, rest.take s.toNat⟩ :: os) := by
  have hlen : (rest.take s.toNat).length = s.toNat := List.length_take_of_le hs
  let o : Tlv := ⟨c, rest.take s.toNat⟩
  have hbytes : c :: s :: rest = o.bytes ++ rest.drop s.toNat := by
    rw [Tlv.bytes, hlen, BitVec.ofNat_toNat, BitVec.setWidth_eq, List.cons_append, List.cons_append,
      List.take_append_drop]
  rw [hbytes]
  refine .cons o ?_ h
  rw [Tlv.Fits, hlen]
  exact s.isLt

theorem Cut.head {c s : Byte} {rest : List Byte} {os : List Tlv} (h : Cut (c :: s :: rest) os) :
    s.toNat ≤ rest.length ∧ ∃ os', os = ⟨c, rest.take s.toNat⟩ :: os' ∧
      Cut (rest.drop s.toNat) os' := by
  generalize hfield : c :: s :: rest = field at h
  cases h with
  | nil | alone => simp at hfield
  | @cons rest' os' o ho h =>
    obtain ⟨rfl, hbehind⟩ : c = o.code ∧ s :: rest = BitVec.ofNat 8 o.value.length ::
      (o.value ++ rest') :=
      List.cons_eq_cons.mp hfield
    obtain ⟨rfl, rfl⟩ := List.cons_eq_cons.mp hbehind
    have hlen : (BitVec.ofNat 8 o.value.length).toNat = o.value.length := by
      rw [BitVec.toNat_ofNat, Nat.mod_eq_of_lt ho]
    rw [hlen, List.take_left, List.drop_left, List.length_append]
    exact ⟨Nat.le_add_right _ _, os', rfl, h⟩

/-- A field that cannot be cut has an option, behind others, that is longer than the field. -/
theorem cuttable_or_truncated (field : List Byte) : Cuttable field ∨
    ∃ (pre : List Tlv) (c s : Byte) (part : List Byte), (∀ o ∈ pre, o.Fits) ∧
      field = pre.flatMap Tlv.bytes ++ c :: s :: part ∧ part.length < s.toNat := by
  induction hn : field.length using Nat.strongRecOn generalizing field with
  | ind n ih =>
    match field with
    | [] => exact .inl ⟨[], .nil⟩
    | [c] => exact .inl ⟨[⟨c, []⟩], .alone c⟩
    | c :: s :: rest =>
      by_cases hs : s.toNat ≤ rest.length
      · have hlen : (rest.take s.toNat).length = s.toNat := List.length_take_of_le hs
        let o : Tlv := ⟨c, rest.take s.toNat⟩
        have ho : o.Fits := by
          rw [Tlv.Fits, hlen]
          exact s.isLt
        have hbytes : c :: s :: rest = o.bytes ++ rest.drop s.toNat := by
          rw [Tlv.bytes, hlen, BitVec.ofNat_toNat, BitVec.setWidth_eq, List.cons_append,
            List.cons_append,
            List.take_append_drop]
        rw [hbytes]
        rcases ih (rest.drop s.toNat).length (by simp at hn ⊢; omega) (rest.drop s.toNat) rfl with
          ⟨os, hcut⟩ | ⟨pre, c', s', part, hfits, hfield, hlt⟩
        · exact .inl ⟨o :: os, .cons o ho hcut⟩
        · refine .inr ⟨o :: pre, c', s', part, ?_, ?_, hlt⟩
          · intro o' ho'
            rcases List.mem_cons.mp ho' with rfl | ho'
            · exact ho
            · exact hfits o' ho'
          · rw [hfield, List.flatMap_cons, List.append_assoc]
      · exact .inr ⟨[], c, s, rest, fun _ h => (List.not_mem_nil h).elim, rfl, Nat.lt_of_not_le hs⟩

end NanoIp.Dhcp
