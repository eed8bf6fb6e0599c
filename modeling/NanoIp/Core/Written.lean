import NanoIp.Core.Checksum
import NanoIp.Core.Packet

/-!
# Headers written in front of a payload, and read back

Each layer writes its header over the bytes in front of the payload, with a zero
checksum, computes the checksum over what then stands there, and stores it in its place.
What a receiver reads at a distance from `current` is decided by the bytes that stand
there.
-/
namespace NanoIp.Packet

/-- The bytes `[offset, offset + len)` of a memory; `bytes` of a packet is that of its buffer. -/
theorem bytes_data (p q : Packet) {offset len : Nat}
    (h : ∀ i < len, p.data (offset + i) = q.data (offset + i)) :
    p.bytes offset len = q.bytes offset len :=
  List.map_congr_left fun i hi => h i (List.mem_range.mp hi)

theorem store_append (as bs : List Byte) : ∀ (mem : Nat → Byte) (start : Nat),
    store (store mem start as) (start + as.length) bs = store mem start (as ++ bs) := by
  induction as with
  | nil => intro mem start; rfl
  | cons a as ih =>
    intro mem start
    rw [List.cons_append, store, store, ← ih, List.length_cons, Nat.add_assoc, Nat.add_comm 1]

def withData (p : Packet) (data : Nat → Byte) : Packet := { p with data := data }

@[simp] theorem withData_data (p : Packet) (data : Nat → Byte) : (p.withData data).data = data :=
  rfl

theorem bytes_store (p : Packet) (start : Nat) (bs : List Byte) (n : Nat) :
    (p.withData (store p.data start bs)).bytes start (bs.length + n) =
      bs ++ p.bytes (start + bs.length) n := by
  rw [bytes_append]
  congr 1
  · refine List.ext_getElem (by simp) fun i h₁ h₂ => ?_
    rw [bytes_getElem]
    exact store_inside p.data bs start i h₂
  · exact bytes_data _ _ fun i _ => store_outside _ _ _ _ (.inr (by omega))

theorem bytes_store_behind (p : Packet) {start : Nat} {bs : List Byte} (new : List Byte)
    (h : p.bytes start bs.length = bs) :
    (p.withData (store p.data (start + bs.length) new)).bytes start (bs.length + new.length) =
      bs ++ new := by
  have hfirst : (p.withData (store p.data (start + bs.length) new)).bytes start bs.length =
    p.bytes start bs.length :=
    bytes_data _ p fun i hi => store_outside p.data new (start + bs.length) _ (.inl (by omega))
  have hwritten := p.bytes_store (start + bs.length) new 0
  rw [Nat.add_zero, show ∀ at_, p.bytes at_ 0 = [] from fun _ => rfl, List.append_nil] at hwritten
  rw [bytes_append, hfirst, h, hwritten]

/-- Bytes written inside a region replace those that stand there. -/
theorem bytes_store_inside (p : Packet) {start len : Nat} {before old after new : List Byte}
    (h : p.bytes start len = before ++ old ++ after) (hl : new.length = old.length) :
    (p.withData (store p.data (start + before.length) new)).bytes start len =
      before ++ new ++ after := by
  have hlen : len = before.length + (new.length + after.length) := by
    have h' := congrArg List.length h
    rw [bytes_length, List.length_append, List.length_append] at h'
    omega
  have hparts : before ++ old ++ after = p.bytes start before.length ++
      (p.bytes (start + before.length) new.length ++ p.bytes (start + before.length + new.length)
        after.length) := by
    rw [← h, hlen, bytes_append, bytes_append]
  rw [List.append_assoc] at hparts ⊢
  obtain ⟨hbefore, hrest⟩ := List.append_inj hparts (by simp)
  obtain ⟨-, hafter⟩ := List.append_inj hrest (by simp [hl])
  have hsame : (p.withData (store p.data (start + before.length) new)).bytes start before.length =
      p.bytes start before.length :=
    bytes_data _ _ fun i hi => store_outside p.data new (start + before.length) _ (.inl (by omega))
  rw [hlen, bytes_append, bytes_store, hsame, ← hbefore, ← hafter]

/-- Write a header with a zero checksum and store the checksum over it. -/
def writeChecksummed (p : Packet) (start : Nat) (pseudoHeader before after : List Byte)
    (len : Nat) : Packet :=
  let q := p.withData (store p.data start (before ++ [0#8, 0#8] ++ after))
  q.withData (store q.data (start + before.length)
    (checksumBytes (computeInternetCS pseudoHeader (q.bytes start len))))

theorem writeChecksummed_bytes (p : Packet) (start : Nat) (pseudoHeader before after : List Byte)
    (n : Nat) :
    (p.writeChecksummed start pseudoHeader before after
      (before.length + 2 + after.length + n)).bytes start
        (before.length + 2 + after.length + n) =
      before ++ checksumBytes (computeInternetCS pseudoHeader (before ++ [0#8, 0#8] ++
        (after ++ p.bytes (start + before.length + 2 + after.length) n))) ++
        (after ++ p.bytes (start + before.length + 2 + after.length) n) := by
  have hlen : (before ++ [0#8, 0#8] ++ after).length = before.length + 2 + after.length := by
    simp only [List.length_append, List.length_cons, List.length_nil]
  have hq := p.bytes_store start (before ++ [0#8, 0#8] ++ after) n
  rw [hlen, List.append_assoc _ after, ← Nat.add_assoc, ← Nat.add_assoc] at hq
  unfold writeChecksummed
  dsimp only
  rw [bytes_store_inside _ hq (show (checksumBytes _).length = 2 from rfl), hq]

theorem writeChecksummed_outside (p : Packet) (start : Nat) (pseudoHeader before after : List Byte)
    (len : Nat) {i : Nat} (hi : i < start ∨ start + before.length + 2 + after.length ≤ i) :
    (p.writeChecksummed start pseudoHeader before after len).data i = p.data i := by
  unfold writeChecksummed
  dsimp only [withData_data]
  rw [store_outside _ _ _ _ ?_, store_outside _ _ _ _ ?_]
  · simp only [List.length_append, List.length_cons, List.length_nil]
    omega
  · simp only [checksumBytes, List.length_cons, List.length_nil]
    omega

/-- A packet under construction: behind the headers' room stands the payload, which alone
is counted. -/
structure Composed (p : Packet) (room : Nat) (payload : List Byte) : Prop where
  count : p.count.toNat = payload.length
  current : p.current = room + payload.length
  bytes : p.bytes room payload.length = payload

theorem Composed.writeBuffer {p : Packet} {room : Nat} {payload : List Byte}
    (h : p.Composed room payload) (bs : List Byte) (hfit : payload.length + bs.length < 2 ^ 16) :
    (p.writeBuffer bs).Composed room (payload ++ bs) where
  count := by
    have hbs : (BitVec.ofNat 16 bs.length).toNat = bs.length := by
      rw [BitVec.toNat_ofNat, Nat.mod_eq_of_lt (by omega)]
    change (p.count + BitVec.ofNat 16 bs.length).toNat = _
    rw [BitVec.toNat_add_of_lt (by rw [h.count, hbs]; exact hfit), h.count, hbs, List.length_append]
  current := by
    change p.current + bs.length = _
    rw [h.current, List.length_append, Nat.add_assoc]
  bytes := by
    change (p.withData (store p.data p.current bs)).bytes room (payload ++ bs).length =
      payload ++ bs
    rw [List.length_append, h.current]
    exact p.bytes_store_behind bs h.bytes

theorem Composed.writes {room : Nat} (writes : List (List Byte)) :
    ∀ {p : Packet} {payload : List Byte},
    p.Composed room payload → payload.length + writes.flatten.length < 2 ^ 16 →
    (writes.foldl Packet.writeBuffer p).Composed room (payload ++ writes.flatten) ∧
      (writes.foldl Packet.writeBuffer p).netIf = p.netIf := by
  induction writes with
  | nil =>
    intro p payload h _
    rw [List.flatten_nil, List.append_nil]
    exact ⟨h, rfl⟩
  | cons bs writes ih =>
    intro p payload h hfit
    rw [List.flatten_cons, List.length_append] at hfit
    have hfirst := h.writeBuffer bs (by omega)
    obtain ⟨hall, hnetIf⟩ := ih hfirst (by rw [List.length_append]; omega)
    rw [List.append_assoc] at hall
    exact ⟨hall, hnetIf⟩

/-- From `current` on, at a distance, stand these bytes. -/
def Holds (p : Packet) (i : Nat) (bs : List Byte) : Prop := p.bytes (p.current + i) bs.length = bs

variable {p : Packet} {i : Nat} {as bs : List Byte}

theorem holds_append : p.Holds i (as ++ bs) ↔ p.Holds i as ∧ p.Holds (i + as.length) bs := by
  unfold Holds
  rw [List.length_append, bytes_append, Nat.add_assoc]
  constructor
  · intro h
    exact List.append_inj h (by simp)
  · rintro ⟨h₁, h₂⟩
    rw [h₁, h₂]

theorem holds_readSkipBytes (size : BitVec 16) :
    (p.readSkipBytes size).Holds i bs ↔ p.Holds (size.toNat + i) bs := by
  unfold Holds
  rw [show (p.readSkipBytes size).current + i =
    p.current + (size.toNat + i) from Nat.add_assoc _ _ _]
  exact Iff.rfl

theorem Holds.getElem (h : p.Holds i bs) {j : Nat} (hj : j < bs.length) :
    p.byteAt (i + j) = bs[j] := by
  have hlt : j < (p.bytes (p.current + i) bs.length).length := by simpa using hj
  have hj' : (p.bytes (p.current + i) bs.length)[j] = bs[j] := by
    congr 1
  rw [← hj', bytes_getElem, byteAt, Nat.add_assoc]

theorem Holds.byteAt {b : Byte} (h : p.Holds i (b :: bs)) : p.byteAt i = b :=
  h.getElem (j := 0) (by simp)

theorem Holds.tail {b : Byte} (h : p.Holds i (b :: bs)) : p.Holds (i + 1) bs := by
  have hsplit : p.Holds i ([b] ++ bs) := h
  exact (holds_append.mp hsplit).2

theorem byteAt_congr {q : Packet} {j : Nat} (hdata : p.data = q.data)
    (hcurrent : p.current + i = q.current + j) :
    p.byteAt i = q.byteAt j := by
  rw [Packet.byteAt, Packet.byteAt, hdata, hcurrent]

theorem wordAt_congr {q : Packet} {j : Nat} (hdata : p.data = q.data)
    (hcurrent : p.current + i = q.current + j) :
    p.wordAt i = q.wordAt j := by
  rw [Packet.wordAt, Packet.wordAt, byteAt_congr hdata hcurrent,
    byteAt_congr (j := j + 1) hdata (by omega)]

theorem longAt_congr {q : Packet} {j : Nat} (hdata : p.data = q.data)
    (hcurrent : p.current + i = q.current + j) :
    p.longAt i = q.longAt j := by
  rw [Packet.longAt, Packet.longAt, byteAt_congr hdata hcurrent,
    byteAt_congr (j := j + 1) hdata (by omega),
    byteAt_congr (j := j + 2) hdata (by omega), byteAt_congr (j := j + 3) hdata (by omega)]

theorem be16_word (v : BitVec 16) :
    (((v >>> 8).truncate 8 : Byte).zeroExtend 16 <<< 8) + (v.truncate 8 : Byte).zeroExtend
      16 = v := by
  apply BitVec.eq_of_toNat_eq
  have hv := v.isLt
  simp only [BitVec.truncate_eq_setWidth, BitVec.toNat_add, BitVec.toNat_shiftLeft,
    BitVec.toNat_setWidth, BitVec.toNat_ushiftRight, Nat.shiftRight_eq_div_pow, Nat.shiftLeft_eq]
  omega

theorem be32_long (v : BitVec 32) :
    (((v >>> 24).truncate 8 : Byte).zeroExtend 32 <<< 24) +
      (((v >>> 16).truncate 8 : Byte).zeroExtend 32 <<< 16) +
      (((v >>> 8).truncate 8 : Byte).zeroExtend 32 <<< 8) + (v.truncate 8 : Byte).zeroExtend
        32 = v := by
  apply BitVec.eq_of_toNat_eq
  have hv := v.isLt
  simp only [BitVec.truncate_eq_setWidth, BitVec.toNat_add, BitVec.toNat_shiftLeft,
    BitVec.toNat_setWidth, BitVec.toNat_ushiftRight, Nat.shiftRight_eq_div_pow, Nat.shiftLeft_eq]
  omega

theorem wordAt_eq_zero (h : p.wordAt i = 0#16) : p.byteAt i = 0#8 ∧ p.byteAt (i + 1) = 0#8 := by
  have hn := congrArg BitVec.toNat h
  have h₀ := (p.byteAt i).isLt
  have h₁ := (p.byteAt (i + 1)).isLt
  simp only [Packet.wordAt, BitVec.truncate_eq_setWidth, BitVec.toNat_add, BitVec.toNat_shiftLeft,
    BitVec.toNat_setWidth, BitVec.toNat_ofNat, Nat.shiftLeft_eq] at hn
  exact ⟨BitVec.eq_of_toNat_eq (by rw [BitVec.toNat_ofNat]; omega),
    BitVec.eq_of_toNat_eq (by rw [BitVec.toNat_ofNat]; omega)⟩

theorem Holds.wordAt {v : BitVec 16} (h : p.Holds i (be16 v)) : p.wordAt i = v := by
  have h₀ : p.byteAt i = (v >>> 8).truncate 8 := h.byteAt
  have h₁ : p.byteAt (i + 1) = v.truncate 8 := h.tail.byteAt
  rw [Packet.wordAt, h₀, h₁, be16_word]

theorem Holds.longAt {v : BitVec 32} (h : p.Holds i (be32 v)) : p.longAt i = v := by
  have h₀ : p.byteAt i = (v >>> 24).truncate 8 := h.byteAt
  have h₁ : p.byteAt (i + 1) = (v >>> 16).truncate 8 := h.tail.byteAt
  have h₂ : p.byteAt (i + 2) = (v >>> 8).truncate 8 := h.tail.tail.byteAt
  have h₃ : p.byteAt (i + 3) = v.truncate 8 := h.tail.tail.tail.byteAt
  rw [Packet.longAt, h₀, h₁, h₂, h₃, be32_long]

/-- The MAC address at a distance from `current`. -/
def macAt (p : Packet) (i : Nat) : MacAddress := Vector.ofFn fun j : Fin 6 => p.byteAt (i + j)

theorem Holds.macAt {mac : MacAddress} (h : p.Holds i mac.toList) : p.macAt i = mac := by
  apply Vector.ext
  intro j hj
  have hlen : j < mac.toList.length := by rwa [Vector.length_toList]
  have hb := h.getElem hlen
  rw [Packet.macAt, Vector.getElem_ofFn, hb, Vector.getElem_toList]

@[simp] theorem readSkipBytes_macAt (p : Packet) (size : BitVec 16) (i : Nat) :
    (p.readSkipBytes size).macAt i = p.macAt (size.toNat + i) := by
  simp only [macAt, readSkipBytes_byteAt, Nat.add_assoc]

end NanoIp.Packet
