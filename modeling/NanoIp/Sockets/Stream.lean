import NanoIp.Sockets.Receive
import NanoIp.Sockets.Callback
import NanoIp.Lib.Run

/-!
# The byte stream of a TCP socket

The copy loop limits what it reads from a packet by the size of the whole request,
not by what is left of it. It keeps the stream as long as no packet behind the first
is cut by the end of the request, and overruns the buffer as soon as one is.
-/
namespace NanoIp.Sockets

variable {n k : Nat}

/-- Packets with something left to read. -/
def Unread (q : List RxPacket) : Prop := ∀ p ∈ q, p.packet.count ≠ 0#16

def ids (q : List RxPacket) : List PacketId := q.map RxPacket.id

/-- The end of the request, `room` bytes on, falls inside a packet of the queue. -/
def Cuts (room : Nat) (q : List RxPacket) : Prop :=
  ∃ before p after, q = before ++ p :: after ∧ (contents before).length < room ∧
    room < (contents before).length + p.content.length

/-- The end of the request falls inside a packet behind the first. -/
def CutsLater (size : Nat) (q : List RxPacket) : Prop :=
  ∃ first later, q = first :: later ∧ first.content.length < size ∧
    Cuts (size - first.content.length) later

/-- From `c` on, exactly the next `room` bytes of the queue were copied, and the
packets they emptied were released. -/
structure Takes (room : Nat) (q : List RxPacket) (c c' : Copied) : Prop where
  received : c'.received = c.received + min room (contents q).length
  bytes : c'.bytes = c.bytes ++ (contents q).take room
  rest : contents c'.queue = (contents q).drop room
  unread : Unread c'.queue
  emptied : ∃ j, c'.released = c.released ++ ids (q.take j) ∧ ids c'.queue = ids (q.drop j)

theorem contents_cons (p : RxPacket) (q : List RxPacket) :
    contents (p :: q) = p.content ++ contents q := rfl

theorem Unread.tail {p : RxPacket} {q : List RxPacket} (h : Unread (p :: q)) : Unread q :=
  fun r hr => h r (List.mem_cons_of_mem p hr)

theorem Unread.pos {p : RxPacket} {q : List RxPacket} (h : Unread (p :: q)) :
    0 < p.content.length := by
  have hne := h p List.mem_cons_self
  rw [content_length]
  refine Nat.pos_of_ne_zero fun hz => hne (BitVec.eq_of_toNat_eq ?_)
  rw [hz]
  rfl

theorem Cuts.cons {room : Nat} {p : RxPacket} {q : List RxPacket} (hle : p.content.length ≤ room)
    (h : Cuts (room - p.content.length) q) : Cuts room (p :: q) := by
  obtain ⟨before, r, after, rfl, hlt, hgt⟩ := h
  refine ⟨p :: before, r, after, rfl, ?_, ?_⟩
  · rw [contents_cons, List.length_append]
    omega
  · rw [contents_cons, List.length_append]
    omega

theorem Cuts.of_cons {room : Nat} {p : RxPacket} {q : List RxPacket} (h : Cuts room (p :: q)) :
    (0 < room ∧ room < p.content.length) ∨
      (p.content.length < room ∧ Cuts (room - p.content.length) q) := by
  obtain ⟨before, r, after, hq, hlt, hgt⟩ := h
  cases before with
  | nil =>
    obtain ⟨rfl, -⟩ := List.cons.inj hq
    have hzero : (contents []).length = 0 := rfl
    exact .inl ⟨by omega, by omega⟩
  | cons b before =>
    obtain ⟨rfl, rfl⟩ := List.cons.inj hq
    rw [contents_cons, List.length_append] at hlt hgt
    exact .inr ⟨by omega, before, r, after, rfl, by omega, by omega⟩

theorem cuts_cons_iff {room : Nat} {p : RxPacket} {q : List RxPacket} : Cuts room (p :: q) ↔
    (0 < room ∧ room < p.content.length) ∨
      (p.content.length < room ∧ Cuts (room - p.content.length) q) := by
  refine ⟨Cuts.of_cons, ?_⟩
  rintro (⟨hpos, hlt⟩ | ⟨hle, h⟩)
  · exact ⟨[], p, q, rfl, hpos, Nat.lt_of_lt_of_le hlt (Nat.le_add_left _ _)⟩
  · exact h.cons (Nat.le_of_lt hle)

instance decidableCuts : ∀ (room : Nat) (q : List RxPacket), Decidable (Cuts room q)
  | _, [] => .isFalse fun ⟨_, _, _, hq, _⟩ => by simp at hq
  | room, p :: q =>
    have := decidableCuts (room - p.content.length) q
    decidable_of_iff _ cuts_cons_iff.symm

theorem cutsLater_cons_iff {size : Nat} {p : RxPacket} {q : List RxPacket} :
    CutsLater size (p :: q) ↔
    p.content.length < size ∧ Cuts (size - p.content.length) q := by
  constructor
  · rintro ⟨first, later, hq, hlt, hcut⟩
    obtain ⟨rfl, rfl⟩ := List.cons.inj hq
    exact ⟨hlt, hcut⟩
  · rintro ⟨hlt, hcut⟩
    exact ⟨p, q, rfl, hlt, hcut⟩

instance : ∀ (size : Nat) (q : List RxPacket), Decidable (CutsLater size q)
  | _, [] => .isFalse fun ⟨_, _, hq, _⟩ => by cases hq
  | _, _ :: _ => decidable_of_iff _ cutsLater_cons_iff.symm

instance (q : List RxPacket) : Decidable (Unread q) :=
  inferInstanceAs (Decidable (∀ p ∈ q, p.packet.count ≠ 0#16))

/-- Nothing is taken when nothing is wanted, or nothing is there. -/
theorem Takes.nothing {room : Nat} {q : List RxPacket} {c : Copied} (h : room = 0 ∨ q = [])
    (hu : Unread q) (hc : c.queue = q) : Takes room q c c := by
  have hlen : min room (contents q).length = 0 := by
    rcases h with rfl | rfl
    · exact Nat.zero_min _
    · exact Nat.min_zero _
  have htake : (contents q).take room = [] := by
    rcases h with rfl | rfl
    · exact List.take_zero
    · exact List.take_nil
  have hdrop : (contents q).drop room = contents q := by
    rcases h with rfl | rfl
    · exact List.drop_zero
    · exact List.drop_nil
  refine ⟨?_, ?_, ?_, by rwa [hc], 0, ?_⟩
  · rw [hlen, Nat.add_zero]
  · rw [htake, List.append_nil]
  · rw [hc, hdrop]
  · rw [hc]
    simp [ids]

theorem Takes.cons {room : Nat} {p : RxPacket} {q : List RxPacket} {c c' : Copied}
    (hle : p.content.length ≤ room)
    (ht : Takes (room - p.content.length) q
      ⟨c.received + p.content.length, c.bytes ++ p.content, q, c.released ++ [p.id]⟩ c') :
    Takes room (p :: q) c c' := by
  obtain ⟨j, hrel, hids⟩ := ht.emptied
  refine ⟨?_, ?_, ?_, ht.unread, j + 1, ?_, ?_⟩
  · rw [ht.received, contents_cons, List.length_append]
    show c.received + p.content.length + _ = _
    omega
  · rw [ht.bytes, contents_cons, List.take_append, List.append_assoc, List.take_of_length_le hle]
  · rw [ht.rest, contents_cons, List.drop_append, List.drop_of_length_le hle, List.nil_append]
  · rw [hrel, List.append_assoc]
    rfl
  · exact hids

/-- The loop behind its first packet, with `size - c.received` bytes left to read:
packet after packet is taken whole. -/
theorem copyLoop_takes {size : Nat} {q : List RxPacket} :
    ∀ {fuel : Nat} {c : Copied}, c.received < size → c.queue = q → q ≠ [] → Unread q →
      q.length ≤ fuel → ¬ Cuts (size - c.received) q →
      ∃ c', copyLoop size fuel c = some c' ∧ Takes (size - c.received) q c c' := by
  induction q with
  | nil => intro _ _ _ _ hne; exact absurd rfl hne
  | cons p q ih =>
    intro fuel c hlt hq _ hu hfuel hcut
    obtain ⟨fuel, rfl⟩ : ∃ f, fuel = f + 1 := ⟨fuel - 1, by rw [List.length_cons] at hfuel; omega⟩
    have hle : p.content.length ≤ size - c.received := by
      by_contra hgt
      exact hcut ⟨[], p, q, rfl, by simp only [contents, List.flatMap_nil, List.length_nil]; omega,
        by simp only [contents, List.flatMap_nil, List.length_nil]; omega⟩
    have hwhole : copyPacket size c p q = _ :=
      copyPacket_whole c q (by rw [content_length] at hle; omega)
    simp only [copyLoop, hq, hwhole]
    by_cases hmore : c.received + p.content.length ≠ size ∧ q ≠ []
    · rw [if_pos hmore]
      obtain ⟨c', hc', ht⟩ := @ih fuel
        ⟨c.received + p.content.length, c.bytes ++ p.content, q, c.released ++ [p.id]⟩
        (by have := hmore.1; dsimp only; omega) rfl hmore.2 hu.tail
        (by rw [List.length_cons] at hfuel; omega)
        (fun h => hcut (Cuts.cons hle (by rwa [Nat.sub_sub])))
      refine ⟨c', hc', Takes.cons hle ?_⟩
      rw [Nat.sub_sub]
      exact ht
    · rw [if_neg hmore]
      refine ⟨_, rfl, Takes.cons hle (Takes.nothing ?_ hu.tail rfl)⟩
      by_cases hend : c.received + p.content.length = size
      · exact .inl (by omega)
      · exact .inr (by_contra fun hne => hmore ⟨hend, hne⟩)

/-- A request that cuts no packet behind the first takes its bytes. -/
theorem copyAll_takes {size : Nat} {q : List RxPacket} (hq : q ≠ []) (hu : Unread q)
    (hcut : ¬ CutsLater size q) : ∃ c, copyAll size q = some c ∧ Takes size q ⟨0, [], q, []⟩ c := by
  obtain ⟨p, q, rfl⟩ := List.exists_cons_of_ne_nil hq
  have hpos := hu.pos
  have hlen : (contents (p :: q)).length = p.content.length + (contents q).length := by
    rw [contents_cons, List.length_append]
  obtain ⟨fuel, hfuel⟩ : ∃ f, copyFuel (p :: q) = f + 1 := ⟨_, rfl⟩
  have hroom : q.length ≤ fuel := by
    rw [copyFuel, hlen, List.length_cons] at hfuel
    omega
  rw [copyAll, hfuel, copyLoop]
  by_cases hpart : size < p.content.length
  · -- the request ends inside the first packet
    obtain ⟨rest, hid, hrest, hne, hc⟩ :=
      copyPacket_part ⟨0, [], p :: q, []⟩ q (content_length p ▸ hpart)
    simp only [hc, Nat.zero_add, ne_eq, not_true_eq_false, false_and, ↓reduceIte]
    refine ⟨_, rfl, ?_, ?_, ?_, ?_, 0, ?_, ?_⟩
    · show size = 0 + min size (contents (p :: q)).length
      omega
    · rw [contents_cons, List.take_append_of_le_length (Nat.le_of_lt hpart)]
    · rw [contents_cons, contents_cons, List.drop_append_of_le_length (Nat.le_of_lt hpart), hrest]
    · intro r hr
      rcases List.mem_cons.mp hr with rfl | hr
      · exact hne
      · exact hu.tail r hr
    · rfl
    · simp [ids, hid]
  · have hle : p.content.length ≤ size := Nat.le_of_not_lt hpart
    have hwhole : copyPacket size ⟨0, [], p :: q, []⟩ p q = _ :=
      copyPacket_whole _ q (content_length p ▸ hle)
    simp only [hwhole]
    by_cases hmore : 0 + p.content.length ≠ size ∧ q ≠ []
    · rw [if_pos hmore]
      have hlt : p.content.length < size := by omega
      obtain ⟨c, hc, ht⟩ := @copyLoop_takes size q fuel
        ⟨0 + p.content.length, [] ++ p.content, q, [] ++ [p.id]⟩ (by simpa using hlt) rfl
          hmore.2 hu.tail
        hroom fun h => hcut ⟨p, q, rfl, hlt, by simpa using h⟩
      refine ⟨c, hc, Takes.cons hle ?_⟩
      simpa using ht
    · rw [if_neg hmore]
      refine ⟨_, rfl, Takes.cons hle (Takes.nothing ?_ hu.tail rfl)⟩
      by_cases hend : 0 + p.content.length = size
      · exact .inl (by omega)
      · exact .inr (by_contra fun hne => hmore ⟨hend, hne⟩)

theorem copyPacket_received (size : Nat) (c : Copied) (p : RxPacket) (q : List RxPacket) :
    (copyPacket size c p q).received = c.received + min size p.content.length := by
  have hread : (if size ≤ p.packet.count.toNat then size else p.packet.count.toNat) =
      min size p.content.length := by
    rw [content_length]
    split <;> omega
  rw [copyPacket, hread]
  dsimp only
  split <;> rfl

theorem copyLoop_received {size : Nat} :
    ∀ {fuel : Nat} {c c' : Copied}, copyLoop size fuel c = some c' → c.received ≤ c'.received := by
  intro fuel
  induction fuel with
  | zero => intro c c' h; cases h
  | succ fuel ih =>
    intro c c' h
    rw [copyLoop] at h
    cases hq : c.queue with
    | nil =>
      rw [hq] at h
      exact Nat.le_of_eq (congrArg Copied.received (Option.some.inj h))
    | cons p q =>
      rw [hq] at h
      dsimp only at h
      have hp := copyPacket_received size c p q
      split_ifs at h
      · have := ih h
        omega
      · rw [← Option.some.inj h]
        omega

/-- The loop writes as many bytes as it counts. -/
theorem copyLoop_length {size : Nat} :
    ∀ {fuel : Nat} {c c' : Copied}, copyLoop size fuel c = some c' → c.bytes.length = c.received →
      c'.bytes.length = c'.received := by
  intro fuel
  induction fuel with
  | zero => intro c c' h; cases h
  | succ fuel ih =>
    intro c c' h hc
    rw [copyLoop] at h
    cases hq : c.queue with
    | nil =>
      rw [hq] at h
      rw [← Option.some.inj h, hc]
    | cons p q =>
      rw [hq] at h
      dsimp only at h
      have hp : (copyPacket size c p q).bytes.length = (copyPacket size c p q).received := by
        by_cases hpart : size < p.packet.count.toNat
        · obtain ⟨rest, -, -, -, he⟩ := copyPacket_part c q hpart
          rw [he]
          simp only [List.length_append, List.length_take, hc, content_length]
          omega
        · rw [copyPacket_whole c q (Nat.le_of_not_lt hpart)]
          simp only [List.length_append, hc]
      split_ifs at h
      · exact ih h hp
      · rw [← Option.some.inj h, hp]

/-- The fuel suffices. -/
theorem copyLoop_isSome {size : Nat} (hsize : 0 < size) :
    ∀ {fuel : Nat} {c : Copied}, (contents c.queue).length + c.queue.length < fuel →
      (copyLoop size fuel c).isSome := by
  intro fuel
  induction fuel with
  | zero => intro c h; omega
  | succ fuel ih =>
    intro c h
    rw [copyLoop]
    cases hq : c.queue with
    | nil => rfl
    | cons p q =>
      dsimp only
      split_ifs
      · apply ih
        rw [hq, contents_cons, List.length_append, List.length_cons] at h
        by_cases hpart : size < p.packet.count.toNat
        · obtain ⟨rest, -, hrest, -, he⟩ := copyPacket_part c q hpart
          rw [he]
          dsimp only
          rw [contents_cons, List.length_append, hrest, List.length_drop, List.length_cons]
          rw [content_length] at h ⊢
          omega
        · rw [copyPacket_whole c q (Nat.le_of_not_lt hpart)]
          dsimp only
          omega
      · rfl

/-- A packet that the end of the request cuts overruns the buffer. -/
theorem copyLoop_overruns {size : Nat} {q : List RxPacket} :
    ∀ {fuel : Nat} {c c' : Copied}, 0 < c.received → c.received < size → c.queue = q →
      Cuts (size - c.received) q → copyLoop size fuel c = some c' → size < c'.received := by
  induction q with
  | nil =>
    intro fuel c c' _ _ _ hcut
    obtain ⟨before, _, _, hq, -⟩ := hcut
    simp at hq
  | cons p q ih =>
    intro fuel c c' hpos hlt hq hcut h
    cases fuel with
    | zero => cases h
    | succ fuel =>
      rw [copyLoop, hq] at h
      dsimp only at h
      have hp := copyPacket_received size c p q
      rcases hcut.of_cons with ⟨-, hcut⟩ | ⟨hle, hcut⟩
      · have hover : size < (copyPacket size c p q).received := by omega
        split_ifs at h
        · exact Nat.lt_of_lt_of_le hover (copyLoop_received h)
        · rw [← Option.some.inj h]
          exact hover
      · have hwhole : copyPacket size c p q = _ :=
          copyPacket_whole c q (by rw [content_length] at hle; omega)
        rw [hwhole] at h
        dsimp only at h
        have hne : q ≠ [] := by
          rintro rfl
          obtain ⟨before, _, _, hnil, -⟩ := hcut
          simp at hnil
        rw [if_pos ⟨by omega, hne⟩] at h
        refine ih ?_ ?_ rfl ?_ h
        · dsimp only; omega
        · dsimp only; omega
        · rwa [Nat.sub_sub] at hcut

/-- A request that cuts a packet behind the first overruns the buffer. -/
theorem copyAll_overruns {size : Nat} {q : List RxPacket} (hu : Unread q)
    (hcut : CutsLater size q) :
    ∃ c, copyAll size q = some c ∧ size < c.bytes.length := by
  obtain ⟨p, q, rfl, hlt, hlater⟩ := hcut
  have hpos := hu.pos
  obtain ⟨c, hc⟩ := Option.isSome_iff_exists.mp
    (@copyLoop_isSome size (by omega) (copyFuel (p :: q))
    ⟨0, [], p :: q, []⟩ (Nat.lt_succ_self _))
  refine ⟨c, hc, ?_⟩
  rw [copyLoop_length hc rfl]
  have hwhole : copyPacket size ⟨0, [], p :: q, []⟩ p q = _ :=
    copyPacket_whole _ q (content_length p ▸ Nat.le_of_lt hlt)
  have hne : q ≠ [] := by
    rintro rfl
    obtain ⟨before, _, _, hnil, -⟩ := hlater
    simp at hnil
  rw [copyFuel, copyLoop] at hc
  dsimp only at hc hwhole
  rw [hwhole] at hc
  dsimp only at hc
  rw [if_pos ⟨by omega, hne⟩] at hc
  refine copyLoop_overruns ?_ ?_ rfl ?_ hc
  · dsimp only; omega
  · dsimp only; omega
  · simpa using hlater

/-- `socketId` is the established TCP socket `i`. -/
structure IsEstablished (m : Module n k) (socketId : BitVec 32) (i : Fin n) : Prop where
  get : m.get socketId = some i
  type : (m.sockets i).type = .tcp
  state : (m.sockets i).tcp.state = .established

/-- A call with a buffer of `size` bytes has read the queue `q` as a byte stream. -/
structure Streams (size : Nat) (q : List RxPacket) (m m' : Module n k) (i : Fin n) (r : RxResult) :
    Prop where
  ret : q ≠ [] → r.ret = .success
  bound : r.bytes.length ≤ size
  received : r.received = min size (contents q).length
  bytes : r.bytes = (contents q).take size
  rest : contents (m'.sockets i).rxPackets = (contents q).drop size
  unread : Unread (m'.sockets i).rxPackets
  emptied : ∃ j, m'.released = m.released ++ ids (q.take j) ∧ ids (m'.sockets i).rxPackets =
    ids (q.drop j)

/-- Every call that returns has read a stream, and it returns if there is a packet. -/
def ReceivesStream (m : Module n k) (socketId : BitVec 32) (i : Fin n) (size : Nat) : Prop :=
  (∀ m' r, receiveFrom m socketId size = (m', .returns r) →
    Streams size (m.sockets i).rxPackets m m' i r) ∧
    ((m.sockets i).rxPackets ≠ [] → ∃ m' r, receiveFrom m socketId size = (m', .returns r))

theorem receiveFrom_established {m : Module n k} {socketId : BitVec 32} {i : Fin n} {size : Nat}
    (he : IsEstablished m socketId i) : receiveFrom m socketId size = receivePass m i size := by
  have hready : receiveReady (m.sockets i) = .success := by
    simp only [receiveReady, he.type, he.state, ↓reduceIte]
  simp only [receiveFrom, he.get, hready]

theorem receivePass_tcp {m : Module n k} {i : Fin n} {size : Nat} {c : Copied}
    (ht : (m.sockets i).type = .tcp) (hq : (m.sockets i).rxPackets ≠ [])
    (hc : copyAll size (m.sockets i).rxPackets = some c) :
    receivePass m i size = (m.takePackets i c.queue c.released,
      .returns ⟨.success, c.received, c.bytes, some (m.sockets i).tcp.dest⟩) := by
  obtain ⟨p, q, hpq⟩ := List.exists_cons_of_ne_nil hq
  rw [hpq] at hc
  simp only [receivePass, hpq, ht, hc]

theorem receivesStream_of_empty {m : Module n k} {socketId : BitVec 32} {i : Fin n} {size : Nat}
    (he : IsEstablished m socketId i) (hq : (m.sockets i).rxPackets = []) :
    ReceivesStream m socketId i size := by
  rw [ReceivesStream, receiveFrom_established he, hq]
  refine ⟨fun m' r hr => ?_, fun hne => absurd rfl hne⟩
  simp only [receivePass, hq] at hr
  split_ifs at hr
  · obtain ⟨rfl, hret⟩ := Prod.mk.inj hr
    obtain rfl := Pass.returns.inj hret
    refine ⟨fun hne => absurd rfl hne, Nat.zero_le _, ?_, ?_, ?_, ?_, 0, ?_, ?_⟩
    · exact (Nat.min_zero _).symm
    · exact List.take_nil.symm
    · rw [hq]
      exact List.drop_nil.symm
    · rw [hq]
      exact nofun
    · simp [ids]
    · rw [hq]
      rfl
  · cases (Prod.mk.inj hr).2

/-- A call on a queue with packets reads a stream exactly if the end of the request
cuts none of them behind the first. -/
theorem receivesStream_iff {m : Module n k} {socketId : BitVec 32} {i : Fin n} {size : Nat}
    (he : IsEstablished m socketId i) (hu : Unread (m.sockets i).rxPackets) :
    ReceivesStream m socketId i size ↔ ¬ CutsLater size (m.sockets i).rxPackets := by
  by_cases hq : (m.sockets i).rxPackets = []
  · refine iff_of_true (receivesStream_of_empty he hq) ?_
    rintro ⟨p, q, hpq, -⟩
    rw [hq] at hpq
    cases hpq
  constructor
  · rintro ⟨hall, -⟩ hcut
    obtain ⟨c, hc, hover⟩ := copyAll_overruns hu hcut
    have hs := hall _ _ ((receiveFrom_established he).trans (receivePass_tcp he.type hq hc))
    have := hs.bound
    dsimp only at this
    omega
  · intro hcut
    obtain ⟨c, hc, ht⟩ := copyAll_takes hq hu hcut
    have hpass := (receiveFrom_established he).trans (receivePass_tcp he.type hq hc)
    refine ⟨fun m' r hr => ?_, fun _ => ⟨_, _, hpass⟩⟩
    rw [hpass] at hr
    obtain ⟨rfl, hret⟩ := Prod.mk.inj hr
    obtain rfl := Pass.returns.inj hret
    have hsocket : ((m.takePackets i c.queue c.released).sockets i).rxPackets = c.queue := by
      rw [Module.takePackets, Module.modify_self]
    obtain ⟨j, hrel, hids⟩ := ht.emptied
    refine ⟨fun _ => rfl, ?_, ?_, ?_, ?_, ?_, j, ?_, ?_⟩
    · rw [ht.bytes]
      exact List.length_take_le _ _
    · rw [ht.received, Nat.zero_add]
    · rw [ht.bytes, List.nil_append]
    · rw [hsocket, ht.rest]
    · rw [hsocket]
      exact ht.unread
    · show m.released ++ c.released = _
      rw [hrel, List.nil_append]
    · rw [hsocket, hids]

section Runs

/-- What happens to an established socket: a packet arrives, or the application reads. -/
inductive StreamInput where
  | packet (p : RxPacket)
  | receive (size : Nat)

/-- TCP raises `TCP_EVENT_RX` for packets with data only. -/
def streamStep (socketId : BitVec 32) (i : Fin n) (m : Module n k) :
    StreamInput → Option (Module n k)
  | .packet p =>
    if p.packet.count ≠ 0#16 then some (tcpCallback m i .rx (some p) .success).1 else none
  | .receive size => some (receiveFrom m socketId size).1

/-- The bytes a call returns. -/
def Pass.bytes : Pass RxResult → List Byte
  | .returns r => r.bytes
  | .waits => []

/-- The bytes that arrived and the bytes that were read. -/
def countBytes (socketId : BitVec 32) (seen : List Byte × List Byte) (m : Module n k)
    (input : StreamInput) (_ : Module n k) : List Byte × List Byte :=
  match input with
  | .packet p => (seen.1 ++ p.content, seen.2)
  | .receive size => (seen.1, seen.2 ++ (receiveFrom m socketId size).2.bytes)

/-- No request cuts a packet behind the first. -/
def Uncut (i : Fin n) (m : Module n k) : StreamInput → Prop
  | .packet _ => True
  | .receive size => ¬ CutsLater size (m.sockets i).rxPackets

instance (i : Fin n) (m : Module n k) : ∀ input : StreamInput, Decidable (Uncut i m input)
  | .packet _ => .isTrue trivial
  | .receive size => inferInstanceAs (Decidable (¬ CutsLater size (m.sockets i).rxPackets))

/-- What the run keeps: the socket is as it was, and nothing of the stream is lost. -/
structure InStream (socketId : BitVec 32) (i : Fin n) (z : Module n k × List Byte × List Byte) :
    Prop where
  established : IsEstablished z.1 socketId i
  unread : Unread (z.1.sockets i).rxPackets
  stream : z.2.2 ++ contents (z.1.sockets i).rxPackets = z.2.1

variable {socketId : BitVec 32} {i : Fin n} {z : Module n k × List Byte × List Byte}

theorem IsEstablished.congr {m m' : Module n k} (he : IsEstablished m socketId i)
    (hf : (m'.sockets i).isFree = (m.sockets i).isFree)
    (ht : (m'.sockets i).type = (m.sockets i).type) (hc : (m'.sockets i).tcp = (m.sockets i).tcp) :
    IsEstablished m' socketId i := by
  refine ⟨Module.get_congr he.get hf, ht.trans he.type, ?_⟩
  rw [hc]
  exact he.state

theorem contents_append (q q' : List RxPacket) : contents (q ++ q') = contents q ++ contents q' :=
  List.flatMap_append

theorem InStream.packet (hi : InStream socketId i z) {p : RxPacket} (hp : p.packet.count ≠ 0#16) :
    InStream socketId i ((tcpCallback z.1 i .rx (some p) .success).1, z.2.1 ++ p.content,
      z.2.2) := by
  obtain ⟨-, hfree⟩ := Module.get_some hi.established.get
  have hsocket : (tcpCallback z.1 i .rx (some p) .success).1.sockets i =
      (queuePacket z.1 i p).sockets i := by
    have hqueued : ((queuePacket z.1 i p).sockets i).isFree = false := by
      rw [queuePacket, Module.setFlags, Module.modify_self, Module.modify_self]
      exact hfree
    simp only [tcpCallback, hfree, Bool.false_eq_true, ↓reduceIte, hqueued, notifyPoll_sockets]
  have hqueue : (queuePacket z.1 i p).sockets i = { z.1.sockets i with
      rxPackets := (z.1.sockets i).rxPackets ++ [p]
      syncFlags := (z.1.sockets i).syncFlags ||| eventRx } := by
    rw [queuePacket, Module.setFlags, Module.modify_self, Module.modify_self]
  rw [hqueue] at hsocket
  refine ⟨hi.established.congr ?_ ?_ ?_, ?_, ?_⟩
  · rw [hsocket]
  · rw [hsocket]
  · rw [hsocket]
  · rw [hsocket]
    intro r hr
    rcases List.mem_append.mp hr with hr | hr
    · exact hi.unread r hr
    · rw [List.mem_singleton.mp hr]
      exact hp
  · show z.2.2 ++ contents _ = z.2.1 ++ p.content
    rw [hsocket, ← hi.stream, List.append_assoc, contents_append]
    simp [contents]

theorem InStream.receive (hi : InStream socketId i z) {size : Nat}
    (hcut : ¬ CutsLater size (z.1.sockets i).rxPackets) :
    InStream socketId i ((receiveFrom z.1 socketId size).1, z.2.1,
      z.2.2 ++ (receiveFrom z.1 socketId size).2.bytes) := by
  have he := hi.established
  by_cases hq : (z.1.sockets i).rxPackets = []
  · have hsame : (receiveFrom z.1 socketId size).1 = z.1 := by
      rw [receiveFrom_established he]
      simp only [receivePass, hq]
    have hbytes : (receiveFrom z.1 socketId size).2.bytes = [] := by
      rw [receiveFrom_established he]
      simp only [receivePass, hq]
      split <;> rfl
    rw [hbytes, List.append_nil, hsame]
    exact hi
  · obtain ⟨c, hc, ht⟩ := copyAll_takes hq hi.unread hcut
    rw [receiveFrom_established he, receivePass_tcp he.type hq hc]
    have hsocket : (z.1.takePackets i c.queue c.released).sockets i =
        { z.1.sockets i with rxPackets := c.queue } := by
      rw [Module.takePackets, Module.modify_self]
    refine ⟨he.congr ?_ ?_ ?_, ?_, ?_⟩
    · rw [hsocket]
    · rw [hsocket]
    · rw [hsocket]
    · rw [hsocket]
      exact ht.unread
    · show (z.2.2 ++ c.bytes) ++ contents _ = z.2.1
      rw [hsocket, ht.rest, ht.bytes, List.nil_append, List.append_assoc, List.take_append_drop]
      exact hi.stream

/-- A call reads a stream exactly if the end of its request cuts no packet behind the
first of the queue; in a run of arrivals and such calls of any sizes the bytes read
and those still queued are the bytes that arrived, in order. -/
theorem receives_stream_iff :
    (∀ (m : Module n k) (socketId : BitVec 32) (i : Fin n) (size : Nat),
      IsEstablished m socketId i →
      Unread (m.sockets i).rxPackets →
      (ReceivesStream m socketId i size ↔ ¬ CutsLater size (m.sockets i).rxPackets)) ∧
    ∀ (m : Module n k) (socketId : BitVec 32) (i : Fin n) (z : Module n k × List Byte × List Byte),
      IsEstablished m socketId i → Unread (m.sockets i).rxPackets →
      Lib.Reach (Lib.observe (streamStep socketId i) (countBytes socketId)) (fun z => Uncut i z.1)
        (m, contents (m.sockets i).rxPackets, []) z →
      z.2.2 ++ contents (z.1.sockets i).rxPackets = z.2.1 := by
  refine ⟨fun m socketId i size he hu => receivesStream_iff he hu,
    fun m socketId i z he hu hr => ?_⟩
  refine (hr.invariant (I := InStream socketId i) ⟨he, hu, List.nil_append _⟩ ?_).stream
  intro z input z' hi hok hs
  obtain ⟨hs, hz⟩ := Lib.observe_some.mp hs
  cases input with
  | packet p =>
    rw [streamStep] at hs
    split_ifs at hs with hp
    have hnext := hi.packet hp
    rw [Option.some.inj hs] at hnext
    have hpair : z' = (z'.1, z.2.1 ++ p.content, z.2.2) := Prod.ext rfl hz
    rwa [hpair]
  | receive size =>
    have hnext := hi.receive hok
    rw [Option.some.inj hs] at hnext
    have hpair : z' = (z'.1, z.2.1, z.2.2 ++ (receiveFrom z.1 socketId size).2.bytes) :=
      Prod.ext rfl hz
    rwa [hpair]

end Runs

/-- A received packet that holds `bs`. -/
def packetOf (id : PacketId) (bs : List Byte) : RxPacket :=
  let size := BitVec.ofNat 16 bs.length
  ⟨id, ⟨fun i => bs.getD i 0#8, 0, size, size, 0#32, none⟩⟩

/-- One established TCP socket with the given packets. -/
def establishedWith (q : List RxPacket) : Module 1 1 :=
  (Module.init : Module 1 1).modify ⟨0, Nat.one_pos⟩ fun s => { s with
    isFree := false
    type := .tcp
    rxPackets := q
    tcp := ⟨.established, ⟨0x0A000002#32, 80#16⟩⟩ }

theorem establishedWith_isEstablished (q : List RxPacket) :
    IsEstablished (establishedWith q) 0#32 0 :=
  ⟨rfl, rfl, rfl⟩

/-- Packets of three and two bytes are read with a request for five; a sixth byte
arrives and stays. -/
theorem receives_stream_iff_five :
    ReceivesStream (establishedWith [packetOf 0 [1, 2, 3], packetOf 1 [4, 5]]) 0#32 0 5 ∧
    ∃ z : Module 1 1 × List Byte × List Byte, z.2.2 = [1, 2, 3, 4, 5] ∧ z.2.1 = [1, 2, 3, 4, 5, 6] ∧
      z.2.2 ++ contents (z.1.sockets 0).rxPackets = z.2.1 := by
  obtain ⟨hcall, hrun⟩ := receives_stream_iff (n := 1) (k := 1)
  constructor
  · exact (hcall _ _ 0 5 (establishedWith_isEstablished _) (by decide)).mpr (by decide)
  · obtain ⟨z, hr, hz⟩ := Lib.exists_of_runInputs
      (Lib.observe (streamStep 0#32 0) (countBytes 0#32)) (fun z => Uncut 0 z.1)
        (establishedWith [], [], [])
      [.packet (packetOf 0 [1, 2, 3]), .packet (packetOf 1 [4, 5]), .receive 5,
        .packet (packetOf 2 [6])]
      (fun z => z.2.2 = [1, 2, 3, 4, 5] ∧ z.2.1 = [1, 2, 3, 4, 5, 6]) (by decide)
    obtain ⟨hread, harrived⟩ := of_decide_eq_true hz
    exact ⟨z, hread, harrived, hrun _ _ 0 z (establishedWith_isEstablished _) (by decide) hr⟩

/-- A request for four bytes of packets of three and two writes five. -/
theorem request_overruns : ¬ ∀ (m : Module 1 1) (socketId : BitVec 32) (i : Fin 1) (size : Nat),
    IsEstablished m socketId i → Unread (m.sockets i).rxPackets →
      ReceivesStream m socketId i size := by
  intro hall
  have he := establishedWith_isEstablished [packetOf 0 [1, 2, 3], packetOf 1 [4, 5]]
  have hu : Unread ((establishedWith [packetOf 0 [1, 2, 3], packetOf 1 [4, 5]]).sockets
      0).rxPackets := by
    decide
  exact (receivesStream_iff he hu).mp (hall _ _ 0 4 he hu) (by decide)

end NanoIp.Sockets
