import NanoIp.Tftp.Duplicates

/-!
# How a request is read

Both loops of `NANO_IP_TFTP_ProcessReadWriteRequest` look at a byte before they look at how
many are left, and the mode is compared no further than the bytes that follow it. A request is
read as it is meant if both its strings end in it, and if it either is exactly that of a
transfer of octets or shows that it is not within as many characters as are left.
-/
namespace NanoIp.Tftp

open Packet (be16)

/-- The places of the bytes that `skipString` looks at. -/
def skipReads : Nat → Packet → List Nat
  | 0, p => [p.current]
  | fuel + 1, p =>
    p.current :: if p.byteAt 0 ≠ 0#8 ∧
      p.count ≠ 0#16 then skipReads fuel (p.readSkipBytes 1#16) else []

/-- The places of the bytes that `strncmpEqual` looks at. -/
def strncmpReads : List Byte → Packet → Nat → List Nat
  | _, _, 0 => []
  | [], _, _ => []
  | c :: s, p, n + 1 =>
    p.current :: if p.byteAt 0 = c ∧ c ≠ 0#8 then strncmpReads s (p.readSkipBytes 1#16) n else []

/-- The places of the bytes that `readRequest` looks at. -/
def requestReads (p : Packet) : List Nat :=
  let named := skipString p.count.toNat p
  skipReads p.count.toNat p ++
    if named.count ≠ 0#16 then
      let mode := named.readSkipBytes 1#16
      let ended := skipString mode.count.toNat mode
      skipReads mode.count.toNat mode ++
        if ended.count ≠ 0#16 then strncmpReads (transferMode ++ [0#8]) mode
          ended.count.toNat else []
    else []

section Loops

variable {q : Packet} {fuel : Nat} {s mode rest : List Byte}

theorem skipReads_last : ∀ {fuel : Nat} {q : Packet}, (skipString fuel q).current ∈ skipReads fuel q
  | 0, _ => List.mem_singleton_self _
  | fuel + 1, q => by
    rw [skipString, skipReads]
    by_cases h : q.byteAt 0 ≠ 0#8 ∧ q.count ≠ 0#16
    · rw [if_pos h, if_pos h]
      exact List.mem_cons_of_mem _ skipReads_last
    · rw [if_neg h, if_neg h]
      exact List.mem_cons_self

/-- The loop goes from byte to byte, up to the one it stops at. -/
theorem skipReads_bounds : ∀ {fuel : Nat} {q : Packet}, ∀ a ∈ skipReads fuel q,
    q.current ≤ a ∧ a ≤ (skipString fuel q).current
  | 0, q => by
    intro a ha
    obtain rfl := List.mem_singleton.mp ha
    exact ⟨Nat.le_refl _, Nat.le_refl _⟩
  | fuel + 1, q => by
    intro a ha
    have hlast : (q.readSkipBytes 1#16).current ≤
      (skipString fuel (q.readSkipBytes 1#16)).current :=
      (skipReads_bounds _ skipReads_last).1
    have hnext : (q.readSkipBytes 1#16).current = q.current + 1 := rfl
    rw [skipReads] at ha
    rw [skipString]
    by_cases h : q.byteAt 0 ≠ 0#8 ∧ q.count ≠ 0#16
    · rw [if_pos h] at ha ⊢
      rcases List.mem_cons.mp ha with rfl | ha
      · omega
      · have hrest := skipReads_bounds a ha
        omega
    · rw [if_neg h] at ha ⊢
      obtain rfl := List.mem_singleton.mp ha
      exact ⟨Nat.le_refl _, Nat.le_refl _⟩

theorem skipString_unended (s : List Byte) (hs : 0#8 ∉ s) : ∀ {q : Packet}, Carries q s →
    (skipString s.length q).current = q.current + s.length ∧
      (skipString s.length q).count = 0#16 := by
  induction s with
  | nil =>
    intro q h
    exact ⟨rfl, BitVec.eq_of_toNat_eq h.count⟩
  | cons c s ih =>
    intro q h
    obtain ⟨hc, hcount, hrest⟩ := h.cons
    have hne : q.byteAt 0 ≠ 0#8 := fun hzero => hs ((hc.symm.trans hzero) ▸ List.mem_cons_self)
    have hnext : (q.readSkipBytes 1#16).current = q.current + 1 := rfl
    obtain ⟨hcurrent, hnone⟩ := ih (fun hmem => hs (List.mem_cons_of_mem c hmem)) hrest
    rw [List.length_cons, skipString, if_pos ⟨hne, hcount⟩]
    exact ⟨by omega, hnone⟩

/-- A string that ends is skipped up to its end. -/
theorem skipString_current (s : List Byte) (hs : 0#8 ∉ s) :
    ∀ {q : Packet} (rest : List Byte) {fuel : Nat},
    Carries q (s ++ 0#8 :: rest) → s.length ≤ fuel → (skipString fuel q).current =
      q.current + s.length := by
  induction s with
  | nil =>
    intro q rest fuel h _
    cases fuel with
    | zero => rfl
    | succ fuel =>
      rw [skipString, if_neg fun hc => hc.1 h.cons.1]
      rfl
  | cons c s ih =>
    intro q rest fuel h hf
    cases fuel with
    | zero => simp at hf
    | succ fuel =>
      obtain ⟨hc, hcount, hrest⟩ := h.cons
      have hne : q.byteAt 0 ≠ 0#8 := fun hzero => hs ((hc.symm.trans hzero) ▸ List.mem_cons_self)
      have hnext : (q.readSkipBytes 1#16).current = q.current + 1 := rfl
      have hend := ih (fun hmem => hs (List.mem_cons_of_mem c hmem)) rest hrest
        (Nat.le_of_succ_le_succ hf)
      rw [skipString, if_pos ⟨hne, hcount⟩, List.length_cons]
      omega

/-- Two strings are equal for `STRNCMP` if they agree, ends included, as far as it looks. -/
theorem strncmpEqual_iff (s : List Byte) (hs : 0#8 ∉ s) :
    ∀ {mode : List Byte} {q : Packet} (rest : List Byte) {n : Nat}, 0#8 ∉ mode →
      Carries q (mode ++ 0#8 :: rest) →
      (strncmpEqual (s ++ [0#8]) q n = true ↔ (s ++ [0#8]).take n = (mode ++ [0#8]).take n) := by
  induction s with
  | nil =>
    intro mode q rest n hm h
    cases n with
    | zero => exact iff_of_true rfl rfl
    | succ n =>
      cases mode with
      | nil => exact iff_of_true (by simp [strncmpEqual, h.cons.1]) rfl
      | cons b mode =>
        have hne : b ≠ 0#8 := fun hzero => hm (hzero ▸ List.mem_cons_self)
        exact iff_of_false (by simp [strncmpEqual, h.cons.1, hne]) fun hsame => hne (List.cons.inj hsame).1.symm
  | cons c s ih =>
    intro mode q rest n hm h
    have hc : c ≠ 0#8 := fun hzero => hs (hzero ▸ List.mem_cons_self)
    cases n with
    | zero => exact iff_of_true (by simp [strncmpEqual]) rfl
    | succ n =>
      cases mode with
      | nil => exact iff_of_false (by simp [strncmpEqual, h.cons.1, hc.symm]) fun hsame => hc (List.cons.inj hsame).1
      | cons b mode =>
        obtain ⟨hb, -, hbehind⟩ := h.cons
        have hrest := ih (fun hmem => hs (List.mem_cons_of_mem c hmem)) rest (n := n)
          (fun hmem => hm (List.mem_cons_of_mem b hmem)) hbehind
        simp only [List.cons_append, strncmpEqual, hb, List.take_succ_cons, List.cons.injEq,
          Bool.and_eq_true,
          decide_eq_true_eq, Bool.or_eq_true, hc, false_or, hrest, eq_comm (a := b)]

/-- `STRNCMP` does not look behind the end of the mode. -/
theorem strncmpReads_bounds :
    ∀ (s : List Byte) {mode : List Byte} {q : Packet} (rest : List Byte) {n : Nat},
    0#8 ∉ mode → Carries q (mode ++ 0#8 :: rest) →
      ∀ a ∈ strncmpReads s q n, q.current ≤ a ∧ a ≤ q.current + mode.length := by
  intro s
  induction s with
  | nil =>
    intro mode q rest n _ _ a ha
    cases n <;> cases ha
  | cons c s ih =>
    intro mode q rest n hm h a ha
    cases n with
    | zero => cases ha
    | succ n =>
      rw [strncmpReads] at ha
      rcases List.mem_cons.mp ha with rfl | ha
      · omega
      · split_ifs at ha with hgoes
        · cases mode with
          | nil => exact absurd (hgoes.1.symm.trans h.cons.1) hgoes.2
          | cons b mode =>
            have hnext : (q.readSkipBytes 1#16).current = q.current + 1 := rfl
            have hrest := ih rest (fun hmem => hm (List.mem_cons_of_mem b hmem)) h.cons.2.2 a ha
            rw [List.length_cons]
            omega
        · cases ha

end Loops

/-- The bytes behind the opcode of a request for a transfer of octets. -/
structure IsRequest (payload name : List Byte) : Prop where
  noNul : 0#8 ∉ name
  payload : payload = name ++ 0#8 :: (transferMode ++ [0#8])

/-- No byte outside the payload is looked at. -/
def ReadsInside (p : Packet) : Prop :=
  ∀ a ∈ requestReads p, p.current ≤ a ∧ a < p.current + p.count.toNat

/-- Both strings end, and the request is that of a transfer of octets, or its mode differs from
it within as many characters as there are from its end on. -/
def Unmistakable (payload : List Byte) : Prop :=
  ∃ name mode rest : List Byte, 0#8 ∉ name ∧ 0#8 ∉ mode ∧
    payload = name ++ 0#8 :: (mode ++ 0#8 :: rest) ∧
    (mode = transferMode ∧ rest = [] ∨
      (transferMode ++ [0#8]).take (rest.length + 1) ≠ (mode ++ [0#8]).take (rest.length + 1))

/-- A string ends at its first NUL. -/
theorem string_inj {s : List Byte} (hs : 0#8 ∉ s) : ∀ {s' rest rest' : List Byte}, 0#8 ∉ s' →
    s ++ 0#8 :: rest = s' ++ 0#8 :: rest' → s = s' ∧ rest = rest' := by
  induction s with
  | nil =>
    intro s' rest rest' hs' h
    cases s' with
    | nil => exact ⟨rfl, (List.cons.inj h).2⟩
    | cons c s' => exact absurd ((List.cons.inj h).1 ▸ List.mem_cons_self) hs'
  | cons c s ih =>
    intro s' rest rest' hs' h
    cases s' with
    | nil => exact absurd ((List.cons.inj h).1 ▸ List.mem_cons_self) hs
    | cons d s' =>
      obtain ⟨rfl, htail⟩ := List.cons.inj h
      obtain ⟨rfl, hrest⟩ := ih (fun hmem => hs (List.mem_cons_of_mem c hmem))
        (fun hmem => hs' (List.mem_cons_of_mem c hmem)) htail
      exact ⟨rfl, hrest⟩

section Request

variable {q : Packet} {name mode rest : List Byte}

/-- A request both of whose strings end. -/
theorem readRequest_ended (hname : 0#8 ∉ name) (hmode : 0#8 ∉ mode)
    (h : Carries q (name ++ 0#8 :: (mode ++ 0#8 :: rest))) :
    ReadsInside q ∧ readRequest q =
      if (transferMode ++ [0#8]).take (rest.length + 1) =
        (mode ++ [0#8]).take (rest.length + 1) then .complete name
      else .illegalMode := by
  have hlen := h.count
  rw [List.length_append, List.length_cons, List.length_append, List.length_cons] at hlen
  have hname' : ∀ c ∈ name, c ≠ 0#8 := fun c hc hzero => hname (hzero ▸ hc)
  have hmode' : ∀ c ∈ mode, c ≠ 0#8 := fun c hc hzero => hmode (hzero ▸ hc)
  have hfirst : Carries (skipString q.count.toNat q) (0#8 :: (mode ++ 0#8 :: rest)) :=
    skipString_string name hname' _ h (by omega)
  have hnamed : (skipString q.count.toNat q).current = q.current + name.length :=
    skipString_current name hname _ h (by omega)
  have hskip := hfirst.cons.2.2
  have hstart : ((skipString q.count.toNat q).readSkipBytes 1#16).current =
      q.current + name.length + 1 := by
    rw [← hnamed]
    rfl
  have hbehind := hskip.count
  rw [List.length_append, List.length_cons] at hbehind
  have hreads : ∀ a ∈ skipReads q.count.toNat q, _ := skipReads_bounds
  have hfilename : (q.bytes q.current q.count.toNat).takeWhile (fun c => c ≠ 0#8) = name := by
    rw [h.whole, List.takeWhile_append_of_pos (by simpa using hname')]
    simp
  unfold ReadsInside requestReads readRequest
  dsimp only
  rw [if_pos hfirst.cons.2.1, if_pos hfirst.cons.2.1, hfilename]
  generalize (skipString q.count.toNat q).readSkipBytes 1#16 = p at hskip hstart hbehind ⊢
  have hsecond : Carries (skipString p.count.toNat p) (0#8 :: rest) :=
    skipString_string mode hmode' _ hskip (by omega)
  have hended : (skipString p.count.toNat p).current = p.current + mode.length :=
    skipString_current mode hmode _ hskip (by omega)
  have hleft := hsecond.count
  have hmodeReads : ∀ a ∈ skipReads p.count.toNat p, _ := skipReads_bounds
  rw [if_pos hsecond.cons.2.1, if_pos hsecond.cons.2.1]
  refine ⟨fun a ha => ?_, ?_⟩
  · rcases List.mem_append.mp ha with ha | ha
    · have hbound := hreads a ha
      omega
    rcases List.mem_append.mp ha with ha | ha
    · have hbound := hmodeReads a ha
      omega
    · have hbound := strncmpReads_bounds _ rest hmode hskip a ha
      omega
  · rw [hleft, List.length_cons]
    have hequal := strncmpEqual_iff transferMode (by decide) rest (n := rest.length + 1) hmode hskip
    by_cases htake : (transferMode ++ [0#8]).take (rest.length + 1) =
      (mode ++ [0#8]).take (rest.length + 1)
    · rw [if_pos htake, if_pos (hequal.mpr htake)]
    · rw [if_neg htake, if_neg fun hs => htake (hequal.mp hs)]

theorem not_readsInside_name (hname : 0#8 ∉ name) (h : Carries q name) : ¬ ReadsInside q := by
  intro hall
  have hend := (skipString_unended name hname h).1
  rw [← h.count] at hend
  have hlast := hall _ (List.mem_append_left _ skipReads_last)
  omega

theorem not_readsInside_mode (hname : 0#8 ∉ name) (hmode : 0#8 ∉ mode)
    (h : Carries q (name ++ 0#8 :: mode)) :
    ¬ ReadsInside q := by
  intro hall
  have hlen := h.count
  rw [List.length_append, List.length_cons] at hlen
  have hname' : ∀ c ∈ name, c ≠ 0#8 := fun c hc hzero => hname (hzero ▸ hc)
  have hfirst : Carries (skipString q.count.toNat q) (0#8 :: mode) :=
    skipString_string name hname' _ h (by omega)
  have hnamed : (skipString q.count.toNat q).current = q.current + name.length :=
    skipString_current name hname _ h (by omega)
  have hskip := hfirst.cons.2.2
  have hstart : ((skipString q.count.toNat q).readSkipBytes 1#16).current =
      q.current + name.length + 1 := by
    rw [← hnamed]
    rfl
  unfold ReadsInside requestReads at hall
  dsimp only at hall
  rw [if_pos hfirst.cons.2.1] at hall
  generalize (skipString q.count.toNat q).readSkipBytes 1#16 = p at hskip hstart hall
  have hend := (skipString_unended mode hmode hskip).1
  rw [← hskip.count] at hend
  have hbehind := hskip.count
  have hlast := hall _ (List.mem_append_right _ (List.mem_append_left _ skipReads_last))
  omega

end Request

namespace Life

variable {υ : Type} {callbacks : Callbacks υ} {x : Instance} {user : υ} {calls : List Call}
  {q : Packet}
  {opcode : ReqType} {layers errorLayers : Layers} {now : BitVec 32}

/-- `req_received` is called for requests of transfers of octets and for nothing else, with the
filename, and no byte outside the payload is looked at. -/
structure ParsesExactly (calls : List Call) (q : Packet) (opcode : ReqType)
    (out : Outcome (υ × List Call)) :
    Prop where
  called : ∀ name, (∃ answer, Call.reqReceived opcode name answer ∈ out.user.2.drop calls.length) ↔
    IsRequest (q.bytes q.current q.count.toNat) name
  inside : ReadsInside q

theorem sendData_calls (callbacks : Callbacks υ) (opcode : ReqType) (x : Instance) (user : υ)
    (calls : List Call) (layers : Layers) :
    ∃ new, (sendData (recorded callbacks) x (user, calls) layers).user.2 = calls ++ new ∧
      ∀ name answer, Call.reqReceived opcode name answer ∉ new := by
  rw [sendData]
  cases layers.alloc with
  | error e => exact ⟨[], (List.append_nil _).symm, fun _ _ hmem => by cases hmem⟩
  | ok u =>
    rw [recorded_dataToSend]
    dsimp only
    refine ⟨[.dataToSend (callbacks.dataToSend user).2.1 (callbacks.dataToSend user).1], ?_,
      fun _ _ hmem => ?_⟩
    · split <;> rfl
    · cases List.mem_singleton.mp hmem

/-- Where a request can be read to its end, `req_received` is called with its filename, once. -/
theorem processReadWriteRequest_calls (callbacks : Callbacks υ) (user : υ) (calls : List Call)
    (opcode : ReqType) (layers errorLayers : Layers) (now : BitVec 32) (hidle : x.reqType = .idle)
    {filename : List Byte} (hread : readRequest q = .complete filename) :
    ∃ answer new, (processReadWriteRequest (recorded callbacks) x (user, calls) q opcode
      layers errorLayers
        now).user.2 = calls ++ Call.reqReceived opcode filename answer :: new ∧
      ∀ name answer, Call.reqReceived opcode name answer ∉ new := by
  rcases hboth : callbacks.reqReceived user opcode filename with ⟨answer, user'⟩
  have hrec : (recorded callbacks).reqReceived (user, calls) opcode filename =
      (answer, user', calls ++ [.reqReceived opcode filename answer]) := by
    rw [recorded_reqReceived, hboth]
  have hnone : ∀ (name : List Byte) (answer : TftpErr), Call.reqReceived opcode name answer ∉ [] :=
    fun _ _ => List.not_mem_nil
  have hresult : (processReadWriteRequest (recorded callbacks) x (user, calls) q opcode
    layers errorLayers
      now).user.2 = calls ++ [.reqReceived opcode filename answer] ∨
        ∃ y, (processReadWriteRequest (recorded callbacks) x (user, calls) q opcode layers
          errorLayers now).user =
          (sendData (recorded callbacks) y (user', calls ++ [.reqReceived opcode filename answer])
            layers).user := by
    rw [processReadWriteRequest, if_pos hidle]
    simp only [hread, hrec]
    by_cases hok : answer = .success
    · rw [if_pos hok]
      by_cases hw : opcode = .write
      · rw [if_pos hw]
        exact .inl rfl
      · rw [if_neg hw]
        split_ifs
        · exact .inr ⟨_, rfl⟩
        · exact .inr ⟨_, rfl⟩
        · exact .inr ⟨_, rfl⟩
    · rw [if_neg hok]
      exact .inl rfl
  rcases hresult with hcalls | ⟨y, hcalls⟩
  · exact ⟨answer, [], hcalls, hnone⟩
  · obtain ⟨new, hnew, hno⟩ := sendData_calls callbacks opcode y user'
      (calls ++ [.reqReceived opcode filename answer]) layers
    rw [List.append_assoc] at hnew
    exact ⟨answer, new, (congrArg Prod.snd hcalls).trans hnew, hno⟩

/-- An idle module calls `req_received` for the requests that it reads to their ends. -/
theorem processReadWriteRequest_called (hidle : x.reqType = .idle) (name : List Byte) :
    (∃ answer, Call.reqReceived opcode name answer ∈
      (processReadWriteRequest (recorded callbacks) x (user, calls) q
        opcode layers errorLayers now).user.2.drop calls.length) ↔
          readRequest q = .complete name := by
  cases hread : readRequest q with
  | incomplete =>
    rw [processReadWriteRequest, if_pos hidle]
    simp [hread]
  | illegalMode =>
    rw [processReadWriteRequest, if_pos hidle]
    simp [hread, failTransfer]
  | complete filename =>
    obtain ⟨answer, new, hcalls, hnew⟩ :=
      processReadWriteRequest_calls callbacks user calls opcode layers errorLayers now hidle hread
    rw [hcalls, List.drop_left, Request.complete.injEq]
    constructor
    · rintro ⟨answer', hmem⟩
      rcases List.mem_cons.mp hmem with hsame | hmem
      · cases hsame
        rfl
      · exact absurd hmem (hnew name answer')
    · rintro rfl
      exact ⟨answer, List.mem_cons_self⟩

theorem carries_payload (q : Packet) : Carries q (q.bytes q.current q.count.toNat) :=
  ⟨by rw [Packet.Holds, Packet.bytes_length]; rfl, (Packet.bytes_length ..).symm⟩

/-- Where both strings end, the request is taken for what it is unless its mode is mistaken. -/
theorem parsesExactly_ended (hidle : x.reqType = .idle) {name mode rest : List Byte}
    (hname : 0#8 ∉ name) (hmode : 0#8 ∉ mode)
    (h : q.bytes q.current q.count.toNat = name ++ 0#8 :: (mode ++ 0#8 :: rest)) :
    ParsesExactly calls q opcode
        (processReadWriteRequest (recorded callbacks) x (user, calls) q opcode layers
          errorLayers now) ↔
      (mode = transferMode ∧ rest = [] ∨
        (transferMode ++ [0#8]).take (rest.length + 1) ≠
          (mode ++ [0#8]).take (rest.length + 1)) := by
  obtain ⟨hinside, hread⟩ := readRequest_ended hname hmode (h ▸ carries_payload q)
  have hrequest : ∀ name', IsRequest (q.bytes q.current q.count.toNat) name' ↔
      name' = name ∧ mode = transferMode ∧ rest = [] := by
    intro name'
    constructor
    · rintro ⟨hname', hpayload⟩
      obtain ⟨rfl, htail⟩ := string_inj hname hname' (h.symm.trans hpayload)
      obtain ⟨rfl, hrest⟩ := string_inj hmode (by decide) htail
      exact ⟨rfl, rfl, hrest⟩
    · rintro ⟨rfl, rfl, rfl⟩
      exact ⟨hname, h⟩
  constructor
  · rintro ⟨hcalled, -⟩
    have hsame := hcalled name
    rw [processReadWriteRequest_called hidle, hrequest, hread] at hsame
    by_cases htake : (transferMode ++ [0#8]).take (rest.length + 1) =
      (mode ++ [0#8]).take (rest.length + 1)
    · rw [if_pos htake] at hsame
      exact .inl (hsame.mp rfl).2
    · exact .inr htake
  · intro hmeant
    refine ⟨fun name' => ?_, hinside⟩
    rw [processReadWriteRequest_called hidle, hrequest, hread]
    by_cases htake : (transferMode ++ [0#8]).take (rest.length + 1) =
      (mode ++ [0#8]).take (rest.length + 1)
    · rw [if_pos htake, Request.complete.injEq]
      have hexact := hmeant.resolve_right (not_not_intro htake)
      exact ⟨fun hname' => ⟨hname'.symm, hexact⟩, fun hname' => hname'.1.symm⟩
    · rw [if_neg htake]
      refine iff_of_false (fun hcomplete => by cases hcomplete) ?_
      rintro ⟨-, rfl, rfl⟩
      exact htake rfl

theorem parsesExactly_unmistakable (hidle : x.reqType = .idle) :
    ParsesExactly calls q opcode
        (processReadWriteRequest (recorded callbacks) x (user, calls) q opcode layers
          errorLayers now) ↔
      Unmistakable (q.bytes q.current q.count.toNat) := by
  have hcarries := carries_payload q
  constructor
  · intro hexact
    have hinside := hexact.inside
    by_cases hnul : 0#8 ∈ q.bytes q.current q.count.toNat
    · obtain ⟨name, tail, hsplit, hname⟩ := List.eq_append_cons_of_mem hnul
      rw [hsplit] at hcarries
      by_cases hnul' : 0#8 ∈ tail
      · obtain ⟨mode, rest, rfl, hmode⟩ := List.eq_append_cons_of_mem hnul'
        exact ⟨name, mode, rest, hname, hmode, hsplit,
          (parsesExactly_ended hidle hname hmode hsplit).mp hexact⟩
      · exact absurd hinside (not_readsInside_mode hname hnul' hcarries)
    · exact absurd hinside (not_readsInside_name hnul hcarries)
  · rintro ⟨name, mode, rest, hname, hmode, hsplit, hmeant⟩
    exact (parsesExactly_ended hidle hname hmode hsplit).mpr hmeant

/-- A request is sent as one message, or not at all. -/
theorem sendReadWriteRequest_sent (y : Instance) (user : υ) (serverAddress : Ipv4Address)
    (serverPort : BitVec 16) (name : List Byte) (type : ReqType) (layers : Layers)
    (now : BitVec 32) : ∀ d ∈
      (sendReadWriteRequest y user serverAddress serverPort name type layers now).1.sent,
        d.payload = (requestMessage name type).payload := by
  intro d hd
  rw [sendReadWriteRequest] at hd
  cases halloc : layers.alloc with
  | error e =>
    rw [halloc] at hd
    cases hd
  | ok u =>
    rw [halloc] at hd
    simp only [Layers.sends, halloc] at hd
    by_cases hsend : layers.send.accepted = true
    · rw [if_pos hsend] at hd
      rw [if_pos rfl] at hd
      rw [List.mem_singleton.mp hd]
    · rw [if_neg hsend] at hd
      cases hd

/-- A request is parsed exactly if and only if it is unmistakable; and every request that is
sent for a filename is parsed back to it. -/
theorem requests_parsed_iff (callbacks : Callbacks υ) (user : υ) (calls : List Call)
    (layers errorLayers : Layers) (now : BitVec 32) {x : Instance} (hidle : x.reqType = .idle) :
    (∀ (q : Packet) (opcode : ReqType), ParsesExactly calls q opcode
        (processReadWriteRequest (recorded callbacks) x (user, calls) q opcode layers
          errorLayers now) ↔
      Unmistakable (q.bytes q.current q.count.toNat)) ∧
    ∀ (y : Instance) (client : υ) (serverAddress : Ipv4Address) (serverPort : BitVec 16)
      (name : List Byte)
      (type : ReqType) (below : Layers) (sentAt : BitVec 32), type = .read ∨ type = .write →
        0#8 ∉ name →
      name.length ≤ maxFilenameSize →
      ∀ d ∈ (sendReadWriteRequest y client serverAddress serverPort name type below sentAt).1.sent,
      ∀ q, Carries q d.payload →
        ∃ answer new, (serverProcessPacket (recorded callbacks) x (user, calls) q layers errorLayers
          now).user.2 =
          calls ++ Call.reqReceived type name answer :: new := by
  refine ⟨fun q opcode => parsesExactly_unmistakable hidle, ?_⟩
  intro y client serverAddress serverPort name type below sentAt htype hname hlen d hd q hq
  have hnul : ∀ c ∈ name, c ≠ 0#8 := fun c hc hzero => hname (hzero ▸ hc)
  have hcut : name.take (strnlen name maxFilenameSize) = name := by
    have htake : (name ++ []).takeWhile (fun c => c ≠ 0#8) = name ++ [] :=
      List.takeWhile_append_of_pos (by simpa using hnul)
    rw [List.append_nil] at htake
    rw [strnlen, htake, List.take_of_length_le (Nat.le_min.mpr ⟨Nat.le_refl _, hlen⟩)]
  rw [sendReadWriteRequest_sent y client serverAddress serverPort name type below sentAt d hd,
    requestMessage_payload, hcut] at hq
  have hroom : 2 ≤ (name ++ 0#8 :: (transferMode ++ [0#8])).length := by
    rw [List.length_append, List.length_cons, List.length_append, transferMode]
    simp
  obtain ⟨-, -, hrest⟩ := hq.opcode hroom
  have hread := readRequest_carries hnul hrest
  have hcalls := processReadWriteRequest_calls callbacks user calls type layers errorLayers
    now hidle hread
  obtain ⟨answer, new, hcalls, -⟩ := hcalls
  refine ⟨answer, new, ?_⟩
  rcases htype with rfl | rfl
  · rw [serverProcessPacket_type hq hroom (by decide)]
    exact hcalls
  · rw [serverProcessPacket_type hq hroom (by decide)]
    exact hcalls

/-- A request for a transfer of octets of the file "a", and one for the mode "o". -/
def octetRequest : Packet := carrying [0x61, 0, 0x6F, 0x63, 0x74, 0x65, 0x74, 0]
def otherRequest : Packet := carrying [0x61, 0, 0x6F, 0]

theorem requests_parsed_iff_octet :
    ParsesExactly [] octetRequest .read (processReadWriteRequest (recorded indifferent)
    idleInstance ((), []) octetRequest .read working working 0#32) :=
  ((requests_parsed_iff indifferent () [] working working 0#32 (x := idleInstance) rfl).1
    octetRequest .read).mpr
    ⟨[0x61], transferMode, [], by decide, by decide, by decide, .inl ⟨rfl, rfl⟩⟩

/-- The mode "o" is compared with "octet" in one character, and the file is opened. -/
theorem other_mode_accepted :
    (∃ answer, Call.reqReceived .read [0x61] answer ∈
      (processReadWriteRequest (recorded indifferent) idleInstance
      ((), []) otherRequest .read working working 0#32).user.2) ∧
    ¬ IsRequest (otherRequest.bytes otherRequest.current otherRequest.count.toNat) [0x61] ∧
    ¬ ParsesExactly [] otherRequest .read (processReadWriteRequest (recorded indifferent)
      idleInstance
      ((), []) otherRequest .read working working 0#32) := by
  have hcalled : ∃ answer, Call.reqReceived .read [0x61] answer ∈
    (processReadWriteRequest (recorded indifferent)
      idleInstance ((), []) otherRequest .read working working 0#32).user.2 := ⟨.success, by decide⟩
  have hnone : ¬ IsRequest (otherRequest.bytes otherRequest.current otherRequest.count.toNat)
      [0x61] := by
    intro hrequest
    exact absurd hrequest.payload (by decide)
  exact ⟨hcalled, hnone, fun hexact => hnone ((hexact.called [0x61]).mp hcalled)⟩

end Life

end NanoIp.Tftp
