import NanoIp.Udp.Destination
import NanoIp.Lib.Run
import Mathlib.Data.Fintype.Card

/-!
# Bound handles

The calls that put a handle into `udp_module.handles` and take it out. The flag
`is_bound` says that a handle stands in the list; not every call keeps it so.
-/
namespace NanoIp.Udp

variable {n : Nat}

def Handle.isAt (k : Handle n) (ipv4Address : Ipv4Address) (port : BitVec 16) : Bool :=
  k.port = port && k.ipv4Address = ipv4Address

/-- The search of `NANO_IP_UDP_Bind` and `NANO_IP_UDP_Unbind`. -/
def Module.findAt (m : Module n) (ipv4Address : Ipv4Address) (port : BitVec 16) : Option (Fin n) :=
  m.bound.find? fun h => (m.mem h).isAt ipv4Address port

def Module.init (n : Nat) : Module n := ⟨none, fun _ => Handle.init n⟩

/-- `NANO_IP_UDP_InitializeHandle`. -/
def initializeHandle (m : Module n) (h : Fin n) : Module n :=
  { m with mem := Function.update m.mem h (Handle.init n) }

/-- `NANO_IP_UDP_ReleaseHandle`; `release` is what `NANO_IP_IPV4_ReleaseHandle` makes of
the IPv4 handle. The flag stays as it is. -/
def releaseHandle (m : Module n) (h : Fin n) (release : Ipv4.Handle → Ipv4.Handle) : Module n :=
  let m :=
    if (m.mem h).isBound then
      let unlinked := Lib.unlink (fun k => (m.mem k).next) m.handles h m.bound
      ⟨unlinked.1, fun k => { m.mem k with next := unlinked.2 k }⟩
    else m
  { m with mem := Function.update m.mem h { m.mem h with ipv4Handle := release (m.mem h).ipv4Handle } }

/-- `NANO_IP_UDP_Bind`. -/
def bind (m : Module n) (h : Fin n) (ipv4Address : Ipv4Address) (port : BitVec 16) :
    Module n × Err :=
  match m.findAt ipv4Address port with
  | some _ => (m, .addressInUse)
  | none =>
    let k := { m.mem h with ipv4Address := ipv4Address, port := port }
    if k.isBound then ({ m with mem := Function.update m.mem h k }, .success)
    else (⟨some h, Function.update m.mem h { k with next := m.handles, isBound := true }⟩, .success)

/-- `NANO_IP_UDP_Unbind`. Taking out the first handle of the list empties the list. -/
def unbind (m : Module n) (h : Fin n) (ipv4Address : Ipv4Address) (port : BitVec 16) :
    Module n × Err :=
  match m.findAt ipv4Address port with
  | none => (m, .invalidArg)
  | some hdl =>
    if hdl = h then
      let mem := Function.update m.mem h { m.mem h with isBound := false }
      match Lib.findPrev h none m.bound with
      | some (some prev) => (⟨m.handles, Function.update mem prev
          { mem prev with next := (m.mem h).next }⟩, .success)
      | _ => (⟨none, mem⟩, .success)
    else (m, .invalidArg)

/-- The calls of a program. -/
inductive Input (n : Nat) where
  | initializeHandle (h : Fin n)
  | releaseHandle (h : Fin n) (release : Ipv4.Handle → Ipv4.Handle)
  | bind (h : Fin n) (ipv4Address : Ipv4Address) (port : BitVec 16)
  | unbind (h : Fin n) (ipv4Address : Ipv4Address) (port : BitVec 16)

def Input.handle : Input n → Fin n
  | .initializeHandle h | .releaseHandle h _ | .bind h _ _ | .unbind h _ _ => h

/-- A handle in the list is not initialised again. -/
def step (m : Module n) : Input n → Option (Module n)
  | .initializeHandle h => if m.bound.contains h then none else some (initializeHandle m h)
  | .releaseHandle h release => some (releaseHandle m h release)
  | .bind h ipv4Address port => some (bind m h ipv4Address port).1
  | .unbind h ipv4Address port => some (unbind m h ipv4Address port).1

/-- The list holds the bound handles, each once and no two at one pair. -/
structure Sound (m : Module n) : Prop where
  linked : Lib.Linked (fun h => (m.mem h).next) m.handles m.bound
  nodup : m.bound.Nodup
  bound_iff : ∀ h, (m.mem h).isBound = true ↔ h ∈ m.bound
  apart : ∀ h ∈ m.bound, ∀ k ∈ m.bound, (m.mem h).isAt (m.mem k).ipv4Address (m.mem k).port =
    true → h = k

/-- No bound handle is released, and the first handle of the list is unbound only when it
is the only one. -/
def KeepsOthers (m : Module n) : Input n → Prop
  | .releaseHandle h _ => (m.mem h).isBound = false
  | .unbind h ipv4Address port =>
    m.handles = some h → (m.mem h).isAt ipv4Address port = true → m.bound = [h]
  | _ => True

instance (m : Module n) : (i : Input n) → Decidable (KeepsOthers m i)
  | .releaseHandle h _ => inferInstanceAs (Decidable ((m.mem h).isBound = false))
  | .unbind h ipv4Address port =>
    inferInstanceAs (Decidable (m.handles = some h → (m.mem h).isAt ipv4Address port = true →
      m.bound = [h]))
  | .initializeHandle _ | .bind _ _ _ => inferInstanceAs (Decidable True)

theorem isAt_iff {k : Handle n} {ipv4Address : Ipv4Address} {port : BitVec 16} :
    k.isAt ipv4Address port = true ↔ k.port = port ∧ k.ipv4Address = ipv4Address := by
  rw [Handle.isAt, Bool.and_eq_true, decide_eq_true_eq, decide_eq_true_eq]

section Lists

variable {m m' : Module n} {l : List (Fin n)}

theorem bound_eq (hl : Lib.Linked (fun h => (m.mem h).next) m.handles l) (hn : l.Nodup) :
    m.bound = l := by
  have hcard := hn.length_le_card
  rw [Fintype.card_fin] at hcard
  exact hl.chain_eq hcard

theorem Sound.of_linked (hl : Lib.Linked (fun h => (m.mem h).next) m.handles l) (hn : l.Nodup)
    (hb : ∀ h, (m.mem h).isBound = true ↔ h ∈ l)
    (ha : ∀ h ∈ l, ∀ k ∈ l, (m.mem h).isAt (m.mem k).ipv4Address (m.mem k).port = true → h = k) :
    Sound m := by
  have heq := bound_eq hl hn
  exact ⟨heq ▸ hl, heq ▸ hn, heq ▸ hb, heq ▸ ha⟩

theorem sound_init (n : Nat) : Sound (Module.init n) :=
  .of_linked (l := []) rfl .nil (fun _ => ⟨nofun, nofun⟩) nofun

/-- A handle keeps its pair. -/
def SamePair (k k' : Handle n) : Prop := k'.ipv4Address = k.ipv4Address ∧ k'.port = k.port

theorem isAt_of_samePair {h h' k k' : Handle n} (hh : SamePair h h') (hk : SamePair k k')
    (he : h'.isAt k'.ipv4Address k'.port = true) : h.isAt k.ipv4Address k.port = true := by
  rwa [isAt_iff, hh.1, hh.2, hk.1, hk.2, ← isAt_iff] at he

theorem Sound.congr (hs : Sound m) (hhead : m'.handles = m.handles)
    (hpair : ∀ h ∈ m.bound, SamePair (m.mem h) (m'.mem h))
    (hnext : ∀ h ∈ m.bound, (m'.mem h).next = (m.mem h).next)
    (hflag : ∀ h, (m'.mem h).isBound = (m.mem h).isBound) : Sound m' ∧ m'.bound = m.bound := by
  have hl : Lib.Linked (fun h => (m'.mem h).next) m'.handles m.bound := by
    rw [hhead]
    exact hs.linked.congr hnext
  refine ⟨.of_linked hl hs.nodup (fun h => ?_) fun h hh k hk he => ?_, bound_eq hl hs.nodup⟩
  · rw [hflag]
    exact hs.bound_iff h
  · exact hs.apart h hh k hk (isAt_of_samePair (hpair h hh) (hpair k hk) he)

theorem Sound.erase (m' : Module n) (hs : Sound m) {h : Fin n}
    (hl : Lib.Linked (fun k => (m'.mem k).next) m'.handles (m.bound.erase h))
    (hclear : (m'.mem h).isBound = false)
    (hpair : ∀ k, k ≠ h → SamePair (m.mem k) (m'.mem k) ∧ (m'.mem k).isBound = (m.mem k).isBound) :
    Sound m' ∧ m'.bound = m.bound.erase h := by
  have hmem : ∀ k, k ∈ m.bound.erase h ↔ k ≠ h ∧ k ∈ m.bound := fun k => hs.nodup.mem_erase_iff
  refine ⟨.of_linked hl (hs.nodup.erase h) (fun k => ?_) fun k hk j hj he => ?_,
    bound_eq hl (hs.nodup.erase h)⟩
  · rw [hmem]
    by_cases hk : k = h
    · subst hk
      simp [hclear]
    · rw [(hpair k hk).2, hs.bound_iff]
      simp [hk]
  · obtain ⟨hkh, hk⟩ := (hmem k).mp hk
    obtain ⟨hjh, hj⟩ := (hmem j).mp hj
    exact hs.apart k hk j hj (isAt_of_samePair (hpair k hkh).1 (hpair j hjh).1 he)

theorem findAt_none {ipv4Address : Ipv4Address} {port : BitVec 16}
    (hf : m.findAt ipv4Address port = none) :
    ∀ h ∈ m.bound, (m.mem h).isAt ipv4Address port ≠ true := by
  intro h hh he
  have hno := List.find?_eq_none.mp hf h hh
  exact hno he

theorem findAt_some {ipv4Address : Ipv4Address} {port : BitVec 16} {h : Fin n}
    (hf : m.findAt ipv4Address port = some h) :
    h ∈ m.bound ∧ (m.mem h).isAt ipv4Address port = true :=
  ⟨List.mem_of_find?_eq_some hf, List.find?_some (p := fun h => (m.mem h).isAt ipv4Address port) hf⟩

end Lists

section Steps

variable {m : Module n} {h : Fin n} {ipv4Address : Ipv4Address} {port : BitVec 16}

theorem Sound.initializeHandle (hs : Sound m) (hh : h ∉ m.bound) :
    Sound (initializeHandle m h) ∧ (initializeHandle m h).bound = m.bound := by
  have hother : ∀ k ∈ m.bound, (Udp.initializeHandle m h).mem k = m.mem k := by
    intro k hk
    refine Function.update_of_ne ?_ _ _
    rintro rfl
    exact hh hk
  refine hs.congr rfl (fun k hk => ?_) (fun k hk => by rw [hother k hk]) fun k => ?_
  · rw [hother k hk]
    exact ⟨rfl, rfl⟩
  · by_cases hk : k = h
    · subst hk
      have hidle : (m.mem k).isBound = false := by
        cases hb : (m.mem k).isBound with
        | false => rfl
        | true => exact absurd ((hs.bound_iff k).mp hb) hh
      rw [hidle]
      exact congrArg Handle.isBound (Function.update_self k _ m.mem)
    · exact congrArg Handle.isBound (Function.update_of_ne hk _ _)

/-- A handle that is not bound is released without touching the list. -/
theorem Sound.releaseHandle (hs : Sound m) (release : Ipv4.Handle → Ipv4.Handle)
    (hb : (m.mem h).isBound = false) :
    Sound (releaseHandle m h release) ∧ (releaseHandle m h release).bound = m.bound := by
  unfold Udp.releaseHandle
  rw [if_neg (by simp [hb])]
  have hsame : ∀ k, SamePair (m.mem k) (Function.update m.mem h
      { m.mem h with ipv4Handle := release (m.mem h).ipv4Handle } k) ∧
      (Function.update m.mem h { m.mem h with ipv4Handle := release (m.mem h).ipv4Handle } k).next =
        (m.mem k).next ∧
      (Function.update m.mem h { m.mem h with ipv4Handle := release (m.mem h).ipv4Handle }
        k).isBound =
        (m.mem k).isBound := by
    intro k
    by_cases hk : k = h
    · subst hk
      rw [Function.update_self]
      exact ⟨⟨rfl, rfl⟩, rfl, rfl⟩
    · rw [Function.update_of_ne hk]
      exact ⟨⟨rfl, rfl⟩, rfl, rfl⟩
  exact hs.congr rfl (fun k _ => (hsame k).1) (fun k _ => (hsame k).2.1) fun k => (hsame k).2.2

/-- The handle has a pair that nobody has, and stands in the list with the others. -/
theorem Sound.placed (m' : Module n) (hs : Sound m) (hf : m.findAt ipv4Address port = none)
    {k : Handle n} (hmem : m'.mem = Function.update m.mem h k)
    (hpair : k.port = port ∧ k.ipv4Address = ipv4Address) (hbound : k.isBound = true)
    {l : List (Fin n)} (hlink : Lib.Linked (fun j => (m'.mem j).next) m'.handles l) (hn : l.Nodup)
    (hl : ∀ j, j ∈ l ↔ j = h ∨ j ∈ m.bound) : Sound m' ∧ m'.bound = l := by
  have hself : m'.mem h = k := by rw [hmem, Function.update_self]
  have hother : ∀ j, j ≠ h → m'.mem j = m.mem j :=
    fun j hj => by rw [hmem, Function.update_of_ne hj]
  have hno := findAt_none hf
  refine ⟨.of_linked hlink hn (fun j => ?_) fun i hi j hj he => ?_, bound_eq hlink hn⟩
  · rw [hl]
    by_cases hj : j = h
    · subst hj
      rw [hself, hbound]
      exact ⟨fun _ => .inl rfl, fun _ => rfl⟩
    · rw [hother j hj, hs.bound_iff]
      simp [hj]
  · by_cases hih : i = h <;> by_cases hjh : j = h
    · rw [hih, hjh]
    · subst hih
      rw [hself, hother j hjh, isAt_iff, hpair.1, hpair.2] at he
      exact absurd (isAt_iff.mpr ⟨he.1.symm, he.2.symm⟩) (hno j (((hl j).mp hj).resolve_left hjh))
    · subst hjh
      rw [hself, hother i hih, hpair.1, hpair.2] at he
      exact absurd he (hno i (((hl i).mp hi).resolve_left hih))
    · rw [hother i hih, hother j hjh] at he
      exact hs.apart i (((hl i).mp hi).resolve_left hih) j (((hl j).mp hj).resolve_left hjh) he

/-- What binding does: nothing where the pair is in use, and else the handle has it and
stands in the list, in front if it was not bound. -/
theorem Sound.bind (hs : Sound m) (h : Fin n) (ipv4Address : Ipv4Address) (port : BitVec 16) :
    Sound (bind m h ipv4Address port).1 ∧
      (∀ k, k ≠ h → SamePair (m.mem k) ((bind m h ipv4Address port).1.mem k)) ∧
      (bind m h ipv4Address port).1.bound =
        if m.findAt ipv4Address port = none ∧ h ∉ m.bound then h :: m.bound else m.bound := by
  have hother : ∀ (v : Handle n) (k : Fin n), k ≠ h → SamePair (m.mem k) (Function.update m.mem h v k) := by
    intro v k hk
    rw [Function.update_of_ne hk]
    exact ⟨rfl, rfl⟩
  unfold Udp.bind
  cases hf : m.findAt ipv4Address port with
  | some _ => exact ⟨hs, fun _ _ => ⟨rfl, rfl⟩, (if_neg fun he => nomatch he.1).symm⟩
  | none =>
    dsimp only
    by_cases hb : (m.mem h).isBound = true
    · have hin := (hs.bound_iff h).mp hb
      rw [if_pos hb, if_neg fun he => he.2 hin]
      generalize hk : { m.mem h with ipv4Address := ipv4Address, port := port } = k
      have hlink : Lib.Linked (fun j => (Function.update m.mem h k j).next) m.handles m.bound := by
        refine hs.linked.congr fun j _ => ?_
        by_cases hj : j = h
        · subst hj
          rw [Function.update_self, ← hk]
        · rw [Function.update_of_ne hj]
      obtain ⟨hsound, hlist⟩ := hs.placed ⟨m.handles, Function.update m.mem h k⟩ hf rfl
        (by rw [← hk]; exact ⟨rfl, rfl⟩) (by rw [← hk]; exact hb) hlink hs.nodup
        fun j => ⟨.inr, fun hj => hj.elim (fun he => he ▸ hin) id⟩
      exact ⟨hsound, hother k, hlist⟩
    · have hout : h ∉ m.bound := fun hin => hb ((hs.bound_iff h).mpr hin)
      rw [if_neg hb, if_pos ⟨rfl, hout⟩]
      generalize hk : { m.mem h with ipv4Address := ipv4Address, port := port, next := m.handles, isBound := true } = k
      have hlink : Lib.Linked (fun j => (Function.update m.mem h k j).next) (some h)
          (h :: m.bound) := by
        refine (hs.linked.push hout).congr fun j _ => ?_
        by_cases hj : j = h
        · subst hj
          rw [Function.update_self, Function.update_self, ← hk]
        · rw [Function.update_of_ne hj, Function.update_of_ne hj]
      obtain ⟨hsound, hlist⟩ := hs.placed ⟨some h, Function.update m.mem h k⟩ hf rfl
        (by rw [← hk]; exact ⟨rfl, rfl⟩) (by rw [← hk]) hlink (List.nodup_cons.mpr ⟨hout, hs.nodup⟩)
        fun j => List.mem_cons
      exact ⟨hsound, hother k, hlist⟩

theorem update_isBound (mem : Fin n → Handle n) (h k : Fin n) :
    Function.update mem h { mem h with isBound := false } k =
      { mem k with isBound := if k = h then false else (mem k).isBound } := by
  by_cases hk : k = h
  · subst hk
    rw [Function.update_self, if_pos rfl]
  · rw [Function.update_of_ne hk, if_neg hk]

theorem update_next (mem : Fin n → Handle n) (p k : Fin n) (next : Option (Fin n)) :
    Function.update mem p { mem p with next := next } k =
      { mem k with next := Function.update (fun j => (mem j).next) p next k } := by
  by_cases hk : k = p
  · subst hk
    rw [Function.update_self, Function.update_self]
  · rw [Function.update_of_ne hk, Function.update_of_ne hk]

/-- Unbinding takes out the handle alone, unless it stands in front of others. -/
theorem Sound.unbind (hs : Sound m) (hk : KeepsOthers m (.unbind h ipv4Address port)) :
    Sound (unbind m h ipv4Address port).1 ∧
      (∀ k, SamePair (m.mem k) ((unbind m h ipv4Address port).1.mem k)) ∧
      ∀ k ∈ m.bound, k ≠ h → k ∈ (unbind m h ipv4Address port).1.bound := by
  unfold Udp.unbind
  cases hf : m.findAt ipv4Address port with
  | none => exact ⟨hs, fun _ => ⟨rfl, rfl⟩, fun _ hin _ => hin⟩
  | some hdl =>
    obtain ⟨hin, hat⟩ := findAt_some hf
    dsimp only
    by_cases hd : hdl = h
    · subst hd
      rw [if_pos rfl]
      have hstay : ∀ k ∈ m.bound, k ≠ hdl → k ∈ m.bound.erase hdl :=
        fun k hk hne => hs.nodup.mem_erase_iff.mpr ⟨hne, hk⟩
      have hclear := update_isBound m.mem hdl
      generalize Function.update m.mem hdl { m.mem hdl with isBound := false } = mem at hclear
      cases hp : Lib.findPrev hdl none m.bound with
      | none => exact absurd hin (Lib.findPrev_none.mp hp)
      | some prev =>
        have hlink := hs.linked
        rcases Lib.findPrev_some hp with ⟨post, hb, rfl⟩ | ⟨pre, p, post, hb, rfl, hno⟩
        · -- the handle stands in front, so it is the only one
          rw [hb] at hlink
          have hone : m.bound = [hdl] := hk hlink.1 hat
          have herase : m.bound.erase hdl = [] := by rw [hone, List.erase_cons_head]
          obtain ⟨hsound, hlist⟩ := hs.erase ⟨none, mem⟩ (h := hdl) (by rw [herase]; rfl)
            (by simp [hclear]) fun k hne => by simp [hclear, hne, SamePair]
          exact ⟨hsound,
            fun k => by simp [hclear, SamePair], fun k hk hne => hlist ▸ hstay k hk hne⟩
        · have hmem : ∀ k, Function.update mem p { mem p with next := (m.mem hdl).next } k =
              { m.mem k with
                isBound := if k = hdl then false else (m.mem k).isBound
                next := Function.update (fun j => (m.mem j).next) p (m.mem hdl).next k } := by
            have hnexts : (fun j => (mem j).next) = fun j => (m.mem j).next :=
              funext fun j => by rw [hclear]
            intro k
            rw [update_next, hnexts, hclear]
          dsimp only
          generalize Function.update mem p { mem p with next := (m.mem hdl).next } = mem' at hmem ⊢
          have herase : m.bound.erase hdl = pre ++ p :: post := by
            rw [hb, show pre ++ p :: hdl :: post = (pre ++ [p]) ++ hdl :: post from by simp,
              List.erase_append_right _ hno, List.erase_cons_head, List.append_assoc]
            rfl
          have hlink' : Lib.Linked (fun k => (mem' k).next) m.handles (m.bound.erase hdl) := by
            have hn := hs.nodup
            rw [hb] at hlink hn
            rw [herase]
            exact (hlink.bypass hn).congr fun k _ => by rw [hmem]
          obtain ⟨hsound, hlist⟩ := hs.erase ⟨m.handles, mem'⟩ hlink' (by simp [hmem])
            fun k hne => by simp [hmem, hne, SamePair]
          exact ⟨hsound, fun k => by simp [hmem, SamePair], fun k hk hne => hlist ▸ hstay k hk hne⟩
    · rw [if_neg hd]
      exact ⟨hs, fun _ => ⟨rfl, rfl⟩, fun _ hin _ => hin⟩

theorem Sound.front (hs : Sound m) (hfront : m.handles = some h) : ∃ post, m.bound = h :: post := by
  have hlink := hs.linked
  rw [hfront] at hlink
  cases hb : m.bound with
  | nil =>
    rw [hb] at hlink
    cases hlink
  | cons k post =>
    rw [hb] at hlink
    obtain rfl := Option.some.inj hlink.1
    exact ⟨post, rfl⟩

theorem Sound.releaseHandle_bound (hs : Sound m) (release : Ipv4.Handle → Ipv4.Handle)
    (hb : (m.mem h).isBound = true) : ((Udp.releaseHandle m h release).mem h).isBound = true ∧
      (Udp.releaseHandle m h release).bound = m.bound.erase h := by
  unfold Udp.releaseHandle
  rw [if_pos hb]
  refine ⟨by simpa using hb, bound_eq ?_ (hs.nodup.erase h)⟩
  refine (hs.linked.unlink h hs.nodup).congr fun k _ => ?_
  by_cases hk : k = h
  · subst hk
    simp
  · simp [hk]

theorem Sound.unbind_front (hs : Sound m) (hfront : m.handles = some h)
    (hat : (m.mem h).isAt ipv4Address port = true) : (Udp.unbind m h ipv4Address port).1.bound = [] ∧
      ∀ k, k ≠ h → ((Udp.unbind m h ipv4Address port).1.mem k).isBound = (m.mem k).isBound := by
  obtain ⟨post, hb⟩ := hs.front hfront
  have hfind : m.findAt ipv4Address port = some h := by
    rw [Module.findAt, hb]
    exact List.find?_cons_of_pos hat
  have hprev : Lib.findPrev h none m.bound = some none := by rw [hb, Lib.findPrev, if_pos rfl]
  unfold Udp.unbind
  rw [hfind, hprev]
  dsimp only
  rw [if_pos rfl]
  refine ⟨bound_eq (l := []) rfl .nil, fun k hk => ?_⟩
  dsimp only
  rw [Function.update_of_ne hk]

/-- One step keeps the list sound exactly when it keeps the other handles. -/
theorem Sound.step_iff {m' : Module n} {i : Input n} (hs : Sound m) (hstep : step m i = some m') :
    Sound m' ↔ KeepsOthers m i := by
  cases i with
  | initializeHandle h =>
    simp only [step, List.contains_iff_mem] at hstep
    split_ifs at hstep with hin
    obtain rfl := Option.some.inj hstep
    exact ⟨fun _ => trivial, fun _ => (hs.initializeHandle hin).1⟩
  | releaseHandle h release =>
    obtain rfl := Option.some.inj hstep
    refine ⟨fun hs' => ?_, fun hk => (hs.releaseHandle release hk).1⟩
    by_contra hb
    obtain ⟨hflag, hlist⟩ := hs.releaseHandle_bound release (Bool.eq_true_of_not_eq_false hb)
    have hin := (hs'.bound_iff h).mp hflag
    rw [hlist] at hin
    exact (hs.nodup.mem_erase_iff.mp hin).1 rfl
  | bind h ipv4Address port =>
    obtain rfl := Option.some.inj hstep
    exact ⟨fun _ => trivial, fun _ => (hs.bind h ipv4Address port).1⟩
  | unbind h ipv4Address port =>
    obtain rfl := Option.some.inj hstep
    refine ⟨fun hs' hfront hat => ?_, fun hk => (hs.unbind hk).1⟩
    obtain ⟨hempty, hflag⟩ := hs.unbind_front hfront hat
    obtain ⟨post, hb⟩ := hs.front hfront
    have hn := hs.nodup
    rw [hb] at hn ⊢
    -- another handle in the list would have lost it but not its flag
    cases post with
    | nil => rfl
    | cons k post =>
      have hkh : k ≠ h := by
        rintro rfl
        simp at hn
      have hbound := (hs.bound_iff k).mpr (by rw [hb]; simp)
      have hin := (hs'.bound_iff k).mp (by rw [hflag k hkh]; exact hbound)
      rw [hempty] at hin
      cases hin

end Steps

/-- The other bound handles stay in the list, each at its pair. -/
def Spares (m : Module n) (i : Input n) (m' : Module n) : Prop :=
  ∀ k ∈ m.bound, k ≠ i.handle → k ∈ m'.bound ∧ SamePair (m.mem k) (m'.mem k)

/-- A bound handle is found for the datagrams that it takes and no other bound handle does. -/
def Receives (m : Module n) : Prop :=
  ∀ h, (m.mem h).isBound = true → ∀ dest, Takes (m.mem h) (m.mem h).port dest →
    (∀ k ∈ m.bound, k ≠ h → ¬ Takes (m.mem k) (m.mem h).port dest) →
      lookup m (m.mem h).port dest = some h

/-- A handle that is not bound can be bound to a free pair, and is then given every
datagram for it. -/
def Rebinds (m : Module n) : Prop :=
  ∀ h, (m.mem h).isBound = false → ∀ ipv4Address port,
    (∀ k ∈ m.bound, (m.mem k).isAt ipv4Address port = false) →
    (bind m h ipv4Address port).2 = .success ∧ h ∈ (bind m h ipv4Address port).1.bound ∧
    ∀ (netIf : NetIf) (header : Ipv4.RxHeader) (p : Packet),
      wellFormed netIf header.toIpv4Header p = true →
      destPortOf p = port → ¬ MissesBit ipv4Address header.destAddress →
      ∃ d, rxFrame (bind m h ipv4Address port).1 netIf header p = .ok d ∧ d.handle = h

section Runs

variable {m : Module n}

theorem Sound.spares {m' : Module n} {i : Input n} (hs : Sound m) (hk : KeepsOthers m i)
    (hstep : step m i = some m') : Spares m i m' := by
  intro k hin hne
  cases i with
  | initializeHandle h =>
    simp only [step, List.contains_iff_mem] at hstep
    split_ifs at hstep with hout
    obtain rfl := Option.some.inj hstep
    refine ⟨by rw [(hs.initializeHandle hout).2]; exact hin, ?_⟩
    have hother : (Udp.initializeHandle m h).mem k = m.mem k := Function.update_of_ne hne _ _
    rw [hother]
    exact ⟨rfl, rfl⟩
  | releaseHandle h release =>
    obtain rfl := Option.some.inj hstep
    refine ⟨by rw [(hs.releaseHandle release hk).2]; exact hin, ?_⟩
    unfold Udp.releaseHandle
    rw [if_neg (by rw [hk]; exact Bool.false_ne_true)]
    have hkh : k ≠ h := hne
    dsimp only
    rw [Function.update_of_ne hkh]
    exact ⟨rfl, rfl⟩
  | bind h ipv4Address port =>
    obtain rfl := Option.some.inj hstep
    obtain ⟨-, hpair, hlist⟩ := hs.bind h ipv4Address port
    refine ⟨?_, hpair k hne⟩
    rw [hlist]
    split_ifs
    · exact List.mem_cons_of_mem h hin
    · exact hin
  | unbind h ipv4Address port =>
    obtain rfl := Option.some.inj hstep
    obtain ⟨-, hpair, hstay⟩ := hs.unbind hk
    exact ⟨hstay k hin hne, hpair k⟩

theorem Sound.receives (hs : Sound m) : Receives m := by
  intro h hb dest ht hno
  obtain ⟨before, after, hsplit⟩ := List.append_of_mem ((hs.bound_iff h).mp hb)
  refine lookup_some_iff.mpr ⟨ht, before, after, hsplit, fun k hk => ?_⟩
  refine hno k (by rw [hsplit]; exact List.mem_append_left _ hk) ?_
  rintro rfl
  have hn := hs.nodup
  rw [hsplit] at hn
  exact List.disjoint_of_nodup_append hn hk List.mem_cons_self

theorem Sound.rebinds (hs : Sound m) : Rebinds m := by
  intro h hb ipv4Address port hfree
  have hf : m.findAt ipv4Address port = none :=
    List.find?_eq_none.mpr fun k hk he => by rw [hfree k hk] at he; cases he
  have hout : h ∉ m.bound := fun hin => by
    rw [(hs.bound_iff h).mpr hin] at hb
    cases hb
  obtain ⟨-, -, hlist⟩ := hs.bind h ipv4Address port
  rw [if_pos ⟨hf, hout⟩] at hlist
  have hpair : ((Udp.bind m h ipv4Address port).1.mem h).isAt ipv4Address port = true ∧
      (Udp.bind m h ipv4Address port).2 = .success := by
    unfold Udp.bind
    rw [hf]
    dsimp only
    rw [if_neg (by rw [hb]; exact Bool.false_ne_true)]
    refine ⟨?_, rfl⟩
    dsimp only
    rw [Function.update_self]
    exact isAt_iff.mpr ⟨rfl, rfl⟩
  refine ⟨hpair.2, by rw [hlist]; exact List.mem_cons_self, fun netIf header p hw hport hbits => ?_⟩
  obtain ⟨hp, ha⟩ := isAt_iff.mp hpair.1
  have htakes : Takes ((Udp.bind m h ipv4Address port).1.mem h) (destPortOf p) header.destAddress :=
    ⟨hp.trans hport.symm, by rw [ha]; exact hbits⟩
  exact ⟨_, rxFrame_ok_iff.mpr ⟨hw, h, lookup_some_iff.mpr ⟨htakes, [], m.bound, hlist, nofun⟩,
    rfl⟩, rfl⟩

end Runs

/-- In every state reached, the list holds the bound handles, they receive, and handles
that are not bound can be bound; a step leaves it so exactly when it keeps the others. -/
theorem bound_handles_are_listed {m : Module n}
    (hr : Lib.Reach step KeepsOthers (Module.init n) m) :
    Sound m ∧ Receives m ∧ Rebinds m ∧ ∀ i m', step m i = some m' →
      (Sound m' ↔ KeepsOthers m i) ∧ (KeepsOthers m i → Spares m i m') := by
  have hs : Sound m := hr.invariant (I := Sound) (sound_init n) fun _ _ _ hs hk hstep =>
    (hs.step_iff hstep).mpr hk
  exact ⟨hs, hs.receives, hs.rebinds, fun i m' hstep =>
    ⟨hs.step_iff hstep, fun hk => hs.spares hk hstep⟩⟩

/-- Two handles are bound, the one behind is unbound and bound again. -/
theorem bound_handles_are_listed_sample : ∃ m : Module 2, m.bound = [0, 1] ∧ Sound m ∧ Receives m ∧
    Rebinds m ∧ ¬ KeepsOthers m (.unbind 0 0#32 9#16) := by
  obtain ⟨m, hr, hm⟩ := Lib.exists_of_runInputs step KeepsOthers (Module.init 2)
    [.bind 0 0#32 7#16, .bind 1 0#32 8#16, .unbind 0 0#32 7#16, .initializeHandle 0,
      .bind 0 0#32 9#16]
    (fun m => m.bound = [0, 1] ∧ ¬ KeepsOthers m (.unbind 0 0#32 9#16)) (by decide)
  obtain ⟨hlist, hno⟩ := of_decide_eq_true hm
  obtain ⟨hs, hreceives, hrebinds, -⟩ := bound_handles_are_listed hr
  exact ⟨m, hlist, hs, hreceives, hrebinds, hno⟩

/-- The handle bound last is unbound: the other one is bound but not in the list. -/
theorem unbind_loses_others : ¬ ∀ (n : Nat) (m : Module n),
    Lib.Reach step Lib.anyStep (Module.init n) m → Sound m := by
  intro hall
  obtain ⟨m, hr, hm⟩ := Lib.exists_of_runInputs step Lib.anyStep (Module.init 2)
    [.bind 0 0#32 7#16, .bind 1 0#32 8#16, .unbind 1 0#32 8#16]
    (fun m => (m.mem 0).isBound = true ∧ m.bound = []) (by decide)
  obtain ⟨hbound, hempty⟩ := of_decide_eq_true hm
  have hin := ((hall 2 m hr).bound_iff 0).mp hbound
  rw [hempty] at hin
  cases hin

end NanoIp.Udp
