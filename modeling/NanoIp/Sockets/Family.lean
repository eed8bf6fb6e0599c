import NanoIp.Sockets.Frame
import Mathlib.Data.Fintype.Card
import Mathlib.Data.Finset.Card

/-!
# Parents and children

A listening socket counts its children and keeps those that are pending and those
that are accepted in two intrusive lists. `Family` says that counts, parent pointers
and lists agree; one lemma for each operation says under which condition it keeps them
in agreement.
-/
namespace NanoIp.Sockets

variable {n k : Nat} {T : Type}

/-- What the accounts read of a socket. -/
structure Kin (n : Nat) where
  isFree : Bool
  type : SocketType
  state : Tcp.State
  parent : Option (Fin n)
  childCount : BitVec 32
  acceptPending : Option (Fin n)
  accepted : Option (Fin n)
  next : Option (Fin n)

def Socket.kin (s : Socket n k) : Kin n :=
  ⟨s.isFree, s.type, s.tcp.state, s.parent, s.childCount, s.acceptPending, s.accepted, s.next⟩

/-- The links between sockets. -/
structure Links (n : Nat) where
  parent : Option (Fin n)
  childCount : BitVec 32
  acceptPending : Option (Fin n)
  accepted : Option (Fin n)
  next : Option (Fin n)

def Socket.links (s : Socket n k) : Links n :=
  ⟨s.parent, s.childCount, s.acceptPending, s.accepted, s.next⟩

/-- The pending and the accepted children of a socket, in list order. -/
structure Lists (m : Module n k) (p : Fin n) (P A : List (Fin n)) : Prop where
  pending : Lib.Linked (fun j => (m.sockets j).next) (m.sockets p).acceptPending P
  accepted : Lib.Linked (fun j => (m.sockets j).next) (m.sockets p).accepted A
  nodup : (P ++ A).Nodup
  children : ∀ c ∈ P ++ A, (m.sockets c).parent = some p
  established : ∀ c ∈ A, (m.sockets c).tcp.state = .established

def Module.children (m : Module n k) (p : Fin n) : Finset (Fin n) :=
  Finset.univ.filter fun c => (m.sockets c).parent = some p

/-- Children and parents are allocated, a parent counts and lists its children, and a
handshake under way belongs to a child. -/
structure Family (m : Module n k) : Prop where
  alive : ∀ c p, (m.sockets c).parent = some p → (m.sockets c).isFree = false ∧
    (m.sockets p).isFree = false
  count : ∀ p, (m.sockets p).childCount.toNat = (m.children p).card
  lists : ∀ p, ∃ P A, Lists m p P A
  handshake : ∀ c, (m.sockets c).isFree = false → (m.sockets c).type = .tcp →
    (m.sockets c).tcp.state = .synReceived → (m.sockets c).parent ≠ none

def standing (s : Socket n k) : Bool × SocketType × Connection × Option (Fin n) × BitVec 32 :=
  (s.isFree, s.type, s.tcp, s.parent, s.childCount)

/-- A change that ends a connection. -/
def Change.ends : Change → Bool
  | .acceptFailed | .closed _ | .exhausted => true
  | _ => false

section Lists

variable {m m' : Module n k} {p : Fin n} {P A : List (Fin n)}

theorem Lists.frame (h : Lists m p P A)
    (hhead : (m'.sockets p).acceptPending = (m.sockets p).acceptPending ∧
      (m'.sockets p).accepted = (m.sockets p).accepted)
    (hmem : ∀ c, (m.sockets c).parent = some p →
      (m'.sockets c).next = (m.sockets c).next ∧ (m'.sockets c).parent = some p)
    (hest : ∀ c ∈ A, (m'.sockets c).tcp.state = .established) : Lists m' p P A where
  pending := by
    rw [hhead.1]
    exact h.pending.congr fun c hc => (hmem c (h.children c (List.mem_append_left A hc))).1
  accepted := by
    rw [hhead.2]
    exact h.accepted.congr fun c hc => (hmem c (h.children c (List.mem_append_right P hc))).1
  nodup := h.nodup
  children c hc := (hmem c (h.children c hc)).2
  established := hest

theorem Lists.length_le (h : Lists m p P A) : P.length ≤ n ∧ A.length ≤ n := by
  have hle := h.nodup.length_le_card
  rw [List.length_append, Fintype.card_fin] at hle
  omega

theorem Lists.pending_eq (h : Lists m p P A) : m.pending p = P := h.pending.chain_eq h.length_le.1

theorem Lists.accepts_eq (h : Lists m p P A) : m.accepts p = A := h.accepted.chain_eq h.length_le.2

theorem Lists.other {i : Fin n} (hl : Lists m p P A) (hs : Same standing m m')
    (hhead : (m'.sockets p).acceptPending = (m.sockets p).acceptPending ∧
      (m'.sockets p).accepted = (m.sockets p).accepted) (hpi : p ≠ i)
    (hnext : ∀ c, (m.sockets c).parent ≠ some i → (m'.sockets c).next = (m.sockets c).next) :
    Lists m' p P A := by
  have hparent (c : Fin n) : (m'.sockets c).parent = (m.sockets c).parent :=
    congrArg (fun q => q.2.2.2.1) (hs c)
  refine hl.frame hhead (fun c hc => ⟨hnext c ?_, (hparent c).trans hc⟩) fun c hc => ?_
  · rw [hc]
    exact fun he => hpi (Option.some.inj he)
  · rw [show (m'.sockets c).tcp = _ from congrArg (fun q => q.2.2.1) (hs c)]
    exact hl.established c hc

theorem Lists.notMem_orphan (hl : Lists m p P A) {i : Fin n} (hnone : (m.sockets i).parent = none) :
    i ∉ P ++ A := fun hi => by
  have hparent := hl.children i hi
  rw [hnone] at hparent
  cases hparent

end Lists

section Adopt

variable (m : Module n k) (i client j : Fin n)

theorem adopt_parent : ((adopt m i client).sockets j).parent =
    if j = client then some i else (m.sockets j).parent := by
  simp only [adopt, Module.modify_sockets, apply_ite Socket.parent]
  split_ifs <;> subst_vars <;> first | rfl | contradiction

theorem adopt_next : ((adopt m i client).sockets j).next =
    Function.update (fun j => (m.sockets j).next) client (m.sockets i).acceptPending j := by
  simp only [adopt, Module.modify_sockets, apply_ite Socket.next, Function.update_apply]
  split_ifs <;> subst_vars <;> first | rfl | contradiction

theorem adopt_acceptPending : ((adopt m i client).sockets j).acceptPending =
    if j = i then some client else (m.sockets j).acceptPending := by
  simp only [adopt, Module.modify_sockets, apply_ite Socket.acceptPending]
  split_ifs <;> subst_vars <;> first | rfl | contradiction

theorem adopt_childCount : ((adopt m i client).sockets j).childCount =
    if j = i then (m.sockets j).childCount + 1#32 else (m.sockets j).childCount := by
  simp only [adopt, Module.modify_sockets, apply_ite Socket.childCount]
  split_ifs <;> subst_vars <;> rfl

end Adopt

namespace Family

variable {m m' : Module n k} {i : Fin n}

theorem blind_kin : Blind (Socket.kin (n := n) (k := k)) :=
  ⟨fun _ _ => rfl, fun _ _ => rfl, fun _ _ => rfl, fun _ _ => rfl, fun _ _ => rfl⟩

/-- Allocation and connection states may change where the accounts do not look. -/
theorem restate (h : Family m) (hlinks : Same Socket.links m m')
    (halive : ∀ c, (m.sockets c).parent ≠ none ∨ (∃ d, (m.sockets d).parent = some c) →
      (m'.sockets c).isFree = (m.sockets c).isFree)
    (hest : ∀ p P A, Lists m p P A → ∀ c ∈ A, (m'.sockets c).tcp.state = .established)
    (hhand : ∀ c, (m'.sockets c).isFree = false → (m'.sockets c).type = .tcp →
      (m'.sockets c).tcp.state = .synReceived → (m.sockets c).parent ≠ none) : Family m' where
  alive c p hp := by
    have hp' : (m.sockets c).parent = some p := (congrArg Links.parent (hlinks c)).symm.trans hp
    obtain ⟨hc, hf⟩ := h.alive c p hp'
    refine ⟨(halive c (.inl ?_)).trans hc, (halive p (.inr ⟨c, hp'⟩)).trans hf⟩
    rw [hp']
    nofun
  count p := by
    have hcount : (m'.sockets p).childCount = (m.sockets p).childCount :=
      congrArg Links.childCount (hlinks p)
    have hpar : m'.children p = m.children p := by
      unfold Module.children
      congr 1
      funext c
      rw [show (m'.sockets c).parent = (m.sockets c).parent from congrArg Links.parent (hlinks c)]
    rw [hcount, hpar]
    exact h.count p
  lists p := by
    obtain ⟨P, A, hl⟩ := h.lists p
    refine ⟨P, A, hl.frame ⟨congrArg Links.acceptPending (hlinks p),
      congrArg Links.accepted (hlinks p)⟩ ?_
      (hest p P A hl)⟩
    intro c hc
    exact ⟨congrArg Links.next (hlinks c), (congrArg Links.parent (hlinks c)).trans hc⟩
  handshake c hf ht hs := by
    rw [show (m'.sockets c).parent = (m.sockets c).parent from congrArg Links.parent (hlinks c)]
    exact hhand c hf ht hs

theorem congr (h : Family m) (hs : Same Socket.kin m m') : Family m' := by
  have hfree (c : Fin n) : (m'.sockets c).isFree = (m.sockets c).isFree :=
    congrArg Kin.isFree (hs c)
  have htype (c : Fin n) : (m'.sockets c).type = (m.sockets c).type := congrArg Kin.type (hs c)
  have hstate (c : Fin n) : (m'.sockets c).tcp.state = (m.sockets c).tcp.state :=
    congrArg Kin.state (hs c)
  refine h.restate (fun c => ?_) (fun c _ => hfree c) (fun p P A hl c hc => ?_)
    fun c hf ht hst => ?_
  · exact congrArg (fun q : Kin n =>
      (⟨q.parent, q.childCount, q.acceptPending, q.accepted, q.next⟩ : Links n))
      (hs c)
  · rw [hstate]
    exact hl.established c hc
  · rw [hfree] at hf
    rw [htype] at ht
    rw [hstate] at hst
    exact h.handshake c hf ht hst

theorem childless_of_free (h : Family m) {i : Fin n} (hi : (m.sockets i).isFree = true) :
    (m.sockets i).parent = none ∧ ∀ c, (m.sockets c).parent ≠ some i := by
  constructor
  · cases hp : (m.sockets i).parent with
    | none => rfl
    | some p => exact absurd ((h.alive i p hp).1.symm.trans hi) (by decide)
  · intro c hc
    exact absurd ((h.alive c i hc).2.symm.trans hi) (by decide)

/-- Whoever has a relative is another socket than one without. -/
theorem relative_ne {i : Fin n} (hpar : (m.sockets i).parent = none)
    (hchild : ∀ c, (m.sockets c).parent ≠ some i) {c : Fin n}
    (hc : (m.sockets c).parent ≠ none ∨ ∃ d, (m.sockets d).parent = some c) : c ≠ i := by
  rintro rfl
  rcases hc with hc | ⟨d, hd⟩
  · exact hc hpar
  · exact hchild d hd

section Started

variable {i : Fin n} {type : SocketType} {ret : Err} {flags : BitVec 32}

theorem started_of_ne {c : Fin n} (hc : c ≠ i) :
    (m.modify i (Sockets.started type ret flags)).sockets c = m.sockets c :=
  Module.modify_of_ne _ _ hc

theorem started_established {p : Fin n} {P A : List (Fin n)} (hl : Lists m p P A)
    (hpar : (m.sockets i).parent = none) (c : Fin n) (hc : c ∈ A) :
    ((m.modify i (Sockets.started type ret flags)).sockets c).tcp.state = .established := by
  rw [started_of_ne (ne_of_mem_of_not_mem (List.mem_append_right P hc) (hl.notMem_orphan hpar))]
  exact hl.established c hc

theorem started_udp (h : Family m) (hi : (m.sockets i).isFree = true) :
    Family (m.modify i (Sockets.started .udp ret flags)) := by
  obtain ⟨hpar, hchild⟩ := h.childless_of_free hi
  have hlinks : Same Socket.links m (m.modify i (Sockets.started .udp ret flags)) :=
    (Same.refl _ m).modify (by rfl)
  refine h.restate hlinks (fun c hc => ?_) (fun p P A hl => started_established hl hpar)
    fun c hf ht hs => ?_
  · rw [started_of_ne (relative_ne hpar hchild hc)]
  · by_cases hci : c = i
    · subst hci
      rw [Module.modify_self] at ht
      cases ht
    · rw [started_of_ne hci] at hf ht hs
      exact h.handshake c hf ht hs

theorem started_parent (hpar : (m.sockets i).parent = none) (c : Fin n) :
    ((m.modify i (Sockets.started .tcp ret flags)).sockets c).parent = (m.sockets c).parent := by
  by_cases hci : c = i
  · subst hci
    rw [Module.modify_self, hpar]
    rfl
  · rw [started_of_ne hci]

theorem started_children (hpar : (m.sockets i).parent = none) (p : Fin n) :
    (m.modify i (Sockets.started .tcp ret flags)).children p = m.children p := by
  unfold Module.children
  simp only [started_parent hpar]

theorem started_alive (h : Family m) (hpar : (m.sockets i).parent = none)
    (hchild : ∀ c, (m.sockets c).parent ≠ some i) (c p : Fin n)
    (hp : ((m.modify i (Sockets.started .tcp ret flags)).sockets c).parent = some p) :
    ((m.modify i (Sockets.started .tcp ret flags)).sockets c).isFree = false ∧
      ((m.modify i (Sockets.started .tcp ret flags)).sockets p).isFree = false := by
  rw [started_parent hpar] at hp
  have hc : (m.sockets c).parent ≠ none := by
    rw [hp]
    exact Option.some_ne_none p
  rw [started_of_ne (relative_ne hpar hchild (.inl hc)),
    started_of_ne (relative_ne hpar hchild (.inr ⟨c, hp⟩))]
  exact h.alive c p hp

theorem started_count (h : Family m) (hpar : (m.sockets i).parent = none)
    (hchild : ∀ c, (m.sockets c).parent ≠ some i) (p : Fin n) :
    ((m.modify i (Sockets.started .tcp ret flags)).sockets p).childCount.toNat =
      ((m.modify i (Sockets.started .tcp ret flags)).children p).card := by
  rw [started_children hpar]
  by_cases hpi : p = i
  · subst hpi
    have hempty : m.children p = ∅ := by
      rw [Module.children, Finset.filter_eq_empty_iff]
      exact fun c _ => hchild c
    rw [Module.modify_self, hempty]
    rfl
  · rw [started_of_ne hpi]
    exact h.count p

theorem started_lists (h : Family m) (hpar : (m.sockets i).parent = none) (p : Fin n) :
    ∃ P A, Lists (m.modify i (Sockets.started .tcp ret flags)) p P A := by
  by_cases hpi : p = i
  · subst hpi
    refine ⟨[], [], ?_, ?_, List.nodup_nil, nofun, nofun⟩
    · rw [Module.modify_self]
      rfl
    · rw [Module.modify_self]
      rfl
  · obtain ⟨P, A, hl⟩ := h.lists p
    have hsame : (m.modify i (Sockets.started .tcp ret flags)).sockets p = m.sockets p :=
      started_of_ne hpi
    refine ⟨P, A, hl.frame ⟨by rw [hsame], by rw [hsame]⟩ (fun c hc => ?_)
      (started_established hl hpar)⟩
    have hci : c ≠ i := by
      rintro rfl
      rw [hpar] at hc
      cases hc
    rw [started_of_ne hci]
    exact ⟨rfl, hc⟩

theorem started_handshake (h : Family m) (hpar : (m.sockets i).parent = none) (c : Fin n)
    (hf : ((m.modify i (Sockets.started .tcp ret flags)).sockets c).isFree = false)
    (ht : ((m.modify i (Sockets.started .tcp ret flags)).sockets c).type = .tcp)
    (hs : ((m.modify i (Sockets.started .tcp ret flags)).sockets c).tcp.state = .synReceived) :
    ((m.modify i (Sockets.started .tcp ret flags)).sockets c).parent ≠ none := by
  by_cases hci : c = i
  · subst hci
    rw [Module.modify_self] at hs
    change (if ret = .success then Tcp.State.idle else .closed) = .synReceived at hs
    split_ifs at hs
  · rw [started_of_ne hci] at hf ht hs
    rw [started_parent hpar]
    exact h.handshake c hf ht hs

/-- A slot that is taken for a socket was nobody's child or parent. -/
theorem started (h : Family m) (hi : (m.sockets i).isFree = true) (type : SocketType)
    (ret : Err) (flags : BitVec 32) : Family (m.modify i (started type ret flags)) := by
  cases type with
  | udp => exact h.started_udp hi
  | tcp =>
    obtain ⟨hpar, hchild⟩ := h.childless_of_free hi
    exact ⟨h.started_alive hpar hchild, h.started_count hpar hchild, h.started_lists hpar,
      h.started_handshake hpar⟩

end Started

/-- A socket without relatives can be released. -/
theorem ended (h : Family m) {i : Fin n} (hpar : (m.sockets i).parent = none)
    (hchild : ∀ c, (m.sockets c).parent ≠ some i) : Family (m.modify i ended) := by
  have hother (c : Fin n) (hc : c ≠ i) : (m.modify i Sockets.ended).sockets c = m.sockets c :=
    Module.modify_of_ne _ _ hc
  refine h.restate ((Same.refl _ m).modify (by rfl)) (fun c hc => ?_) (fun p P A hl c hc => ?_)
    fun c hf ht hs => ?_
  · rw [hother c (relative_ne hpar hchild hc)]
  · rw [hother c (ne_of_mem_of_not_mem (List.mem_append_right P hc) (hl.notMem_orphan hpar))]
    exact hl.established c hc
  · by_cases hci : c = i
    · subst hci
      rw [Module.modify_self] at hf
      cases hf
    · rw [hother c hci] at hf ht hs
      exact h.handshake c hf ht hs

/-- The connection of a socket changes to a state that keeps the accounts: no listed
connection is left, and a handshake begins for a child only. -/
theorem setTcp (h : Family m) {i : Fin n} (tcp : Connection)
    (hleft : ∀ p P A, Lists m p P A → i ∈ A → tcp.state = .established)
    (hbegin : tcp.state = .synReceived → (m.sockets i).parent ≠ none) :
    Family (m.modify i fun s => { s with tcp := tcp }) := by
  have hother (c : Fin n) (hc : c ≠ i) : (m.modify i fun s => { s with tcp := tcp }).sockets c =
    m.sockets c :=
    Module.modify_of_ne _ _ hc
  have hfree : Same (fun s => (s.isFree, s.type)) m (m.modify i fun s => { s with tcp := tcp }) :=
    (Same.refl _ m).modify (by rfl)
  refine h.restate ((Same.refl _ m).modify (by rfl)) (fun c _ => congrArg Prod.fst (hfree c))
    (fun p P A hl c hc => ?_) fun c hf ht hs => ?_
  · by_cases hci : c = i
    · subst hci
      rw [Module.modify_self]
      exact hleft p P A hl hc
    · rw [hother c hci]
      exact hl.established c hc
  · by_cases hci : c = i
    · subst hci
      rw [Module.modify_self] at hs
      exact hbegin hs
    · rw [hother c hci] at hf ht hs
      exact h.handshake c hf ht hs

theorem not_listed (hs : (m.sockets i).tcp.state ≠ .established) {p : Fin n} {P A : List (Fin n)}
    (hl : Lists m p P A) : i ∉ A := fun hi => hs (hl.established i hi)

/-- The list pointers may change as long as they still spell out lists. -/
theorem relist (h : Family m) (hs : Same standing m m') (hlists : ∀ p, ∃ P A, Lists m' p P A) :
    Family m' := by
  have hfree (c : Fin n) : (m'.sockets c).isFree = (m.sockets c).isFree := congrArg Prod.fst (hs c)
  have htype (c : Fin n) : (m'.sockets c).type = (m.sockets c).type :=
    congrArg (fun q => q.2.1) (hs c)
  have htcp (c : Fin n) : (m'.sockets c).tcp = (m.sockets c).tcp :=
    congrArg (fun q => q.2.2.1) (hs c)
  have hparent (c : Fin n) : (m'.sockets c).parent = (m.sockets c).parent :=
    congrArg (fun q => q.2.2.2.1) (hs c)
  have hcount (c : Fin n) : (m'.sockets c).childCount = (m.sockets c).childCount :=
    congrArg (fun q => q.2.2.2.2) (hs c)
  refine ⟨fun c p hp => ?_, fun p => ?_, hlists, fun c hf ht hst => ?_⟩
  · rw [hparent] at hp
    rw [hfree, hfree]
    exact h.alive c p hp
  · rw [hcount, h.count p]
    unfold Module.children
    simp only [hparent]
  · rw [hfree] at hf
    rw [htype] at ht
    rw [htcp] at hst
    rw [hparent]
    exact h.handshake c hf ht hst

/-- The first accepted connection leaves its list. -/
theorem acceptTurn (h : Family m) (i : Fin n) : Family (acceptTurn m i).1 := by
  unfold Sockets.acceptTurn
  cases ha : (m.sockets i).accepted with
  | none =>
    dsimp only
    split_ifs
    · exact h
    · exact h.congr (resetFlags_same blind_kin.flags m i flagsAll)
  | some client =>
    dsimp only
    set m' := (m.modify i fun s => { s with accepted := (m.sockets client).next }).modify client
      fun s => { s with next := none } with hm'
    have hs : Same standing m m' := Same.modify ((Same.refl _ m).modify (by rfl)) (by rfl)
    have hpending : Same Socket.acceptPending m m' :=
      Same.modify ((Same.refl _ m).modify (by rfl)) (by rfl)
    have hnext (c : Fin n) (hc : c ≠ client) : (m'.sockets c).next = (m.sockets c).next := by
      rw [hm', Module.modify_of_ne _ _ hc]
      exact (Same.refl Socket.next m).modify (by rfl) c
    have haccepted (p : Fin n) : (m'.sockets p).accepted =
        if p = i then (m.sockets client).next else (m.sockets p).accepted := by
      rw [show (m'.sockets p).accepted = ((m.modify i fun s => { s with
        accepted := (m.sockets client).next }).sockets p).accepted from Same.modify
          (Same.refl _ _) (by rfl) p,
        Module.modify_sockets]
      split_ifs <;> rfl
    obtain ⟨P, A, hl⟩ := h.lists i
    cases A with
    | nil => exact absurd (ha.symm.trans hl.accepted) nofun
    | cons a A =>
      obtain ⟨hhead, htail⟩ := hl.accepted
      obtain rfl := Option.some.inj (ha.symm.trans hhead)
      have hnodup := List.nodup_append.mp hl.nodup
      have hcP : client ∉ P := fun hc => hnodup.2.2 client hc client List.mem_cons_self rfl
      have hcA : client ∉ A := (List.nodup_cons.mp hnodup.2.1).1
      refine h.relist hs fun p => ?_
      by_cases hpi : p = i
      · subst hpi
        have hin (c : Fin n) (hc : c ∈ P ++ A) : c ∈ P ++ client :: A := by
          rcases List.mem_append.mp hc with hc | hc
          · exact List.mem_append_left _ hc
          · exact List.mem_append_right _ (List.mem_cons_of_mem client hc)
        refine ⟨P, A, ?_, ?_, hl.nodup.sublist ((List.sublist_cons_self client A).append_left P),
          fun c hc => ?_, fun c hc => ?_⟩
        · rw [hpending p]
          exact hl.pending.congr fun c hc => hnext c (ne_of_mem_of_not_mem hc hcP)
        · rw [haccepted, if_pos rfl]
          exact htail.congr fun c hc => hnext c (ne_of_mem_of_not_mem hc hcA)
        · exact (congrArg (fun q => q.2.2.2.1) (hs c)).trans (hl.children c (hin c hc))
        · exact (congrArg (fun q => q.2.2.1.state) (hs c)).trans
            (hl.established c (List.mem_cons_of_mem client hc))
      · obtain ⟨P', A', hl'⟩ := h.lists p
        refine ⟨P', A', hl'.other hs ⟨hpending p, by rw [haccepted, if_neg hpi]⟩ hpi fun c hc =>
          hnext c ?_⟩
        rintro rfl
        exact hc (hl.children c (List.mem_append_right P List.mem_cons_self))

section Adopt

variable {client : Fin n}

theorem adopt_kept (m : Module n k) (i client : Fin n) :
    Same (fun s => (s.isFree, s.type, s.tcp, s.accepted)) m (Sockets.adopt m i client) :=
  adopt_same (fun _ _ => rfl) (fun _ _ => rfl) (fun _ _ => rfl) (fun _ _ => rfl) m i client

theorem adopt_isFree (c : Fin n) :
    ((Sockets.adopt m i client).sockets c).isFree = (m.sockets c).isFree :=
  congrArg Prod.fst (adopt_kept m i client c)

theorem adopt_tcp (c : Fin n) : ((Sockets.adopt m i client).sockets c).tcp = (m.sockets c).tcp :=
  congrArg (fun q => q.2.2.1) (adopt_kept m i client c)

theorem adopt_children_self :
    (Sockets.adopt m i client).children i = insert client (m.children i) := by
  ext c
  simp only [Module.children, Finset.mem_filter, Finset.mem_univ, true_and, Finset.mem_insert,
    adopt_parent]
  split_ifs with hc
  · simp [hc]
  · simp [hc]

theorem adopt_children_of_ne (hnone : (m.sockets client).parent = none) {p : Fin n} (hp : p ≠ i) :
    (Sockets.adopt m i client).children p = m.children p := by
  ext c
  simp only [Module.children, Finset.mem_filter, Finset.mem_univ, true_and, adopt_parent]
  split_ifs with hc
  · rw [hc, hnone]
    simpa using fun he => hp he.symm
  · rfl

theorem adopt_alive (h : Family m) (hclient : (m.sockets client).isFree = false)
    (hi : (m.sockets i).isFree = false) (c p : Fin n)
    (hp : ((Sockets.adopt m i client).sockets c).parent = some p) :
    ((Sockets.adopt m i client).sockets c).isFree = false ∧
      ((Sockets.adopt m i client).sockets p).isFree = false := by
  rw [adopt_parent] at hp
  rw [adopt_isFree, adopt_isFree]
  split_ifs at hp with hc
  · obtain rfl := Option.some.inj hp
    rw [hc]
    exact ⟨hclient, hi⟩
  · exact h.alive c p hp

theorem adopt_count (h : Family m) (hnone : (m.sockets client).parent = none)
    (hroom : (m.sockets i).childCount < (m.sockets i).maxChildCount) (p : Fin n) :
    ((Sockets.adopt m i client).sockets p).childCount.toNat =
      ((Sockets.adopt m i client).children p).card := by
  by_cases hpi : p = i
  · subst hpi
    have hnew : client ∉ m.children p := by
      simp [Module.children, hnone]
    have hmax := (m.sockets p).maxChildCount.isLt
    have hone : (1#32).toNat = 1 := rfl
    rw [BitVec.lt_def] at hroom
    rw [adopt_childCount, if_pos rfl, adopt_children_self, Finset.card_insert_of_notMem hnew,
      ← h.count p,
      BitVec.toNat_add]
    exact Nat.mod_eq_of_lt (by omega)
  · rw [adopt_childCount, if_neg hpi, adopt_children_of_ne hnone hpi]
    exact h.count p

theorem adopt_accepted {p : Fin n} {P A : List (Fin n)} (hl : Lists m p P A)
    (hnone : (m.sockets client).parent = none) :
    Lib.Linked (fun j => ((Sockets.adopt m i client).sockets j).next)
        ((Sockets.adopt m i client).sockets p).accepted A ∧
      ∀ c ∈ A, ((Sockets.adopt m i client).sockets c).tcp.state = .established := by
  have hnotin := hl.notMem_orphan hnone
  constructor
  · rw [show ((Sockets.adopt m i client).sockets p).accepted = _ from
      congrArg (fun q => q.2.2.2) (adopt_kept m i client p)]
    refine hl.accepted.congr fun c hc => ?_
    rw [adopt_next, Function.update_of_ne
      (ne_of_mem_of_not_mem (List.mem_append_right P hc) hnotin)]
  · intro c hc
    rw [adopt_tcp]
    exact hl.established c hc

theorem adopt_lists_self {P A : List (Fin n)} (hl : Lists m i P A)
    (hnone : (m.sockets client).parent = none) :
    Lists (Sockets.adopt m i client) i (client :: P) A := by
  have hnotin := hl.notMem_orphan hnone
  obtain ⟨haccepted, hestablished⟩ := adopt_accepted (i := i) hl hnone
  refine ⟨?_, haccepted, List.nodup_cons.mpr ⟨hnotin, hl.nodup⟩, fun c hc => ?_, hestablished⟩
  · rw [adopt_acceptPending, if_pos rfl,
      show (fun j => ((Sockets.adopt m i client).sockets j).next) =
        _ from funext (adopt_next m i client)]
    exact hl.pending.push fun hc => hnotin (List.mem_append_left A hc)
  · rw [adopt_parent]
    rcases List.mem_cons.mp hc with rfl | hc
    · rw [if_pos rfl]
    · rw [if_neg (ne_of_mem_of_not_mem hc hnotin)]
      exact hl.children c hc

theorem adopt_lists_of_ne {p : Fin n} {P A : List (Fin n)} (hl : Lists m p P A)
    (hnone : (m.sockets client).parent = none) (hp : p ≠ i) :
    Lists (Sockets.adopt m i client) p P A := by
  have hnotin := hl.notMem_orphan hnone
  obtain ⟨haccepted, hestablished⟩ := adopt_accepted (i := i) hl hnone
  refine ⟨?_, haccepted, hl.nodup, fun c hc => ?_, hestablished⟩
  · rw [adopt_acceptPending, if_neg hp]
    refine hl.pending.congr fun c hc => ?_
    rw [adopt_next, Function.update_of_ne (ne_of_mem_of_not_mem (List.mem_append_left A hc) hnotin)]
  · rw [adopt_parent, if_neg (ne_of_mem_of_not_mem hc hnotin)]
    exact hl.children c hc

theorem adopt_handshake (h : Family m) (c : Fin n)
    (hf : ((Sockets.adopt m i client).sockets c).isFree = false)
    (ht : ((Sockets.adopt m i client).sockets c).type = .tcp)
    (hst : ((Sockets.adopt m i client).sockets c).tcp.state = .synReceived) :
    ((Sockets.adopt m i client).sockets c).parent ≠ none := by
  rw [adopt_parent]
  split_ifs with hc
  · exact Option.some_ne_none i
  · rw [adopt_isFree] at hf
    rw [show ((Sockets.adopt m i client).sockets c).type = _ from
      congrArg (fun q => q.2.1) (adopt_kept m i client c)] at ht
    rw [adopt_tcp] at hst
    exact h.handshake c hf ht hst

theorem adopt (h : Family m) (hclient : (m.sockets client).isFree = false)
    (hi : (m.sockets i).isFree = false) (hnone : (m.sockets client).parent = none)
    (hroom : (m.sockets i).childCount < (m.sockets i).maxChildCount) :
    Family (adopt m i client) := by
  refine ⟨adopt_alive h hclient hi, adopt_count h hnone hroom, fun p => ?_, adopt_handshake h⟩
  obtain ⟨P, A, hl⟩ := h.lists p
  by_cases hp : p = i
  · subst hp
    exact ⟨client :: P, A, adopt_lists_self hl hnone⟩
  · exact ⟨P, A, adopt_lists_of_ne hl hnone hp⟩

end Adopt

/-- A child leaves the pending list of its parent. -/
theorem unlinkPending (h : Family m) (p i : Fin n) : Family (unlinkPending m p i) ∧
    ∀ P A, Lists m p P A → Lists (unlinkPending m p i) p (P.erase i) A := by
  set m' := Sockets.unlinkPending m p i with hm'
  have hs : Same standing m m' := unlinkPending_same (fun _ _ => rfl) (fun _ _ => rfl) m p i
  have haccepted : Same Socket.accepted m m' :=
    unlinkPending_same (fun _ _ => rfl) (fun _ _ => rfl) m p i
  have hunlink (P A : List (Fin n)) (hl : Lists m p P A) :
      (∀ c, (m'.sockets c).next =
        (Lib.unlink (fun j => (m.sockets j).next) (m.sockets p).acceptPending i P).2 c) ∧
      ∀ q, (m'.sockets q).acceptPending = if q = p then
        (Lib.unlink (fun j => (m.sockets j).next) (m.sockets p).acceptPending i P).1
        else (m.sockets q).acceptPending := by
    rw [← hl.pending_eq]
    refine ⟨fun c => ?_, fun q => ?_⟩
    · simp only [hm', Sockets.unlinkPending, Module.modify_sockets]
      split_ifs with hc
      · rw [hc]
        rfl
      · rfl
    · simp only [hm', Sockets.unlinkPending, Module.modify_sockets]
      split_ifs <;> rfl
  have hown (P A : List (Fin n)) (hl : Lists m p P A) : Lists m' p (P.erase i) A := by
    obtain ⟨hnext, hpending⟩ := hunlink P A hl
    have hnodup := List.nodup_append.mp hl.nodup
    have hsub : (P.erase i ++ A).Sublist (P ++ A) := List.erase_sublist.append_right A
    refine ⟨?_, ?_, hl.nodup.sublist hsub, fun c hc => ?_, fun c hc => ?_⟩
    · rw [hpending, if_pos rfl, show (fun j => (m'.sockets j).next) = _ from funext hnext]
      exact hl.pending.unlink i hnodup.1
    · rw [haccepted p]
      refine hl.accepted.congr fun c hc => (hnext c).trans (Lib.unlink_frame _ _ _ fun hcP => ?_)
      exact hnodup.2.2 c hcP c hc rfl
    · exact (congrArg (fun q => q.2.2.2.1) (hs c)).trans (hl.children c (hsub.subset hc))
    · exact (congrArg (fun q => q.2.2.1.state) (hs c)).trans (hl.established c hc)
  refine ⟨h.relist hs fun q => ?_, hown⟩
  obtain ⟨P, A, hl⟩ := h.lists p
  by_cases hqp : q = p
  · rw [hqp]
    exact ⟨_, _, hown P A hl⟩
  · obtain ⟨P', A', hl'⟩ := h.lists q
    obtain ⟨hnext, hpending⟩ := hunlink P A hl
    refine ⟨P', A', hl'.other hs ⟨by rw [hpending, if_neg hqp], haccepted q⟩ hqp fun c hc => ?_⟩
    refine (hnext c).trans (Lib.unlink_frame _ _ _ fun hcP => ?_)
    exact hc (hl.children c (List.mem_append_left A hcP))

/-- An established child that is in no list becomes the last accepted one. -/
theorem appendAccepted (h : Family m) {p i : Fin n} (hp : (m.sockets i).parent = some p)
    (hest : (m.sockets i).tcp.state = .established) {P A : List (Fin n)} (hl : Lists m p P A)
    (hnew : i ∉ P ++ A) : Family (appendAccepted m p i) := by
  set m' := Sockets.appendAccepted m p i with hm'
  have hs : Same standing m m' := appendAccepted_same (fun _ _ => rfl) (fun _ _ => rfl) m p i
  have hpending : Same Socket.acceptPending m m' :=
    appendAccepted_same (fun _ _ => rfl) (fun _ _ => rfl) m p i
  have hnext (c : Fin n) : (m'.sockets c).next =
      (Lib.append (fun j => (m.sockets j).next) (m.sockets p).accepted i A).2 c := by
    rw [← hl.accepts_eq]
    simp only [hm', Sockets.appendAccepted, Module.modify_sockets]
    split_ifs with hc
    · rw [hc]
      rfl
    · rfl
  have haccepted (q : Fin n) : (m'.sockets q).accepted = if q = p then
      (Lib.append (fun j => (m.sockets j).next) (m.sockets p).accepted i A).1
      else (m.sockets q).accepted := by
    rw [← hl.accepts_eq]
    simp only [hm', Sockets.appendAccepted, Module.modify_sockets]
    split_ifs <;> rfl
  have hnodup := List.nodup_append.mp hl.nodup
  have hiP : i ∉ P := fun hc => hnew (List.mem_append_left A hc)
  have hiA : i ∉ A := fun hc => hnew (List.mem_append_right P hc)
  refine h.relist hs fun q => ?_
  by_cases hqp : q = p
  · subst hqp
    refine ⟨P, A ++ [i], ?_, ?_, ?_, fun c hc => ?_, fun c hc => ?_⟩
    · rw [hpending q]
      refine hl.pending.congr fun c hc => (hnext c).trans
        (Lib.append_frame _ _ (fun hcA => ?_) (ne_of_mem_of_not_mem hc hiP))
      exact hnodup.2.2 c hc c hcA rfl
    · rw [haccepted, if_pos rfl, show (fun j => (m'.sockets j).next) = _ from funext hnext]
      exact hl.accepted.append hnodup.2.1 hiA
    · rw [← List.append_assoc]
      refine List.nodup_append.mpr ⟨hl.nodup, List.nodup_singleton i, fun a ha b hb => ?_⟩
      rw [List.mem_singleton.mp hb]
      exact ne_of_mem_of_not_mem ha hnew
    · refine (congrArg (fun q => q.2.2.2.1) (hs c)).trans ?_
      rw [← List.append_assoc] at hc
      rcases List.mem_append.mp hc with hc | hc
      · exact hl.children c hc
      · rw [List.mem_singleton.mp hc]
        exact hp
    · refine (congrArg (fun q => q.2.2.1.state) (hs c)).trans ?_
      rcases List.mem_append.mp hc with hc | hc
      · exact hl.established c hc
      · rw [List.mem_singleton.mp hc]
        exact hest
  · obtain ⟨P', A', hl'⟩ := h.lists q
    refine ⟨P', A', hl'.other hs ⟨hpending q, by rw [haccepted, if_neg hqp]⟩ hqp fun c hc => ?_⟩
    refine (hnext c).trans (Lib.append_frame _ _ (fun hcA => ?_) ?_)
    · exact hc (hl.children c (List.mem_append_right P hcA))
    · rintro rfl
      exact hc hp

theorem onAccepted (h : Family m) {p : Fin n} (hp : (m.sockets i).parent = some p)
    (hest : (m.sockets i).tcp.state = .established) {P A : List (Fin n)} (hl : Lists m p P A)
    (hnew : i ∉ A) :
    Family (onAccepted m i) := by
  obtain ⟨hu, hlists⟩ := h.unlinkPending p i
  have hs : Same standing m (Sockets.unlinkPending m p i) :=
    unlinkPending_same (fun _ _ => rfl) (fun _ _ => rfl) m p i
  have hgone : i ∉ P.erase i ++ A := by
    intro hc
    rcases List.mem_append.mp hc with hc | hc
    · exact (List.nodup_append.mp hl.nodup).1.not_mem_erase hc
    · exact hnew hc
  have ha := hu.appendAccepted ((congrArg (fun q => q.2.2.2.1) (hs i)).trans hp)
    ((congrArg (fun q => q.2.2.1.state) (hs i)).trans hest) (hlists P A hl) hgone
  unfold Sockets.onAccepted
  rw [hp]
  exact ha.congr (setFlags_same blind_kin.flags _ i eventRx)

theorem allocated (h : Family m) (type : SocketType) (ret : Err) :
    Family (allocate m type ret).1 := by
  rcases allocate_cases m type ret with he | ⟨i, flags, hi, he⟩
  · rw [he]
    exact h
  · rw [he]
    exact h.started hi type ret flags

/-- A SYN for a listening socket keeps the accounts. -/
theorem acceptConnection (h : Family m) (i : Fin n) (peer : Endpoint) (ret : Err)
    (answered : Bool) :
    Family (acceptConnection m i peer ret answered) := by
  rcases acceptConnection_cases m i peer ret answered with
    he | ⟨j, flags, hj, -, he⟩ | ⟨client, flags, state, hi, hroom, hj, -, he⟩
  · exact h.congr (Same.of_sockets he)
  · exact (h.started hj .tcp ret flags).congr (Same.of_sockets he)
  · have hself : (m.modify client (Sockets.started .tcp .success flags)).sockets client =
        Sockets.started .tcp .success flags (m.sockets client) := Module.modify_self _ _ _
    have hother : (m.modify client (Sockets.started .tcp .success flags)).sockets i =
        m.sockets i := by
      refine Module.modify_of_ne _ _ ?_
      rintro rfl
      exact absurd (hi.symm.trans hj) (by decide)
    have hadopt : Family (Sockets.adopt (m.modify client (Sockets.started .tcp .success flags)) i
        client) := by
      refine (h.started hj .tcp .success flags).adopt ?_ ?_ ?_ ?_
      · rw [hself]
        exact Bool.and_false _
      · rw [hother]
        exact hi
      · rw [hself]
        rfl
      · rw [hother]
        exact hroom
    refine congr ?_ (Same.of_sockets he)
    refine hadopt.setTcp _ (fun p P A hl hc => absurd hc (not_listed ?_ hl)) fun _ => ?_
    · have hkeep := adopt_same (g := Socket.tcp) (fun _ _ => rfl) (fun _ _ => rfl) (fun _ _ => rfl)
        (fun _ _ => rfl) (m.modify client (Sockets.started .tcp .success flags)) i client client
      rw [hkeep, hself]
      nofun
    · rw [adopt_parent, if_pos rfl]
      nofun

theorem setState (h : Family m) {i : Fin n} {state : Tcp.State}
    (hleft : ∀ p P A, Lists m p P A → i ∈ A → state = .established)
    (hbegin : state = .synReceived → (m.sockets i).parent ≠ none) : Family (m.setState i state) :=
  h.setTcp { (m.sockets i).tcp with state := state } hleft hbegin

theorem signalled (h : Family m) {i : Fin n} {state : Tcp.State} (event : Tcp.Event)
    (he : Signals event) (hleft : ∀ p P A, Lists m p P A → i ∈ A → state = .established)
    (hbegin : state ≠ .synReceived) :
    Family (tcpCallback (m.setState i state) i event none .success).1 :=
  (h.setState hleft fun hs => absurd hs hbegin).congr
    (tcpSignal_same blind_kin.flags _ i event he .success)

/-- A handshake ends with an accepted connection. -/
theorem accepted (h : Family m) {i : Fin n} (ht : (m.sockets i).type = .tcp)
    (hs : (m.sockets i).tcp.state = .synReceived) : Family (changeConnection m i .accepted) := by
  have hset : Family (m.setState i .established) := h.setState (fun _ _ _ _ _ => rfl) nofun
  have hself : (m.setState i .established).sockets i =
      { m.sockets i with tcp := { (m.sockets i).tcp with state := .established } } :=
        Module.modify_self _ _ _
  show Family (tcpCallback (m.setState i .established) i .accepted none .success).1
  unfold tcpCallback
  by_cases hi : (m.sockets i).isFree = true
  · rw [if_pos (by rw [hself]; exact hi)]
    exact hset
  · rw [if_neg (by rw [hself]; exact hi)]
    refine congr ?_ (notified_same _ _ i)
    rw [Bool.not_eq_true] at hi
    obtain ⟨p, hp⟩ := Option.ne_none_iff_exists'.mp (h.handshake i hi ht hs)
    obtain ⟨P, A, hl⟩ := h.lists p
    have hnew : i ∉ A := not_listed (by rw [hs]; nofun) hl
    have hlinks : Same Socket.links m (m.setState i .established) := by
      dsimp only [Module.setState]
      exact (Same.refl _ m).modify (by rfl)
    refine hset.onAccepted ((congrArg Links.parent (hlinks i)).trans hp) (by rw [hself]) (hl.frame
      ⟨congrArg Links.acceptPending (hlinks p), congrArg Links.accepted (hlinks p)⟩ (fun c hc => ?_)
      fun c hc => ?_) hnew
    · exact ⟨congrArg Links.next (hlinks c), (congrArg Links.parent (hlinks c)).trans hc⟩
    · rw [show (m.setState i .established).sockets c = m.sockets c from
        Module.modify_of_ne _ _ (ne_of_mem_of_not_mem hc hnew)]
      exact hl.established c hc

theorem orphanClosed (h : Family m) {i : Fin n} (hp : (m.sockets i).parent = none) (ret : Err) :
    Family (tcpCallback m i .closed none ret).1 := by
  unfold tcpCallback
  split_ifs
  · exact h
  · refine congr ?_ (notified_same _ _ i)
    simp only [onClosed, hp]
    exact h.congr (setFlags_same blind_kin.flags m i eventError)

/-- A connection that ends on its own keeps the accounts if it has no parent. -/
theorem connectionEnded (h : Family m) {i : Fin n} {c : Change} (hc : c.state = .closed)
    (he : ∀ e ∈ c.events, e = (.txFailed, none) ∨ e = (.closed, none))
    (hp : (m.sockets i).parent = none) :
    Family (changeConnection m i c) := by
  have hset : Family (m.setState i .closed) := by
    refine h.setState (fun p P A hl hi => ?_) nofun
    have := hl.children i (List.mem_append_right P hi)
    rw [hp] at this
    cases this
  have hparent : ((m.setState i .closed).sockets i).parent = none := by
    rw [show (m.setState i .closed).sockets i = _ from Module.modify_self _ _ _]
    exact hp
  have hrun : ∀ (es : List (Tcp.Event × Option RxPacket)) (m : Module n k), Family m →
      (m.sockets i).parent = none → (∀ e ∈ es, e = (.txFailed, none) ∨ e = (.closed, none)) →
      Family (callbacks i es m) := by
    intro es
    induction es with
    | nil => exact fun m hm _ _ => hm
    | cons e es ih =>
      intro m hm hpm hes
      have hrest := fun e he => hes e (List.mem_cons_of_mem _ he)
      rcases hes e List.mem_cons_self with rfl | rfl
      · refine ih _ (hm.congr (tcpSignal_same blind_kin.flags m i .txFailed trivial _)) ?_ hrest
        exact (tcpSignal_same (g := Socket.parent) (fun _ _ => rfl) m i .txFailed trivial _
          i).trans hpm
      · refine ih _ (hm.orphanClosed hpm _) ?_ hrest
        refine Eq.trans ?_ hpm
        unfold tcpCallback
        split_ifs
        · rfl
        · refine (notified_same Socket.parent _ i i).trans ?_
          simp only [onClosed, hpm]
          exact (setFlags_same (g := Socket.parent) (fun _ _ => rfl) m i eventError i).trans hpm
  unfold changeConnection
  rw [hc]
  exact hrun c.events _ hset hparent he

theorem init : Family (Module.init : Module n k) where
  alive _ _ h := nomatch h
  count p := by
    have hempty : (Module.init : Module n k).children p = ∅ := by
      rw [Module.children, Finset.filter_eq_empty_iff]
      exact fun _ _ => nofun
    rw [hempty]
    rfl
  lists _ := ⟨[], [], rfl, rfl, List.nodup_nil, nofun, nofun⟩
  handshake _ h := nomatch h

theorem released (h : Family m) {i : Fin n}
    (hok : Releases (m.sockets i) → (m.sockets i).parent = none ∧
      ∀ c, (m.sockets c).parent ≠ some i) :
    Family (releaseSocket m i).1 := by
  by_cases hr : Releases (m.sockets i)
  · rw [releaseSocket_of_releases hr]
    exact h.ended (hok hr).1 (hok hr).2
  · rw [releaseSocket_refused hr]
    exact h

theorem listen (h : Family m) (socketId max : BitVec 32) : Family (listen m socketId max).1 := by
  unfold Sockets.listen
  cases m.get socketId with
  | none => exact h
  | some i =>
    dsimp only
    split_ifs
    · have hmax : Same Socket.kin m (m.modify i fun s => { s with maxChildCount := max }) :=
        (Same.refl _ m).modify (by rfl)
      have hm := h.congr hmax
      rw [show ((m.modify i fun s => { s with maxChildCount := max }).sockets i).tcp.state = _ from
        congrArg Kin.state (hmax i)]
      change Family (Module.setState _ i (tcpListen (m.sockets i).tcp.state).1)
      unfold tcpListen
      split_ifs with hidle
      · refine hm.setState (fun p P A hl hi => absurd hi (not_listed ?_ hl)) nofun
        rw [show ((m.modify i fun s => { s with maxChildCount := max }).sockets i).tcp.state =
          _ from
          congrArg Kin.state (hmax i), show (m.sockets i).kin.state =
            (m.sockets i).tcp.state from rfl, hidle]
        nofun
      · have hsame : Same Socket.kin m
          ((m.modify i fun s => { s with maxChildCount := max }).setState i
            (m.sockets i).tcp.state) := by
          dsimp only [Module.setState]
          rw [modify_modify]
          exact (Same.refl _ m).modify (by rfl)
        exact h.congr hsame
    · exact h

theorem connect (h : Family m) (socketId : BitVec 32) (endPoint : Endpoint) (ret : Err) :
    Family (connect m socketId endPoint ret) := by
  unfold Sockets.connect
  cases m.get socketId with
  | none => exact h
  | some i =>
    dsimp only
    by_cases hidle : (m.sockets i).type = .tcp ∧ (m.sockets i).tcp.state = .idle
    · rw [if_pos hidle]
      have hm : Family (m.modify i fun s => { s with
          tcp := ⟨if ret.accepted then .synSent else .idle, endPoint⟩ }) := by
        refine h.setTcp _ (fun p P A hl hi => absurd hi (not_listed ?_ hl)) fun hc => ?_
        · rw [hidle.2]
          nofun
        · cases hr : ret.accepted <;> simp [hr] at hc
      exact hm.congr (Same.ite (resetFlags_same blind_kin.flags _ i flagsAll) (Same.refl _ _))
    · rw [if_neg hidle]
      exact h

/-- What TCP does to a connection keeps the accounts, unless it ends the connection of
a child, or its other half while it is in the list. -/
theorem changed (h : Family m) {i : Fin n} {c : Change} (ht : (m.sockets i).type = .tcp)
    (hc : c.applies (m.sockets i).tcp.state = true)
    (hended : c.ends = true → (m.sockets i).parent = none)
    (hfin : c = .fin → ∀ p P A, Lists m p P A → i ∉ A) : Family (changeConnection m i c) := by
  have hleft {state : Tcp.State} (hs : (m.sockets i).tcp.state ≠ .established) :
      ∀ p P A, Lists m p P A → i ∈ A → state = .established :=
    fun p P A hl hi => absurd hi (not_listed hs hl)
  cases c with
  | data p =>
    have hset : Family (m.setState i .established) := h.setState
      (fun _ _ _ _ _ => rfl) fun hs => by cases hs
    exact hset.congr (tcpReceive_same blind_kin.flags blind_kin.queue _ i p .success)
  | acked => exact h.signalled .tx trivial (fun _ _ _ _ _ => rfl) (by decide)
  | connected => exact h.signalled .connected trivial (fun _ _ _ _ _ => rfl) (by decide)
  | accepted => exact h.accepted ht (of_decide_eq_true hc)
  | connectTimeout =>
    exact h.signalled .connectTimeout trivial
      (hleft (by rw [of_decide_eq_true hc]; decide)) (by decide)
  | fin => exact h.setState (fun p P A hl hi => absurd hi (hfin rfl p P A hl)) fun hs => by cases hs
  | finAcknowledged =>
    exact h.setState
      (hleft (by rw [of_decide_eq_true hc]; decide)) fun hs => by cases hs
  | finWait =>
    refine h.setState (hleft fun hs => ?_) fun hs => by cases hs
    rw [Change.applies, hs] at hc
    exact absurd hc (by decide)
  | acceptFailed =>
    have hs : (m.sockets i).tcp.state = .synReceived := of_decide_eq_true hc
    have hp := hended rfl
    have hfree : (m.sockets i).isFree = true := by
      rw [← Bool.not_eq_false]
      exact fun hf => h.handshake i hf ht hs hp
    have hset : Family (m.setState i .closed) :=
      h.setState (hleft (by rw [hs]; decide)) fun hs => by cases hs
    unfold changeConnection
    rw [callbacks_free]
    · exact hset
    · rw [show (m.setState i _).sockets i = _ from Module.modify_self _ _ _]
      exact hfree
  | closed again =>
    refine h.connectionEnded rfl (fun e he => ?_) (hended rfl)
    cases again <;> simp [Change.events] at he <;> exact .inr he
  | exhausted =>
    refine h.connectionEnded rfl (fun e he => ?_) (hended rfl)
    simpa [Change.events] using he

/-- The client that a turn of Accept returns is allocated and has a connection. -/
theorem returned (h : Family m) {i client : Fin n} {ret : Err} {endPoint : Endpoint}
    (hret : (Sockets.acceptTurn m i).2 = .returns ⟨ret, some (client, endPoint)⟩) :
    (m.sockets client).isFree = false ∧ (m.sockets client).tcp.state = .established := by
  have hhead : (m.sockets i).accepted = some client := by
    unfold Sockets.acceptTurn at hret
    cases ha : (m.sockets i).accepted with
    | none =>
      simp only [ha] at hret
      split_ifs at hret
      simp at hret
    | some c =>
      simp only [ha, Pass.returns.injEq, Accepted.mk.injEq, Option.some.injEq,
        Prod.mk.injEq] at hret
      rw [hret.2.1]
  obtain ⟨P, A, hl⟩ := h.lists i
  cases A with
  | nil => exact absurd (hhead.symm.trans hl.accepted) nofun
  | cons a A =>
    obtain rfl := Option.some.inj (hhead.symm.trans hl.accepted.1)
    exact ⟨(h.alive client i (hl.children client (List.mem_append_right P List.mem_cons_self))).1,
      hl.established client List.mem_cons_self⟩

end Family

end NanoIp.Sockets
