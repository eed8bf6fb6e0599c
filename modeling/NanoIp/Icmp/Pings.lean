import NanoIp.Core.Ipv4
import NanoIp.Icmp.Messages
import NanoIp.Icmp.Requests
import NanoIp.Lib.Run

/-!
# The life of a ping

A ping is accepted, stays in the list of the module and ends: with its reply, with a
cancellation or with its timeout. A ledger beside the module keeps the echoes that were
accepted and how each has ended.
-/
namespace NanoIp.Icmp

variable {n : Nat}

/-- `PING_REQ_SUCCESS_FLAG` and `PING_REQ_CANCEL_FLAG`. -/
def pingReqSuccessFlag : BitVec 32 := 1#32
def pingReqCancelFlag : BitVec 32 := 2#32

/-- What an operation leaves: the module, the flags it has set, and what it returns. -/
structure Outcome (n : Nat) where
  module : Module n
  set : List (Fin n × BitVec 32)
  ret : Err

/-- What the layers below answer to a ping. -/
structure Layers where
  reset : Except Failure Unit
  alloc : Except Failure Unit
  send : Err

/-- `NANO_IP_ICMP_PingRequest`, if it returns. -/
def pingRequest (m : Module n) (r : Fin n) (ipv4Address : Ipv4Address) (timeout : BitVec 32)
    (dataSize : BitVec 8) (layers : Layers) (identifier now : BitVec 32) : Option (Outcome n) :=
  match layers.reset with
  | .error e => some ⟨m, [], e⟩
  | .ok () =>
    match layers.alloc with
    | .error e => some ⟨{ m with mem := Function.update m.mem r { m.mem r with flags := 0#32 } },
        [], e⟩
    | .ok () =>
      (echoRequestMessage (2 ^ 8) identifier dataSize).map fun _ =>
        ⟨enqueue m r ipv4Address timeout identifier layers.send now, [], layers.send⟩

def Module.cells (m : Module n) : List (Fin n) := Lib.chain (fun r => (m.mem r).next) n m.requests

/-- `Remove request from the list` of `NANO_IP_ICMP_CancelRequest` and
`NANO_IP_ICMP_HandlePingReply`: a request without one before it takes the whole list. -/
def Module.removeBehind (m : Module n) (prev : Option (Fin n)) (r : Fin n) : Module n :=
  match prev with
  | none => { m with requests := none }
  | some p => { m with mem := Function.update m.mem p { m.mem p with next := (m.mem r).next } }

/-- `Notify end of request`. -/
def Module.setFlag (m : Module n) (r : Fin n) (flag : BitVec 32) : Module n :=
  { m with mem := Function.update m.mem r { m.mem r with flags := (m.mem r).flags ||| flag } }

/-- `NANO_IP_ICMP_CancelRequest`. -/
def cancelRequest (m : Module n) (r : Fin n) : Outcome n :=
  match Lib.findPrev r none m.cells with
  | none => ⟨m, [], .invalidArg⟩
  | some prev => ⟨(m.removeBehind prev r).setFlag r pingReqCancelFlag,
      [(r, pingReqCancelFlag)], .success⟩

/-- `Look for a corresponding request`. -/
def Module.corresponding (m : Module n) (identifier : BitVec 32) : Option (Fin n) :=
  m.cells.find? fun r => (m.mem r).identifier = identifier

/-- `Compute the response time`. -/
def Module.respond (m : Module n) (r : Fin n) (now : BitVec 32) : Module n :=
  { m with
    mem := Function.update m.mem r
      { m.mem r with responseTime := now - (m.mem r).responseTime } }

/-- `NANO_IP_ICMP_HandlePingReply`, the identifier read. -/
def handlePingReply (m : Module n) (identifier now : BitVec 32) : Outcome n :=
  match m.corresponding identifier with
  | none => ⟨m, [], .ignorePacket⟩
  | some r =>
    ⟨((m.respond r now).removeBehind ((Lib.findPrev r none m.cells).getD none) r).setFlag r
      pingReqSuccessFlag,
      [(r, pingReqSuccessFlag)], .success⟩

/-- What happens to the module. A reply answers one of the echoes, in their order, or none. -/
inductive Input (n : Nat) where
  | ping (r : Fin n) (ipv4Address : Ipv4Address) (timeout : BitVec 32) (dataSize : BitVec 8)
      (layers : Layers)
      (identifier now : BitVec 32)
  | cancel (r : Fin n)
  | reply (answered : Option Nat) (identifier now : BitVec 32)
  | tick (timestamp : BitVec 32)

def step (m : Module n) : Input n → Option (Outcome n)
  | .ping r ipv4Address timeout dataSize layers identifier now =>
    pingRequest m r ipv4Address timeout dataSize layers identifier now
  | .cancel r => some (cancelRequest m r)
  | .reply _ identifier now => some (handlePingReply m identifier now)
  | .tick timestamp =>
    let (m, expired) := periodicTask m timestamp
    some ⟨m, expired.map fun r => (r, pingReqTimeoutFlag), .success⟩

/-- How an echo has ended: the flag that was set, and the echo that the reply answered. -/
structure End where
  flag : BitVec 32
  answered : Option Nat
  deriving DecidableEq

/-- An accepted ping. -/
structure Echo (n : Nat) where
  request : Fin n
  identifier : BitVec 32
  ends : List End
  deriving DecidableEq

/-- The echoes in the order of their acceptance, and the last one of each request. -/
structure Ledger (n : Nat) where
  echoes : List (Echo n)
  last : Fin n → Option Nat

def Ledger.empty : Ledger n := ⟨[], fun _ => none⟩

/-- A ping that was accepted. -/
def Ledger.opened (ledger : Ledger n) (i : Input n) (ret : Err) : Ledger n :=
  match i with
  | .ping r _ _ _ _ identifier _ =>
    if ret.accepted then
      { echoes := ledger.echoes ++ [⟨r, identifier, []⟩]
        last := Function.update ledger.last r (some ledger.echoes.length) }
    else ledger
  | _ => ledger

/-- A flag that was set is an end of the last echo of its request. -/
def Ledger.ended (ledger : Ledger n) (r : Fin n) (e : End) : Ledger n :=
  match ledger.last r with
  | none => ledger
  | some k => { ledger with echoes := ledger.echoes.modify k fun echo =>
      { echo with ends := echo.ends ++ [e] } }

def Input.answered : Input n → Option Nat
  | .reply answered _ _ => answered
  | _ => none

/-- The module and its ledger. -/
structure World (n : Nat) where
  module : Module n
  ledger : Ledger n

def World.step (x : World n) (i : Input n) : Option (World n) :=
  (Icmp.step x.module i).map fun out =>
    ⟨out.module, out.set.foldl (fun ledger s => ledger.ended s.1 ⟨s.2, i.answered⟩)
      (x.ledger.opened i out.ret)⟩

/-- A request waits for its last echo. -/
def Ledger.Pending (ledger : Ledger n) (r : Fin n) : Prop :=
  ∃ echo ∈ ledger.echoes, echo.request = r ∧ echo.ends = []

instance (ledger : Ledger n) (r : Fin n) : Decidable (ledger.Pending r) :=
  inferInstanceAs (Decidable (∃ echo ∈ ledger.echoes, _))

/-- A request that is pending is not sent again, and a reply to an echo carries its
identifier. -/
def Admitted (x : World n) : Input n → Prop
  | .ping r _ _ _ _ _ _ => ¬ x.ledger.Pending r
  | .reply answered identifier _ => ∀ k ∈ answered, ∃ echo ∈ x.ledger.echoes[k]?,
      echo.identifier = identifier
  | _ => True

/-- A request is not the first of several. -/
def Module.Alone (m : Module n) (r : Fin n) : Prop := m.requests = some r → (m.mem r).next = none

/-- Neither a cancellation nor a reply takes the first of several requests, and the first
request with the identifier of a reply is the one whose echo it answers. -/
def Sound (x : World n) : Input n → Prop
  | .cancel r => x.module.Alone r
  | .reply answered identifier _ =>
    ∀ r ∈ x.module.corresponding identifier, x.module.Alone r ∧ x.ledger.last r = answered
  | _ => True

/-- An end of the `k`-th echo: its own reply, a cancellation or a timeout. -/
def End.Proper (e : End) (k : Nat) : Prop :=
  e = ⟨pingReqSuccessFlag, some k⟩ ∨ e = ⟨pingReqCancelFlag, none⟩ ∨ e = ⟨pingReqTimeoutFlag, none⟩

/-- The list holds the requests that wait, each once, and every echo has ended at most once
and properly. -/
structure Accounted (x : World n) : Prop where
  listed : ∃ l, Listed x.module l ∧ ∀ r, r ∈ l ↔ x.ledger.Pending r
  ended : ∀ (k : Nat) (echo : Echo n), x.ledger.echoes[k]? = some echo →
    echo.ends = [] ∨ ∃ e, echo.ends = [e] ∧ e.Proper k

section Books

variable {ledger : Ledger n} {r : Fin n}

/-- The books of the echoes: each has ended at most once, and the last one of its request is
the only one that may still be open. -/
structure Ledger.Kept (ledger : Ledger n) : Prop where
  ended : ∀ (k : Nat) (echo : Echo n), ledger.echoes[k]? = some echo →
    echo.ends = [] ∨ ∃ e, echo.ends = [e] ∧ e.Proper k
  last : ∀ (k : Nat) (echo : Echo n), ledger.echoes[k]? = some echo → echo.ends = [] →
    ledger.last echo.request = some k

theorem Ledger.pending_iff : ledger.Pending r ↔
    ∃ (k : Nat) (echo : Echo n), ledger.echoes[k]? = some echo ∧ echo.request = r ∧
      echo.ends = [] := by
  constructor
  · rintro ⟨echo, hmem, h⟩
    obtain ⟨k, hk⟩ := List.mem_iff_getElem?.mp hmem
    exact ⟨k, echo, hk, h⟩
  · rintro ⟨k, echo, hk, h⟩
    exact ⟨echo, List.mem_of_getElem? hk, h⟩

/-- Ending the open echo of a request closes that one and no other. -/
theorem Ledger.Kept.end (h : ledger.Kept) (hr : ledger.Pending r) {e : End}
    (he : ∀ k, ledger.last r = some k → e.Proper k) :
    (ledger.ended r e).Kept ∧ ∀ s, (ledger.ended r e).Pending s ↔ ledger.Pending s ∧ s ≠ r := by
  obtain ⟨k, echo, hk, rfl, hopen⟩ := Ledger.pending_iff.mp hr
  have hlast := h.last k echo hk hopen
  have hget : ∀ j, (ledger.ended echo.request e).echoes[j]? =
      (ledger.echoes[j]?).map fun x => if k = j then { x with ends := x.ends ++ [e] } else x := by
    intro j
    rw [Ledger.ended, hlast]
    exact List.getElem?_modify _ _ _ _
  have hsame : (ledger.ended echo.request e).last = ledger.last := by
    rw [Ledger.ended, hlast]
  -- an open echo was open before, and is not the one that has ended
  have hstill : ∀ {j : Nat} {x : Echo n}, (ledger.ended echo.request e).echoes[j]? = some x →
    x.ends = [] →
      k ≠ j ∧ ledger.echoes[j]? = some x := by
    intro j x hx hxopen
    rw [hget, Option.map_eq_some_iff] at hx
    obtain ⟨y, hy, hxy⟩ := hx
    by_cases hj : k = j
    · rw [if_pos hj] at hxy
      rw [← hxy] at hxopen
      exact absurd hxopen (List.append_ne_nil_of_right_ne_nil _ (List.cons_ne_nil e []))
    · rw [if_neg hj] at hxy
      exact ⟨hj, hxy ▸ hy⟩
  refine ⟨⟨?_, ?_⟩, ?_⟩
  · intro j x hx
    rw [hget, Option.map_eq_some_iff] at hx
    obtain ⟨y, hy, rfl⟩ := hx
    by_cases hj : k = j
    · subst hj
      obtain rfl := Option.some.inj (hy.symm.trans hk)
      right
      exact ⟨e, by rw [if_pos rfl, hopen]; rfl, he k hlast⟩
    · rw [if_neg hj]
      exact h.ended j y hy
  · intro j x hx hxopen
    rw [hsame]
    exact h.last j x (hstill hx hxopen).2 hxopen
  · intro s
    rw [Ledger.pending_iff, Ledger.pending_iff]
    constructor
    · rintro ⟨j, x, hx, rfl, hxopen⟩
      obtain ⟨hj, hx'⟩ := hstill hx hxopen
      refine ⟨⟨j, x, hx', rfl, hxopen⟩, fun heq => hj ?_⟩
      have hlast' := h.last j x hx' hxopen
      rw [heq, hlast] at hlast'
      exact Option.some.inj hlast'
    · rintro ⟨⟨j, x, hx, rfl, hxopen⟩, hne⟩
      refine ⟨j, x, ?_, rfl, hxopen⟩
      have hj : k ≠ j := by
        rintro rfl
        exact hne (congrArg Echo.request (Option.some.inj (hx.symm.trans hk)))
      rw [hget, hx, Option.map_some, if_neg hj]

/-- The same for several requests. -/
theorem Ledger.Kept.endAll (answered : Option Nat) (set : List (Fin n × BitVec 32)) :
    ∀ {ledger : Ledger n},
    ledger.Kept → (set.map Prod.fst).Nodup → (∀ s ∈ set, ledger.Pending s.1) →
    (∀ s ∈ set, ∀ k, ledger.last s.1 = some k → (End.mk s.2 answered).Proper k) →
    (set.foldl (fun ledger s => ledger.ended s.1 ⟨s.2, answered⟩) ledger).Kept ∧
      ∀ r, (set.foldl (fun ledger s => ledger.ended s.1 ⟨s.2, answered⟩) ledger).Pending r ↔
        ledger.Pending r ∧ r ∉ set.map Prod.fst := by
  induction set with
  | nil =>
    intro ledger h _ _ _
    exact ⟨h, fun r => by simp⟩
  | cons s set ih =>
    intro ledger h hn hpending hproper
    rw [List.map_cons, List.nodup_cons] at hn
    obtain ⟨hkept, hiff⟩ := h.end (hpending s List.mem_cons_self) (hproper s List.mem_cons_self)
    have hlast : (ledger.ended s.1 ⟨s.2, answered⟩).last = ledger.last := by
      unfold Ledger.ended
      split <;> rfl
    obtain ⟨hkept', hiff'⟩ := ih hkept hn.2
      (fun t ht => (hiff t.1).mpr ⟨hpending t (List.mem_cons_of_mem s ht), fun he =>
        hn.1 (he ▸ List.mem_map_of_mem ht)⟩)
      (fun t ht k hk => hproper t (List.mem_cons_of_mem s ht) k (hlast ▸ hk))
    refine ⟨hkept', fun r => ?_⟩
    rw [List.foldl_cons, hiff', hiff, List.map_cons, List.mem_cons, not_or, and_assoc]

/-- An accepted ping opens an echo. -/
theorem Ledger.Kept.open (h : ledger.Kept) (hr : ¬ ledger.Pending r) (identifier : BitVec 32) :
    (Ledger.mk (ledger.echoes ++ [⟨r, identifier, []⟩])
      (Function.update ledger.last r (some ledger.echoes.length))).Kept ∧
    ∀ s, (Ledger.mk (ledger.echoes ++ [⟨r, identifier, []⟩])
      (Function.update ledger.last r (some ledger.echoes.length))).Pending s ↔ s = r ∨
        ledger.Pending s := by
  have hget : ∀ {k : Nat} {x : Echo n}, (ledger.echoes ++ [⟨r, identifier, []⟩])[k]? = some x →
      ledger.echoes[k]? = some x ∨ k = ledger.echoes.length ∧ x = ⟨r, identifier, []⟩ := by
    intro k x hx
    rcases Nat.lt_or_ge k ledger.echoes.length with hk | hk
    · rw [List.getElem?_append_left hk] at hx
      exact .inl hx
    · rw [List.getElem?_append_right hk, List.getElem?_singleton] at hx
      split at hx
      · next hzero => exact .inr ⟨by omega, (Option.some.inj hx).symm⟩
      · cases hx
  refine ⟨⟨?_, ?_⟩, ?_⟩
  · intro k x hx
    rcases hget hx with hold | ⟨-, rfl⟩
    · exact h.ended k x hold
    · exact .inl rfl
  · intro k x hx hopen
    rcases hget hx with hold | ⟨rfl, rfl⟩
    · have hne : x.request ≠ r := fun he => hr (Ledger.pending_iff.mpr ⟨k, x, hold, he, hopen⟩)
      rw [← h.last k x hold hopen]
      exact Function.update_of_ne hne _ _
    · exact Function.update_self _ _ _
  · intro s
    constructor
    · rintro ⟨x, hx, rfl, hopen⟩
      rcases List.mem_append.mp hx with hold | hnew
      · exact .inr ⟨x, hold, rfl, hopen⟩
      · rw [List.mem_singleton] at hnew
        exact .inl (congrArg Echo.request hnew)
    · rintro (rfl | ⟨x, hx, h⟩)
      · exact ⟨⟨s, identifier, []⟩, List.mem_append_right _ List.mem_cons_self, rfl, rfl⟩
      · exact ⟨x, List.mem_append_left _ hx, h⟩

end Books

section Lists

variable {m m' : Module n} {l : List (Fin n)} {r : Fin n}

theorem Listed.cells_eq (h : Listed m l) : m.cells = l := by
  have hcard := h.nodup.length_le_card
  rw [Fintype.card_fin] at hcard
  exact h.linked.chain_eq hcard

theorem Listed.congr (h : Listed m l) (hhead : m'.requests = m.requests)
    (hnext : ∀ r, (m'.mem r).next = (m.mem r).next) : Listed m' l :=
  ⟨by rw [hhead, funext hnext]; exact h.linked, h.nodup⟩

theorem update_next {mem : Fin n → Request n} {request : Request n}
    (hnext : request.next = (mem r).next) (k : Fin n) :
    (Function.update mem r request k).next = (mem k).next := by
  by_cases hk : k = r
  · subst hk
    rw [Function.update_self, hnext]
  · rw [Function.update_of_ne hk]

theorem Listed.setFlag (h : Listed m l) (r : Fin n) (flag : BitVec 32) :
    Listed (m.setFlag r flag) l :=
  h.congr rfl (update_next rfl)

theorem Listed.respond (h : Listed m l) (r : Fin n) (now : BitVec 32) :
    Listed (m.respond r now) l :=
  h.congr rfl (update_next rfl)

/-- A request that was accepted is the first one. -/
theorem Listed.enqueue (h : Listed m l) (hr : r ∉ l) (ipv4Address : Ipv4Address)
    (timeout identifier : BitVec 32) (ret : Err) (now : BitVec 32) :
    Listed (enqueue m r ipv4Address timeout identifier ret now)
      (if ret.accepted then r :: l else l) := by
  unfold Icmp.enqueue
  dsimp only
  by_cases hret : ret.accepted
  · rw [if_pos hret, if_pos hret]
    refine ⟨?_, List.nodup_cons.mpr ⟨hr, h.nodup⟩⟩
    refine (h.linked.push hr).congr fun k hk => ?_
    dsimp only
    by_cases hkr : k = r
    · subst hkr
      rw [Function.update_self, Function.update_self]
    · rw [Function.update_of_ne hkr, Function.update_of_ne hkr]
  · rw [if_neg hret, if_neg hret]
    exact h.congr rfl (update_next rfl)

/-- Taking a request out that is not the first of several takes nothing else. -/
theorem Listed.removeBehind (h : Listed m l) (hr : r ∈ l) (halone : m.Alone r) :
    Listed (m.removeBehind ((Lib.findPrev r none l).getD none) r) (l.erase r) := by
  refine ⟨?_, h.nodup.erase r⟩
  have hunlink := h.linked.unlink r h.nodup
  unfold Lib.unlink at hunlink
  cases hprev : Lib.findPrev r none l with
  | none => exact absurd hr (Lib.findPrev_none.mp hprev)
  | some prev =>
    rw [hprev] at hunlink
    dsimp only at hunlink
    cases prev with
    | none =>
      -- the first one is found at once, and nothing follows it
      rcases Lib.findPrev_some hprev with ⟨post, rfl, -⟩ | ⟨pre, p, post, -, hp, -⟩
      · rw [halone h.linked.1] at hunlink
        exact hunlink
      · cases hp
    | some p =>
      refine hunlink.congr fun k hk => ?_
      by_cases hkp : k = p
      · subst hkp
        simp [Module.removeBehind]
      · simp [Module.removeBehind, hkp]

theorem periodicTask_timeout (m : Module n) (timestamp : BitVec 32) (r : Fin n) :
    ((periodicTask m timestamp).1.mem r).timeout = (m.mem r).timeout :=
  Lib.sweep_taken _ _ _ (P := fun _ m' => (m'.mem r).timeout = (m.mem r).timeout)
    (fun _ m' prev a h => by rw [(expire_mem m' prev a r).2, unlinkBehind_timeout, h]) n none
      m.requests m [] rfl

end Lists

section Runs

variable {x y : World n}

/-- What is carried through a run. -/
structure Inv (x : World n) : Prop where
  listed : ∃ l, Listed x.module l ∧ ∀ r, r ∈ l ↔ x.ledger.Pending r
  kept : x.ledger.Kept

theorem Inv.endOne {m : Module n} {ledger : Ledger n} {l : List (Fin n)} {r : Fin n} {e : End}
    {m' : Module n} (hkept : ledger.Kept) (hl : Listed m l) (hiff : ∀ r, r ∈ l ↔ ledger.Pending r)
    (hr : r ∈ l) (hl' : Listed m' (l.erase r)) (he : ∀ k, ledger.last r = some k → e.Proper k) :
    Inv ⟨m', ledger.ended r e⟩ := by
  obtain ⟨hkept', hiff'⟩ := hkept.end ((hiff r).mp hr) he
  refine ⟨⟨l.erase r, hl', fun s => ?_⟩, hkept'⟩
  rw [hiff', hl.nodup.mem_erase_iff, hiff, and_comm]

theorem inv_ping {r : Fin n} {ipv4Address : Ipv4Address} {timeout identifier now : BitVec 32}
    {dataSize : BitVec 8} {layers : Layers} (h : Inv x) (hok : ¬ x.ledger.Pending r)
    (hs : x.step (.ping r ipv4Address timeout dataSize layers identifier now) = some y) :
    Inv y := by
  obtain ⟨out, hout, rfl⟩ := Option.map_eq_some_iff.mp hs
  obtain ⟨⟨l, hl, hiff⟩, hkept⟩ := h
  have hfailed : ∀ {m : Module n} {e : Failure}, Listed m l → Inv ⟨m, x.ledger.opened
      (.ping r ipv4Address timeout dataSize layers identifier now) e.1⟩ := by
    intro m e hm
    rw [Ledger.opened, if_neg (by rw [e.2]; decide)]
    exact ⟨⟨l, hm, hiff⟩, hkept⟩
  simp only [Icmp.step, pingRequest] at hout
  split at hout
  · next e _ =>
    obtain rfl := Option.some.inj hout
    exact hfailed hl
  · split at hout
    · next e _ =>
      obtain rfl := Option.some.inj hout
      exact hfailed (hl.congr rfl (update_next rfl))
    · obtain ⟨_, -, rfl⟩ := Option.map_eq_some_iff.mp hout
      have hlist := hl.enqueue (fun hmem => hok ((hiff r).mp hmem)) ipv4Address timeout identifier
        layers.send now
      dsimp only [List.foldl_nil, Ledger.opened]
      by_cases hret : layers.send.accepted
      · rw [if_pos hret] at hlist ⊢
        obtain ⟨hkept', hiff'⟩ := hkept.open hok identifier
        refine ⟨⟨r :: l, hlist, fun s => ?_⟩, hkept'⟩
        rw [List.mem_cons, hiff, hiff']
      · rw [if_neg hret] at hlist ⊢
        exact ⟨⟨l, hlist, hiff⟩, hkept⟩

theorem inv_cancel {r : Fin n} (h : Inv x) (hsound : x.module.Alone r)
    (hs : x.step (.cancel r) = some y) : Inv y := by
  obtain ⟨out, hout, rfl⟩ := Option.map_eq_some_iff.mp hs
  obtain ⟨⟨l, hl, hiff⟩, hkept⟩ := h
  simp only [Icmp.step, cancelRequest, hl.cells_eq] at hout
  cases hprev : Lib.findPrev r none l with
  | none =>
    rw [hprev] at hout
    obtain rfl := Option.some.inj hout
    exact ⟨⟨l, hl, hiff⟩, hkept⟩
  | some prev =>
    rw [hprev] at hout
    obtain rfl := Option.some.inj hout
    have hr : r ∈ l := by
      by_contra hnot
      rw [Lib.findPrev_none.mpr hnot] at hprev
      cases hprev
    have hremoved := hl.removeBehind hr hsound
    rw [hprev] at hremoved
    exact Inv.endOne hkept hl hiff hr (hremoved.setFlag r _) fun _ _ => .inr (.inl rfl)

theorem inv_reply {answered : Option Nat} {identifier now : BitVec 32} (h : Inv x)
    (hsound : Sound x (.reply answered identifier now))
    (hs : x.step (.reply answered identifier now) = some y) :
    Inv y := by
  obtain ⟨out, hout, rfl⟩ := Option.map_eq_some_iff.mp hs
  obtain ⟨⟨l, hl, hiff⟩, hkept⟩ := h
  simp only [Icmp.step, handlePingReply] at hout
  cases hfound : x.module.corresponding identifier with
  | none =>
    rw [hfound] at hout
    obtain rfl := Option.some.inj hout
    exact ⟨⟨l, hl, hiff⟩, hkept⟩
  | some r =>
    rw [hfound] at hout
    obtain rfl := Option.some.inj hout
    obtain ⟨halone, hlast⟩ := hsound r hfound
    have hr : r ∈ l := by
      rw [← hl.cells_eq]
      exact List.mem_of_find?_eq_some hfound
    have halone' : (x.module.respond r now).Alone r := by
      intro hhead
      rw [← halone hhead]
      change (Function.update x.module.mem r _ r).next = _
      rw [Function.update_self]
    have hremoved := (hl.respond r now).removeBehind hr halone'
    rw [← hl.cells_eq] at hremoved
    have hproper : ∀ k, x.ledger.last r = some k →
        (End.mk pingReqSuccessFlag answered).Proper k := by
      intro k hk
      rw [hlast] at hk
      exact .inl (congrArg (End.mk pingReqSuccessFlag) hk)
    exact Inv.endOne hkept hl hiff hr (hl.cells_eq ▸ hremoved.setFlag r _) hproper

theorem inv_tick {timestamp : BitVec 32} (h : Inv x) (hs : x.step (.tick timestamp) = some y) :
    Inv y ∧ ∀ r, y.ledger.Pending r → timestamp ≤ (y.module.mem r).timeout := by
  obtain ⟨out, hout, rfl⟩ := Option.map_eq_some_iff.mp hs
  obtain ⟨⟨l, hl, hiff⟩, hkept⟩ := h
  obtain ⟨hexpired, hrest⟩ := hl.periodicTask timestamp
  obtain rfl := Option.some.inj hout
  have hfst : ((periodicTask x.module timestamp).2.map fun r =>
    (r, pingReqTimeoutFlag)).map Prod.fst =
      l.filter fun r => (x.module.mem r).timeout < timestamp := by
    rw [List.map_map, hexpired]
    exact List.map_id _
  obtain ⟨hkept', hiff'⟩ := hkept.endAll none
    ((periodicTask x.module timestamp).2.map fun r => (r, pingReqTimeoutFlag))
    (by rw [hfst]; exact hl.nodup.filter _)
    (fun s hs => (hiff s.1).mp (List.mem_of_mem_filter (hfst ▸ List.mem_map_of_mem hs)))
    (fun s hs k _ => by
      obtain ⟨r, -, rfl⟩ := List.mem_map.mp hs
      exact .inr (.inr rfl))
  have hpending : ∀ r, r ∈ l.filter (fun r => !decide ((x.module.mem r).timeout < timestamp)) ↔
      (((periodicTask x.module timestamp).2.map fun r => (r, pingReqTimeoutFlag)).foldl
        (fun ledger s => ledger.ended s.1 ⟨s.2, none⟩) x.ledger).Pending r := by
    intro r
    rw [hiff', hfst, List.mem_filter, List.mem_filter, ← hiff]
    simp only [Bool.not_eq_true', decide_eq_false_iff_not, decide_eq_true_eq, not_and]
    exact ⟨fun hr => ⟨hr.1, fun _ => hr.2⟩, fun hr => ⟨hr.1, hr.2 hr.1⟩⟩
  refine ⟨⟨⟨_, hrest, hpending⟩, hkept'⟩, fun r hr => ?_⟩
  have hmem := List.mem_filter.mp ((hpending r).mpr hr)
  have hnot : ¬ (x.module.mem r).timeout < timestamp := by simpa using hmem.2
  rw [← periodicTask_timeout x.module timestamp r] at hnot
  exact BitVec.not_lt.mp hnot

theorem inv_step {i : Input n} (h : Inv x) (hok : Admitted x i ∧ Sound x i)
    (hs : x.step i = some y) : Inv y := by
  cases i with
  | ping => exact inv_ping h hok.1 hs
  | cancel => exact inv_cancel h hok.2 hs
  | reply => exact inv_reply h hok.2 hs
  | tick => exact (inv_tick h hs).1

theorem inv_start {m : Module n} (h : m.requests = none) : Inv ⟨m, .empty⟩ where
  listed := ⟨[], ⟨h, List.nodup_nil⟩, fun r => by simp [Ledger.Pending, Ledger.empty]⟩
  kept := ⟨fun k echo (hk : none = some echo) => absurd hk (by simp),
    fun k echo (hk : none = some echo) => absurd hk (by simp)⟩

end Runs

/-- In every run whose cancellations and replies are sound the list holds the pings that
have not ended, each of which ends once and properly, and no tick leaves one that is
overdue. -/
theorem pings_accounted {m : Module n} (hm : m.requests = none) {x : World n}
    (h : Lib.Reach World.step (fun x i => Admitted x i ∧ Sound x i) ⟨m, .empty⟩ x) :
    Accounted x ∧ ∀ timestamp y, x.step (.tick timestamp) = some y →
      ∀ r, y.ledger.Pending r → timestamp ≤ (y.module.mem r).timeout := by
  have hinv : Inv x := h.invariant (inv_start hm) fun _ _ _ hi hok hs => inv_step hi hok hs
  exact ⟨⟨hinv.listed, hinv.kept.ended⟩, fun timestamp y hs => (inv_tick hinv hs).2⟩

instance (x : World n) : ∀ i, Decidable (Admitted x i)
  | .ping .. => inferInstanceAs (Decidable (¬ _))
  | .reply answered _ _ => inferInstanceAs
      (Decidable (∀ k ∈ answered, ∃ echo ∈ x.ledger.echoes[k]?, _))
  | .cancel _ | .tick _ => inferInstanceAs (Decidable True)

instance (m : Module n) (r : Fin n) : Decidable (m.Alone r) := inferInstanceAs (Decidable (_ → _))

instance (x : World n) : ∀ i, Decidable (Sound x i)
  | .cancel r => inferInstanceAs (Decidable (x.module.Alone r))
  | .reply answered identifier _ =>
    inferInstanceAs (Decidable (∀ r ∈ x.module.corresponding identifier, x.module.Alone r ∧
      x.ledger.last r = answered))
  | .ping .. | .tick _ => inferInstanceAs (Decidable True)

/-- Two requests, none of them sent. -/
def idleRequests : Module 2 := ⟨none, fun _ => ⟨0#32, 0#32, 0#32, 0#32, 0#32, none⟩⟩
def accepting : Layers := ⟨.ok (), .ok (), .success⟩

/-- Two pings, answered in the order in which they were sent. -/
def twoPings (r r' : Fin n) (identifier identifier' : BitVec 32) : List (Input n) :=
  [.ping r 0x0A000001#32 1000#32 0#8 accepting identifier 5#32,
    .ping r' 0x0A000002#32 1000#32 0#8 accepting identifier' 6#32]

theorem pings_accounted_sample : ∃ x,
    Lib.Reach World.step (fun x i => Admitted x i ∧ Sound x i) ⟨idleRequests, .empty⟩ x ∧
    decide (x.ledger.echoes.map Echo.ends = [[⟨1#32, some 0⟩], [⟨1#32, some 1⟩]]) = true ∧
      Accounted x := by
  obtain ⟨x, hreach, hends⟩ := Lib.exists_of_runInputs World.step
    (fun x i => Admitted x i ∧ Sound x i)
    ⟨idleRequests, .empty⟩ (twoPings 0 1 5#32 6#32 ++
      [.reply (some 0) 5#32 8#32, .reply (some 1) 6#32 9#32])
    (fun x => decide (x.ledger.echoes.map Echo.ends = [[⟨1#32, some 0⟩], [⟨1#32, some 1⟩]]))
      (by decide)
  exact ⟨x, hreach, hends, (pings_accounted rfl hreach).1⟩

/-- A ping whose reply comes first, while an older one waits behind it, takes the older one
with it; and of two pings of one millisecond the younger one ends with the reply to the
older one. -/
theorem pings_lost : (∃ x, Lib.Reach World.step Admitted ⟨idleRequests, .empty⟩ x ∧
      (decide (x.module.requests = none) && decide (x.ledger.Pending 0)) = true ∧ ¬ Accounted x) ∧
    ∃ x, Lib.Reach World.step Admitted ⟨idleRequests, .empty⟩ x ∧
      decide ((x.ledger.echoes[1]?).map Echo.ends = some [⟨1#32, some 0⟩]) = true ∧
        ¬ Accounted x := by
  constructor
  · obtain ⟨x, hreach, hx⟩ := Lib.exists_of_runInputs World.step Admitted ⟨idleRequests, .empty⟩
      (twoPings 0 1 5#32 6#32 ++ [.reply (some 1) 6#32 8#32])
      (fun x => decide (x.module.requests = none) && decide (x.ledger.Pending 0)) (by decide)
    refine ⟨x, hreach, hx, fun h => ?_⟩
    rw [Bool.and_eq_true, decide_eq_true_eq, decide_eq_true_eq] at hx
    obtain ⟨l, hl, hiff⟩ := h.listed
    have hlinked := hl.linked
    rw [hx.1] at hlinked
    cases l with
    | nil => exact absurd ((hiff 0).mpr hx.2) List.not_mem_nil
    | cons a l => exact absurd hlinked.1 (by simp)
  · obtain ⟨x, hreach, hx⟩ := Lib.exists_of_runInputs World.step Admitted ⟨idleRequests, .empty⟩
      (twoPings 0 1 5#32 5#32 ++ [.reply (some 0) 5#32 8#32])
      (fun x => decide ((x.ledger.echoes[1]?).map Echo.ends = some [⟨1#32, some 0⟩])) (by decide)
    refine ⟨x, hreach, hx, fun h => ?_⟩
    obtain ⟨echo, hecho, hends⟩ := Option.map_eq_some_iff.mp (of_decide_eq_true hx)
    rcases h.ended 1 echo hecho with hopen | ⟨e, he, hproper⟩
    · rw [hopen] at hends
      cases hends
    · rw [he] at hends
      obtain rfl := List.head_eq_of_cons_eq hends
      revert hproper
      unfold End.Proper
      decide

end NanoIp.Icmp
