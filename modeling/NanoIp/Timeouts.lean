import NanoIp.Arp.Module
import NanoIp.Icmp.Requests
import NanoIp.Lib.Deadline
import NanoIp.Tcp.StepEffect
import NanoIp.Tftp.Timer

/-!
# Timeouts and the wrap of the counter

The stack has four time-outs: of ARP requests, of pings, of TCP states and of TFTP
transfers. Each keeps a deadline as a counter value and compares it with the counter as
a number. What such a check says is right exactly when the deadline and the check lie
in the same lap of the counter.
-/
namespace NanoIp

/-- The periodic task checks `state_timeout` of the handle. -/
def Tcp.Handle.Awaits {n : Nat} (k : Tcp.Handle n) : Prop :=
  match k.state with
  | .established => k.lastTxPacket.isSome = true
  | .synSent | .synReceived | .closeWait | .finWait1 | .finWait2 | .timeWait => True
  | .closed | .listen | .closing | .lastAck | .idle => False

/-- The visit of such a handle does something exactly when its timeout is not above the
counter. -/
theorem Tcp.visit_acts_iff {n : Nat} {m : Tcp.Stack n} {h : Fin n} (ha : (m.mem h).Awaits)
    (timestamp : BitVec 32) (lower : Lower) :
    Tcp.visit m h timestamp lower ≠ (m, .tick (m.mem h).next timestamp) ↔ (m.mem h).stateTimeout ≤
      timestamp := by
  have habort : ∀ event error, (Tcp.abortConnection m h event error, Tcp.Pc.inTick h timestamp) ≠
      (m, .tick (m.mem h).next timestamp) := fun _ _ he => nomatch congrArg Prod.snd he
  have hretry : ∀ pid, Tcp.retryPacket m h pid timestamp lower ≠
      (m, .tick (m.mem h).next timestamp) := by
    intro pid he
    unfold Tcp.retryPacket at he
    dsimp only at he
    split_ifs at he
    · exact nomatch congrArg Prod.snd he
    · -- the retry count of the handle has changed
      obtain ⟨ip, hm⟩ := Tcp.resendPacket_mem
        (m.modify h fun k => { k with txRetryCount := k.txRetryCount + 1#8 }) h pid lower
      have hcount := congrArg (fun x => (x.1.mem h).txRetryCount) he
      dsimp only at hcount
      rw [hm, Function.update_self, Tcp.Stack.modify_self] at hcount
      dsimp only at hcount
      bv_omega
  have hif : ∀ y : Tcp.Stack n × Tcp.Pc n, y ≠ (m, .tick (m.mem h).next timestamp) →
      ((if (m.mem h).stateTimeout ≤ timestamp then y else (m, .tick (m.mem h).next timestamp)) ≠
        (m, .tick (m.mem h).next timestamp) ↔ (m.mem h).stateTimeout ≤ timestamp) := by
    intro y hy
    by_cases hexp : (m.mem h).stateTimeout ≤ timestamp
    · rw [if_pos hexp]
      exact ⟨fun _ => hexp, fun _ => hy⟩
    · rw [if_neg hexp]
      exact ⟨fun he => absurd rfl he, fun he => absurd he hexp⟩
  unfold Tcp.Handle.Awaits at ha
  unfold Tcp.visit
  cases hs : (m.mem h).state <;> rw [hs] at ha
  case established =>
    obtain ⟨pid, hp⟩ := Option.isSome_iff_exists.mp ha
    simp only [hp]
    exact hif _ (hretry pid)
  all_goals first | exact hif _ (habort _ _) | exact ha.elim

/-- An item whose time-out the stack checks, with the state in which it stands. -/
inductive Item where
  | arp {c n : Nat} (m : Arp.Module c n) (l : List (Fin n)) (hl : Arp.Listed m l) (r : Fin n)
      (hr : r ∈ l)
  | icmp {n : Nat} (m : Icmp.Module n) (l : List (Fin n)) (hl : Icmp.Listed m l) (r : Fin n)
      (hr : r ∈ l)
  | tcp {n : Nat} (m : Tcp.Stack n) (h : Fin n) (lower : Lower) (ha : (m.mem h).Awaits)
  | tftp (x : Tftp.Module) (hx : x.reqType ≠ .idle)

namespace Item

/-- The counter value that the code keeps. -/
def deadline : Item → BitVec 32
  | arp m _ _ r _ => (m.mem r).timeout
  | icmp m _ _ r _ => (m.mem r).timeout
  | tcp m h _ _ => (m.mem h).stateTimeout
  | tftp x _ => x.lastRxPacketTimestamp + x.timeout

/-- The check at a counter value treats the item as expired: the request is called back,
the ping times out, the visit of the handle acts, the transfer ends. -/
def Expires (timestamp : BitVec 32) : Item → Prop
  | arp m _ _ r _ => r ∈ (Arp.periodicTask m timestamp).2
  | icmp m _ _ r _ => r ∈ (Icmp.periodicTask m timestamp).2
  | tcp m h lower _ => Tcp.visit m h timestamp lower ≠ (m, .tick (m.mem h).next timestamp)
  | tftp x _ => (Tftp.timerCallback x timestamp).reqType = .idle

/-- An item with delay `d` should be treated as expired `k` steps after its start. -/
def Past (d k : Nat) : Item → Prop
  | arp _ _ _ _ _ | icmp _ _ _ _ _ => d < k
  | tcp _ _ _ _ | tftp _ _ => d ≤ k

/-- The comparison of the code. -/
def Late (due now : BitVec 32) : Item → Prop
  | arp _ _ _ _ _ | icmp _ _ _ _ _ => due < now
  | tcp _ _ _ _ | tftp _ _ => due ≤ now

theorem expires_iff (x : Item) (timestamp : BitVec 32) :
    x.Expires timestamp ↔ x.Late x.deadline timestamp := by
  cases x with
  | arp m l hl r hr =>
    show r ∈ _ ↔ _
    rw [(hl.periodicTask timestamp).2.1, List.mem_filter, decide_eq_true_eq]
    exact and_iff_right hr
  | icmp m l hl r hr =>
    show r ∈ _ ↔ _
    rw [(hl.periodicTask timestamp).1, List.mem_filter, decide_eq_true_eq]
    exact and_iff_right hr
  | tcp m h lower ha => exact Tcp.visit_acts_iff ha timestamp lower
  | tftp x hx => exact Tftp.timerCallback_ended hx timestamp

theorem late_iff_sameLap (x : Item) {t : BitVec 32} {d k : Nat} (hd : d < 2 ^ 32)
    (hk : k < 2 ^ 32) :
    (x.Late (t + BitVec.ofNat 32 d) (t + BitVec.ofNat 32 k) ↔ x.Past d k) ↔ Lib.SameLap t d k := by
  cases x with
  | arp | icmp => exact Lib.lt_iff_sameLap hd hk
  | tcp | tftp => exact Lib.le_iff_sameLap hd hk

/-- Both items are checked by the same comparison. -/
def SameKind : Item → Item → Prop
  | arp _ _ _ _ _, arp _ _ _ _ _ | icmp _ _ _ _ _, icmp _ _ _ _ _ | tcp _ _ _ _, tcp _ _ _ _
  | tftp _ _, tftp _ _ => True
  | _, _ => False

theorem SameKind.past {x y : Item} (h : SameKind x y) (d k : Nat) : x.Past d k ↔ y.Past d k := by
  cases x <;> cases y <;> first | exact Iff.rfl | exact h.elim

end Item

/-- A check of an item that was started at `start` with a delay, some time after that. -/
structure Check where
  item : Item
  start : BitVec 32
  delay : Nat
  after : Nat
  armed : item.deadline = start + BitVec.ofNat 32 delay
  delay_lt : delay < 2 ^ 31
  after_lt : after < 2 ^ 31

namespace Check

/-- The check treats the item as expired. -/
def Expires (x : Check) : Prop := x.item.Expires (x.start + BitVec.ofNat 32 x.after)

/-- It does so exactly when the delay is over. -/
def Right (x : Check) : Prop := x.Expires ↔ x.item.Past x.delay x.after

/-- No wrap of the counter lies between the deadline and the check. -/
def InLap (x : Check) : Prop := Lib.SameLap x.start x.delay x.after

/-- The same check on a counter that is ahead by `c`. -/
structure Shifted (c : BitVec 32) (x y : Check) : Prop where
  kind : x.item.SameKind y.item
  start : y.start = x.start + c
  delay : y.delay = x.delay
  after : y.after = x.after

theorem right_iff (x : Check) : x.Right ↔ x.InLap := by
  have hd := x.delay_lt
  have hk := x.after_lt
  rw [Right, Expires, x.item.expires_iff, x.armed]
  exact x.item.late_iff_sameLap (by omega) (by omega)

theorem Shifted.expires_iff {c : BitVec 32} {x y : Check} (h : Shifted c x y) :
    (x.Expires ↔ y.Expires) ↔ (x.InLap ↔ y.InLap) := by
  have hpast : y.item.Past y.delay y.after ↔ x.item.Past x.delay x.after := by
    rw [h.delay, h.after]
    exact (h.kind.past x.delay x.after).symm
  rw [← x.right_iff, ← y.right_iff, Right, Right, hpast]
  by_cases hp : x.item.Past x.delay x.after
  · simp only [hp, iff_true]
  · simp only [hp, iff_false, not_iff_not]

end Check

/-- A check is right exactly when its deadline lies in the lap of the counter in which the
check is made, and the expiries of a run are the same on a shifted counter exactly when
the same checks are right there. -/
theorem timeouts_right_iff (x : Check) {c : BitVec 32} {run shifted : List Check}
    (hs : List.Forall₂ (Check.Shifted c) run shifted) :
    (x.Right ↔ x.InLap) ∧
      (List.Forall₂ (fun x y => x.Expires ↔ y.Expires) run shifted ↔
        List.Forall₂ (fun x y => x.InLap ↔ y.InLap) run shifted) := by
  refine ⟨x.right_iff, ?_⟩
  induction hs with
  | nil => exact ⟨fun _ => .nil, fun _ => .nil⟩
  | cons hxy _ ih => rw [List.forall₂_cons, List.forall₂_cons, hxy.expires_iff, ih]

/-- A ping waits for 500 ms; started at `t`, it is looked at 600 ms later. -/
def sampleIcmp (t : BitVec 32) : Icmp.Module 1 :=
  Icmp.enqueue ⟨none, fun _ => ⟨0#32, 0#32, 0#32, 0#32, 0#32, none⟩⟩ 0 0xC0A80102#32 500#32
    0#32 .success t

theorem sampleIcmp_listed (t : BitVec 32) : Icmp.Listed (sampleIcmp t) [0] :=
  ⟨⟨rfl, rfl⟩, List.nodup_singleton 0⟩

def sampleCheck (t : BitVec 32) : Check where
  item := .icmp (sampleIcmp t) [0] (sampleIcmp_listed t) 0 List.mem_cons_self
  start := t
  delay := 500
  after := 600
  armed := rfl
  delay_lt := by decide
  after_lt := by decide

theorem sampleCheck_shifted :
    (sampleCheck 1000#32).Shifted 86400000#32 (sampleCheck 86401000#32) where
  kind := trivial
  start := by decide
  delay := rfl
  after := rfl

/-- The check is right at 1000, and says the same on a counter that is ahead by a day. -/
theorem timeouts_right_iff_sample : (sampleCheck 1000#32).Right ∧
    List.Forall₂ (fun x y => x.Expires ↔ y.Expires) [sampleCheck 1000#32]
      [sampleCheck 86401000#32] := by
  obtain ⟨hright, hrun⟩ := timeouts_right_iff (sampleCheck 1000#32) (.cons sampleCheck_shifted .nil)
  refine ⟨hright.mpr (by decide : Lib.SameLap 1000#32 500 600), hrun.mpr (.cons ?_ .nil)⟩
  exact iff_of_true (by decide : Lib.SameLap 1000#32 500 600)
    (by decide : Lib.SameLap 86401000#32 500 600)

/-- The counter wraps between the deadline of a ping and the check: it is not seen to be
over. -/
theorem wrapped_timeout_missed : ¬ ∀ x : Check, x.Right := by
  intro hall
  have hlap := (Check.right_iff _).mp (hall (sampleCheck 0xFFFFFE00#32))
  exact absurd hlap (by decide : ¬ Lib.SameLap 0xFFFFFE00#32 500 600)

end NanoIp
