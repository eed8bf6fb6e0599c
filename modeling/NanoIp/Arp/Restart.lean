import NanoIp.Arp.Module
import NanoIp.Lib.Resweep

/-!
# Sends started by the callbacks of requests

A request that is completed may be queued again by its own callback, for the same or another
address, while the pass that completed it is still going on. The pass then goes on at what stood
in front of the list. It ends with the right list unless two requests are completed with none kept
between them and the head, the first of them being queued again, or the request queued last would
be completed again as the next one is queued.
-/
namespace NanoIp.Arp

variable {c n : Nat}

/-- A send that waits for a response: the address, the counter as the table is searched, and the
time the frame takes. -/
structure Resend where
  ipv4Address : Ipv4Address
  now : BitVec 32
  elapsed : Nat
  deriving DecidableEq

def Resend.timeout (x : Resend) : BitVec 32 := x.now + BitVec.ofNat 32 x.elapsed + requestTimeout

/-- What `NANO_IP_ARP_Request` leaves when it answers that a response is awaited. -/
def Module.queue (m : Module c n) (r : Fin n) (x : Resend) : Module c n where
  entries := (search m.entries x.ipv4Address x.now).2
  requests := some r
  mem := Function.update m.mem r { m.mem r with
    ipv4Address := x.ipv4Address
    timeout := x.timeout
    next := m.requests }

/-- The callback of a request; one that starts no send, or whose send does not wait, leaves the list
alone. -/
def callBack (resends : Fin n → Option Resend) (m : Module c n) (r : Fin n) : Module c n :=
  match resends r with
  | some x => m.queue r x
  | none => m

theorem request_pending {m : Module c n} {netIf : NetIf} {r : Fin n} {ipv4Address : Ipv4Address}
    {link : Link} {now : BitVec 32}
    (h : (request m netIf r ipv4Address link now).answer = .pending) :
    (request m netIf r ipv4Address link now).module =
      m.queue r ⟨ipv4Address, now, link.elapsed⟩ := by
  unfold request at h ⊢
  split at h
  · cases h
  · next entries hsearch =>
    dsimp only at h ⊢
    cases halloc : link.alloc with
    | error e =>
      rw [halloc] at h
      cases h
    | ok p =>
      rw [halloc] at h
      dsimp only at h ⊢
      cases hdriver : link.driver with
      | error e =>
        rw [hdriver] at h
        cases h
      | ok u =>
        rw [Module.queue, hsearch]
        rfl

/-- A pass over the list that completes requests by their address or timeout. -/
def requestPass (done : Ipv4Address → BitVec 32 → Bool)
    (take : Module c n → Option (Fin n) → Fin n → Module c n) (resends : Fin n → Option Resend) :
    Lib.Pass (Module c n) (Fin n) where
  head m := m.requests
  next m r := (m.mem r).next
  selects m r := done (m.mem r).ipv4Address (m.mem r).timeout
  take := take
  call := callBack resends

/-- The loop of `NANO_IP_ARP_HandleResponse`. -/
def answeredPass (response : Frame) (now : BitVec 32) (resends : Fin n → Option Resend) :
    Lib.Pass (Module c n) (Fin n) :=
  requestPass (fun ipv4Address _ => ipv4Address = response.senderProtoAddress)
    (takeAnswered response now) resends

/-- The loop of `NANO_IP_ARP_PeriodicTask`. -/
def expiredPass (timestamp : BitVec 32) (resends : Fin n → Option Resend) :
    Lib.Pass (Module c n) (Fin n) :=
  requestPass (fun _ timeout => timeout < timestamp) Module.unlinkBehind resends

/-- What completes requests. -/
inductive Completion where
  | response (netIf : NetIf) (frame : Frame) (now : BitVec 32)
  | tick (timestamp : BitVec 32)

namespace Completion

/-- `NANO_IP_ARP_HandleResponse` and `NANO_IP_ARP_PeriodicTask` with callbacks that may send again;
`none` when more than `fuel` requests are visited. -/
def run (fuel : Nat) (resends : Fin n → Option Resend) (m : Module c n) :
    Completion → Option (Module c n)
  | .response netIf frame now =>
    if netIf.ipv4Address = frame.targetProtoAddress then
      (answeredPass frame now resends).run fuel none m.requests m
    else some m
  | .tick timestamp => (expiredPass timestamp resends).run fuel none m.requests m

/-- What the module does, whose callbacks then do not send. -/
def silent (m : Module c n) : Completion → Module c n
  | .response netIf frame now => (handleResponse m netIf frame now).module
  | .tick timestamp => (periodicTask m timestamp).1

/-- The request is completed. -/
def completes (m : Module c n) (r : Fin n) : Completion → Bool
  | .response netIf frame _ =>
    netIf.ipv4Address = frame.targetProtoAddress && (m.mem r).ipv4Address = frame.senderProtoAddress
  | .tick timestamp => (m.mem r).timeout < timestamp

/-- A request that is queued again so would be completed again. -/
def completesAgain (x : Resend) : Completion → Bool
  | .response netIf frame _ =>
    netIf.ipv4Address = frame.targetProtoAddress && x.ipv4Address = frame.senderProtoAddress
  | .tick timestamp => x.timeout < timestamp

/-- The completion ends, and the list then holds the requests that are not completed and those
that are queued again, each once. -/
def Settles (t : Completion) (m : Module c n) (l : List (Fin n)) (resends : Fin n → Option Resend) :
    Prop :=
  ∃ fuel m' l', t.run fuel resends m = some m' ∧ Listed m' l' ∧
    l'.Perm (l.filter (fun r => !t.completes m r) ++ l.filter fun r => t.completes m r &&
      (resends r).isSome)

end Completion

theorem Completion.run_silent {t : Completion} {m m' : Module c n}
    (h : t.run n (fun _ => none) m = some m') :
    m' = t.silent m := by
  cases t with
  | response netIf frame now =>
    simp only [Completion.run] at h
    simp only [Completion.silent, handleResponse]
    split_ifs at h ⊢
    · exact Lib.Pass.run_silent (P := answeredPass frame now fun _ => none) (fun _ _ => rfl) h
    · exact (Option.some.inj h).symm
  | tick timestamp =>
    exact Lib.Pass.run_silent
      (P := expiredPass timestamp fun _ => none) (fun _ _ => rfl) h

section Sound

variable (m : Module c n) (r : Fin n) (x : Resend)

theorem queue_next :
    (fun k => ((m.queue r x).mem k).next) = Function.update (fun k => (m.mem k).next) r
      m.requests := by
  funext k
  by_cases hk : k = r
  · subst hk
    simp [Module.queue]
  · simp [Module.queue, hk]

theorem queue_self :
    ((m.queue r x).mem r).ipv4Address = x.ipv4Address ∧ ((m.queue r x).mem r).timeout =
      x.timeout := by
  simp [Module.queue]

theorem callBack_other (resends : Fin n → Option Resend) {k : Fin n} (hk : k ≠ r) :
    (callBack resends m r).mem k = m.mem k := by
  unfold callBack
  split
  · exact Function.update_of_ne hk _ _
  · rfl

theorem callBack_left {resends : Fin n → Option Resend} (h : (resends r).isSome = false) :
    callBack resends m r = m := by
  rw [callBack, Option.isSome_eq_false_iff.mp h |> Option.isNone_iff_eq_none.mp]

end Sound

/-- A pass takes requests out, and its callbacks put some back. -/
theorem requestPass_sound {done : Ipv4Address → BitVec 32 → Bool}
    {take : Module c n → Option (Fin n) → Fin n → Module c n} (resends : Fin n → Option Resend)
    (ht : Lib.Takes (fun m : Module c n => m.requests) (fun m r => (m.mem r).next)
      (fun m r => done (m.mem r).ipv4Address (m.mem r).timeout) take) :
    (requestPass done take resends).Sound (fun r => (resends r).isSome)
      fun r => (resends r).any fun x => done x.ipv4Address x.timeout where
  takes := ht
  left m r h := by
    change (callBack resends m r).requests = _ ∧ (fun k => ((callBack resends m r).mem k).next) = _
    rw [callBack_left m r h]
    exact ⟨rfl, rfl⟩
  back m r h := by
    obtain ⟨x, hx⟩ := Option.isSome_iff_exists.mp h
    have hcall : callBack resends m r = m.queue r x := by rw [callBack, hx]
    obtain ⟨haddress, htimeout⟩ := queue_self m r x
    change (callBack resends m r).requests = _ ∧
      (fun k => ((callBack resends m r).mem k).next) = _ ∧
      done ((callBack resends m r).mem r).ipv4Address ((callBack resends m r).mem r).timeout = _
    rw [hcall, hx, haddress, htimeout]
    exact ⟨rfl, queue_next m r x, rfl⟩
  others m r k hk := by
    change done ((callBack resends m r).mem k).ipv4Address ((callBack resends m r).mem k).timeout =
      _
    rw [callBack_other m r resends hk]
    rfl

section Settles

variable {m : Module c n} {l : List (Fin n)} {resends : Fin n → Option Resend} {t : Completion}

theorem expected_nodup (hn : l.Nodup) (p q : Fin n → Bool) :
    (l.filter (fun r => !p r) ++ l.filter fun r => p r && q r).Nodup := by
  refine List.Nodup.append (hn.filter _) (hn.filter _) fun r hr hr' => ?_
  have hno := (List.mem_filter.mp hr).2
  have hyes := (List.mem_filter.mp hr').2
  simp_all

/-- Of the requests completed in front of the first one kept, only the last is queued again, and
of those queued again, only the last would be completed again. -/
structure Completion.Separate (t : Completion) (m : Module c n) (l : List (Fin n))
    (resends : Fin n → Option Resend) : Prop where
  front : ∀ r ∈ (l.takeWhile fun r => t.completes m r).dropLast, resends r = none
  again : ∀ r ∈ (l.filter fun r => t.completes m r && (resends r).isSome).dropLast,
    ∀ x ∈ resends r, t.completesAgain x = false

/-- A completion that is a pass settles when the pass is safe. -/
theorem settles_pass (done : Ipv4Address → BitVec 32 → Bool)
    {take : Module c n → Option (Fin n) → Fin n → Module c n} (hl : Listed m l)
    (ht : Lib.Takes (fun m : Module c n => m.requests) (fun m r => (m.mem r).next)
      (fun m r => done (m.mem r).ipv4Address (m.mem r).timeout) take)
    (hrun : ∀ fuel, t.run fuel resends m = (requestPass done take resends).run fuel none
      m.requests m) (hdone : ∀ r, t.completes m r = done (m.mem r).ipv4Address (m.mem r).timeout)
    (hagain : ∀ x, t.completesAgain x = done x.ipv4Address x.timeout) :
    t.Settles m l resends ↔ t.Separate m l resends := by
  have hseparate : t.Separate m l resends ↔
      (∀ r ∈ (l.takeWhile fun r => t.completes m r).dropLast, (resends r).isSome = false) ∧
        ∀ r ∈ (l.filter fun r => t.completes m r && (resends r).isSome).dropLast,
          ((resends r).any fun x => done x.ipv4Address x.timeout) = false := by
    simp only [← hagain, Option.any_eq_false, Option.isSome_eq_false_iff, Option.isNone_iff_eq_none]
    exact ⟨fun h => ⟨h.front, h.again⟩, fun h => ⟨h.1, h.2⟩⟩
  have hwhole := (requestPass_sound resends ht).whole_iff hl.linked hl.nodup
  change _ ↔ (∀ r ∈ (l.takeWhile fun r => done (m.mem r).ipv4Address (m.mem r).timeout).dropLast,
    _) ∧
    ∀ r ∈ (l.filter fun r => done (m.mem r).ipv4Address (m.mem r).timeout &&
      (resends r).isSome).dropLast, _ at hwhole
  simp only [← hdone] at hwhole
  rw [hseparate, ← hwhole]
  constructor
  · rintro ⟨fuel, m', l', hends, hlisted, hperm⟩
    refine ⟨m', l', ⟨fuel, (hrun fuel).symm.trans hends⟩, hlisted.linked, ?_⟩
    change l'.Perm (l.filter (fun r => !done (m.mem r).ipv4Address (m.mem r).timeout) ++
      l.filter fun r => done (m.mem r).ipv4Address (m.mem r).timeout && (resends r).isSome)
    simpa only [← hdone] using hperm
  · rintro ⟨m', l', ⟨fuel, hends⟩, hlinked, hperm⟩
    change l'.Perm (l.filter (fun r => !done (m.mem r).ipv4Address (m.mem r).timeout) ++
      l.filter fun r => done (m.mem r).ipv4Address (m.mem r).timeout && (resends r).isSome) at hperm
    simp only [← hdone] at hperm
    exact ⟨fuel, m', l', (hrun fuel).trans hends,
      ⟨hlinked, hperm.nodup_iff.mpr (expected_nodup hl.nodup _ _)⟩, hperm⟩

theorem settles_other {netIf : NetIf} {frame : Frame} {now : BitVec 32} (hl : Listed m l)
    (ht : netIf.ipv4Address ≠ frame.targetProtoAddress) :
    (Completion.response netIf frame now).Settles m l resends := by
  refine ⟨0, m, l, ?_, hl, ?_⟩
  · rw [Completion.run, if_neg ht]
  · simp [Completion.completes, ht]

theorem settles_tick (hl : Listed m l) (timestamp : BitVec 32) :
    (Completion.tick timestamp).Settles m l resends ↔
      (Completion.tick timestamp).Separate m l resends :=
  settles_pass (fun _ timeout => timeout < timestamp) hl (takes_timeout timestamp)
    (fun _ => rfl) (fun _ => rfl)
    fun _ => rfl

theorem separate_iff (t : Completion) (resends : Fin n → Option Resend) (hl : Listed m l) :
    t.Settles m l resends ↔ t.Separate m l resends := by
  cases t with
  | response netIf frame now =>
    by_cases ht : netIf.ipv4Address = frame.targetProtoAddress
    · refine settles_pass (fun ipv4Address _ => ipv4Address = frame.senderProtoAddress) hl
        (takes_answered frame now) (fun fuel => ?_) (fun r => ?_) fun x => ?_
      · rw [Completion.run, if_pos ht]
        rfl
      · simp [Completion.completes, ht]
      · simp [Completion.completesAgain, ht]
    · refine iff_of_true (settles_other hl ht) ⟨fun r hr => ?_, fun r hr x _ => ?_⟩
      · have hall := List.all_eq_true.mp List.all_takeWhile r (List.mem_of_mem_dropLast hr)
        simp [Completion.completes, ht] at hall
      · simp [Completion.completesAgain, ht]
  | tick timestamp => exact settles_tick hl timestamp

/-- A completion whose callbacks queue requests again ends with the right list exactly when these
are separate. A request that waits leaves what a callback that sends is taken to leave, and
without such callbacks the completion is the one of the module. -/
theorem settles_iff (t : Completion) (resends : Fin n → Option Resend) (hl : Listed m l) :
    (t.Settles m l resends ↔ t.Separate m l resends) ∧
    (∀ (m' : Module c n) netIf r ipv4Address link now,
      (request m' netIf r ipv4Address link now).answer = .pending →
      (request m' netIf r ipv4Address link now).module =
        m'.queue r ⟨ipv4Address, now, link.elapsed⟩) ∧
    ∀ m', t.run n (fun _ => none) m = some m' → m' = t.silent m :=
  ⟨separate_iff t resends hl, fun _ _ _ _ _ _ => request_pending, fun _ => Completion.run_silent⟩

end Settles

/-- Two requests of one address, queued at the start. -/
def twoPending : Module 1 2 where
  entries := Table.empty 1
  requests := some ⟨0, Nat.zero_lt_two⟩
  mem r := ⟨0xC0A80102#32, nullMacAddress, requestTimeout,
    if r.val = 0 then some ⟨1, Nat.one_lt_two⟩ else none⟩

theorem twoPending_listed : Listed twoPending [⟨0, Nat.zero_lt_two⟩, ⟨1, Nat.one_lt_two⟩] :=
  ⟨⟨rfl, rfl, rfl⟩, by decide⟩

/-- A callback that sends to the address once more, in the tick that reports the timeout. -/
def sendOnceMore (k : Nat) (r : Fin 2) : Option Resend :=
  if r.val = k then some ⟨0xC0A80102#32, 501#32, 0⟩ else none

theorem settles_iff_last : (Completion.tick 501#32).Settles twoPending
    [⟨0, Nat.zero_lt_two⟩, ⟨1, Nat.one_lt_two⟩] (sendOnceMore 1) :=
  (settles_iff (.tick 501#32) (sendOnceMore 1) twoPending_listed).1.mpr ⟨by decide, by decide⟩

/-- Two requests time out in one tick and the callback of the first sends again: its request is
pending for its handle, and in no list. -/
theorem resent_request_lost : Listed twoPending [⟨0, Nat.zero_lt_two⟩, ⟨1, Nat.one_lt_two⟩] ∧
    ((Completion.tick 501#32).run 2 (sendOnceMore 0) twoPending).map
      (fun m => m.requests) = some none ∧
    ¬(Completion.tick 501#32).Settles twoPending [⟨0, Nat.zero_lt_two⟩, ⟨1, Nat.one_lt_two⟩]
      (sendOnceMore 0) := by
  refine ⟨twoPending_listed, by decide, fun h => ?_⟩
  exact absurd ((settles_tick twoPending_listed 501#32).mp h).front (by decide)

end NanoIp.Arp
