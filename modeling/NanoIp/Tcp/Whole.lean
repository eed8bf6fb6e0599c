import NanoIp.Tcp.StepEffect

/-!
# One reception as a whole

`NANO_IP_TCP_RxFrame` from its call to its return when the application only
answers in its callbacks: the steps of a reception put one behind the other.
-/
namespace NanoIp.Tcp

variable {n : Nat}

/-- `NANO_IP_TCP_RxFrame` as a whole, the callback of a reset returning at once. -/
def rxWhole (m : Stack n) (seg : Segment) (lower : Lower) : Stack n × Pc n :=
  match rxFrame m seg lower with
  | (m, .inReset h seg) => rxAcknowledge m h seg.1 lower
  | r => r

/-- The same with the accept handle that the application gives in `TCP_EVENT_ACCEPTING`. -/
def rxAnswered (m : Stack n) (seg : Segment) (accept : Option (Fin n)) (lower : Lower) :
    Stack n × Pc n :=
  match rxWhole m seg lower with
  | (m, .inAccepting h seg) => rxAccept m h seg accept lower
  | r => r

theorem rxWhole_reach (m : Stack n) (seg : Segment) (lower : Lower) :
    Lib.Reach step Lib.anyStep (m, .ready) (rxWhole m seg lower) := by
  have h1 : Lib.Reach step Lib.anyStep (m, .ready) (rxFrame m seg lower) :=
    Lib.Reach.tail (i := .rxFrame seg lower) .refl trivial rfl
  unfold rxWhole
  rcases hr : rxFrame m seg lower with ⟨m', pc⟩
  rw [hr] at h1
  cases pc with
  | inReset h reset => exact h1.tail (i := .ret true none lower) trivial rfl
  | _ => exact h1

theorem rxAnswered_reach (m : Stack n) (seg : Segment) (accept : Option (Fin n)) (lower : Lower) :
    Lib.Reach step Lib.anyStep (m, .ready) (rxAnswered m seg accept lower) := by
  have h1 := rxWhole_reach m seg lower
  unfold rxAnswered
  rcases hr : rxWhole m seg lower with ⟨m', pc⟩
  rw [hr] at h1
  cases pc with
  | inAccepting h seg => exact h1.tail (i := .ret true accept lower) trivial rfl
  | _ => exact h1

def beforeAcknowledge (m : Stack n) (h : Fin n) (seg : Segment) : Stack n :=
  if resets m h seg then ((m.setState h .closed).removeHandle h).raise h .closed
    .connReset none else m

theorem beforeAcknowledge_seqNumber (m : Stack n) (h : Fin n) (seg : Segment) :
    ((beforeAcknowledge m h seg).mem h).seqNumber = (m.mem h).seqNumber := by
  unfold beforeAcknowledge
  split_ifs
  · change ((m.setState h .closed).mem h).seqNumber = _
    rw [Stack.setState_self]
  · rfl

theorem beforeAcknowledge_state (m : Stack n) (h : Fin n) (seg : Segment)
    (hl : (m.mem h).state ≠ .listen) :
    ((beforeAcknowledge m h seg).mem h).state ≠ .listen := by
  unfold beforeAcknowledge
  split_ifs
  · change ((m.setState h .closed).mem h).state ≠ .listen
    rw [Stack.setState_self]
    exact nofun
  · exact hl

theorem rxWhole_eq {m : Stack n} {h : Fin n} {seg : Segment} (lower : Lower)
    (hl : lookup m seg = some h) :
    rxWhole m seg lower = rxAcknowledge (beforeAcknowledge m h seg) h seg lower := by
  unfold rxWhole rxFrame beforeAcknowledge
  rw [hl]
  dsimp only
  unfold rxHandle
  by_cases hr : resets m h seg
  · rw [dif_pos hr, if_pos hr]
  · rw [dif_neg hr, if_neg hr]
    rcases hp : rxAcknowledge m h seg lower with ⟨m₁, pc⟩
    have hset := rxAcknowledge_settled m h seg lower
    rw [hp] at hset
    rcases hset with he | he | ⟨he, -⟩ | he <;> dsimp only at he <;> rw [he]

end NanoIp.Tcp
