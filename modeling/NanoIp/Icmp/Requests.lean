import NanoIp.Core.Types
import NanoIp.Lib.Sweep
import Mathlib.Data.Fintype.Card

/-!
# Pending pings

The intrusive list of ping requests of the ICMP module: a request enters it when its
packet is accepted by IPv4 and leaves it when it times out. Request objects are the
objects `Fin n` of a program with `n` of them.
-/
namespace NanoIp.Icmp

variable {n : Nat}

/-- `PING_REQ_TIMEOUT_FLAG`. -/
def pingReqTimeoutFlag : BitVec 32 := 4#32

/-- `nano_ip_icmp_request_t`; the flags are those set in the synchronization object. -/
structure Request (n : Nat) where
  ipv4Address : Ipv4Address
  timeout : BitVec 32
  responseTime : BitVec 32
  identifier : BitVec 32
  flags : BitVec 32
  next : Option (Fin n)
  deriving DecidableEq

/-- The requests of `nano_ip_icmp_module_data_t` and the request objects. -/
structure Module (n : Nat) where
  requests : Option (Fin n)
  mem : Fin n → Request n

/-- The end of `NANO_IP_ICMP_PingRequest`, the packet written at `identifier` sent with
the result `ret`. -/
def enqueue (m : Module n) (r : Fin n) (ipv4Address : Ipv4Address) (timeout identifier : BitVec 32)
    (ret : Err) (now : BitVec 32) : Module n :=
  let request := { m.mem r with flags := 0#32, identifier := identifier }
  if ret.accepted then
    { m with
      requests := some r
      mem := Function.update m.mem r { request with
        ipv4Address := ipv4Address, responseTime := now, timeout := now + timeout,
          next := m.requests } }
  else { m with mem := Function.update m.mem r request }

/-- `Remove request from list`, through the request before it. -/
def Module.unlinkBehind (m : Module n) (prev : Option (Fin n)) (r : Fin n) : Module n :=
  match prev with
  | none => { m with requests := (m.mem r).next }
  | some p => { m with mem := Function.update m.mem p { m.mem p with next := (m.mem r).next } }

/-- Take a request that timed out out of the list and set its flag. -/
def expire (m : Module n) (prev : Option (Fin n)) (r : Fin n) : Module n :=
  let m := m.unlinkBehind prev r
  { m with
    mem := Function.update m.mem r
      { m.mem r with flags := (m.mem r).flags ||| pingReqTimeoutFlag } }

/-- `NANO_IP_ICMP_PeriodicTask`, and the requests that timed out. -/
def periodicTask (m : Module n) (timestamp : BitVec 32) : Module n × List (Fin n) :=
  Lib.sweep (fun m r => (m.mem r).next) (fun m r => (m.mem r).timeout < timestamp) expire n none
    m.requests m

/-- The requests from the head on are exactly `l`, each once. -/
structure Listed (m : Module n) (l : List (Fin n)) : Prop where
  linked : Lib.Linked (fun r => (m.mem r).next) m.requests l
  nodup : l.Nodup

section Expire

variable (m : Module n) (prev : Option (Fin n)) (r k : Fin n)

theorem unlinkBehind_next : ((m.unlinkBehind prev r).mem k).next =
    (Lib.bypassed (fun k => (m.mem k).next) m.requests prev r).2 k := by
  cases prev with
  | none => rfl
  | some p =>
    by_cases hk : k = p
    · subst hk
      simp [Module.unlinkBehind, Lib.bypassed]
    · simp [Module.unlinkBehind, Lib.bypassed, hk]

theorem unlinkBehind_timeout : ((m.unlinkBehind prev r).mem k).timeout = (m.mem k).timeout := by
  cases prev with
  | none => rfl
  | some p =>
    by_cases hk : k = p
    · subst hk
      simp [Module.unlinkBehind]
    · simp [Module.unlinkBehind, hk]

theorem expire_mem : ((expire m prev r).mem k).next = ((m.unlinkBehind prev r).mem k).next ∧
    ((expire m prev r).mem k).timeout = ((m.unlinkBehind prev r).mem k).timeout := by
  by_cases hk : k = r
  · subst hk
    simp [expire]
  · simp [expire, hk]

end Expire

theorem takes_timeout (timestamp : BitVec 32) : Lib.Takes (fun m : Module n => m.requests)
    (fun m r => (m.mem r).next) (fun m r => decide ((m.mem r).timeout < timestamp)) expire where
  first m prev r := by cases prev <;> rfl
  pointers m prev r := funext fun k =>
    (expire_mem m prev r k).1.trans (unlinkBehind_next m prev r k)
  others m prev a b _ := by rw [(expire_mem m prev a b).2, unlinkBehind_timeout]

theorem Listed.periodicTask {m : Module n} {l : List (Fin n)} (hl : Listed m l)
    (timestamp : BitVec 32) :
    (periodicTask m timestamp).2 = l.filter (fun r => (m.mem r).timeout < timestamp) ∧
      Listed (periodicTask m timestamp).1
        (l.filter fun r => !decide ((m.mem r).timeout < timestamp)) := by
  have hcard := hl.nodup.length_le_card
  rw [Fintype.card_fin] at hcard
  obtain ⟨hlinked, htaken, -, -⟩ := Lib.sweep_whole (takes_timeout timestamp) (fun _ _ => True)
    hl.linked hl.nodup hcard trivial fun _ _ _ _ _ _ _ _ => trivial
  exact ⟨htaken, hlinked, hl.nodup.filter _⟩

end NanoIp.Icmp
