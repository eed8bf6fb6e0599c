import NanoIp.Core.Types

/-!
# The transfer timer of TFTP

A transfer ends when no packet was received for its timeout; the timer calls back
every 100 ms while a transfer is going on.
-/
namespace NanoIp.Tftp

/-- `nano_ip_tftp_req_type_t`. -/
inductive ReqType where
  | idle | read | write | data | ack | error
  deriving DecidableEq

/-- `nano_ip_tftp_error_t`; a peer may send a number that is none of its own. -/
inductive TftpErr where
  | undefined | fileNotFound | accessViolation | diskFull | illegalOperation | unknownTransferId
  | fileExists | noSuchUser | timeout | success
  | other (code : BitVec 16)
  deriving DecidableEq

/-- The fields of `nano_ip_tftp_t` that the timer reads and writes, whether the timer
runs, and the statuses given to `end_of_transfert`. -/
structure Module where
  reqType : ReqType
  lastRxPacketTimestamp : BitVec 32
  timeout : BitVec 32
  lastError : TftpErr
  timerRuns : Bool
  ended : List TftpErr
  deriving DecidableEq

/-- `NANO_IP_TFTP_EndOfTransfer`. -/
def endOfTransfer (x : Module) : Module :=
  { x with reqType := .idle, timerRuns := false, ended := x.ended ++ [x.lastError] }

/-- `NANO_IP_TFTP_TimerCallback` at the counter value `timestamp`. -/
def timerCallback (x : Module) (timestamp : BitVec 32) : Module :=
  if x.reqType ≠ .idle then
    if x.lastRxPacketTimestamp + x.timeout ≤ timestamp then
      endOfTransfer { x with lastError := .timeout }
    else x
  else x

/-- A transfer that is going on is ended by the timer exactly when its deadline is not
above the counter. -/
theorem timerCallback_ended {x : Module} (hx : x.reqType ≠ .idle) (timestamp : BitVec 32) :
    (timerCallback x timestamp).reqType = .idle ↔ x.lastRxPacketTimestamp + x.timeout ≤
      timestamp := by
  rw [timerCallback, if_pos hx]
  by_cases h : x.lastRxPacketTimestamp + x.timeout ≤ timestamp
  · rw [if_pos h]
    exact ⟨fun _ => h, fun _ => rfl⟩
  · rw [if_neg h]
    exact ⟨fun he => absurd he hx, fun he => absurd he h⟩

end NanoIp.Tftp
