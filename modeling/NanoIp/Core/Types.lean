import Mathlib.Algebra.Group.Nat.Defs

/-!
# Words, error codes and interfaces

Machine integers are bit vectors of the width the sources declare. An interface
keeps the fields the transmission path reads; its driver is represented by its
capability word.
-/
namespace NanoIp

abbrev Byte := BitVec 8
abbrev Ipv4Address := BitVec 32
abbrev MacAddress := Vector Byte 6

/-- `nano_ip_error_t`. -/
inductive Err where
  | success | failure | invalidArg | timeout | inProgress | busy | resource
  | packetTooShort | packetTooBig | packetNotFound | routeNotFound | netifNotFound
  | invalidCrc | protocolNotFound | ignorePacket | invalidPacketSize
  | invalidArpFrame | invalidArpRequest | arpFailure | invalidCs | invalidPingRequest
  | addressInUse | bufferTooSmall | invalidTcpState | connReset
  deriving DecidableEq, Repr

/-- The test `(ret == NIP_ERR_SUCCESS) || (ret == NIP_ERR_IN_PROGRESS)` of the senders. -/
def Err.accepted (e : Err) : Bool := e = .success || e = .inProgress

@[simp] theorem accepted_success : Err.success.accepted = true := rfl
@[simp] theorem accepted_inProgress : Err.inProgress.accepted = true := rfl

theorem accepted_iff (e : Err) : e.accepted = true ↔ e = .success ∨ e = .inProgress := by
  simp [Err.accepted]

def netdrvCapEthCsComputation : BitVec 32 := 2#32
def netdrvCapEthFramePadding : BitVec 32 := 16#32

/-- The driver capabilities the reception path tests. -/
def netdrvCapsEthMinFrameSize : BitVec 32 := 1#32
def netdrvCapEthCsCheck : BitVec 32 := 4#32
def netdrvCapDestMacAddrCheck : BitVec 32 := 8#32
def netdrvCapIpv4CsCheck : BitVec 32 := 64#32
def netdrvCapIpv4AddressCheck : BitVec 32 := 128#32
def netdrvCapTcpIpv4CsCheck : BitVec 32 := 512#32
def netdrvCapUdpIpv4CsCheck : BitVec 32 := 2048#32

/-- The fields of `nano_ip_net_if_t` that sending reads. -/
structure NetIf where
  macAddress : MacAddress
  ipv4Address : Ipv4Address
  caps : BitVec 32
  deriving DecidableEq

def NetIf.has (netIf : NetIf) (cap : BitVec 32) : Bool := netIf.caps &&& cap ≠ 0#32

/-- `ipv4_header_t`, as a sender fills it. -/
structure Ipv4Header where
  srcAddress : Ipv4Address
  destAddress : Ipv4Address
  protocol : Byte
  deriving DecidableEq

def Ipv4Header.zero : Ipv4Header := ⟨0#32, 0#32, 0#8⟩

end NanoIp
