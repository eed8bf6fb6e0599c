import NanoIp.Core.Ipv4
import NanoIp.Core.Ipv4Input
import NanoIp.Lib.Chain

/-!
# The UDP module's data

Handles are the objects `Fin n` of a program with `n` of them; the bound handles
are the intrusive list `udp_module.handles`.
-/
namespace NanoIp.Udp

/-- `UDP_PROTOCOL`. -/
def protocol : Byte := 0x11#8
/-- `UDP_HEADER_SIZE`. -/
def headerSize : BitVec 16 := 8#16

/-- The packet `NANO_IP_UDP_AllocatePacket` returns for a datagram of `packetSize` bytes. -/
def allocatedPacket (packetSize : BitVec 16) (p : Packet) : Packet :=
  { (Ipv4.allocatePacket (packetSize + headerSize) p).writeSkipBytes headerSize with count := 0#16 }

/-- `nano_ip_udp_handle_t`; callback and user data are the identity of the handle. -/
structure Handle (n : Nat) where
  ipv4Address : Ipv4Address
  port : BitVec 16
  ipv4Handle : Ipv4.Handle
  isBound : Bool
  next : Option (Fin n)

/-- `NANO_IP_UDP_InitializeHandle`. -/
def Handle.init (n : Nat) : Handle n := ⟨0#32, 0#16, Ipv4.Handle.init, false, none⟩

/-- `nano_ip_udp_module_data_t` and the handle objects. -/
structure Module (n : Nat) where
  handles : Option (Fin n)
  mem : Fin n → Handle n

/-- The handles of `udp_module.handles`, in list order. -/
def Module.bound {n : Nat} (m : Module n) : List (Fin n) :=
  Lib.chain (fun h => (m.mem h).next) n m.handles

/-- `udp_header_t`. -/
structure Header where
  ipv4Header : Ipv4.RxHeader
  srcPort : BitVec 16
  destPort : BitVec 16
  deriving DecidableEq

end NanoIp.Udp
