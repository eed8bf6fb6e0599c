import NanoIp.Core.Written

/-!
# Messages under construction

Every builder of the stack asks the allocator for a payload size and then writes the
payload piece by piece. The size is computed by hand beside the writes.
-/
namespace NanoIp

/-- The payload size that is asked for, and the writes that follow. -/
structure Message where
  asked : BitVec 16
  writes : List (List Byte)
  deriving DecidableEq

namespace Message

def payload (m : Message) : List Byte := m.writes.flatten

/-- The payload is within what was asked for. -/
def Fits (m : Message) : Prop := m.payload.length ≤ m.asked.toNat

instance (m : Message) : Decidable m.Fits := inferInstanceAs (Decidable (_ ≤ _))

def written (m : Message) (p : Packet) : Packet := m.writes.foldl Packet.writeBuffer p

end Message

end NanoIp
