import NanoIp.Arp.Coding
import NanoIp.Dhcp.Messages
import NanoIp.Icmp.Messages
import NanoIp.Tftp.Messages

/-!
# The builders of the stack

Each builder asks the allocator for a payload size that is computed apart from what it
writes. Which of them keep to it is a matter of the builder and of its inputs.
-/
namespace NanoIp

def Arp.frameMessage (frame : Frame) : Message := ⟨packetSizeIpv4, frameWrites frame⟩

/-- A builder with its inputs. A ping is answered only when it has a header, and a user
gives TFTP at most 512 bytes of data. -/
inductive Builder where
  | arpRequest (netIf : NetIf) (ipv4Address : Ipv4Address)
  | arpResponse (netIf : NetIf) (request : Arp.Frame)
  | echoRequest (identifier : BitVec 32) (dataSize : BitVec 8)
  | echoReply (startOfRequestData : Packet)
      (requestDataSize : { size : BitVec 16 // Icmp.icmpHeaderSize ≤ size })
  | tftpRequest (filename : List Byte) (opcode : Tftp.ReqType)
  | tftpData (currentBlock : BitVec 16) (data : { data : List Byte // data.length ≤ 512 })
  | tftpAck (currentBlock : BitVec 16)
  | tftpError (error : Tftp.TftpErr)
  | dhcpDiscover (now : BitVec 32) (macAddress : MacAddress)
  | dhcpRequest (transactionId : BitVec 32) (macAddress : MacAddress)
      (serverAddress leaseAddress : Ipv4Address)
      (sendLeaseAddress : Bool)

namespace Builder

/-- What a builder asks for and writes, if it comes to an end. -/
def build (fuel : Nat) : Builder → Option Message
  | arpRequest netIf ipv4Address => some (Arp.frameMessage (Arp.requestFrame netIf ipv4Address))
  | arpResponse netIf request => some (Arp.frameMessage (Arp.responseFrame netIf request))
  | echoRequest identifier dataSize => Icmp.echoRequestMessage fuel identifier dataSize
  | echoReply startOfRequestData requestDataSize =>
      some (Icmp.echoReplyMessage startOfRequestData requestDataSize.1)
  | tftpRequest filename opcode => some (Tftp.requestMessage filename opcode)
  | tftpData currentBlock data => some (Tftp.dataMessage currentBlock data.1)
  | tftpAck currentBlock => some (Tftp.ackMessage currentBlock)
  | tftpError error => some (Tftp.errorMessage error)
  | dhcpDiscover now macAddress => some (Dhcp.discoverMessage now macAddress)
  | dhcpRequest transactionId macAddress serverAddress leaseAddress sendLeaseAddress =>
    some (Dhcp.requestMessage transactionId macAddress serverAddress leaseAddress sendLeaseAddress)

/-- The builder comes to an end and keeps to the size it has asked for. -/
def Keeps (b : Builder) : Prop := ∃ fuel m, b.build fuel = some m ∧ m.Fits

/-- A ping shorter than 255 bytes, at most 508 bytes of file data, and no DHCP request. -/
def Safe : Builder → Prop
  | echoRequest _ dataSize => dataSize ≠ 255#8
  | tftpData _ data => data.1.length ≤ 508
  | dhcpRequest .. => False
  | _ => True

variable {b : Builder} {m : Message}

theorem keeps_of_build (h : ∀ fuel, b.build fuel = some m) : b.Keeps ↔ m.Fits := by
  constructor
  · rintro ⟨fuel, m', hm, hfits⟩
    rw [h fuel] at hm
    obtain rfl := Option.some.inj hm
    exact hfits
  · exact fun hfits => ⟨0, m, h 0, hfits⟩

theorem frameMessage_fits (frame : Arp.Frame) : (Arp.frameMessage frame).Fits :=
  Nat.le_of_eq (Arp.frameBytes_length frame)

theorem dataMessage_fits_iff (currentBlock : BitVec 16) (data : List Byte) :
    (Tftp.dataMessage currentBlock data).Fits ↔ data.length ≤ 508 := by
  rw [Message.Fits, Tftp.dataMessage_payload, List.length_append, List.length_append]
  change 2 + (2 + data.length) ≤ 512 ↔ _
  omega

/-- The builders that keep to the size they have asked for are the safe ones. -/
theorem keeps_iff (b : Builder) : b.Keeps ↔ b.Safe := by
  cases b with
  | arpRequest netIf ipv4Address =>
      exact (keeps_of_build fun _ => rfl).trans (iff_true_intro (frameMessage_fits _))
  | arpResponse netIf request =>
      exact (keeps_of_build fun _ => rfl).trans (iff_true_intro (frameMessage_fits _))
  | echoRequest identifier dataSize =>
    constructor
    · rintro ⟨fuel, m, hm, -⟩ rfl
      rw [build, Icmp.echoRequestMessage_endless] at hm
      cases hm
    · intro h
      obtain ⟨m, hm, hlen⟩ := Icmp.echoRequestMessage_built identifier h
      exact ⟨2 ^ 8, m, hm, Nat.le_of_eq hlen⟩
  | echoReply startOfRequestData requestDataSize =>
    exact (keeps_of_build fun _ => rfl).trans
      (iff_true_intro (Nat.le_of_eq (Icmp.echoReplyMessage_length _ requestDataSize.2)))
  | tftpRequest filename opcode =>
    exact (keeps_of_build fun _ => rfl).trans
      (iff_true_intro (Tftp.requestMessage_length filename opcode))
  | tftpData currentBlock data =>
      exact (keeps_of_build fun _ => rfl).trans (dataMessage_fits_iff currentBlock data.1)
  | tftpAck currentBlock =>
    exact (keeps_of_build fun _ => rfl).trans (iff_true_intro (by
      rw [Message.Fits, Tftp.ackMessage_payload]
      exact le_refl 4))
  | tftpError error =>
    exact (keeps_of_build fun _ => rfl).trans (iff_true_intro (by
      rw [Message.Fits, Tftp.errorMessage_payload]
      exact le_refl 5))
  | dhcpDiscover now macAddress =>
    exact (keeps_of_build fun _ => rfl).trans
      (iff_true_intro (Nat.le_of_eq (Dhcp.discoverMessage_length now macAddress)))
  | dhcpRequest transactionId macAddress serverAddress leaseAddress sendLeaseAddress =>
    refine (keeps_of_build fun _ => rfl).trans (iff_false_intro fun h => ?_)
    rw [Message.Fits, Dhcp.requestMessage_length] at h
    omega

/-- A DHCP request, a longest ping and a full block of file data do not. -/
theorem not_all_keep :
    ¬ (dhcpRequest 0#32 Arp.nullMacAddress 0#32 0#32 false).Keeps ∧
      ¬ (echoRequest 0#32 255#8).Keeps ∧
      ¬ (tftpData 1#16 ⟨List.replicate 512 0#8, Nat.le_of_eq List.length_replicate⟩).Keeps := by
  refine ⟨fun h => ?_, fun h => ?_, fun h => ?_⟩
  · have hfits := (keeps_of_build fun _ => rfl).mp h
    rw [Message.Fits, Dhcp.requestMessage_length] at hfits
    omega
  · obtain ⟨fuel, m, hm, -⟩ := h
    rw [build, Icmp.echoRequestMessage_endless] at hm
    cases hm
  · have hfits := (dataMessage_fits_iff _ _).mp ((keeps_of_build fun _ => rfl).mp h)
    rw [List.length_replicate] at hfits
    omega

end Builder

end NanoIp
