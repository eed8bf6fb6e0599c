import NanoIp.Core.Message

/-!
# DHCP messages

The messages of `nano_ip_dhcp_client.c`, each as the size it asks of UDP and what it
writes.
-/
namespace NanoIp.Dhcp

open Packet (be16 be32)

/-- `DHCP_MIN_MSG_SIZE`, `DHCP_DISCOVER_MSG_SIZE` and `DHCP_REQUEST_MSG_SIZE`. -/
def minMsgSize : BitVec 16 := 240#16
def discoverMsgSize : BitVec 16 := minMsgSize + 4#16
def requestMsgSize : BitVec 16 := minMsgSize + 10#16

/-- `DHCP_BOOT_REQUEST`, `DHCP_HTYPE_FIELD`, `MAC_ADDRESS_SIZE` and `DHCP_FLAGS_BROADCAST`. -/
def bootRequest : Byte := 0x01#8
def htypeField : Byte := 0x01#8
def macAddressSize : Byte := 6#8
def flagsBroadcast : BitVec 16 := 0x8000#16
/-- `DHCP_BOOTP_PADDING_SIZE` and `DHCP_MAGIC_COOKIE`. -/
def bootpPaddingSize : Nat := 192
def magicCookie : BitVec 32 := 0x63825363#32

/-- `DHCP_DISCOVER_MSG_TYPE` and `DHCP_REQUEST_MSG_TYPE`. -/
def discoverMsgType : Byte := 0x01#8
def requestMsgType : Byte := 0x03#8

/-- The codes of the options, and the sizes of those that are written. -/
def subnetMaskOption : Byte := 0x01#8
def routerOption : Byte := 0x03#8
def requestedAddressOption : Byte := 0x32#8
def requestedAddressOptionSize : Byte := 4#8
def leaseTimeOption : Byte := 0x33#8
def requestTypeOption : Byte := 0x35#8
def requestTypeOptionSize : Byte := 1#8
def serverIdOption : Byte := 0x36#8
def serverIdOptionSize : Byte := 4#8
def parameterRequestListOption : Byte := 0x37#8
def renewalTimeOption : Byte := 0x3A#8
def rebindingTimeOption : Byte := 0x3B#8
def endFlagOption : Byte := 0xFF#8

/-- The writes both messages begin with, up to the type of the message. -/
def headerWrites (transactionId : BitVec 32) (ciaddr : Ipv4Address) (macAddress : MacAddress)
    (msgType : Byte) :
    List (List Byte) :=
  [[bootRequest], [htypeField], [macAddressSize], [0#8],
    be32 transactionId,
    be16 0#16, be16 flagsBroadcast,
    be32 ciaddr, be32 0#32, be32 0#32, be32 0#32,
    macAddress.toList, be16 0#16, be32 0#32, be32 0#32,
    List.replicate bootpPaddingSize 0#8,
    be32 magicCookie,
    [requestTypeOption], [requestTypeOptionSize], [msgType]]

/-- `NANO_IP_DHCP_CLIENT_SendDiscover` takes the transaction id from the counter. -/
def transactionIdAt (now : BitVec 32) : BitVec 32 := now + 0xF00D0000#32

/-- The message of `NANO_IP_DHCP_CLIENT_SendDiscover`. -/
def discoverMessage (now : BitVec 32) (macAddress : MacAddress) : Message where
  asked := discoverMsgSize + (2#16 + 5#16)
  writes := headerWrites (transactionIdAt now) 0#32 macAddress discoverMsgType ++
    [[parameterRequestListOption], [5#8], [subnetMaskOption], [routerOption], [leaseTimeOption],
      [renewalTimeOption],
      [rebindingTimeOption], [endFlagOption]]

/-- The message of `NANO_IP_DHCP_CLIENT_SendRequest`. -/
def requestMessage (transactionId : BitVec 32) (macAddress : MacAddress)
    (serverAddress leaseAddress : Ipv4Address) (sendLeaseAddress : Bool) : Message where
  asked := requestMsgSize
  writes := headerWrites transactionId (if sendLeaseAddress then leaseAddress else 0#32) macAddress
    requestMsgType ++
    [[serverIdOption], [serverIdOptionSize], be32 serverAddress, [requestedAddressOption],
      [requestedAddressOptionSize],
      be32 leaseAddress, [endFlagOption]]

@[simp] theorem headerWrites_length (transactionId : BitVec 32) (ciaddr : Ipv4Address)
    (macAddress : MacAddress) (msgType : Byte) :
    (headerWrites transactionId ciaddr macAddress msgType).flatten.length = 243 := by
  simp only [headerWrites, List.flatten_cons, List.flatten_nil, List.length_append,
    List.length_replicate,
    Vector.length_toList, be16, be32, List.length_cons, List.length_nil, bootpPaddingSize]

theorem discoverMessage_length (now : BitVec 32) (macAddress : MacAddress) :
    (discoverMessage now macAddress).payload.length =
      (discoverMessage now macAddress).asked.toNat := by
  rw [Message.payload, discoverMessage, List.flatten_append, List.length_append,
    headerWrites_length]
  rfl

/-- A request is six bytes longer than what is asked for: its two address options take six
bytes each, and the end one more. -/
theorem requestMessage_length (transactionId : BitVec 32) (macAddress : MacAddress)
    (serverAddress leaseAddress : Ipv4Address) (sendLeaseAddress : Bool) :
    (requestMessage transactionId macAddress serverAddress leaseAddress
      sendLeaseAddress).payload.length =
      (requestMessage transactionId macAddress serverAddress leaseAddress
        sendLeaseAddress).asked.toNat + 6 := by
  rw [Message.payload, requestMessage, List.flatten_append, List.length_append, headerWrites_length]
  rfl

end NanoIp.Dhcp
