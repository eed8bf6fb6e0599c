import NanoIp.Core.Ethernet

/-!
# ARP frames

The 28 bytes of an ARP frame on Ethernet and IPv4, as `NANO_IP_ARP_Request` and
`NANO_IP_ARP_HandleRequest` write them and `NANO_IP_ARP_RxFrame` decodes them.
-/
namespace NanoIp.Arp

/-- `ARP_PROTOCOL`, `ARP_HARDWARE_TYPE` and `ARP_PACKET_SIZE_IPV4`. -/
def arpProtocol : BitVec 16 := 0x0806#16
def arpHardwareType : BitVec 16 := 1#16
def packetSizeIpv4 : BitVec 16 := 28#16
/-- `MAC_ADDRESS_SIZE` and `IPV4_ADDRESS_SIZE`, as they stand in the frame. -/
def macAddressSize : Byte := 6#8
def ipv4AddressSize : Byte := 4#8
/-- `IP_PROTOCOL`. -/
def ipProtocol : BitVec 16 := 0x0800#16
/-- `nano_ip_arp_frame_type_t`. -/
def opRequest : BitVec 16 := 1#16
def opResponse : BitVec 16 := 2#16

/-- `ETHERNET_BROADCAST_MAC_ADDRESS` and `ETHERNET_NULL_MAC_ADDRESS`. -/
def broadcastMacAddress : MacAddress := Vector.replicate 6 0xFF#8
def nullMacAddress : MacAddress := Vector.replicate 6 0#8

/-- `nano_ip_arp_ipv4_frame_t`. -/
structure Frame where
  hardwareType : BitVec 16
  protocolType : BitVec 16
  hwAddressLength : Byte
  protoAddressLength : Byte
  operation : BitVec 16
  senderHwAddress : MacAddress
  senderProtoAddress : Ipv4Address
  targetHwAddress : MacAddress
  targetProtoAddress : Ipv4Address
  deriving DecidableEq

/-- The writes of both senders, in their order. -/
def writeFrame (p : Packet) (frame : Frame) : Packet :=
  let p := p.write16bits frame.hardwareType
  let p := p.write16bits frame.protocolType
  let p := p.write8bits frame.hwAddressLength
  let p := p.write8bits frame.protoAddressLength
  let p := p.write16bits frame.operation
  let p := p.writeBuffer frame.senderHwAddress.toList
  let p := p.write32bits frame.senderProtoAddress
  let p := p.writeBuffer frame.targetHwAddress.toList
  p.write32bits frame.targetProtoAddress

/-- The request of `NANO_IP_ARP_Request`, and its Ethernet header. -/
def requestFrame (netIf : NetIf) (ipv4Address : Ipv4Address) : Frame :=
  ⟨arpHardwareType, ipProtocol, macAddressSize, ipv4AddressSize, opRequest, netIf.macAddress,
    netIf.ipv4Address, nullMacAddress, ipv4Address⟩
def requestHeader (netIf : NetIf) : Ethernet.Header :=
  ⟨broadcastMacAddress, netIf.macAddress, arpProtocol⟩

/-- The response of `NANO_IP_ARP_HandleRequest`, and its Ethernet header. -/
def responseFrame (netIf : NetIf) (request : Frame) : Frame :=
  { request with
    operation := opResponse
    senderHwAddress := netIf.macAddress
    senderProtoAddress := netIf.ipv4Address
    targetHwAddress := request.senderHwAddress
    targetProtoAddress := request.senderProtoAddress }
def responseHeader (netIf : NetIf) (request : Frame) : Ethernet.Header :=
  ⟨request.senderHwAddress, netIf.macAddress, arpProtocol⟩

/-- The packet that is handed to the driver, written into an allocated object. -/
def sentPacket (netIf : NetIf) (header : Ethernet.Header) (frame : Frame) (p : Packet) : Packet :=
  Ethernet.sendPacket netIf header (writeFrame (Ethernet.allocatePacket packetSizeIpv4 p) frame)

/-- `NANO_IP_PACKET_ReadBuffer` into an array of a MAC address. -/
def readMac (p : Packet) : MacAddress × Packet :=
  (Vector.ofFn fun i => p.byteAt i, p.readSkipBytes 6#16)

/-- `Decode packet` of `NANO_IP_ARP_RxFrame`. -/
def decode (p : Packet) : Frame :=
  let (hardwareType, p) := p.read16bits
  let (protocolType, p) := p.read16bits
  let (hwAddressLength, p) := p.read8bits
  let (protoAddressLength, p) := p.read8bits
  let (operation, p) := p.read16bits
  let (senderHwAddress, p) := readMac p
  let (senderProtoAddress, p) := p.read32bits
  let (targetHwAddress, p) := readMac p
  let (targetProtoAddress, _) := p.read32bits
  ⟨hardwareType, protocolType, hwAddressLength, protoAddressLength, operation, senderHwAddress,
    senderProtoAddress, targetHwAddress, targetProtoAddress⟩

/-- `Check validity`: IPv4 over Ethernet. -/
def Frame.isValid (frame : Frame) : Bool :=
  frame.protocolType = ipProtocol && frame.hwAddressLength = macAddressSize &&
    frame.protoAddressLength = ipv4AddressSize

end NanoIp.Arp
