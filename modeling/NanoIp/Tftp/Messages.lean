import NanoIp.Core.Message
import NanoIp.Tftp.Timer

/-!
# TFTP messages

The messages of `nano_ip_tftp.c`, each as the size it asks of UDP and what it writes,
and how a received one is read.
-/
namespace NanoIp.Tftp

open Packet (be16)

/-- `TFTP_DATA_PACKET_HEADER_SIZE`, `TFTP_DATA_PACKET_PAYLOAD_SIZE`, `TFTP_ACK_PACKET_SIZE`
and `TFTP_MIN_ERROR_PACKET_SIZE`. -/
def dataPacketHeaderSize : BitVec 16 := 4#16
def dataPacketPayloadSize : BitVec 16 := 512#16
def ackPacketSize : BitVec 16 := 4#16
def minErrorPacketSize : BitVec 16 := 5#16
/-- `TFTP_MAX_FILENAME_SIZE`. -/
def maxFilenameSize : Nat := 512 - 9
/-- `TFTP_TRANSFER_MODE`: the characters of "octet". -/
def transferMode : List Byte := [0x6F#8, 0x63#8, 0x74#8, 0x65#8, 0x74#8]

/-- The numbers of `nano_ip_tftp_req_type_t`. -/
def ReqType.code : ReqType → BitVec 16
  | .idle => 0#16
  | .read => 1#16
  | .write => 2#16
  | .data => 3#16
  | .ack => 4#16
  | .error => 5#16

/-- The opcode of a received message; there is none for `TFTP_REQ_IDLE`. -/
def ReqType.ofCode (code : BitVec 16) : Option ReqType :=
  [ReqType.read, .write, .data, .ack, .error].find? fun type => type.code = code

theorem ReqType.ofCode_code {type : ReqType} (h : type ≠ .idle) :
    ReqType.ofCode type.code = some type := by
  cases type with
  | idle => exact absurd rfl h
  | read | write | data | ack | error => rfl

/-- The numbers of `nano_ip_tftp_error_t`. -/
def TftpErr.code : TftpErr → BitVec 16
  | .undefined => 0#16
  | .fileNotFound => 1#16
  | .accessViolation => 2#16
  | .diskFull => 3#16
  | .illegalOperation => 4#16
  | .unknownTransferId => 5#16
  | .fileExists => 6#16
  | .noSuchUser => 7#16
  | .timeout => 0xFE#16
  | .success => 0xFF#16
  | .other code => code

/-- The cast of a number to `nano_ip_tftp_error_t`. -/
def TftpErr.ofCode (code : BitVec 16) : TftpErr :=
  ([TftpErr.undefined, .fileNotFound, .accessViolation, .diskFull, .illegalOperation,
    .unknownTransferId,
    .fileExists, .noSuchUser, .timeout, .success].find? fun error => error.code = code).getD
      (.other code)

/-- `STRNLEN` of a C string whose characters are `s`. -/
def strnlen (s : List Byte) (max : Nat) : Nat := Nat.min (s.takeWhile fun c => c ≠ 0#8).length max

/-- The message of `NANO_IP_TFTP_SendReadWriteRequest`. -/
def requestMessage (filename : List Byte) (opcode : ReqType) : Message where
  asked := dataPacketPayloadSize
  writes := [be16 opcode.code, filename.take (strnlen filename maxFilenameSize), [0#8],
    transferMode, [0#8]]

/-- The message of `NANO_IP_TFTP_SendAcknowledge`. -/
def ackMessage (currentBlock : BitVec 16) : Message where
  asked := ackPacketSize
  writes := [be16 ReqType.ack.code, be16 currentBlock]

/-- The message of `NANO_IP_TFTP_SendData`; the user writes the data into the packet. -/
def dataMessage (currentBlock : BitVec 16) (data : List Byte) : Message where
  asked := dataPacketPayloadSize
  writes := [be16 ReqType.data.code, be16 currentBlock, data]

/-- The message of `NANO_IP_TFTP_SendError`. -/
def errorMessage (error : TftpErr) : Message where
  asked := minErrorPacketSize
  writes := [be16 ReqType.error.code, be16 error.code, [0#8]]

section Payload

variable (filename data : List Byte) (opcode : ReqType) (block : BitVec 16) (error : TftpErr)

@[simp] theorem ackMessage_payload :
    (ackMessage block).payload = be16 ReqType.ack.code ++ be16 block := by
  simp [Message.payload, ackMessage]

@[simp] theorem dataMessage_payload :
    (dataMessage block data).payload = be16 ReqType.data.code ++ (be16 block ++ data) := by
  simp [Message.payload, dataMessage]

@[simp] theorem errorMessage_payload :
    (errorMessage error).payload = be16 ReqType.error.code ++ (be16 error.code ++ [0#8]) := by
  simp [Message.payload, errorMessage]

theorem requestMessage_length : (requestMessage filename opcode).payload.length ≤ 512 := by
  have hmax : strnlen filename maxFilenameSize ≤ 503 := Nat.min_le_right _ _
  simp only [Message.payload, requestMessage, List.flatten_cons, List.flatten_nil,
    List.length_append,
    List.length_take, transferMode, be16, List.length_cons, List.length_nil]
  omega

end Payload

end NanoIp.Tftp
