import NanoIp.Core.Checksum
import NanoIp.Core.Message

/-!
# Echo messages

The ICMP messages the stack builds. The data of an echo request is written by a loop
whose counter is a byte.
-/
namespace NanoIp.Icmp

open Packet (be32)

/-- `ICMP_HEADER_SIZE` and `ICMP_PING_REQ_HEADER_SIZE`. -/
def icmpHeaderSize : BitVec 16 := 4#16
def pingReqHeaderSize : BitVec 16 := 4#16
/-- `ICMP_ECHO_REPLY` and `ICMP_ECHO_REQUEST`. -/
def echoReply : Byte := 0#8
def echoRequest : Byte := 8#8

/-- The writes of a message whose checksum is stored once the rest is written. -/
def messageWrites (type : Byte) (body : List (List Byte)) : List (List Byte) :=
  [type] :: [0#8] :: checksumBytes
    (computeInternetCS [] (type :: 0#8 :: 0#8 :: 0#8 :: body.flatten)) :: body

@[simp] theorem messageWrites_length (type : Byte) (body : List (List Byte)) :
    (messageWrites type body).flatten.length = body.flatten.length + 4 := by
  simp only [messageWrites, checksumBytes, List.flatten_cons, List.length_append, List.length_cons,
    List.length_nil]
  omega

/-- `data_size + data_size % 2`, which C computes in integers. -/
def paddedSize (dataSize : BitVec 8) : Nat := dataSize.toNat + dataSize.toNat % 2

/-- The loop `Request data` up to a bound, at the counter `i`; it may not end. -/
def requestData (bound : Nat) : Nat → BitVec 8 → Option (List Byte)
  | 0, _ => none
  | fuel + 1, i => if i.toNat < bound then (requestData bound fuel (i + 1#8)).map
      (i :: ·) else some []

/-- The message of `NANO_IP_ICMP_PingRequest`. -/
def echoRequestMessage (fuel : Nat) (identifier : BitVec 32) (dataSize : BitVec 8) :
    Option Message :=
  (requestData (paddedSize dataSize) fuel 0#8).map fun data =>
    { asked := icmpHeaderSize + pingReqHeaderSize + BitVec.ofNat 16 (paddedSize dataSize)
      writes := messageWrites echoRequest (be32 identifier :: data.map fun b => [b]) }

/-- The message of `NANO_IP_ICMP_HandlePingRequest`, with what stands behind the header of
the request. -/
def echoReplyMessage (startOfRequestData : Packet) (requestDataSize : BitVec 16) : Message where
  asked := requestDataSize
  writes := messageWrites echoReply
    [startOfRequestData.bytes startOfRequestData.current (requestDataSize - icmpHeaderSize).toNat]

section RequestData

variable {bound : Nat} {dataSize : BitVec 8}

/-- The loop ends when the counter can reach the bound. -/
theorem requestData_ends (hbound : bound < 2 ^ 8) : ∀ (fuel : Nat) {i : BitVec 8}, i.toNat ≤ bound →
    bound - i.toNat < fuel → ∃ data, requestData bound fuel i = some data ∧
      data.length = bound - i.toNat := by
  intro fuel
  induction fuel with
  | zero => intro i _ hf; exact absurd hf (Nat.not_lt_zero _)
  | succ fuel ih =>
    intro i hi hf
    by_cases h : i.toNat < bound
    · have hnext : (i + 1#8).toNat = i.toNat + 1 := by
        rw [BitVec.toNat_add, BitVec.toNat_ofNat,
          Nat.mod_eq_of_lt (a := i.toNat + 1 % 2 ^ 8) (by omega)]
      obtain ⟨data, hdata, hlen⟩ := ih (i := i + 1#8) (by omega) (by omega)
      refine ⟨i :: data, ?_, ?_⟩
      · rw [requestData, if_pos h, hdata]
        rfl
      · rw [List.length_cons, hlen]
        omega
    · exact ⟨[], by rw [requestData, if_neg h], by rw [List.length_nil]; omega⟩

theorem requestData_endless (hbound : 2 ^ 8 ≤ bound) :
    ∀ (fuel : Nat) (i : BitVec 8), requestData bound fuel i = none := by
  intro fuel
  induction fuel with
  | zero => intro i; rfl
  | succ fuel ih =>
    intro i
    rw [requestData, if_pos (by have := i.isLt; omega), ih]
    rfl

theorem paddedSize_lt (h : dataSize ≠ 255#8) : paddedSize dataSize < 2 ^ 8 := by
  have hlt := dataSize.isLt
  have hne : dataSize.toNat ≠ 255 := fun he => h (BitVec.eq_of_toNat_eq he)
  rw [paddedSize]
  omega

end RequestData

theorem echoRequestMessage_built (identifier : BitVec 32) {dataSize : BitVec 8}
    (h : dataSize ≠ 255#8) :
    ∃ m, echoRequestMessage (2 ^ 8) identifier dataSize = some m ∧ m.payload.length =
      m.asked.toNat := by
  have hlt := paddedSize_lt h
  obtain ⟨data, hdata, hlen⟩ := requestData_ends hlt (2 ^ 8) (i := 0#8) (Nat.zero_le _)
    (by simpa using hlt)
  refine ⟨_, by rw [echoRequestMessage, hdata]; rfl, ?_⟩
  have hflat : (data.map fun b => [b]).flatten = data := by
    rw [← List.flatMap_def, List.flatMap_singleton']
  have hid : (be32 identifier).length = 4 := rfl
  rw [Message.payload, messageWrites_length, List.flatten_cons, List.length_append,
    hflat, hlen, hid]
  change _ = (4#16 + 4#16 + BitVec.ofNat 16 (paddedSize dataSize)).toNat
  rw [BitVec.toNat_add, show (4#16 + 4#16).toNat = 8 from rfl, BitVec.toNat_ofNat,
    BitVec.toNat_ofNat]
  omega

theorem echoRequestMessage_endless (fuel : Nat) (identifier : BitVec 32) :
    echoRequestMessage fuel identifier 255#8 = none := by
  rw [echoRequestMessage, requestData_endless (by decide)]
  rfl

theorem echoReplyMessage_length (startOfRequestData : Packet) {requestDataSize : BitVec 16}
    (h : icmpHeaderSize ≤ requestDataSize) :
    (echoReplyMessage startOfRequestData requestDataSize).payload.length =
      requestDataSize.toNat := by
  rw [Message.payload, echoReplyMessage, messageWrites_length, List.flatten_singleton,
    Packet.bytes_length,
    BitVec.toNat_sub_of_le h]
  have hle : 4 ≤ requestDataSize.toNat := h
  exact Nat.sub_add_cancel hle

end NanoIp.Icmp
