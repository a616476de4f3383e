import Rtype.Rtnt.Packet

/-!
# rtnt - The wire header

Every datagram starts with a packed header of 26 bytes whose multi-byte fields
are in network order.  This file embeds the header structure, its byte swap, its
memory layout and its parser, and proves that parsing undoes sending.

Main results:

- Theorem {lit}`Header.convertEndianness_involutive`: the byte swap of a header
  is its own inverse.
- Theorem {lit}`Header.parse_wire`: a header with the protocol's magic number,
  swapped, laid out and followed by at least {lit}`packetSize` bytes, parses
  back to itself.

Current gaps:

- None.
-/

namespace Rtype.Rtnt

open ByteOrder

/-- Unique id of the protocol. -/
def PROTOCOL_ID : UInt16 := 0x2204

/-- Version of the protocol. -/
def PROTOCOL_VER : UInt16 := 0x0003

/-! ## Header fields in memory -/

/-- Swaps the bytes of a 16-bit field. -/
def swap16 (v : UInt16) : UInt16 := ⟨Endian.swap (n := 2) v.toBitVec⟩

/-- Swaps the bytes of a 32-bit field. -/
def swap32 (v : UInt32) : UInt32 := ⟨Endian.swap (n := 4) v.toBitVec⟩

/-- The object representation of a 16-bit field. -/
def bytes16 (v : UInt16) : List UInt8 := bytes (n := 2) v.toBitVec

/-- The object representation of a 32-bit field. -/
def bytes32 (v : UInt32) : List UInt8 := bytes (n := 4) v.toBitVec

/-- The 16-bit field stored in two bytes. -/
def ofBytes16 (bs : List UInt8) : UInt16 := ⟨ofBytes 2 bs⟩

/-- The 32-bit field stored in four bytes. -/
def ofBytes32 (bs : List UInt8) : UInt32 := ⟨ofBytes 4 bs⟩

@[simp]
theorem swap16_swap16 (v : UInt16) : swap16 (swap16 v) = v :=
  congrArg UInt16.ofBitVec (Endian.swap_swap (n := 2) v.toBitVec)

@[simp]
theorem swap32_swap32 (v : UInt32) : swap32 (swap32 v) = v :=
  congrArg UInt32.ofBitVec (Endian.swap_swap (n := 4) v.toBitVec)

@[simp]
theorem length_bytes16 (v : UInt16) : (bytes16 v).length = 2 :=
  length_bytes (n := 2) _

@[simp]
theorem length_bytes32 (v : UInt32) : (bytes32 v).length = 4 :=
  length_bytes (n := 4) _

@[simp]
theorem ofBytes16_bytes16 (v : UInt16) : ofBytes16 (bytes16 v) = v :=
  congrArg UInt16.ofBitVec (ofBytes_bytes (n := 2) v.toBitVec)

@[simp]
theorem ofBytes32_bytes32 (v : UInt32) : ofBytes32 (bytes32 v) = v :=
  congrArg UInt32.ofBitVec (ofBytes_bytes (n := 4) v.toBitVec)

/-! ## The header -/

/-- The RUDP wire header. -/
structure Header where
  protocolId : UInt16 := PROTOCOL_ID
  protocolVersion : UInt16 := PROTOCOL_VER
  sequenceId : UInt32 := 0
  channelId : UInt8 := 0
  orderId : UInt32 := 0
  acknowledgeId : UInt32 := 0
  acknowledgeBitfield : UInt32 := 0
  messageId : UInt16 := 0x0
  flags : UInt8 := Flag.kUnreliable
  packetSize : UInt16 := 0
deriving DecidableEq, Repr

/-- Errors that can occur during header parsing. -/
inductive parsing.Error where
  | kDataTooSmall
  | kProtocolMismatch
  | kPayloadSizeMismatch
deriving DecidableEq, Repr

namespace Header

/-- `sizeof(Header)`; the structure is packed. -/
def size : ℕ := 26

/-- Converts the multi-byte fields from host to network order or back. -/
def convertEndianness (h : Header) : Header :=
  { h with
    protocolId := swap16 h.protocolId
    protocolVersion := swap16 h.protocolVersion
    sequenceId := swap32 h.sequenceId
    orderId := swap32 h.orderId
    acknowledgeId := swap32 h.acknowledgeId
    acknowledgeBitfield := swap32 h.acknowledgeBitfield
    messageId := swap16 h.messageId
    packetSize := swap16 h.packetSize }

/-- The packed object representation, field after field. -/
def objectBytes (h : Header) : ByteBuffer :=
  bytes16 h.protocolId ++ bytes16 h.protocolVersion ++ bytes32 h.sequenceId ++
    [h.channelId] ++ bytes32 h.orderId ++ bytes32 h.acknowledgeId ++
    bytes32 h.acknowledgeBitfield ++ bytes16 h.messageId ++ [h.flags] ++
    bytes16 h.packetSize

/-- The header that `memcpy` fills from the front of a buffer. -/
def ofObjectBytes (data : ByteBuffer) : Header where
  protocolId := ofBytes16 ((data.drop 0).take 2)
  protocolVersion := ofBytes16 ((data.drop 2).take 2)
  sequenceId := ofBytes32 ((data.drop 4).take 4)
  channelId := (data.drop 8).headD 0
  orderId := ofBytes32 ((data.drop 9).take 4)
  acknowledgeId := ofBytes32 ((data.drop 13).take 4)
  acknowledgeBitfield := ofBytes32 ((data.drop 17).take 4)
  messageId := ofBytes16 ((data.drop 21).take 2)
  flags := (data.drop 23).headD 0
  packetSize := ofBytes16 ((data.drop 24).take 2)

/-- Tries to parse a raw buffer to extract a header. -/
def parse (data : ByteBuffer) : Except parsing.Error Header :=
  if data.length < size then
    .error .kDataTooSmall
  else
    let header := (ofObjectBytes data).convertEndianness
    if header.protocolId != PROTOCOL_ID then
      .error .kProtocolMismatch
    else if data.length - size < header.packetSize.toNat then
      .error .kPayloadSizeMismatch
    else
      .ok header

/-- The bytes that `Session::rawSend` puts in front of a payload. -/
def wire (h : Header) : ByteBuffer :=
  h.convertEndianness.objectBytes

/-! ## Parsing undoes sending -/

theorem convertEndianness_involutive (h : Header) :
    h.convertEndianness.convertEndianness = h := by
  simp [convertEndianness]

@[simp]
theorem length_objectBytes (h : Header) : h.objectBytes.length = size := by
  simp [objectBytes, size]

@[simp]
theorem length_wire (h : Header) : h.wire.length = size :=
  length_objectBytes _

private theorem drop_bytes16 {v : UInt16} {offset : ℕ} (h : 2 ≤ offset) :
    (bytes16 v).drop offset = [] :=
  List.drop_of_length_le (by rwa [length_bytes16])

private theorem drop_bytes32 {v : UInt32} {offset : ℕ} (h : 4 ≤ offset) :
    (bytes32 v).drop offset = [] :=
  List.drop_of_length_le (by rwa [length_bytes32])

/-- Copying the packed fields back gives the header. -/
theorem ofObjectBytes_objectBytes (h : Header) (payload : ByteBuffer) :
    ofObjectBytes (h.objectBytes ++ payload) = h := by
  simp [ofObjectBytes, objectBytes, List.drop_append, drop_bytes16, drop_bytes32]

/-- A sent header parses back to itself, whatever the payload behind it. -/
theorem parse_wire {h : Header} {payload : ByteBuffer} (hid : h.protocolId = PROTOCOL_ID)
    (hsize : h.packetSize.toNat ≤ payload.length) :
    parse (h.wire ++ payload) = .ok h := by
  have hcopy : (ofObjectBytes (h.wire ++ payload)).convertEndianness = h := by
    rw [wire, ofObjectBytes_objectBytes, convertEndianness_involutive]
  have hlen : (h.wire ++ payload).length = size + payload.length := by simp
  rw [parse, hcopy, hlen, if_neg (by omega)]
  simp only [hid, bne_self_eq_false, Bool.false_eq_true, if_false]
  rw [if_neg (by omega)]

/-- A successful parse says how the header was found and what it checked. -/
theorem parse_eq_ok {data : ByteBuffer} {h : Header} (hparse : parse data = .ok h) :
    size ≤ data.length ∧ (ofObjectBytes data).convertEndianness = h ∧
      h.protocolId = PROTOCOL_ID ∧ h.packetSize.toNat ≤ data.length - size := by
  simp only [parse] at hparse
  split_ifs at hparse with hshort hid hsize
  simp only [Except.ok.injEq] at hparse
  subst hparse
  exact ⟨by omega, rfl, by simpa using hid, by omega⟩

end Header

end Rtype.Rtnt
