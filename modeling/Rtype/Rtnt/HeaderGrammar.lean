import Rtype.Rtnt.Header

/-!
# rtnt - What the header parser accepts

The protocol lists the header fields with their offsets, all of them in network order.
This file reads a buffer by that list, without the structure that the code copies the
bytes into, and compares the two: a sent header is laid out as listed, and the parser
accepts more than the listed values allow, because it compares no version and only an
upper bound on the payload size.

Main results:

- Structure {lit}`Header.LaidOut`: the offsets of the ten fields.
- Theorem {lit}`Header.parse_ok_iff`: the buffers that the parser accepts.
- Theorem {lit}`Header.parse_grammar_iff`: the buffers on which it decides as the
  protocol says.
- Theorem {lit}`Header.wire_round_trip`: a sent header is laid out as the protocol says
  and parses back.

Current gaps:

- None.
-/

namespace Rtype.Rtnt

open ByteOrder

/-- The field of a buffer at an offset, a number in network order. -/
def fieldAt (data : ByteBuffer) (offset width : ℕ) : ℕ :=
  ofDigits ((data.drop offset).take width).reverse

/-- A field that is copied and then swapped has the value of its bytes in network
order. -/
theorem toNat_swap_ofBytes {n : ℕ} {bs : List UInt8} (h : bs.length = n) :
    (Endian.swap (ofBytes n bs)).toNat = ofDigits bs.reverse := by
  have hlt : ofDigits bs.reverse < 2 ^ (8 * n) := by
    have hdigits := ofDigits_lt bs.reverse
    rw [List.length_reverse, h] at hdigits
    calc ofDigits bs.reverse < 256 ^ n := hdigits
      _ = 2 ^ (8 * n) := by rw [pow_mul]; norm_num
  have hswap : Endian.swap (ofBytes n bs) = ofBytes n bs.reverse := by
    have hbytes := Endian.bytes_swap (ofBytes n bs)
    rw [bytes_ofBytes h] at hbytes
    rw [← hbytes, ofBytes_bytes]
  rw [hswap, ofBytes, BitVec.toNat_ofNat, Nat.mod_eq_of_lt hlt]

theorem length_take_drop {data : ByteBuffer} {offset width : ℕ}
    (h : offset + width ≤ data.length) : ((data.drop offset).take width).length = width := by
  rw [List.length_take, List.length_drop]
  omega

theorem toNat_swap16_field {data : ByteBuffer} {offset : ℕ} (h : offset + 2 ≤ data.length) :
    (swap16 (ofBytes16 ((data.drop offset).take 2))).toNat = fieldAt data offset 2 :=
  toNat_swap_ofBytes (length_take_drop h)

theorem toNat_swap32_field {data : ByteBuffer} {offset : ℕ} (h : offset + 4 ≤ data.length) :
    (swap32 (ofBytes32 ((data.drop offset).take 4))).toNat = fieldAt data offset 4 :=
  toNat_swap_ofBytes (length_take_drop h)

/-- A field of one byte needs no order. -/
theorem toNat_byte_field {data : ByteBuffer} {offset : ℕ} (h : offset + 1 ≤ data.length) :
    ((data.drop offset).headD 0).toNat = fieldAt data offset 1 := by
  unfold fieldAt
  cases hdrop : data.drop offset with
  | nil =>
      have hlen := congrArg List.length hdrop
      rw [List.length_drop, List.length_nil] at hlen
      omega
  | cons b rest => simp [ofDigits]

namespace Header

/-! ## The layout of the protocol -/

/-- The buffer starts with the fields of the header, at the offsets and in the order of
bytes that the protocol lists. -/
structure LaidOut (h : Header) (data : ByteBuffer) : Prop where
  protocolId : fieldAt data 0 2 = h.protocolId.toNat
  protocolVersion : fieldAt data 2 2 = h.protocolVersion.toNat
  sequenceId : fieldAt data 4 4 = h.sequenceId.toNat
  channelId : fieldAt data 8 1 = h.channelId.toNat
  orderId : fieldAt data 9 4 = h.orderId.toNat
  acknowledgeId : fieldAt data 13 4 = h.acknowledgeId.toNat
  acknowledgeBitfield : fieldAt data 17 4 = h.acknowledgeBitfield.toNat
  messageId : fieldAt data 21 2 = h.messageId.toNat
  flags : fieldAt data 23 1 = h.flags.toNat
  packetSize : fieldAt data 24 2 = h.packetSize.toNat

/-- The header that is copied from a buffer and swapped is the one laid out in it. -/
theorem laidOut_ofObjectBytes {data : ByteBuffer} (h : size ≤ data.length) :
    LaidOut (ofObjectBytes data).convertEndianness data := by
  have hsize : size = 26 := rfl
  constructor
  · exact (toNat_swap16_field (by omega)).symm
  · exact (toNat_swap16_field (by omega)).symm
  · exact (toNat_swap32_field (by omega)).symm
  · exact (toNat_byte_field (by omega)).symm
  · exact (toNat_swap32_field (by omega)).symm
  · exact (toNat_swap32_field (by omega)).symm
  · exact (toNat_swap32_field (by omega)).symm
  · exact (toNat_swap16_field (by omega)).symm
  · exact (toNat_byte_field (by omega)).symm
  · exact (toNat_swap16_field (by omega)).symm

/-- A sent header is laid out as the protocol says. -/
theorem laidOut_wire (h : Header) (payload : ByteBuffer) : LaidOut h (h.wire ++ payload) := by
  have hlong : size ≤ (h.wire ++ payload).length := by
    rw [List.length_append, length_wire]
    omega
  have hlaid := laidOut_ofObjectBytes hlong
  rwa [wire, ofObjectBytes_objectBytes, convertEndianness_involutive] at hlaid

/-! ## Acceptance -/

/-- The parser accepts the buffers that are long enough, have the magic number and hold
at least as many payload bytes as announced. -/
theorem parse_ok_iff (data : ByteBuffer) :
    (∃ h, parse data = .ok h) ↔
      size ≤ data.length ∧ fieldAt data 0 2 = PROTOCOL_ID.toNat ∧
        fieldAt data 24 2 ≤ data.length - size := by
  constructor
  · rintro ⟨h, hparse⟩
    rcases parse_eq_ok hparse with ⟨hlong, rfl, hid, hsize⟩
    have hlaid := laidOut_ofObjectBytes hlong
    refine ⟨hlong, ?_, ?_⟩
    · rw [hlaid.protocolId, hid]
    · rwa [hlaid.packetSize]
  · rintro ⟨hlong, hid, hsize⟩
    have hlaid := laidOut_ofObjectBytes hlong
    rw [hlaid.protocolId] at hid
    rw [hlaid.packetSize] at hsize
    refine ⟨(ofObjectBytes data).convertEndianness, ?_⟩
    simp only [parse, if_neg (Nat.not_lt.mpr hlong), UInt16.toNat_inj.mp hid,
      bne_self_eq_false, Bool.false_eq_true, if_false, if_neg (Nat.not_lt.mpr hsize)]

/-- The buffers that the protocol allows: the magic number, the version of this
implementation, and a payload of the announced size. -/
structure InGrammar (data : ByteBuffer) : Prop where
  long : size ≤ data.length
  protocolId : fieldAt data 0 2 = PROTOCOL_ID.toNat
  protocolVersion : fieldAt data 2 2 = PROTOCOL_VER.toNat
  payloadSize : fieldAt data 24 2 = data.length - size

/-- The buffer has the magic number and no more payload announced than it holds, but a
foreign version or a payload longer than announced. -/
structure Foreign (data : ByteBuffer) : Prop where
  long : size ≤ data.length
  protocolId : fieldAt data 0 2 = PROTOCOL_ID.toNat
  payloadSize : fieldAt data 24 2 ≤ data.length - size
  differs : fieldAt data 2 2 ≠ PROTOCOL_VER.toNat ∨ fieldAt data 24 2 ≠ data.length - size

/-- The parser decides as the protocol says on all buffers but the foreign ones. -/
theorem parse_grammar_iff (data : ByteBuffer) :
    ((∃ h, parse data = .ok h) ↔ InGrammar data) ↔ ¬ Foreign data := by
  rw [parse_ok_iff]
  constructor
  · intro hiff hforeign
    have hgrammar := hiff.mp ⟨hforeign.long, hforeign.protocolId, hforeign.payloadSize⟩
    rcases hforeign.differs with hversion | hsize
    · exact hversion hgrammar.protocolVersion
    · exact hsize hgrammar.payloadSize
  · intro hforeign
    constructor
    · rintro ⟨hlong, hid, hsize⟩
      by_contra hnot
      apply hforeign
      refine ⟨hlong, hid, hsize, ?_⟩
      by_contra hsame
      rw [not_or, not_not, not_not] at hsame
      exact hnot ⟨hlong, hid, hsame.1, hsame.2⟩
    · intro hgrammar
      exact ⟨hgrammar.long, hgrammar.protocolId, hgrammar.payloadSize.le⟩

/-- A header of version 2 and an empty payload are accepted. -/
theorem parse_foreign_version :
    ¬ ∀ data : ByteBuffer, (∃ h, parse data = .ok h) ↔ InGrammar data := by
  intro hall
  let h : Header := { protocolVersion := 2 }
  have hparse : parse (h.wire ++ []) = .ok h := parse_wire (by rfl) (Nat.zero_le _)
  have hgrammar := (hall _).mp ⟨h, hparse⟩
  have hversion := hgrammar.protocolVersion
  rw [(laidOut_wire h []).protocolVersion] at hversion
  exact absurd hversion (by decide)

/-! ## The round trip -/

/-- A header with the magic number, swapped, laid out and followed by at least
{lit}`packetSize` bytes, has its fields at the listed offsets and parses back to itself;
and the swap is its own inverse. -/
theorem wire_round_trip (h : Header) (payload : ByteBuffer) (hid : h.protocolId = PROTOCOL_ID)
    (hsize : h.packetSize.toNat ≤ payload.length) :
    h.convertEndianness.objectBytes.length = 26 ∧
      LaidOut h (h.convertEndianness.objectBytes ++ payload) ∧
      parse (h.convertEndianness.objectBytes ++ payload) = .ok h ∧
      ∀ g : Header, g.convertEndianness.convertEndianness = g :=
  ⟨length_wire h, laidOut_wire h payload, parse_wire hid hsize, convertEndianness_involutive⟩

/-- The round trip for a header that announces a payload of one byte. -/
theorem wire_round_trip_byte :
    ({ packetSize := 1 } : Header).convertEndianness.objectBytes.length = 26 ∧
      LaidOut { packetSize := 1 }
        (({ packetSize := 1 } : Header).convertEndianness.objectBytes ++ [7]) ∧
      parse (({ packetSize := 1 } : Header).convertEndianness.objectBytes ++ [7]) =
        .ok { packetSize := 1 } ∧
      ∀ g : Header, g.convertEndianness.convertEndianness = g :=
  wire_round_trip { packetSize := 1 } [7] (by rfl) (by decide)

end Header

end Rtype.Rtnt
