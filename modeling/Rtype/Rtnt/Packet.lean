import Rtype.Foundations.ByteOrder

/-!
# rtnt - Packets and their serialization operators

A packet is a byte buffer with a read position.  This file embeds the overloads
of the stream operators that write C++ values into a packet and read them back,
for the universe of value shapes that the overload set covers: arithmetic and
enumeration types of any size, {lit}`bool`, strings, vectors, deques and structs
that list their fields in a {lit}`serialize` function, nested to any depth.

The writers return the packet or the text of the exception they throw.  The
readers also keep the packet on a throw, because a failed read has already moved
the read position.

Main results:

- Theorem {lit}`Endian.swap_swap`: the byte swap is its own inverse.
- Theorem {lit}`Endian.bytes_swap`: a swapped value is stored in network order.

Current gaps:

- A {lit}`bool` is read from any byte here; C++ leaves bytes other than 0 and 1
  undefined.
-/

namespace Rtype.Rtnt

/-- The raw bytes of a datagram or of a packet payload. -/
abbrev ByteBuffer := List UInt8

/-! ## Constants of the protocol -/

/-- Reliability flags.  The header carries them as one byte, and any byte can be
cast to the enumeration, so a flag is a byte and not an inductive type. -/
abbrev Flag := UInt8

namespace Flag

/-- Fire and forget. May be lost or arrive out of order. -/
def kUnreliable : Flag := 1
/-- Guaranteed delivery. Will be resent until acknowledged. -/
def kReliable : Flag := 2
/-- Guaranteed order. Will be buffered until previous packets arrive. -/
def kOrdered : Flag := 4
/-- Packets with this flag will have a valid acknowledge id. -/
def kHasAck : Flag := 8

end Flag

/-- Channel of the packets that the library itself sends. -/
def INTERNAL_CHANNEL_ID : UInt8 := 0x00

namespace SystemMessageId

/-! Message ids of the packets that the library itself sends. -/

def kAck : UInt16 := 0x00
def kRichAck : UInt16 := 0x01
def kConnect : UInt16 := 0x02
def kConnectAck : UInt16 := 0x03
def kDisconnect : UInt16 := 0x04

end SystemMessageId

/-! ## Byte order -/

namespace Endian

/-- `std::endian::native == std::endian::big` on the little-endian targets the
library is built for. -/
def nativeIsBig : Bool := false

/-- Swaps the bytes of a value from host to network order or back. -/
def swap {n : ℕ} (value : BitVec (8 * n)) : BitVec (8 * n) :=
  if n = 1 then value
  else if nativeIsBig then value
  else ByteOrder.reverseBytes value

/-- Swapping twice gives the value back. -/
theorem swap_swap {n : ℕ} (value : BitVec (8 * n)) : swap (swap value) = value := by
  unfold swap
  split_ifs with h₁ h₂
  · rfl
  · rfl
  · exact ByteOrder.reverseBytes_involutive value

/-- The stored bytes of a swapped value are in network order. -/
theorem bytes_swap {n : ℕ} (value : BitVec (8 * n)) :
    ByteOrder.bytes (swap value) = (ByteOrder.bytes value).reverse := by
  unfold swap
  split_ifs with h₁ h₂
  · subst h₁
    obtain ⟨b, hb⟩ := List.length_eq_one_iff.mp (ByteOrder.length_bytes value)
    rw [hb, List.reverse_singleton]
  · simp [nativeIsBig] at h₂
  · exact ByteOrder.bytes_reverseBytes value

end Endian

/-! ## Value shapes -/

/-- The C++ types that the stream operators accept.  A `scalar` is an arithmetic
or enumeration type other than `bool`, given by its size in bytes, and its
values are bit patterns of that size. -/
inductive Shape where
  | scalar (size : ℕ)
  | bool
  | string
  | vector (element : Shape)
  | deque (element : Shape)
  | struct (fields : List Shape)

mutual

/-- The values of a shape. -/
def Shape.Val : Shape → Type
  | .scalar size => BitVec (8 * size)
  | .bool => Bool
  | .string => List UInt8
  | .vector element => List element.Val
  | .deque element => List element.Val
  | .struct fields => Shape.Vals fields

/-- Tuples of values of a list of shapes. -/
def Shape.Vals : List Shape → Type
  | [] => Unit
  | field :: fields => field.Val × Shape.Vals fields

end

/-! ## The packet class -/

/-- A dynamic buffer wrapper for serializing and deserializing data. -/
structure Packet where
  messageId : UInt16 := 0x0
  flag : Flag := Flag.kUnreliable
  channelId : UInt8 := 0
  buffer : ByteBuffer := []
  readPosition : ℕ := 0
deriving DecidableEq, Repr

namespace Packet

/-- A packet with an empty payload. -/
def new (id : UInt16) (flag : Flag := Flag.kUnreliable) (channelId : UInt8 := 0) : Packet where
  messageId := id
  flag := flag
  channelId := channelId

/-- Replaces the payload and rewinds the read position. -/
def setPayload (p : Packet) (data : ByteBuffer) : Packet :=
  { p with buffer := data, readPosition := 0 }

/-- Pushes raw data to the buffer. -/
def append (p : Packet) (data : ByteBuffer) : Packet :=
  { p with buffer := p.buffer ++ data }

/-! ### Writing -/

/-- Writes an arithmetic or enumeration value. -/
def writeScalar {n : ℕ} (p : Packet) (data : BitVec (8 * n)) : Packet :=
  p.append (ByteOrder.bytes (Endian.swap data))

/-- Writes a length cast to `uint16_t`. -/
def writeSize (p : Packet) (size : ℕ) : Packet :=
  p.writeScalar (n := 2) (BitVec.ofNat 16 size)

mutual

/-- The overload of `operator<<` selected for a shape. -/
def write : (s : Shape) → s.Val → Packet → Except String Packet
  | .scalar _, (data : BitVec _), p => .ok (p.writeScalar data)
  | .bool, (data : Bool), p => .ok (p.append [if data then 1 else 0])
  | .string, (str : List UInt8), p =>
      -- the prefix is truncated, and only that many characters are appended
      let size := str.length % 2 ^ 16
      .ok ((p.writeSize size).append (str.take size))
  | .vector element, (data : List element.Val), p =>
      if data.length > 65535 then
        .error "Vector is too large to serialize (limit is 65535)"
      else
        data.foldlM (fun p item => write element item p) (p.writeSize data.length)
  | .deque element, (data : List element.Val), p =>
      if data.length > 65535 then
        .error "Deque is too large to serialize (limit is 65535)"
      else
        data.foldlM (fun p item => write element item p) (p.writeSize data.length)
  | .struct fields, data, p => writeFields fields data p

/-- Values written one after another, as a `serialize` function does with its
fields and a caller does with `<<`. -/
def writeFields : (fields : List Shape) → Shape.Vals fields → Packet → Except String Packet
  | [], _, p => .ok p
  | field :: fields, (data, rest), p => do
      let p ← write field data p
      writeFields fields rest p

end

/-! ### Reading -/

/-- A read either returns a value or throws, and leaves a packet in both cases. -/
abbrev Reader := EStateM String Packet

/-- Reads an arithmetic or enumeration value. -/
def readScalar (n : ℕ) : Reader (BitVec (8 * n)) := fun p =>
  if p.readPosition + n > p.buffer.length then
    .error "Packet Underflow" p
  else
    let networkData := ByteOrder.ofBytes n ((p.buffer.drop p.readPosition).take n)
    .ok (Endian.swap networkData) { p with readPosition := p.readPosition + n }

/-- Reads a `bool`. -/
def readBool : Reader Bool := do
  let data ← readScalar 1
  return data != 0

/-- Reads a 16-bit length. -/
def readSize : Reader ℕ := do
  let size ← readScalar 2
  return size.toNat

/-- Reads a given number of raw bytes. -/
def readBytes (size : ℕ) : Reader ByteBuffer := fun p =>
  if p.readPosition + size > p.buffer.length then
    .error "Packet Underflow" p
  else
    .ok ((p.buffer.drop p.readPosition).take size) { p with readPosition := p.readPosition + size }

/-- Reads the elements of a container that was resized to `size`. -/
def readMany {α : Type} (read : Reader α) : (size : ℕ) → Reader (List α)
  | 0 => return []
  | size + 1 => do
      let item ← read
      let items ← readMany read size
      return item :: items

mutual

/-- The overload of `operator>>` selected for a shape. -/
def read : (s : Shape) → Reader s.Val
  | .scalar size => readScalar size
  | .bool => readBool
  | .string => do
      let size ← readSize
      readBytes size
  | .vector element => do
      let size ← readSize
      readMany (read element) size
  | .deque element => do
      let size ← readSize
      readMany (read element) size
  | .struct fields => readFields fields

/-- Values read one after another. -/
def readFields : (fields : List Shape) → Reader (Shape.Vals fields)
  | [] => return ()
  | field :: fields => do
      let data ← read field
      let rest ← readFields fields
      return (data, rest)

end

end Packet

end Rtype.Rtnt
