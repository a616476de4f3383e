import Rtype.Rtnt.Serialization

/-!
# Rteng - The content of an entity

An entity is written for the network into a buffer of its own, with a second set of
writers.  A packet is what reads it back, so the two sets of operators have to agree on
the wire form of every value.

Main results:

- Theorem {lit}`EntityContent.write_agree`: whatever was written before and whether the
  lengths fit or not, the two sets of writers append the same bytes, or they both throw.
- Theorem {lit}`EntityContent.write_eq`: the writers append the wire form that the readers
  of a packet consume.
- Theorem {lit}`EntityContent.encoders_agree`: the writers agree on every value, and what
  they write is readable when it fits.

Current gaps:

- None.
-/

namespace Rtype.Rteng

open Rtype.Rtnt (Shape Packet Endian.nativeIsBig Endian.bytes_swap encodeSize)

mutual

/-- The shapes for which {lit}`EntityContent` has a writer: there is none for a deque. -/
def Writable : Shape → Prop
  | .scalar _ => True
  | .bool => True
  | .string => True
  | .vector element => Writable element
  | .deque _ => False
  | .struct fields => WritableFields fields

/-- Every shape of a list has a writer. -/
def WritableFields : List Shape → Prop
  | [] => True
  | field :: fields => Writable field ∧ WritableFields fields

end

/-- {lit}`EntityContent`. -/
structure EntityContent where
  buffer : List UInt8 := []

namespace EntityContent

/-! ## Writing -/

/-- {lit}`EntityContent::append`. -/
def append (content : EntityContent) (data : List UInt8) : EntityContent :=
  { buffer := content.buffer ++ data }

/-- The function {lit}`swap` of {lit}`EntityContent.hpp`. -/
def swap {n : ℕ} (value : BitVec (8 * n)) : BitVec (8 * n) :=
  if n = 1 then value
  else if Endian.nativeIsBig then value
  else ByteOrder.reverseBytes value

/-- Writes an arithmetic or enumeration value. -/
def writeScalar {n : ℕ} (content : EntityContent) (data : BitVec (8 * n)) : EntityContent :=
  content.append (ByteOrder.bytes (swap data))

/-- Writes a length cast to {lit}`uint16_t`. -/
def writeSize (content : EntityContent) (size : ℕ) : EntityContent :=
  content.writeScalar (n := 2) (BitVec.ofNat 16 size)

mutual

/-- The overload of {lit}`operator<<` selected for a shape. -/
def write : (s : Shape) → s.Val → EntityContent → Except String EntityContent
  | .scalar _, (data : BitVec _), content => .ok (content.writeScalar data)
  | .bool, (data : Bool), content => .ok (content.append [if data then 1 else 0])
  | .string, (str : List UInt8), content =>
      -- the prefix is truncated, and only that many characters are appended
      let size := str.length % 2 ^ 16
      .ok ((content.writeSize size).append (str.take size))
  | .vector element, (data : List element.Val), content =>
      if data.length > 65535 then
        .error "Vector is too large to serialize (limit 65535)"
      else
        data.foldlM (fun content item => write element item content)
          (content.writeSize data.length)
  | .deque _, _, _ => .error "no overload: the program does not compile"
  | .struct fields, data, content => writeFields fields data content

/-- The fields that a {lit}`serialize` function lists. -/
def writeFields : (fields : List Shape) → Shape.Vals fields → EntityContent →
    Except String EntityContent
  | [], _, content => .ok content
  | field :: fields, (data, rest), content => do
      let content ← write field data content
      writeFields fields rest content

end

/-! ## The wire form -/

@[simp]
theorem append_append (content : EntityContent) (xs ys : List UInt8) :
    (content.append xs).append ys = content.append (xs ++ ys) := by
  simp [append]

@[simp]
theorem append_nil (content : EntityContent) : content.append [] = content := by
  simp [append]

theorem writeScalar_eq {n : ℕ} (content : EntityContent) (data : BitVec (8 * n)) :
    content.writeScalar data = content.append (ByteOrder.bytes data).reverse :=
  congrArg content.append (Endian.bytes_swap data)

theorem writeSize_eq (content : EntityContent) (size : ℕ) :
    content.writeSize size = content.append (encodeSize size) :=
  writeScalar_eq content _

theorem foldlM_write_eq {α : Type} {write : EntityContent → α → Except String EntityContent}
    {encode : α → List UInt8} {items : List α}
    (hwrite : ∀ item ∈ items, ∀ content, write content item = .ok (content.append (encode item)))
    (content : EntityContent) :
    items.foldlM write content = .ok (content.append (items.flatMap encode)) :=
  Rtnt.foldlM_append_eq append_nil append_append hwrite content

/-! ## Agreement -/

/-- Starting from this content and this packet, both results have the same bytes more, or
both are exceptions. -/
def Agree (content : EntityContent) (p : Packet) :
    Except String EntityContent → Except String Packet → Prop
  | .ok content', .ok p' => ∃ bs, content' = content.append bs ∧ p' = p.append bs
  | .error _, .error _ => True
  | .ok _, .error _ => False
  | .error _, .ok _ => False

theorem agree_append (content : EntityContent) (p : Packet) (bs : List UInt8) :
    Agree content p (.ok (content.append bs)) (.ok (p.append bs)) :=
  ⟨bs, rfl, rfl⟩

theorem agree_same (content : EntityContent) (p : Packet) :
    Agree content p (.ok content) (.ok p) :=
  ⟨[], (append_nil content).symm, (Packet.append_nil p).symm⟩

/-- What is agreed on after the same bytes is agreed on before them. -/
theorem Agree.of_append {content : EntityContent} {p : Packet} {bs : List UInt8}
    {r : Except String EntityContent} {r' : Except String Packet}
    (h : Agree (content.append bs) (p.append bs) r r') : Agree content p r r' := by
  cases r with
  | ok content' =>
      cases r' with
      | ok p' =>
          rcases h with ⟨cs, rfl, rfl⟩
          exact ⟨bs ++ cs, append_append content bs cs, Packet.append_append p bs cs⟩
      | error e => exact h
  | error e =>
      cases r' with
      | ok p' => exact h
      | error e' => exact h

/-- Two writers one after another agree when the first ones and the second ones do. -/
theorem Agree.bind {content : EntityContent} {p : Packet} {r : Except String EntityContent}
    {r' : Except String Packet} {next : EntityContent → Except String EntityContent}
    {next' : Packet → Except String Packet} (h : Agree content p r r')
    (hnext : ∀ content p, Agree content p (next content) (next' p)) :
    Agree content p (r >>= next) (r' >>= next') := by
  cases r with
  | ok content' =>
      cases r' with
      | ok p' =>
          rcases h with ⟨bs, rfl, rfl⟩
          exact (hnext (content.append bs) (p.append bs)).of_append
      | error e => exact h.elim
  | error e =>
      cases r' with
      | ok p' => exact h.elim
      | error e' => exact h

/-- Loops over the same items agree when their bodies do. -/
theorem foldlM_agree {α : Type} {write : EntityContent → α → Except String EntityContent}
    {write' : Packet → α → Except String Packet} {items : List α}
    (h : ∀ item ∈ items, ∀ content p, Agree content p (write content item) (write' p item))
    (content : EntityContent) (p : Packet) :
    Agree content p (items.foldlM write content) (items.foldlM write' p) := by
  induction items generalizing content p with
  | nil => exact agree_same content p
  | cons item items ih =>
      rw [List.foldlM_cons, List.foldlM_cons]
      apply (h item List.mem_cons_self content p).bind
      intro content' p'
      exact ih (fun i hi => h i (List.mem_cons_of_mem item hi)) content' p'

/-! ## The writers -/

mutual

/-- The writers of a shape agree on each of its values, too long ones included. -/
theorem write_agree : ∀ (s : Shape) (data : s.Val), Writable s →
    ∀ (content : EntityContent) (p : Packet),
      Agree content p (write s data content) (Packet.write s data p)
  | .scalar size, (data : BitVec (8 * size)), _, content, p => by
      rw [write, Packet.write, writeScalar_eq, Packet.writeScalar_eq]
      exact agree_append content p _
  | .bool, (data : Bool), _, content, p => by
      rw [write, Packet.write]
      exact agree_append content p _
  | .string, (str : List UInt8), _, content, p => by
      -- both cut the string where the prefix wraps around
      rw [write, Packet.write, writeSize_eq, Packet.writeSize_eq, append_append,
        Packet.append_append]
      exact agree_append content p _
  | .vector element, (data : List element.Val), hwritable, content, p => by
      rw [Writable] at hwritable
      rw [write, Packet.write, writeSize_eq, Packet.writeSize_eq]
      split_ifs with hlong
      · trivial
      · exact (foldlM_agree (fun item _ => write_agree element item hwritable) _ _).of_append
  | .deque element, _, hwritable, _, _ => by
      rw [Writable] at hwritable
      exact hwritable.elim
  | .struct fields, data, hwritable, content, p => by
      rw [Writable] at hwritable
      rw [write, Packet.write]
      exact writeFields_agree fields data hwritable content p

/-- The writers of the fields of a struct agree. -/
theorem writeFields_agree : ∀ (fields : List Shape) (data : Shape.Vals fields),
    WritableFields fields → ∀ (content : EntityContent) (p : Packet),
      Agree content p (writeFields fields data content) (Packet.writeFields fields data p)
  | [], _, _, content, p => by
      rw [writeFields, Packet.writeFields]
      exact agree_same content p
  | field :: fields, (data, rest), hwritable, content, p => by
      rw [WritableFields] at hwritable
      rw [writeFields, Packet.writeFields]
      apply (write_agree field data hwritable.1 content p).bind
      exact writeFields_agree fields rest hwritable.2

end

/-- A writer appends the wire form of every value that fits: the writer of a packet does. -/
theorem write_eq (s : Shape) (data : s.Val) (hwritable : Writable s) (hfits : s.Fits data)
    (content : EntityContent) : write s data content = .ok (content.append (s.encode data)) := by
  have hagree := write_agree s data hwritable content (Packet.new 0)
  rw [Packet.write_eq s data hfits (Packet.new 0)] at hagree
  cases hwrite : write s data content with
  | error e =>
      rw [hwrite] at hagree
      exact hagree.elim
  | ok content' =>
      rw [hwrite] at hagree
      rcases hagree with ⟨bs, rfl, hbuffer⟩
      have hbytes : s.encode data = bs :=
        List.append_cancel_left (congrArg Packet.buffer hbuffer)
      rw [hbytes]

/-- What is written for a value that fits is read back by the readers of a packet. -/
theorem read_write {s : Shape} {data : s.Val} (hwritable : Writable s) (hfits : s.Fits data) :
    ∃ content p, write s data {} = .ok content ∧
      Packet.read s { buffer := content.buffer } = .ok data p := by
  have hwrite := write_eq s data hwritable hfits {}
  have hunread : Packet.unread { buffer := s.encode data } = s.encode data ++ [] := by
    rw [List.append_nil]
    rfl
  have hread := Packet.read_consumes s data hfits { buffer := s.encode data } []
    (Nat.zero_le _) hunread
  exact ⟨_, _, hwrite, hread⟩

/-- On every value of a shape that {lit}`EntityContent` has writers for, the two encoders
append the same bytes or both throw, and what they append is readable when it fits. -/
theorem encoders_agree (s : Shape) (hwritable : Writable s) (data : s.Val) :
    (∀ (content : EntityContent) (p : Packet),
      Agree content p (write s data content) (Packet.write s data p)) ∧
    (s.Fits data → ∃ content p, write s data {} = .ok content ∧
      Packet.read s { buffer := content.buffer } = .ok data p) :=
  ⟨write_agree s data hwritable, read_write hwritable⟩

/-- The agreement on a struct with a vector of strings and a flag. -/
theorem encoders_agree_struct :
    (∀ (content : EntityContent) (p : Packet),
      Agree content p
        (write (.struct [.vector .string, .bool]) ([[104, 105], []], true, ()) content)
        (Packet.write (.struct [.vector .string, .bool]) ([[104, 105], []], true, ()) p)) ∧
    (Shape.Fits (.struct [.vector .string, .bool]) ([[104, 105], []], true, ()) →
      ∃ content p,
        write (.struct [.vector .string, .bool]) ([[104, 105], []], true, ()) {} = .ok content ∧
        Packet.read (.struct [.vector .string, .bool]) { buffer := content.buffer } =
          .ok ([[104, 105], []], true, ()) p) :=
  encoders_agree (.struct [.vector .string, .bool]) (by simp [Writable, WritableFields])
    ([[104, 105], []], true, ())

end EntityContent

end Rtype.Rteng
