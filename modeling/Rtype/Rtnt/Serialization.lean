import Rtype.Rtnt.Packet

/-!
# rtnt - Serialization round trip

The writers and the readers of a packet are separate overload sets.  This file
gives the wire form of a value as one function of its shape, proves that the
writers append it and that the readers consume exactly it, and composes the two
directions for any list of values.

Main results:

- Theorems {lit}`write_eq` and {lit}`writeFields_eq`: a writer appends the wire
  form of a value whose lengths fit their 16-bit prefixes.
- Theorems {lit}`read_consumes` and {lit}`readFields_consumes`: a reader that
  finds the wire form of a value at the read position returns that value and
  moves past it.
- Theorem {lit}`readFields_writeFields`: values written one after another into a
  fresh packet are read back unchanged.

Current gaps:

- None for values within the length limits.
-/

namespace Rtype.Rtnt

open ByteOrder

/-! ## The wire form of a value -/

/-- A 16-bit length in network order. -/
def encodeSize (size : ℕ) : List UInt8 :=
  (bytes (n := 2) (BitVec.ofNat 16 size)).reverse

mutual

/-- The bytes that stand for a value on the wire. -/
def Shape.encode : (s : Shape) → s.Val → List UInt8
  | .scalar _, (data : BitVec _) => (bytes data).reverse
  | .bool, (data : Bool) => [if data then 1 else 0]
  | .string, (str : List UInt8) => encodeSize str.length ++ str
  | .vector element, (data : List element.Val) =>
      encodeSize data.length ++ data.flatMap fun item => element.encode item
  | .deque element, (data : List element.Val) =>
      encodeSize data.length ++ data.flatMap fun item => element.encode item
  | .struct fields, data => Shape.encodeFields fields data

/-- The wire forms of a tuple of values, one after another. -/
def Shape.encodeFields : (fields : List Shape) → Shape.Vals fields → List UInt8
  | [], _ => []
  | field :: fields, (data, rest) => field.encode data ++ Shape.encodeFields fields rest

end

mutual

/-- Every string, vector and deque inside the value is short enough for its
16-bit length prefix. -/
def Shape.Fits : (s : Shape) → s.Val → Prop
  | .scalar _, _ => True
  | .bool, _ => True
  | .string, (str : List UInt8) => str.length ≤ 65535
  | .vector element, (data : List element.Val) =>
      data.length ≤ 65535 ∧ ∀ item ∈ data, element.Fits item
  | .deque element, (data : List element.Val) =>
      data.length ≤ 65535 ∧ ∀ item ∈ data, element.Fits item
  | .struct fields, data => Shape.FitsFields fields data

/-- Every value of a tuple fits. -/
def Shape.FitsFields : (fields : List Shape) → Shape.Vals fields → Prop
  | [], _ => True
  | field :: fields, (data, rest) => field.Fits data ∧ Shape.FitsFields fields rest

end

@[simp]
theorem length_encodeSize (size : ℕ) : (encodeSize size).length = 2 := by
  simp [encodeSize]

/-- A loop that appends the wire form of each item appends their concatenation, to whatever
kind of buffer. -/
theorem foldlM_append_eq {σ α : Type} {append : σ → List UInt8 → σ}
    (happend_nil : ∀ s, append s [] = s)
    (happend_append : ∀ s xs ys, append (append s xs) ys = append s (xs ++ ys))
    {write : σ → α → Except String σ} {encode : α → List UInt8} {items : List α}
    (hwrite : ∀ item ∈ items, ∀ s, write s item = .ok (append s (encode item))) (s : σ) :
    items.foldlM write s = .ok (append s (items.flatMap encode)) := by
  induction items generalizing s with
  | nil =>
      rw [List.foldlM_nil, List.flatMap_nil, happend_nil]
      rfl
  | cons item items ih =>
      have hrest : ∀ i ∈ items, ∀ s, write s i = .ok (append s (encode i)) :=
        fun i hi => hwrite i (List.mem_cons_of_mem item hi)
      rw [List.foldlM_cons, hwrite item List.mem_cons_self s]
      change items.foldlM write (append s (encode item)) = _
      rw [ih hrest, happend_append, List.flatMap_cons]

namespace Packet

/-! ## Writers append the wire form -/

@[simp]
theorem append_append (p : Packet) (xs ys : List UInt8) :
    (p.append xs).append ys = p.append (xs ++ ys) := by
  simp [append]

@[simp]
theorem append_nil (p : Packet) : p.append [] = p := by
  simp [append]

theorem writeScalar_eq {n : ℕ} (p : Packet) (data : BitVec (8 * n)) :
    p.writeScalar data = p.append (bytes data).reverse := by
  rw [writeScalar, Endian.bytes_swap]

theorem writeSize_eq (p : Packet) (size : ℕ) :
    p.writeSize size = p.append (encodeSize size) :=
  writeScalar_eq p _

theorem foldlM_write_eq {α : Type} {write : Packet → α → Except String Packet}
    {encode : α → List UInt8} {items : List α}
    (hwrite : ∀ item ∈ items, ∀ p, write p item = .ok (p.append (encode item)))
    (p : Packet) : items.foldlM write p = .ok (p.append (items.flatMap encode)) :=
  foldlM_append_eq append_nil append_append hwrite p

mutual

/-- A writer appends the wire form of every value that fits. -/
theorem write_eq : ∀ (s : Shape) (data : s.Val), s.Fits data → ∀ p : Packet,
    write s data p = .ok (p.append (s.encode data))
  | .scalar size, (data : BitVec (8 * size)), _, p => by
      rw [write, Shape.encode, writeScalar_eq]
  | .bool, (data : Bool), _, p => by
      rw [write, Shape.encode]
  | .string, (str : List UInt8), hfits, p => by
      have hlen : str.length % 2 ^ 16 = str.length := by
        rw [Shape.Fits] at hfits
        omega
      rw [write, Shape.encode, writeSize_eq, append_append, hlen]
      simp
  | .vector element, (data : List element.Val), hfits, p => by
      rw [Shape.Fits] at hfits
      have hitems : ∀ item ∈ data, ∀ p, write element item p = .ok (p.append (element.encode item)) :=
        fun item hitem => write_eq element item (hfits.2 item hitem)
      rw [write, Shape.encode, if_neg (by omega), foldlM_write_eq hitems, writeSize_eq,
        append_append]
  | .deque element, (data : List element.Val), hfits, p => by
      rw [Shape.Fits] at hfits
      have hitems : ∀ item ∈ data, ∀ p, write element item p = .ok (p.append (element.encode item)) :=
        fun item hitem => write_eq element item (hfits.2 item hitem)
      rw [write, Shape.encode, if_neg (by omega), foldlM_write_eq hitems, writeSize_eq,
        append_append]
  | .struct fields, data, hfits, p => by
      rw [Shape.Fits] at hfits
      rw [write, Shape.encode, writeFields_eq fields data hfits p]

/-- Fields are written one after another. -/
theorem writeFields_eq : ∀ (fields : List Shape) (data : Shape.Vals fields),
    Shape.FitsFields fields data → ∀ p : Packet,
    writeFields fields data p = .ok (p.append (Shape.encodeFields fields data))
  | [], _, _, p => by
      rw [writeFields, Shape.encodeFields, append_nil]
  | field :: fields, (data, rest), hfits, p => by
      rw [Shape.FitsFields] at hfits
      rw [writeFields, write_eq field data hfits.1 p]
      change writeFields fields rest (p.append (field.encode data)) = _
      rw [writeFields_eq fields rest hfits.2, append_append, Shape.encodeFields]

end

/-! ## Readers consume the wire form -/

/-- The bytes from the read position on. -/
def unread (p : Packet) : List UInt8 :=
  p.buffer.drop p.readPosition

/-- Moves the read position forward. -/
def advance (p : Packet) (count : ℕ) : Packet :=
  { p with readPosition := p.readPosition + count }

@[simp]
theorem advance_zero (p : Packet) : p.advance 0 = p := rfl

@[simp]
theorem advance_advance (p : Packet) (m n : ℕ) :
    (p.advance m).advance n = p.advance (m + n) := by
  simp [advance, Nat.add_assoc]

/-- Moving past the front of the unread bytes leaves their tail unread. -/
theorem unread_advance {p : Packet} {xs ys : List UInt8} (h : p.unread = xs ++ ys) :
    (p.advance xs.length).unread = ys := by
  rw [unread, advance, ← List.drop_drop]
  rw [unread] at h
  rw [h, List.drop_left]

/-- The read position lies inside the buffer. -/
def InBounds (p : Packet) : Prop :=
  p.readPosition ≤ p.buffer.length

/-- The unread bytes end where the buffer does. -/
theorem InBounds.length_eq {p : Packet} (hp : p.InBounds) {xs ys : List UInt8}
    (h : p.unread = xs ++ ys) :
    p.readPosition + xs.length + ys.length = p.buffer.length := by
  have hlen := congrArg List.length h
  rw [unread, List.length_drop, List.length_append] at hlen
  rw [InBounds] at hp
  omega

theorem InBounds.advance {p : Packet} (hp : p.InBounds) {xs ys : List UInt8}
    (h : p.unread = xs ++ ys) : (p.advance xs.length).InBounds := by
  have hlen := hp.length_eq h
  change p.readPosition + xs.length ≤ p.buffer.length
  omega

/-- A reader consumes `bs` into `a` when, at any position from which `bs` is
unread, it returns `a` and moves past `bs`. -/
def Consumes {α : Type} (reader : Reader α) (bs : List UInt8) (a : α) : Prop :=
  ∀ (p : Packet) (rest : List UInt8), p.InBounds → p.unread = bs ++ rest →
    reader p = .ok a (p.advance bs.length)

theorem Consumes.pure {α : Type} (a : α) : Consumes (Pure.pure a) [] a :=
  fun _ _ _ _ => rfl

/-- Readers in sequence consume the concatenation of what each consumes. -/
theorem Consumes.bind {α β : Type} {reader : Reader α} {next : α → Reader β}
    {bs cs : List UInt8} {a : α} {b : β} (hfirst : Consumes reader bs a)
    (hnext : Consumes (next a) cs b) : Consumes (reader >>= next) (bs ++ cs) b := by
  intro p rest hp hunread
  rw [List.append_assoc] at hunread
  have h₁ : reader p = .ok a (p.advance bs.length) := hfirst p (cs ++ rest) hp hunread
  have h₂ := hnext (p.advance bs.length) rest (hp.advance hunread) (unread_advance hunread)
  change EStateM.bind reader next p = _
  rw [EStateM.bind, h₁]
  simp only [h₂, advance_advance, List.length_append]

/-- A reader followed by a function of its result consumes the same bytes. -/
theorem Consumes.map {α β : Type} {reader : Reader α} {bs : List UInt8} {a : α}
    (hfirst : Consumes reader bs a) (f : α → β) :
    Consumes (reader >>= fun x => Pure.pure (f x)) bs (f a) := by
  have h : Consumes (reader >>= fun x => Pure.pure (f x)) (bs ++ []) (f a) :=
    hfirst.bind (Consumes.pure (f a))
  rwa [List.append_nil] at h

/-- Raw bytes are read as they stand. -/
theorem readBytes_consumes (bs : List UInt8) : Consumes (readBytes bs.length) bs bs := by
  intro p rest hp hunread
  have hlen := hp.length_eq hunread
  have htake : (p.buffer.drop p.readPosition).take bs.length = bs := by
    rw [← unread, hunread, List.take_left]
  rw [readBytes, if_neg (by omega), htake]
  rfl

/-- An arithmetic value is read from its bytes in network order. -/
theorem readScalar_consumes {n : ℕ} (data : BitVec (8 * n)) :
    Consumes (readScalar n) (bytes data).reverse data := by
  intro p rest hp hunread
  have hlen := hp.length_eq hunread
  rw [List.length_reverse, length_bytes] at hlen
  have htake : (p.buffer.drop p.readPosition).take n = (bytes data).reverse := by
    rw [← unread, hunread]
    exact List.take_left' (by simp)
  rw [readScalar, if_neg (by omega), htake, ← Endian.bytes_swap, ofBytes_bytes]
  simp only [Endian.swap_swap, length_bytes]
  rfl

theorem readBool_consumes (data : Bool) :
    Consumes readBool [if data then 1 else 0] data := by
  have h := (readScalar_consumes (n := 1) (if data then 1 else 0)).map fun x => x != 0
  cases data <;> exact h

/-- A length below `2 ^ 16` survives its prefix. -/
theorem readSize_consumes {size : ℕ} (hsize : size ≤ 65535) :
    Consumes readSize (encodeSize size) size := by
  have h := (readScalar_consumes (n := 2) (BitVec.ofNat 16 size)).map fun x => x.toNat
  have hnat : (BitVec.ofNat 16 size).toNat = size := by
    rw [BitVec.toNat_ofNat]
    omega
  rw [hnat] at h
  exact h

/-- The element loop consumes the elements' wire forms in order. -/
theorem readMany_consumes {α : Type} {reader : Reader α} {encode : α → List UInt8}
    {items : List α} (hitem : ∀ item ∈ items, Consumes reader (encode item) item) :
    Consumes (readMany reader items.length) (items.flatMap encode) items := by
  induction items with
  | nil => exact Consumes.pure []
  | cons item items ih =>
      have hrest : ∀ i ∈ items, Consumes reader (encode i) i :=
        fun i hi => hitem i (List.mem_cons_of_mem item hi)
      rw [List.length_cons, readMany, List.flatMap_cons]
      exact (hitem item List.mem_cons_self).bind ((ih hrest).map (item :: ·))

/-- A length-prefixed container is read from its prefix and its elements. -/
theorem readContainer_consumes {α : Type} {reader : Reader α} {encode : α → List UInt8}
    {items : List α} (hlen : items.length ≤ 65535)
    (hitem : ∀ item ∈ items, Consumes reader (encode item) item) :
    Consumes (do let size ← readSize; readMany reader size)
      (encodeSize items.length ++ items.flatMap encode) items :=
  (readSize_consumes hlen).bind (readMany_consumes hitem)

mutual

/-- A reader consumes the wire form of every value that fits. -/
theorem read_consumes : ∀ (s : Shape) (data : s.Val), s.Fits data →
    Consumes (read s) (s.encode data) data
  | .scalar size, (data : BitVec (8 * size)), _ => by
      rw [read, Shape.encode]
      exact readScalar_consumes data
  | .bool, (data : Bool), _ => by
      rw [read, Shape.encode]
      exact readBool_consumes data
  | .string, (str : List UInt8), hfits => by
      rw [Shape.Fits] at hfits
      rw [read, Shape.encode]
      exact (readSize_consumes hfits).bind (readBytes_consumes str)
  | .vector element, (data : List element.Val), hfits => by
      rw [Shape.Fits] at hfits
      rw [read, Shape.encode]
      exact readContainer_consumes hfits.1
        fun item hitem => read_consumes element item (hfits.2 item hitem)
  | .deque element, (data : List element.Val), hfits => by
      rw [Shape.Fits] at hfits
      rw [read, Shape.encode]
      exact readContainer_consumes hfits.1
        fun item hitem => read_consumes element item (hfits.2 item hitem)
  | .struct fields, data, hfits => by
      rw [Shape.Fits] at hfits
      rw [read, Shape.encode]
      exact readFields_consumes fields data hfits

/-- Fields are read one after another. -/
theorem readFields_consumes : ∀ (fields : List Shape) (data : Shape.Vals fields),
    Shape.FitsFields fields data →
    Consumes (readFields fields) (Shape.encodeFields fields data) data
  | [], _, _ => by
      rw [readFields, Shape.encodeFields]
      exact Consumes.pure ()
  | field :: fields, (data, rest), hfits => by
      rw [Shape.FitsFields] at hfits
      rw [readFields, Shape.encodeFields]
      exact (read_consumes field data hfits.1).bind
        ((readFields_consumes fields rest hfits.2).map (data, ·))

end

/-! ## The round trip -/

/-- Values written one after another into a fresh packet are read back in the
same order, and the read position ends at the end of the buffer. -/
theorem readFields_writeFields (shapes : List Shape) (data : Shape.Vals shapes)
    (hfits : Shape.FitsFields shapes data) (id : UInt16) (flag : Flag) (channelId : UInt8) :
    ∃ p, writeFields shapes data (Packet.new id flag channelId) = .ok p ∧
      readFields shapes p = .ok data { p with readPosition := p.buffer.length } := by
  let p := (Packet.new id flag channelId).append (Shape.encodeFields shapes data)
  have hbuffer : p.buffer = Shape.encodeFields shapes data := by
    simp [p, append, new]
  have hunread : p.unread = Shape.encodeFields shapes data ++ [] := by
    simp [p, unread, append, new]
  have hread := readFields_consumes shapes data hfits p [] (Nat.zero_le _) hunread
  refine ⟨p, writeFields_eq shapes data hfits _, ?_⟩
  rw [hread, hbuffer]
  simp [advance, p, append, new]

/-- The round trip for a string, a vector of structs and a deque of numbers. -/
theorem readFields_writeFields_nested :
    ∃ p, writeFields [.string, .vector (.struct [.scalar 4, .bool]), .deque (.scalar 2)]
        ([104, 105], [(5#32, true, ()), (7#32, false, ())], [258#16], ()) (Packet.new 1001) = .ok p ∧
      readFields [.string, .vector (.struct [.scalar 4, .bool]), .deque (.scalar 2)] p =
        .ok ([104, 105], [(5#32, true, ()), (7#32, false, ())], [258#16], ())
          { p with readPosition := p.buffer.length } := by
  apply readFields_writeFields
  have hshort : 2 ≤ 65535 ∧ 1 ≤ 65535 := by decide
  exact ⟨hshort.1, ⟨hshort.1, fun _ _ => ⟨trivial, trivial, trivial⟩⟩,
    ⟨hshort.2, fun _ _ => trivial⟩, trivial⟩

/-! ## What readers depend on -/

/-- The two packets have the same payload and read position. -/
structure SameData (p q : Packet) : Prop where
  buffer_eq : p.buffer = q.buffer
  readPosition_eq : p.readPosition = q.readPosition

/-- The same value or the same text of an exception. -/
def SameResult {α : Type} : EStateM.Result String Packet α → EStateM.Result String Packet α → Prop
  | .ok a p, .ok b q => a = b ∧ SameData p q
  | .error e p, .error f q => e = f ∧ SameData p q
  | _, _ => False

/-- The reader looks at the payload and the read position only. -/
def Oblivious {α : Type} (reader : Reader α) : Prop :=
  ∀ p q, SameData p q → SameResult (reader p) (reader q)

theorem Oblivious.pure {α : Type} (a : α) : Oblivious (Pure.pure a) :=
  fun _ _ h => ⟨rfl, h⟩

theorem Oblivious.bind {α β : Type} {reader : Reader α} {next : α → Reader β}
    (hreader : Oblivious reader) (hnext : ∀ a, Oblivious (next a)) :
    Oblivious (reader >>= next) := by
  intro p q h
  have hresult := hreader p q h
  change SameResult (EStateM.bind reader next p) (EStateM.bind reader next q)
  unfold EStateM.bind
  cases hp : reader p with
  | ok a p' =>
      cases hq : reader q with
      | ok b q' =>
          rw [hp, hq] at hresult
          rw [← hresult.1]
          exact hnext a p' q' hresult.2
      | error f q' =>
          rw [hp, hq] at hresult
          exact hresult.elim
  | error e p' =>
      cases hq : reader q with
      | ok b q' =>
          rw [hp, hq] at hresult
          exact hresult.elim
      | error f q' =>
          rw [hp, hq] at hresult
          exact hresult

theorem readScalar_oblivious (n : ℕ) : Oblivious (readScalar n) := by
  intro p q h
  simp only [readScalar, h.buffer_eq, h.readPosition_eq]
  split_ifs
  · exact ⟨rfl, h⟩
  · exact ⟨rfl, rfl, rfl⟩

theorem readBytes_oblivious (size : ℕ) : Oblivious (readBytes size) := by
  intro p q h
  simp only [readBytes, h.buffer_eq, h.readPosition_eq]
  split_ifs
  · exact ⟨rfl, h⟩
  · exact ⟨rfl, rfl, rfl⟩

theorem readSize_oblivious : Oblivious readSize :=
  (readScalar_oblivious 2).bind fun size => Oblivious.pure size.toNat

theorem readMany_oblivious {α : Type} {reader : Reader α} (hreader : Oblivious reader)
    (size : ℕ) : Oblivious (readMany reader size) := by
  induction size with
  | zero => exact Oblivious.pure []
  | succ size ih =>
      exact hreader.bind fun item => ih.bind fun items => Oblivious.pure (item :: items)

mutual

/-- What is read does not depend on the message id, the flag or the channel. -/
theorem read_oblivious : ∀ s : Shape, Oblivious (read s)
  | .scalar size => by
      rw [read]
      exact readScalar_oblivious size
  | .bool => by
      rw [read]
      exact (readScalar_oblivious 1).bind fun data => Oblivious.pure (data != 0)
  | .string => by
      rw [read]
      exact readSize_oblivious.bind fun size => readBytes_oblivious size
  | .vector element => by
      rw [read]
      exact readSize_oblivious.bind fun size => readMany_oblivious (read_oblivious element) size
  | .deque element => by
      rw [read]
      exact readSize_oblivious.bind fun size => readMany_oblivious (read_oblivious element) size
  | .struct fields => by
      rw [read]
      exact readFields_oblivious fields

/-- The same for values read one after another. -/
theorem readFields_oblivious : ∀ fields : List Shape, Oblivious (readFields fields)
  | [] => by
      rw [readFields]
      exact Oblivious.pure ()
  | field :: fields => by
      rw [readFields]
      exact (read_oblivious field).bind fun data =>
        (readFields_oblivious fields).bind fun rest => Oblivious.pure (data, rest)

end

end Packet

end Rtype.Rtnt
