import Rtype.Rtnt.Serialization

/-!
# rtnt - Reading untrusted payloads

A payload comes from the network, so a reader meets bytes that no writer has
produced.  This file shows that acceptance coincides with being an encoding: a
read succeeds exactly when the unread bytes begin with what the writers append
for some value, and then returns that value and moves past its bytes.  The
readers are also run on a memory that only answers inside the buffer, and never
get stuck there.

Main results:

- Theorem {lit}`Memory.read_eq`: the readers only copy bytes of the buffer.
- Theorem {lit}`read_sound`: what a read returns is encoded by the bytes that it
  moved past.
- Theorem {lit}`read_exact`: the behaviour of a read on any buffer, from any
  position.

Current gaps:

- {lit}`bool` is left out: C++ leaves bytes other than 0 and 1 undefined.
-/

namespace Rtype.Rtnt

open ByteOrder

mutual

/-- The shape is built without `bool`, and no scalar in it has size zero. -/
def Shape.Readable : Shape → Prop
  | .scalar size => 0 < size
  | .bool => False
  | .string => True
  | .vector element => element.Readable
  | .deque element => element.Readable
  | .struct fields => Shape.ReadableFields fields

/-- Every shape of a list is readable. -/
def Shape.ReadableFields : List Shape → Prop
  | [] => True
  | field :: fields => field.Readable ∧ Shape.ReadableFields fields

end

namespace Packet

/-- A scalar is read as raw bytes, which are then swapped. -/
theorem readBytes_swap (n : ℕ) :
    readScalar n =
      (readBytes n >>= fun networkData => return Endian.swap (ofBytes n networkData)) := by
  funext p
  change _ = EStateM.bind (readBytes n) _ p
  by_cases hbound : p.readPosition + n > p.buffer.length
  · simp only [readScalar, EStateM.bind, readBytes, hbound, if_true]
  · simp only [readScalar, EStateM.bind, readBytes, hbound, if_false]
    rfl

/-! ## Readers on a memory that ends with the buffer -/

namespace Memory

/-- A read on the memory of the machine.  It has no outcome when it touches a byte
outside the buffer, and else returns or throws. -/
abbrev Reader (α : Type) := Packet → Option (EStateM.Result String Packet α)

/-- A reader that touches no memory. -/
def lift {α : Type} (reader : Packet.Reader α) : Reader α :=
  fun p => some (reader p)

/-- Two reads in sequence; a throw of the first one ends both. -/
def andThen {α β : Type} (first : Reader α) (next : α → Reader β) : Reader β := fun p =>
  match first p with
  | none => none
  | some (.error e q) => some (.error e q)
  | some (.ok a q) => next a q

/-- `memcpy` and `std::string::assign`: copies bytes from the read position. -/
def copy (size : ℕ) : Reader (List UInt8) := fun p =>
  if p.readPosition + size ≤ p.buffer.length then
    some (.ok ((p.buffer.drop p.readPosition).take size) p)
  else none

/-- The bound check before a copy. -/
def check (size : ℕ) : Packet.Reader Unit := fun p =>
  if p.readPosition + size > p.buffer.length then .error "Packet Underflow" p else .ok () p

/-- Moves the read position forward. -/
def skip (size : ℕ) : Packet.Reader Unit :=
  fun p => .ok () { p with readPosition := p.readPosition + size }

/-- Checks, copies and moves forward, as the readers of scalars and strings do. -/
def readBytes (size : ℕ) : Reader (List UInt8) :=
  andThen (lift (check size)) fun _ =>
    andThen (copy size) fun data =>
      andThen (lift (skip size)) fun _ => lift (return data)

/-- Reads an arithmetic or enumeration value. -/
def readScalar (n : ℕ) : Reader (BitVec (8 * n)) :=
  andThen (readBytes n) fun networkData => lift (return Endian.swap (ofBytes n networkData))

/-- Reads a 16-bit length. -/
def readSize : Reader ℕ :=
  andThen (readScalar 2) fun size => lift (return size.toNat)

/-- Reads the elements of a container that was resized to `size`. -/
def readMany {α : Type} (read : Reader α) : (size : ℕ) → Reader (List α)
  | 0 => lift (return [])
  | size + 1 =>
      andThen read fun item =>
        andThen (readMany read size) fun items => lift (return item :: items)

mutual

/-- The overload of `operator>>` selected for a shape. -/
def read : (s : Shape) → Reader s.Val
  | .scalar size => readScalar size
  | .bool => andThen (readScalar 1) fun data => lift (return data != 0)
  | .string => andThen readSize fun size => readBytes size
  | .vector element => andThen readSize fun size => readMany (read element) size
  | .deque element => andThen readSize fun size => readMany (read element) size
  | .struct fields => readFields fields

/-- Values read one after another. -/
def readFields : (fields : List Shape) → Reader (Shape.Vals fields)
  | [] => lift (return ())
  | field :: fields =>
      andThen (read field) fun data =>
        andThen (readFields fields) fun rest => lift (return (data, rest))

end

/-- Sequencing commutes with the lifting of readers. -/
theorem andThen_lift {α β : Type} (first : Packet.Reader α) (next : α → Packet.Reader β) :
    andThen (lift first) (fun a => lift (next a)) = lift (first >>= next) := by
  funext p
  change _ = some (EStateM.bind first next p)
  unfold andThen lift EStateM.bind
  cases first p with
  | ok a q => rfl
  | error e q => rfl

/-- The bound check keeps the copy inside the buffer. -/
theorem readBytes_eq (size : ℕ) : readBytes size = lift (Packet.readBytes size) := by
  funext p
  by_cases hbound : p.readPosition + size > p.buffer.length
  · simp [readBytes, andThen, lift, check, Packet.readBytes, hbound]
  · have hcopy : p.readPosition + size ≤ p.buffer.length := by omega
    simp only [readBytes, andThen, lift, check, copy, skip, Packet.readBytes, hbound, hcopy,
      if_true, if_false]
    rfl

theorem readScalar_eq (n : ℕ) : readScalar n = lift (Packet.readScalar n) := by
  rw [readScalar, readBytes_eq, andThen_lift, ← readBytes_swap]

theorem readSize_eq : readSize = lift Packet.readSize := by
  rw [readSize, readScalar_eq, andThen_lift]
  rfl

theorem readMany_eq {α : Type} (reader : Packet.Reader α) (size : ℕ) :
    readMany (lift reader) size = lift (Packet.readMany reader size) := by
  induction size with
  | zero => rfl
  | succ size ih =>
      rw [readMany, ih]
      simp only [andThen_lift]
      rfl

mutual

/-- Whatever the bytes are, a reader copies bytes of the buffer only. -/
theorem read_eq : ∀ s : Shape, read s = lift (Packet.read s)
  | .scalar size => by
      rw [read, Packet.read]
      exact readScalar_eq size
  | .bool => by
      rw [read, Packet.read, readScalar_eq]
      exact andThen_lift _ _
  | .string => by
      rw [read, Packet.read, readSize_eq]
      simp only [readBytes_eq]
      exact andThen_lift _ _
  | .vector element => by
      rw [read, Packet.read, readSize_eq, read_eq element]
      simp only [readMany_eq]
      exact andThen_lift _ _
  | .deque element => by
      rw [read, Packet.read, readSize_eq, read_eq element]
      simp only [readMany_eq]
      exact andThen_lift _ _
  | .struct fields => by
      rw [read, Packet.read]
      exact readFields_eq fields

/-- The same for values read one after another. -/
theorem readFields_eq : ∀ fields : List Shape, readFields fields = lift (Packet.readFields fields)
  | [] => by
      rw [readFields, Packet.readFields]
  | field :: fields => by
      rw [readFields, Packet.readFields, read_eq field, readFields_eq fields]
      have hrest : ∀ data : field.Val,
          (andThen (lift (Packet.readFields fields)) fun rest => lift (return (data, rest))) =
            lift (Packet.readFields fields >>= fun rest => return (data, rest)) :=
        fun data => andThen_lift _ _
      have hnext := congrArg (andThen (lift (Packet.read field))) (funext hrest)
      exact hnext.trans (andThen_lift _ _)

end

end Memory

/-! ## What a read returns is what was there -/

/-- Wherever it starts, the reader moves forward inside the unread bytes, and what
it returns stands for the bytes that it moved past. -/
def Sound {α : Type} (reader : Reader α) (StandsFor : α → List UInt8 → Prop) : Prop :=
  ∀ p, match reader p with
    | .ok a q => ∃ bs rest, p.unread = bs ++ rest ∧ StandsFor a bs ∧ q = p.advance bs.length
    | .error _ q => ∃ bs rest, p.unread = bs ++ rest ∧ q = p.advance bs.length

theorem Sound.mono {α : Type} {reader : Reader α} {F G : α → List UInt8 → Prop}
    (h : Sound reader F) (himp : ∀ a bs, F a bs → G a bs) : Sound reader G := by
  intro p
  have hp := h p
  cases hread : reader p with
  | ok a q =>
      rw [hread] at hp
      obtain ⟨bs, rest, hunread, hF, hq⟩ := hp
      exact ⟨bs, rest, hunread, himp a bs hF, hq⟩
  | error e q =>
      rw [hread] at hp
      exact hp

theorem Sound.pure {α : Type} (a : α) : Sound (Pure.pure a) fun b bs => b = a ∧ bs = [] :=
  fun p => ⟨[], p.unread, rfl, ⟨rfl, rfl⟩, rfl⟩

/-- Readers in sequence stand for the concatenation of their bytes. -/
theorem Sound.bind {α β : Type} {reader : Reader α} {next : α → Reader β}
    {F : α → List UInt8 → Prop} {G : α → β → List UInt8 → Prop} (hfirst : Sound reader F)
    (hnext : ∀ a, Sound (next a) (G a)) :
    Sound (reader >>= next) fun b bs => ∃ a bs₁ bs₂, F a bs₁ ∧ G a b bs₂ ∧ bs = bs₁ ++ bs₂ := by
  intro p
  have h₁ := hfirst p
  change match EStateM.bind reader next p with | .ok a q => _ | .error e q => _
  unfold EStateM.bind
  cases hread : reader p with
  | error e q =>
      rw [hread] at h₁
      exact h₁
  | ok a q =>
      rw [hread] at h₁
      obtain ⟨bs₁, rest₁, hunread₁, hF, rfl⟩ := h₁
      have h₂ := hnext a (p.advance bs₁.length)
      rw [unread_advance hunread₁] at h₂
      simp only
      cases hread₂ : next a (p.advance bs₁.length) with
      | ok b q =>
          rw [hread₂] at h₂
          obtain ⟨bs₂, rest₂, hunread₂, hG, rfl⟩ := h₂
          refine ⟨bs₁ ++ bs₂, rest₂, ?_, ⟨a, bs₁, bs₂, hF, hG, rfl⟩, ?_⟩
          · rw [hunread₁, hunread₂, List.append_assoc]
          · rw [advance_advance, List.length_append]
      | error e q =>
          rw [hread₂] at h₂
          obtain ⟨bs₂, rest₂, hunread₂, rfl⟩ := h₂
          refine ⟨bs₁ ++ bs₂, rest₂, ?_, ?_⟩
          · rw [hunread₁, hunread₂, List.append_assoc]
          · rw [advance_advance, List.length_append]

/-- A reader followed by a function of its result moves past the same bytes. -/
theorem Sound.map {α β : Type} {reader : Reader α} {F : α → List UInt8 → Prop}
    (hfirst : Sound reader F) (f : α → β) :
    Sound (reader >>= fun x => Pure.pure (f x)) fun b bs => ∃ a, F a bs ∧ b = f a := by
  have h : Sound (reader >>= fun x => Pure.pure (f x)) _ :=
    hfirst.bind fun a => Sound.pure (f a)
  apply h.mono
  rintro b bs ⟨a, bs₁, bs₂, hF, ⟨hb, hbs₂⟩, hbs⟩
  rw [hbs₂, List.append_nil] at hbs
  exact ⟨a, hbs ▸ hF, hb⟩

theorem readBytes_sound (size : ℕ) :
    Sound (readBytes size) fun a bs => a = bs ∧ bs.length = size := by
  intro p
  unfold readBytes
  split_ifs with hbound
  · exact ⟨[], p.unread, rfl, rfl⟩
  · have hlen : ((p.buffer.drop p.readPosition).take size).length = size := by
      rw [List.length_take, List.length_drop]
      omega
    refine ⟨_, (p.buffer.drop p.readPosition).drop size, ?_, ⟨rfl, hlen⟩, ?_⟩
    · rw [List.take_append_drop, unread]
    · rw [hlen, advance]

theorem readScalar_sound (n : ℕ) :
    Sound (readScalar n) fun data bs => bs = (bytes data).reverse := by
  rw [readBytes_swap]
  apply ((readBytes_sound n).map fun networkData => Endian.swap (ofBytes n networkData)).mono
  rintro data bs ⟨networkData, ⟨rfl, hlen⟩, rfl⟩
  rw [Endian.bytes_swap, List.reverse_reverse, bytes_ofBytes hlen]

theorem readSize_sound :
    Sound readSize fun size bs => size ≤ 65535 ∧ bs = encodeSize size := by
  apply ((readScalar_sound 2).map fun size => size.toNat).mono
  rintro size bs ⟨data, rfl, rfl⟩
  refine ⟨by have := data.isLt; omega, ?_⟩
  rw [encodeSize, BitVec.ofNat_toNat, BitVec.setWidth_eq]

/-- The element loop returns as many elements as were announced. -/
theorem readMany_sound {α : Type} {reader : Reader α} {F : α → List UInt8 → Prop}
    (hreader : Sound reader F) (size : ℕ) :
    Sound (readMany reader size) fun items bs =>
      items.length = size ∧ ∃ codes, List.Forall₂ F items codes ∧ bs = codes.flatten := by
  induction size with
  | zero =>
      apply (Sound.pure []).mono
      rintro items bs ⟨rfl, rfl⟩
      exact ⟨rfl, [], .nil, rfl⟩
  | succ size ih =>
      apply (hreader.bind fun item => ih.map fun items => item :: items).mono
      rintro items bs ⟨item, bs₁, bs₂, hitem, ⟨rest, ⟨hlen, codes, hcodes, rfl⟩, rfl⟩, rfl⟩
      exact ⟨by rw [List.length_cons, hlen], bs₁ :: codes, .cons hitem hcodes, rfl⟩

/-- The bytes are the wire form of the value, whose lengths fit their prefixes. -/
def IsWireForm (s : Shape) (data : s.Val) (bs : List UInt8) : Prop :=
  s.Fits data ∧ bs = s.encode data

/-- Wire forms of elements, one after another. -/
theorem flatten_wireForms {element : Shape} {items : List element.Val}
    {codes : List (List UInt8)} (h : List.Forall₂ (IsWireForm element) items codes) :
    (∀ item ∈ items, element.Fits item) ∧
      codes.flatten = items.flatMap fun item => element.encode item := by
  induction h with
  | nil => exact ⟨by simp, rfl⟩
  | cons hitem _ ih =>
      refine ⟨?_, ?_⟩
      · rintro x (_ | ⟨_, hx⟩)
        · exact hitem.1
        · exact ih.1 x hx
      · rw [List.flatten_cons, List.flatMap_cons, ih.2, hitem.2]

theorem readContainer_sound {element : Shape} {reader : Reader element.Val}
    (hreader : Sound reader (IsWireForm element)) :
    Sound (do let size ← readSize; readMany reader size) fun data bs =>
      (data.length ≤ 65535 ∧ ∀ item ∈ data, element.Fits item) ∧
        bs = encodeSize data.length ++ data.flatMap fun item => element.encode item := by
  apply (readSize_sound.bind fun size => readMany_sound hreader size).mono
  rintro items bs ⟨size, bs₁, bs₂, ⟨hsize, rfl⟩, ⟨rfl, codes, hcodes, rfl⟩, rfl⟩
  have hitems := flatten_wireForms hcodes
  rw [hitems.2]
  exact ⟨⟨hsize, hitems.1⟩, rfl⟩

mutual

/-- What a read returns has the bytes that it moved past as its wire form. -/
theorem read_sound : ∀ s : Shape, s.Readable → Sound (read s) (IsWireForm s)
  | .scalar size, _ => by
      rw [read]
      apply (readScalar_sound size).mono
      rintro data bs rfl
      exact ⟨trivial, by rw [Shape.encode]⟩
  | .bool, hs => by
      rw [Shape.Readable] at hs
      exact hs.elim
  | .string, _ => by
      rw [read]
      apply (readSize_sound.bind fun size => readBytes_sound size).mono
      rintro str bs ⟨size, bs₁, bs₂, ⟨hsize, rfl⟩, ⟨rfl, rfl⟩, rfl⟩
      refine ⟨?_, ?_⟩
      · rw [Shape.Fits]
        exact hsize
      · rw [Shape.encode]
  | .vector element, hs => by
      rw [Shape.Readable] at hs
      rw [read]
      apply (readContainer_sound (read_sound element hs)).mono
      rintro data bs ⟨hfits, rfl⟩
      refine ⟨?_, ?_⟩
      · rw [Shape.Fits]
        exact hfits
      · rw [Shape.encode]
  | .deque element, hs => by
      rw [Shape.Readable] at hs
      rw [read]
      apply (readContainer_sound (read_sound element hs)).mono
      rintro data bs ⟨hfits, rfl⟩
      refine ⟨?_, ?_⟩
      · rw [Shape.Fits]
        exact hfits
      · rw [Shape.encode]
  | .struct fields, hs => by
      rw [Shape.Readable] at hs
      rw [read]
      apply (readFields_sound fields hs).mono
      rintro data bs ⟨hfits, rfl⟩
      exact ⟨hfits, rfl⟩

/-- The same for values read one after another. -/
theorem readFields_sound : ∀ fields : List Shape, Shape.ReadableFields fields →
    Sound (readFields fields) fun data bs =>
      Shape.FitsFields fields data ∧ bs = Shape.encodeFields fields data
  | [], _ => by
      rw [readFields]
      apply (Sound.pure ()).mono
      rintro data bs ⟨-, rfl⟩
      exact ⟨trivial, rfl⟩
  | field :: fields, hs => by
      rw [Shape.ReadableFields] at hs
      rw [readFields]
      apply ((read_sound field hs.1).bind fun data =>
        (readFields_sound fields hs.2).map fun rest => (data, rest)).mono
      rintro data bs ⟨first, bs₁, bs₂, ⟨hfirst, rfl⟩, ⟨rest, ⟨hrest, rfl⟩, rfl⟩, rfl⟩
      refine ⟨?_, ?_⟩
      · rw [Shape.FitsFields]
        exact ⟨hfirst, hrest⟩
      · rw [Shape.encodeFields]

end

/-! ## What the writers can produce -/

/-- A loop over elements that each append a wire form appends wire forms. -/
theorem foldlM_wireForm {element : Shape} {items : List element.Val}
    (hitem : ∀ item ∈ items, ∀ p q, write element item p = .ok q →
      ∃ data, element.Fits data ∧ q = p.append (element.encode data)) {p q : Packet}
    (h : items.foldlM (fun p item => write element item p) p = .ok q) :
    ∃ data : List element.Val, data.length = items.length ∧
      (∀ item ∈ data, element.Fits item) ∧
      q = p.append (data.flatMap fun item => element.encode item) := by
  induction items generalizing p with
  | nil =>
      rw [List.foldlM_nil] at h
      cases h
      exact ⟨[], rfl, by simp, by simp⟩
  | cons item items ih =>
      rw [List.foldlM_cons] at h
      cases hwrite : write element item p with
      | error e =>
          rw [hwrite] at h
          cases h
      | ok r =>
          rw [hwrite] at h
          obtain ⟨first, hfirst, rfl⟩ := hitem item List.mem_cons_self p r hwrite
          obtain ⟨rest, hlen, hrest, rfl⟩ :=
            ih (fun i hi => hitem i (List.mem_cons_of_mem item hi)) h
          refine ⟨first :: rest, by rw [List.length_cons, hlen, List.length_cons], ?_, ?_⟩
          · rintro x (_ | ⟨_, hx⟩)
            · exact hfirst
            · exact hrest x hx
          · rw [append_append, List.flatMap_cons]

mutual

/-- Whatever a writer is given, it throws or appends the wire form of a value that
fits: an overlong string is cut to what its prefix says. -/
theorem write_wireForm : ∀ (s : Shape) (data : s.Val) (p q : Packet),
    write s data p = .ok q → ∃ data', s.Fits data' ∧ q = p.append (s.encode data')
  | .scalar size, data, p, q, h => by
      exact ⟨data, trivial, (Except.ok.inj ((write_eq _ data trivial p).symm.trans h)).symm⟩
  | .bool, data, p, q, h => by
      exact ⟨data, trivial, (Except.ok.inj ((write_eq _ data trivial p).symm.trans h)).symm⟩
  | .string, (str : List UInt8), p, q, h => by
      let cut := str.take (str.length % 2 ^ 16)
      have hlen : cut.length = str.length % 2 ^ 16 := by
        rw [List.length_take]
        exact min_eq_left (Nat.mod_le _ _)
      refine ⟨cut, ?_, ?_⟩
      · rw [Shape.Fits, hlen]
        omega
      · have hwrite : write .string str p = .ok (p.append (encodeSize cut.length ++ cut)) := by
          rw [write, writeSize_eq, append_append, hlen]
        rw [Shape.encode]
        exact (Except.ok.inj (hwrite.symm.trans h)).symm
  | .vector element, (data : List element.Val), p, q, h => by
      rw [write] at h
      split_ifs at h with hlong
      obtain ⟨data', hlen, hfits, rfl⟩ :=
        foldlM_wireForm (fun item _ p q hw => write_wireForm element item p q hw) h
      refine ⟨data', ?_, ?_⟩
      · rw [Shape.Fits]
        exact ⟨by omega, hfits⟩
      · rw [Shape.encode, writeSize_eq, append_append, hlen]
  | .deque element, (data : List element.Val), p, q, h => by
      rw [write] at h
      split_ifs at h with hlong
      obtain ⟨data', hlen, hfits, rfl⟩ :=
        foldlM_wireForm (fun item _ p q hw => write_wireForm element item p q hw) h
      refine ⟨data', ?_, ?_⟩
      · rw [Shape.Fits]
        exact ⟨by omega, hfits⟩
      · rw [Shape.encode, writeSize_eq, append_append, hlen]
  | .struct fields, data, p, q, h => by
      rw [write] at h
      exact writeFields_wireForm fields data p q h

/-- The same for values written one after another. -/
theorem writeFields_wireForm : ∀ (fields : List Shape) (data : Shape.Vals fields) (p q : Packet),
    writeFields fields data p = .ok q →
    ∃ data', Shape.FitsFields fields data' ∧ q = p.append (Shape.encodeFields fields data')
  | [], _, p, q, h => by
      rw [writeFields] at h
      cases h
      exact ⟨(), trivial, (append_nil p).symm⟩
  | field :: fields, (data, rest), p, q, h => by
      rw [writeFields] at h
      cases hwrite : write field data p with
      | error e =>
          rw [hwrite] at h
          cases h
      | ok r =>
          rw [hwrite] at h
          obtain ⟨data', hdata, rfl⟩ := write_wireForm field data p r hwrite
          obtain ⟨rest', hrest, rfl⟩ := writeFields_wireForm fields rest _ q h
          refine ⟨(data', rest'), ⟨hdata, hrest⟩, ?_⟩
          rw [append_append, Shape.encodeFields]

end

/-- The bytes that `operator<<` appends for a value. -/
def Writes (s : Shape) (data : s.Val) (bs : List UInt8) : Prop :=
  ∀ p : Packet, write s data p = .ok (p.append bs)

theorem append_inj {p : Packet} {xs ys : List UInt8} (h : p.append xs = p.append ys) : xs = ys :=
  List.append_cancel_left (congrArg Packet.buffer h)

theorem Writes.of_fits {s : Shape} {data : s.Val} (hfits : s.Fits data) :
    Writes s data (s.encode data) :=
  write_eq s data hfits

theorem Writes.eq_encode {s : Shape} {data : s.Val} {bs : List UInt8} (h : Writes s data bs)
    (hfits : s.Fits data) : bs = s.encode data :=
  append_inj (Except.ok.inj ((h (.new 0)).symm.trans (write_eq s data hfits (.new 0))))

/-- What is written for a value is the wire form of one that fits. -/
theorem Writes.wireForm {s : Shape} {data : s.Val} {bs : List UInt8} (h : Writes s data bs) :
    ∃ data', IsWireForm s data' bs := by
  obtain ⟨data', hfits, hq⟩ := write_wireForm s data (.new 0) _ (h (.new 0))
  exact ⟨data', hfits, append_inj hq⟩

/-! ## Exactness -/

mutual

/-- A value without bytes is read anywhere, also past the end of the buffer. -/
theorem read_of_encode_nil : ∀ (s : Shape) (data : s.Val), s.Readable → s.encode data = [] →
    ∀ p, read s p = .ok data p
  | .scalar size, (data : BitVec (8 * size)), hs, hnil, p => by
      rw [Shape.Readable] at hs
      rw [Shape.encode] at hnil
      have hlen := congrArg List.length hnil
      simp at hlen
      omega
  | .bool, _, hs, _, _ => by
      rw [Shape.Readable] at hs
      exact hs.elim
  | .string, (str : List UInt8), _, hnil, p => by
      rw [Shape.encode] at hnil
      have hlen := congrArg List.length hnil
      simp at hlen
  | .vector element, (data : List element.Val), _, hnil, p => by
      rw [Shape.encode] at hnil
      have hlen := congrArg List.length hnil
      simp at hlen
  | .deque element, (data : List element.Val), _, hnil, p => by
      rw [Shape.encode] at hnil
      have hlen := congrArg List.length hnil
      simp at hlen
  | .struct fields, data, hs, hnil, p => by
      rw [Shape.Readable] at hs
      rw [read]
      exact readFields_of_encode_nil fields data hs hnil p

/-- The same for values read one after another. -/
theorem readFields_of_encode_nil : ∀ (fields : List Shape) (data : Shape.Vals fields),
    Shape.ReadableFields fields → Shape.encodeFields fields data = [] →
    ∀ p, readFields fields p = .ok data p
  | [], _, _, _, p => by
      rw [readFields]
      rfl
  | field :: fields, (data, rest), hs, hnil, p => by
      rw [Shape.ReadableFields] at hs
      rw [Shape.encodeFields, List.append_eq_nil_iff] at hnil
      rw [readFields]
      change EStateM.bind (read field) _ p = _
      rw [EStateM.bind, read_of_encode_nil field data hs.1 hnil.1 p]
      change EStateM.bind (readFields fields) _ p = _
      rw [EStateM.bind, readFields_of_encode_nil fields rest hs.2 hnil.2 p]
      rfl

end

/-- A value whose wire form is unread is returned, from any read position. -/
theorem read_wireForm {s : Shape} (hs : s.Readable) {data : s.Val} (hfits : s.Fits data)
    {p : Packet} {rest : List UInt8} (hunread : p.unread = s.encode data ++ rest) :
    read s p = .ok data (p.advance (s.encode data).length) := by
  by_cases hp : p.InBounds
  · exact read_consumes s data hfits p rest hp hunread
  · have hempty : p.unread = [] := by
      rw [InBounds, not_le] at hp
      exact List.drop_eq_nil_of_le hp.le
    rw [hempty] at hunread
    have hnil := (List.append_eq_nil_iff.mp hunread.symm).1
    rw [hnil]
    exact read_of_encode_nil s data hs hnil p

/-- The packet that a read leaves behind. -/
def remains {α : Type} : EStateM.Result String Packet α → Packet
  | .ok _ q => q
  | .error _ q => q

/-- The behaviour of `operator>>` on a packet. -/
structure ReadsExactly (s : Shape) (p : Packet) : Prop where
  /-- No byte outside the buffer is touched. -/
  inside : Memory.read s p = some (read s p)
  /-- The read position moves forward, and not past the end. -/
  forward : p.readPosition ≤ (remains (read s p)).readPosition
  bounded : (remains (read s p)).readPosition ≤ max p.readPosition p.buffer.length
  /-- Nothing else of the packet changes. -/
  frame : remains (read s p) = { p with readPosition := (remains (read s p)).readPosition }
  /-- It succeeds on encodings only, and on all of them. -/
  succeeds_iff : (∃ data q, read s p = .ok data q) ↔ ∃ data bs, Writes s data bs ∧ bs <+: p.unread
  /-- Writing the returned value again reproduces the consumed bytes. -/
  rewritten : ∀ data q, read s p = .ok data q →
    ∃ bs, Writes s data bs ∧ bs <+: p.unread ∧ q = p.advance bs.length
  /-- The value whose encoding is unread is the one returned. -/
  returned : ∀ data bs, s.Fits data → Writes s data bs → bs <+: p.unread →
    read s p = .ok data (p.advance bs.length)

/-- Moving past unread bytes stays inside the buffer, unless the position was
already outside. -/
theorem advance_le {p : Packet} {bs rest : List UInt8} (h : p.unread = bs ++ rest) :
    (p.advance bs.length).readPosition ≤ max p.readPosition p.buffer.length := by
  have hlen := congrArg List.length h
  rw [unread, List.length_drop, List.length_append] at hlen
  change p.readPosition + bs.length ≤ _
  omega

/-- A read moves past some of the unread bytes, whether it returns or throws. -/
theorem Sound.remains_eq {α : Type} {reader : Reader α} {F : α → List UInt8 → Prop}
    (h : Sound reader F) (p : Packet) :
    ∃ bs rest, p.unread = bs ++ rest ∧ remains (reader p) = p.advance bs.length := by
  have hp := h p
  cases hread : reader p with
  | ok a q =>
      rw [hread] at hp
      obtain ⟨bs, rest, hunread, -, hq⟩ := hp
      exact ⟨bs, rest, hunread, hq⟩
  | error e q =>
      rw [hread] at hp
      exact hp

/-- Reading is exact and stays in bounds, on any buffer and from any position. -/
theorem read_exact (s : Shape) (hs : s.Readable) (p : Packet) : ReadsExactly s p := by
  have hsound := read_sound s hs
  obtain ⟨bs, rest, hunread, hremains⟩ := hsound.remains_eq p
  have hreturned : ∀ data q, read s p = .ok data q →
      ∃ bs, Writes s data bs ∧ bs <+: p.unread ∧ q = p.advance bs.length := by
    intro data q hread
    have hp := hsound p
    rw [hread] at hp
    obtain ⟨bs, rest, hunread, ⟨hfits, rfl⟩, hq⟩ := hp
    exact ⟨_, Writes.of_fits hfits, ⟨rest, hunread.symm⟩, hq⟩
  constructor
  case inside => rw [Memory.read_eq, Memory.lift]
  case forward =>
    rw [hremains]
    exact Nat.le_add_right _ _
  case bounded =>
    rw [hremains]
    exact advance_le hunread
  case frame =>
    rw [hremains]
    rfl
  case rewritten => exact hreturned
  case succeeds_iff =>
    constructor
    · rintro ⟨data, q, hread⟩
      obtain ⟨bs, hwrites, hbs, -⟩ := hreturned data q hread
      exact ⟨data, bs, hwrites, hbs⟩
    · rintro ⟨data, bs, hwrites, rest, hrest⟩
      obtain ⟨data', hfits, rfl⟩ := hwrites.wireForm
      exact ⟨data', _, read_wireForm hs hfits hrest.symm⟩
  case returned =>
    rintro data bs hfits hwrites ⟨rest, hrest⟩
    rw [hwrites.eq_encode hfits] at hrest ⊢
    exact read_wireForm hs hfits hrest.symm

/-- A vector of strings that announces two elements, of which the second one is
cut off. -/
theorem read_exact_truncated :
    (Shape.vector .string).Readable ∧
      ReadsExactly (.vector .string) { buffer := [0, 2, 0, 1, 104, 0, 9, 105] } :=
  ⟨trivial, read_exact (.vector .string) trivial _⟩

end Packet

end Rtype.Rtnt
