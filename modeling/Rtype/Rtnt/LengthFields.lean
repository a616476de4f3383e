import Rtype.Rtnt.HeaderGrammar
import Rtype.Rtnt.Serialization
import Rtype.Rtnt.Session

/-!
# rtnt - Sixteen-bit length fields

A length travels in 16 bits in four places: before a string, before a vector, before a
deque and in the header.  Two of the four casts are guarded.  This file says what a
label has to be, for values nested to any depth, and finds the values and the packets for
which the library writes it.

Main results:

- Definition {lit}`Shape.Labelled`: the bytes of a value with true lengths everywhere.
- Theorem {lit}`Packet.write_error_iff`: a writer throws when and only when a vector or a
  deque is too long.
- Theorem {lit}`length_fields_exact_iff`: when the labels that are written are true.

Current gaps:

- None.
-/

namespace Rtype.Rtnt

open ByteOrder

/-! ## Labels -/

/-- The bytes are a 16-bit field with the given value. -/
def IsLength (label : List UInt8) (count : ℕ) : Prop :=
  label.length = 2 ∧ ofDigits label.reverse = count

theorem ofDigits_encodeSize (count : ℕ) :
    ofDigits (encodeSize count).reverse = count % 2 ^ 16 := by
  have hlt : (BitVec.ofNat 16 count).toNat < 256 ^ 2 := (BitVec.ofNat 16 count).isLt
  rw [encodeSize, List.reverse_reverse, bytes, ofDigits_digits hlt, BitVec.toNat_ofNat]

/-- The field that the writers produce is the only one with its value. -/
theorem isLength_iff {label : List UInt8} {count : ℕ} :
    IsLength label count ↔ count ≤ 65535 ∧ label = encodeSize count := by
  constructor
  · rintro ⟨hlen, hvalue⟩
    have hlt := ofDigits_lt label.reverse
    rw [List.length_reverse, hlen, hvalue] at hlt
    refine ⟨by omega, ?_⟩
    have hdigits := digits_ofDigits label.reverse
    rw [List.length_reverse, hlen, hvalue] at hdigits
    have hsame : (BitVec.ofNat 16 count).toNat = count := by
      rw [BitVec.toNat_ofNat]
      omega
    rw [encodeSize, bytes, hsame, hdigits, List.reverse_reverse]
  · rintro ⟨hcount, rfl⟩
    refine ⟨length_encodeSize count, ?_⟩
    rw [ofDigits_encodeSize]
    omega

/-- The bytes are those of the items, one after another. -/
def Concat {α : Type} (P : α → List UInt8 → Prop) : List α → List UInt8 → Prop
  | [], bs => bs = []
  | item :: items, bs => ∃ first rest, bs = first ++ rest ∧ P item first ∧ Concat P items rest

theorem concat_iff {α : Type} {P : α → List UInt8 → Prop} {good : α → Prop}
    {encode : α → List UInt8} {items : List α}
    (h : ∀ item ∈ items, ∀ bs, P item bs ↔ good item ∧ bs = encode item) (bs : List UInt8) :
    Concat P items bs ↔ (∀ item ∈ items, good item) ∧ bs = items.flatMap encode := by
  induction items generalizing bs with
  | nil => simp [Concat]
  | cons item items ih =>
      have hitem := h item List.mem_cons_self
      have hitems := ih fun i hi => h i (List.mem_cons_of_mem item hi)
      rw [Concat, List.forall_mem_cons, List.flatMap_cons]
      constructor
      · rintro ⟨first, rest, rfl, hfirst, hrest⟩
        rcases (hitem first).mp hfirst with ⟨hgood, rfl⟩
        rcases (hitems rest).mp hrest with ⟨hgoods, rfl⟩
        exact ⟨⟨hgood, hgoods⟩, rfl⟩
      · rintro ⟨⟨hgood, hgoods⟩, rfl⟩
        exact ⟨_, _, rfl, (hitem _).mpr ⟨hgood, rfl⟩, (hitems _).mpr ⟨hgoods, rfl⟩⟩

mutual

/-- The bytes stand for the value, and every length field in them is the true length of
what follows it. -/
def Shape.Labelled : (s : Shape) → s.Val → List UInt8 → Prop
  | .scalar _, (data : BitVec _), bs => bs = (bytes data).reverse
  | .bool, (data : Bool), bs => bs = [if data then 1 else 0]
  | .string, (str : List UInt8), bs => ∃ label, IsLength label str.length ∧ bs = label ++ str
  | .vector element, (data : List element.Val), bs =>
      ∃ label body, IsLength label data.length ∧ bs = label ++ body ∧
        Concat (fun item b => element.Labelled item b) data body
  | .deque element, (data : List element.Val), bs =>
      ∃ label body, IsLength label data.length ∧ bs = label ++ body ∧
        Concat (fun item b => element.Labelled item b) data body
  | .struct fields, data, bs => Shape.LabelledFields fields data bs

/-- The same for a tuple of values, one after another. -/
def Shape.LabelledFields : (fields : List Shape) → Shape.Vals fields → List UInt8 → Prop
  | [], _, bs => bs = []
  | field :: fields, (data, rest), bs =>
      ∃ first others, bs = first ++ others ∧ field.Labelled data first ∧
        Shape.LabelledFields fields rest others

end

/-- A labelled container is its element count and its labelled elements. -/
theorem labelled_container_iff {α : Type} {P : α → List UInt8 → Prop} {good : α → Prop}
    {encode : α → List UInt8} {data : List α}
    (h : ∀ item ∈ data, ∀ bs, P item bs ↔ good item ∧ bs = encode item) (bs : List UInt8) :
    (∃ label body, IsLength label data.length ∧ bs = label ++ body ∧ Concat P data body) ↔
      (data.length ≤ 65535 ∧ ∀ item ∈ data, good item) ∧
        bs = encodeSize data.length ++ data.flatMap encode := by
  constructor
  · rintro ⟨label, body, hlabel, rfl, hbody⟩
    rcases isLength_iff.mp hlabel with ⟨hlen, rfl⟩
    rcases (concat_iff h body).mp hbody with ⟨hgood, rfl⟩
    exact ⟨⟨hlen, hgood⟩, rfl⟩
  · rintro ⟨⟨hlen, hgood⟩, rfl⟩
    exact ⟨_, _, isLength_iff.mpr ⟨hlen, rfl⟩, rfl, (concat_iff h _).mpr ⟨hgood, rfl⟩⟩

mutual

/-- A value has a labelled form when its lengths fit the fields, and then its wire form
is the only one. -/
theorem labelled_iff : ∀ (s : Shape) (data : s.Val) (bs : List UInt8),
    s.Labelled data bs ↔ s.Fits data ∧ bs = s.encode data
  | .scalar size, (data : BitVec (8 * size)), bs => by
      simp only [Shape.Labelled, Shape.Fits, Shape.encode, true_and]
  | .bool, (data : Bool), bs => by
      simp only [Shape.Labelled, Shape.Fits, Shape.encode, true_and]
  | .string, (str : List UInt8), bs => by
      rw [Shape.Labelled, Shape.Fits, Shape.encode]
      constructor
      · rintro ⟨label, hlabel, rfl⟩
        rcases isLength_iff.mp hlabel with ⟨hlen, rfl⟩
        exact ⟨hlen, rfl⟩
      · rintro ⟨hlen, rfl⟩
        exact ⟨_, isLength_iff.mpr ⟨hlen, rfl⟩, rfl⟩
  | .vector element, (data : List element.Val), bs => by
      rw [Shape.Labelled, Shape.Fits, Shape.encode]
      exact labelled_container_iff (fun item _ => labelled_iff element item) bs
  | .deque element, (data : List element.Val), bs => by
      rw [Shape.Labelled, Shape.Fits, Shape.encode]
      exact labelled_container_iff (fun item _ => labelled_iff element item) bs
  | .struct fields, data, bs => by
      rw [Shape.Labelled, Shape.Fits, Shape.encode]
      exact labelledFields_iff fields data bs

/-- The same for a tuple of values. -/
theorem labelledFields_iff : ∀ (fields : List Shape) (data : Shape.Vals fields)
    (bs : List UInt8), Shape.LabelledFields fields data bs ↔
      Shape.FitsFields fields data ∧ bs = Shape.encodeFields fields data
  | [], _, bs => by
      rw [Shape.LabelledFields, Shape.FitsFields, Shape.encodeFields, true_and]
  | field :: fields, (data, rest), bs => by
      rw [Shape.LabelledFields, Shape.FitsFields, Shape.encodeFields]
      constructor
      · rintro ⟨first, others, rfl, hfirst, hothers⟩
        rcases (labelled_iff field data first).mp hfirst with ⟨hfits, rfl⟩
        rcases (labelledFields_iff fields rest others).mp hothers with ⟨hrest, rfl⟩
        exact ⟨⟨hfits, hrest⟩, rfl⟩
      · rintro ⟨⟨hfits, hrest⟩, rfl⟩
        exact ⟨_, _, rfl, (labelled_iff field data _).mpr ⟨hfits, rfl⟩,
          (labelledFields_iff fields rest _).mpr ⟨hrest, rfl⟩⟩

end

/-! ## The two kinds of limits -/

mutual

/-- No vector and no deque inside the value is longer than the limit, which the code
checks. -/
def Shape.Countable : (s : Shape) → s.Val → Prop
  | .scalar _, _ => True
  | .bool, _ => True
  | .string, _ => True
  | .vector element, (data : List element.Val) =>
      data.length ≤ 65535 ∧ ∀ item ∈ data, element.Countable item
  | .deque element, (data : List element.Val) =>
      data.length ≤ 65535 ∧ ∀ item ∈ data, element.Countable item
  | .struct fields, data => Shape.CountableFields fields data

/-- The same for a tuple of values. -/
def Shape.CountableFields : (fields : List Shape) → Shape.Vals fields → Prop
  | [], _ => True
  | field :: fields, (data, rest) => field.Countable data ∧ Shape.CountableFields fields rest

end

mutual

/-- No string inside the value is longer than the limit, which the code does not check. -/
def Shape.ShortStrings : (s : Shape) → s.Val → Prop
  | .scalar _, _ => True
  | .bool, _ => True
  | .string, (str : List UInt8) => str.length ≤ 65535
  | .vector element, (data : List element.Val) => ∀ item ∈ data, element.ShortStrings item
  | .deque element, (data : List element.Val) => ∀ item ∈ data, element.ShortStrings item
  | .struct fields, data => Shape.ShortStringsFields fields data

/-- The same for a tuple of values. -/
def Shape.ShortStringsFields : (fields : List Shape) → Shape.Vals fields → Prop
  | [], _ => True
  | field :: fields, (data, rest) =>
      field.ShortStrings data ∧ Shape.ShortStringsFields fields rest

end

/-- A container fits when its length and its elements do. -/
theorem fits_container_iff {α : Type} {fits countable short : α → Prop} {data : List α}
    (h : ∀ item ∈ data, fits item ↔ countable item ∧ short item) :
    (data.length ≤ 65535 ∧ ∀ item ∈ data, fits item) ↔
      (data.length ≤ 65535 ∧ ∀ item ∈ data, countable item) ∧ ∀ item ∈ data, short item := by
  rw [and_assoc, ← forall₂_and]
  exact and_congr_right fun _ => forall₂_congr h

mutual

/-- A value fits when it respects the limits of both kinds. -/
theorem fits_iff : ∀ (s : Shape) (data : s.Val),
    s.Fits data ↔ s.Countable data ∧ s.ShortStrings data
  | .scalar _, _ => by
      simp only [Shape.Fits, Shape.Countable, Shape.ShortStrings, true_and]
  | .bool, _ => by
      simp only [Shape.Fits, Shape.Countable, Shape.ShortStrings, true_and]
  | .string, (str : List UInt8) => by
      simp only [Shape.Fits, Shape.Countable, Shape.ShortStrings, true_and]
  | .vector element, (data : List element.Val) => by
      rw [Shape.Fits, Shape.Countable, Shape.ShortStrings]
      exact fits_container_iff fun item _ => fits_iff element item
  | .deque element, (data : List element.Val) => by
      rw [Shape.Fits, Shape.Countable, Shape.ShortStrings]
      exact fits_container_iff fun item _ => fits_iff element item
  | .struct fields, data => by
      rw [Shape.Fits, Shape.Countable, Shape.ShortStrings]
      exact fitsFields_iff fields data

/-- The same for a tuple of values. -/
theorem fitsFields_iff : ∀ (fields : List Shape) (data : Shape.Vals fields),
    Shape.FitsFields fields data ↔
      Shape.CountableFields fields data ∧ Shape.ShortStringsFields fields data
  | [], _ => by
      rw [Shape.FitsFields, Shape.CountableFields, Shape.ShortStringsFields, true_and]
  | field :: fields, (data, rest) => by
      rw [Shape.FitsFields, Shape.CountableFields, Shape.ShortStringsFields,
        fits_iff field data, fitsFields_iff fields rest, and_and_and_comm]

end

/-! ## Writers -/

/-- A loop over items throws when one of its calls does, if that does not depend on what
was written before. -/
theorem foldlM_error_iff {σ α : Type} {write : σ → α → Except String σ} {fails : α → Prop}
    {items : List α} (h : ∀ item ∈ items, ∀ s, (∃ e, write s item = .error e) ↔ fails item)
    (s : σ) : (∃ e, items.foldlM write s = .error e) ↔ ∃ item ∈ items, fails item := by
  induction items generalizing s with
  | nil =>
      refine iff_of_false ?_ (by simp)
      rintro ⟨e, he⟩
      cases he
  | cons item items ih =>
      have hitem := h item List.mem_cons_self s
      have hitems := ih fun i hi => h i (List.mem_cons_of_mem item hi)
      rw [List.foldlM_cons, List.exists_mem_cons_iff, ← hitem]
      cases hwrite : write s item with
      | error e => exact iff_of_true ⟨e, rfl⟩ (Or.inl ⟨e, rfl⟩)
      | ok s' =>
          have hno : ¬ ∃ e, (Except.ok s' : Except String σ) = .error e := by
            rintro ⟨e, he⟩
            cases he
          rw [or_iff_right hno]
          exact hitems s'

/-- A container is refused for its length or for one of its elements. -/
theorem write_container_error_iff {σ α : Type} {write : σ → α → Except String σ}
    {countable : α → Prop} {data : List α} {message : String}
    (h : ∀ item ∈ data, ∀ s, (∃ e, write s item = .error e) ↔ ¬ countable item) (s : σ) :
    (∃ e, (if data.length > 65535 then .error message else data.foldlM write s) = .error e) ↔
      ¬ (data.length ≤ 65535 ∧ ∀ item ∈ data, countable item) := by
  split_ifs with hlong
  · refine iff_of_true ⟨message, rfl⟩ ?_
    rintro ⟨hlen, -⟩
    omega
  · rw [foldlM_error_iff h, and_iff_right (Nat.le_of_not_lt hlong)]
    simp only [not_forall, exists_prop]

namespace Packet

mutual

/-- A writer throws when and only when a vector or a deque is too long. -/
theorem write_error_iff : ∀ (s : Shape) (data : s.Val) (p : Packet),
    (∃ e, write s data p = .error e) ↔ ¬ s.Countable data
  | .scalar size, (data : BitVec (8 * size)), p => by
      simp [write, Shape.Countable]
  | .bool, (data : Bool), p => by
      simp [write, Shape.Countable]
  | .string, (str : List UInt8), p => by
      simp [write, Shape.Countable]
  | .vector element, (data : List element.Val), p => by
      rw [write, Shape.Countable]
      exact write_container_error_iff (fun item _ => write_error_iff element item) _
  | .deque element, (data : List element.Val), p => by
      rw [write, Shape.Countable]
      exact write_container_error_iff (fun item _ => write_error_iff element item) _
  | .struct fields, data, p => by
      rw [write, Shape.Countable]
      exact writeFields_error_iff fields data p

/-- The same for a tuple of values. -/
theorem writeFields_error_iff : ∀ (fields : List Shape) (data : Shape.Vals fields) (p : Packet),
    (∃ e, writeFields fields data p = .error e) ↔ ¬ Shape.CountableFields fields data
  | [], _, p => by
      simp [writeFields, Shape.CountableFields]
  | field :: fields, (data, rest), p => by
      have hfield := write_error_iff field data p
      rw [writeFields, Shape.CountableFields, not_and_or, ← hfield]
      cases hwrite : write field data p with
      | error e => exact iff_of_true ⟨e, rfl⟩ (Or.inl ⟨e, rfl⟩)
      | ok p' =>
          have hno : ¬ ∃ e, (Except.ok p' : Except String Packet) = .error e := by
            rintro ⟨e, he⟩
            cases he
          rw [or_iff_right hno]
          exact writeFields_error_iff fields rest p'

end

/-- The writer throws, or it appends bytes whose length fields are all true. -/
def WritesExactly (s : Shape) (data : s.Val) (p : Packet) : Prop :=
  (∃ e, write s data p = .error e) ∨
    ∃ bs, write s data p = .ok (p.append bs) ∧ s.Labelled data bs

/-- A value is written with true lengths exactly when its strings are short, or something
else in it is refused. -/
theorem writesExactly_iff (s : Shape) (data : s.Val) (p : Packet) :
    WritesExactly s data p ↔ (s.Countable data → s.ShortStrings data) := by
  unfold WritesExactly
  rw [write_error_iff]
  constructor
  · rintro (hlong | ⟨bs, -, hlabelled⟩) hcountable
    · exact absurd hcountable hlong
    · exact ((fits_iff s data).mp ((labelled_iff s data bs).mp hlabelled).1).2
  · intro h
    by_cases hcountable : s.Countable data
    · have hfits := (fits_iff s data).mpr ⟨hcountable, h hcountable⟩
      exact Or.inr ⟨_, write_eq s data hfits p, (labelled_iff s data _).mpr ⟨hfits, rfl⟩⟩
    · exact Or.inl hcountable

theorem writesExactly_string (str : List UInt8) (p : Packet) :
    WritesExactly .string str p ↔ str.length ≤ 65535 := by
  have hiff := writesExactly_iff .string str p
  simp only [Shape.Countable, Shape.ShortStrings, true_implies] at hiff
  exact hiff

end Packet

/-! ## The header -/

namespace Session

/-- {lit}`rawSend` hands over one datagram, with the payload of the packet behind a header
that has the size of that payload. -/
def SendsExactly (s : Session) (packet : Packet) (sequenceId orderId : UInt32) : Prop :=
  ∃ d, (s.rawSend packet sequenceId orderId).outbox = s.outbox ++ [d] ∧
    d.bytes.drop Header.size = packet.buffer ∧
    fieldAt d.bytes 24 2 = packet.buffer.length

theorem sendsExactly_iff (s : Session) (packet : Packet) (sequenceId orderId : UInt32) :
    s.SendsExactly packet sequenceId orderId ↔ packet.buffer.length ≤ 65535 := by
  have hfield := (Header.laidOut_wire (s.header packet sequenceId orderId)
    packet.buffer).packetSize
  have hsize : (s.header packet sequenceId orderId).packetSize.toNat =
      packet.buffer.length % 2 ^ 16 := UInt16.toNat_ofNat'
  have hdrop : ((s.header packet sequenceId orderId).wire ++ packet.buffer).drop Header.size =
      packet.buffer := List.drop_left' (Header.length_wire _)
  constructor
  · rintro ⟨d, houtbox, -, hlength⟩
    have hd : d = ⟨s.self, (s.header packet sequenceId orderId).wire ++ packet.buffer⟩ := by
      have hlast := List.append_cancel_left houtbox
      exact (List.singleton_inj.mp hlast).symm
    rw [hd, hfield, hsize] at hlength
    omega
  · intro hlen
    refine ⟨_, rfl, hdrop, ?_⟩
    rw [hfield, hsize]
    omega

end Session

/-! ## All four fields -/

/-- The values that are written with true lengths, or refused, and the packets that are
sent with the true size. -/
theorem length_fields_exact_iff (s : Shape) (data : s.Val) (p : Packet) (session : Session)
    (packet : Packet) (sequenceId orderId : UInt32) :
    (Packet.WritesExactly s data p ↔ (s.Countable data → s.ShortStrings data)) ∧
    (session.SendsExactly packet sequenceId orderId ↔ packet.buffer.length ≤ 65535) :=
  ⟨Packet.writesExactly_iff s data p, session.sendsExactly_iff packet sequenceId orderId⟩

/-- A string of 65536 bytes is written as an empty one, and a payload of as many bytes is
sent with the size 0. -/
theorem length_fields_truncated :
    (¬ ∀ (s : Shape) (data : s.Val) (p : Packet), Packet.WritesExactly s data p) ∧
    ¬ ∀ (session : Session) (packet : Packet) (sequenceId orderId : UInt32),
      session.SendsExactly packet sequenceId orderId := by
  constructor
  · intro hall
    have hstring := (Packet.writesExactly_string _ _).mp
      (hall .string (List.replicate 65536 (0 : UInt8)) (Packet.new 200))
    rw [List.length_replicate] at hstring
    exact absurd hstring (by decide)
  · intro hall
    have hsend := hall (.new 1 (Stream'.const 0))
      ((Packet.new 200).setPayload (List.replicate 65536 0)) 0 0
    have hlen : ((Packet.new 200).setPayload (List.replicate 65536 0)).buffer.length = 65536 :=
      List.length_replicate
    rw [Session.sendsExactly_iff, hlen] at hsend
    exact absurd hsend (by decide)

end Rtype.Rtnt
