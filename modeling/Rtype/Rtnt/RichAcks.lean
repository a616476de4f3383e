import Rtype.Foundations.Blocks
import Rtype.Rtnt.ExplicitAcks
import Rtype.Rtnt.Reading

/-!
# rtnt - RICH_ACK packets

A session that has ids to acknowledge explicitly cuts their list into packets, and its peer
reads each list back and forgets the packets that it names.  This file follows the list
through both ends.  The lists that go out are the blocks of the queue; whatever order they
come in, and however often, the peer forgets exactly what was queued.  A payload that ends
before its list does is dropped as a whole.

Main results:

- Theorem {lit}`Session.checkForOldPackets_eq_eraseAll`: the effect of a payload is the
  erasure of the ids that it lists.
- Theorem {lit}`Session.rich_acks_arrive`: a flush loses and invents nothing.
- Theorem {lit}`Session.truncated_acknowledges_nothing`: what a payload acknowledges, for
  every byte string.

Current gaps:

- None.
-/

namespace Rtype.Rtnt

open Blocks
open Std (TreeMap)

namespace Endpoint

/-- A payload whose list cannot be read lists nothing. -/
theorem listedAcks_of_error {p q : Packet} {e : String} (hposition : p.readPosition = 0)
    (h : Packet.read Session.richAckShape p = .error e q) : listedAcks p.buffer = [] := by
  have hsame := Packet.read_oblivious Session.richAckShape p { buffer := p.buffer }
    ⟨rfl, hposition⟩
  rw [h] at hsame
  unfold listedAcks
  cases hread : Packet.read Session.richAckShape { buffer := p.buffer } with
  | ok acks q' =>
      rw [hread] at hsame
      exact hsame.elim
  | error e q' => rfl

end Endpoint

namespace Session

/-! ## The effect of a payload -/

/-- The ids that a datagram lists after its header. -/
def listedIn (d : Datagram) : List UInt32 :=
  Endpoint.listedAcks (d.bytes.drop Header.size)

/-- The packets that a payload lists are forgotten, and nothing else happens. -/
theorem checkForOldPackets_eq_eraseAll (s : Session) (rawData : ByteBuffer) (header : Header) :
    s.checkForOldPackets rawData header =
      { s with
        sentPackets := OrderedMap.eraseAll s.sentPackets
          (Endpoint.listedAcks (rawData.drop Header.size)) } := by
  simp only [checkForOldPackets]
  split_ifs with hlong
  · cases hread : Packet.read richAckShape
      ((Packet.new header.messageId header.flags).setPayload (rawData.drop Header.size)) with
    | ok acks p =>
        have hlisted := Endpoint.listedAcks_of_read rfl hread
        simp only [Packet.setPayload] at hlisted
        rw [hlisted]
        rfl
    | error e p =>
        have hlisted := Endpoint.listedAcks_of_error rfl hread
        simp only [Packet.setPayload] at hlisted
        rw [hlisted]
        rfl
  · have hempty : rawData.drop Header.size = [] := List.drop_eq_nil_of_le (by omega)
    have hlisted : Endpoint.listedAcks [] = [] := rfl
    rw [hempty, hlisted]
    rfl

/-- A peer runs `checkForOldPackets` on the datagrams as they come in. -/
def checkAll (s : Session) (arrivals : List Datagram) : Session :=
  arrivals.foldl (fun s d =>
    match Header.parse d.bytes with
    | .error _ => s
    | .ok header => s.checkForOldPackets d.bytes header) s

/-- Arrivals forget all that they list together. -/
theorem checkAll_eq_eraseAll (s : Session) {arrivals : List Datagram}
    (hparse : ∀ d ∈ arrivals, ∃ header, Header.parse d.bytes = .ok header) :
    s.checkAll arrivals =
      { s with
        sentPackets := OrderedMap.eraseAll s.sentPackets (arrivals.flatMap listedIn) } := by
  induction arrivals generalizing s with
  | nil => rfl
  | cons d rest ih =>
      rcases hparse d List.mem_cons_self with ⟨header, hheader⟩
      have hrest : ∀ d' ∈ rest, ∃ header, Header.parse d'.bytes = .ok header :=
        fun d' hd' => hparse d' (List.mem_cons_of_mem d hd')
      have hstep : s.checkAll (d :: rest) =
          (s.checkForOldPackets d.bytes header).checkAll rest := by
        rw [checkAll, List.foldl_cons, hheader]
        rfl
      rw [hstep, ih _ hrest, checkForOldPackets_eq_eraseAll, List.flatMap_cons,
        OrderedMap.eraseAll_append]
      rfl

/-! ## The flush of the queue -/

/-- The datagram carries a RICH_ACK packet with the given sequence id. -/
def IsRichAck (d : Datagram) (sequenceId : UInt32) : Prop :=
  ∃ header, Header.parse d.bytes = .ok header ∧
    header.messageId = SystemMessageId.kRichAck ∧ header.sequenceId = sequenceId

/-- The session has emitted one RICH_ACK packet for each list, numbered from the next
sequence id on. -/
structure EmitsLists (s s' : Session) (lists : List (List UInt32)) (new : List Datagram) :
    Prop where
  outbox_eq : s'.outbox = s.outbox ++ new
  lists_eq : new.map listedIn = lists
  numbered : ∀ i (hi : i < new.length), IsRichAck new[i] (s.localSequenceId + UInt32.ofNat i)
  next_eq : s'.localSequenceId = s.localSequenceId + UInt32.ofNat new.length

theorem EmitsLists.nil (s : Session) : EmitsLists s s [] [] where
  outbox_eq := (List.append_nil _).symm
  lists_eq := rfl
  numbered := by simp
  next_eq := by simp

/-- A list that fits its length field goes out in one packet. -/
theorem emitsLists_sendRichAck (s : Session) {acks : List UInt32} (hfew : acks.length ≤ 65535) :
    ∃ d, EmitsLists s (s.sendRichAck acks) [acks] [d] := by
  let p := blankRichAck.append (richAckShape.encode (richAckData acks))
  have hsend : s.sendRichAck acks = s.drawSequenceId.rawSend p s.localSequenceId 0 :=
    sendRichAck_eq s hfew
  have hlisted : Endpoint.listedAcks p.buffer = acks :=
    Endpoint.listedAcks_write rfl (write_blankRichAck hfew)
  let header := s.drawSequenceId.header p s.localSequenceId 0
  have hsize : header.packetSize.toNat ≤ p.buffer.length := by
    simp only [header, Session.header, UInt16.toNat_ofNat']
    exact Nat.mod_le _ _
  have hparse : Header.parse (header.wire ++ p.buffer) = .ok header :=
    Header.parse_wire rfl hsize
  rw [hsend]
  refine ⟨⟨s.self, header.wire ++ p.buffer⟩, ?_⟩
  constructor
  · rfl
  · rw [List.map_singleton, listedIn, List.drop_left' header.length_wire, hlisted]
  · intro i hi
    have hzero : i = 0 := by simpa using hi
    subst hzero
    refine ⟨header, hparse, rfl, ?_⟩
    simp [header, Session.header]
  · rfl

/-- Further packets carry on with the numbering. -/
theorem EmitsLists.cons {s s' s'' : Session} {acks : List UInt32} {lists : List (List UInt32)}
    {d : Datagram} {new : List Datagram} (hfirst : EmitsLists s s' [acks] [d])
    (hrest : EmitsLists s' s'' lists new) : EmitsLists s s'' (acks :: lists) (d :: new) where
  outbox_eq := by
    rw [hrest.outbox_eq, hfirst.outbox_eq, List.append_assoc, List.singleton_append]
  lists_eq := by
    have hd : listedIn d = acks := by simpa using hfirst.lists_eq
    rw [List.map_cons, hrest.lists_eq, hd]
  numbered := by
    intro i hi
    cases i with
    | zero => exact hfirst.numbered 0 (by simp)
    | succ i =>
        have hnext := hrest.numbered i (by simpa using hi)
        rw [hfirst.next_eq] at hnext
        have hid : s.localSequenceId + UInt32.ofNat 1 + UInt32.ofNat i =
            s.localSequenceId + UInt32.ofNat (i + 1) := by
          rw [Nat.add_comm i 1, UInt32.ofNat_add, add_assoc]
        rw [List.length_singleton, hid] at hnext
        exact hnext
  next_eq := by
    rw [hrest.next_eq, hfirst.next_eq, List.length_singleton, List.length_cons,
      Nat.add_comm new.length 1, UInt32.ofNat_add, add_assoc]

/-- The part of the list that one pass of the loop sends, and what it leaves. -/
theorem chunk_eq {acks : List UInt32} {processed : ℕ} :
    (acks.drop processed).take (min MAX_ACK_PER_PACKET (acks.length - processed)) =
        (acks.drop processed).take MAX_ACK_PER_PACKET ∧
      acks.drop (processed + min MAX_ACK_PER_PACKET (acks.length - processed)) =
        (acks.drop processed).drop MAX_ACK_PER_PACKET := by
  have hlen : (acks.drop processed).length = acks.length - processed := List.length_drop
  rw [← List.drop_drop, ← hlen]
  constructor
  · exact List.take_eq_take_min.symm
  · rcases le_total MAX_ACK_PER_PACKET (acks.drop processed).length with hle | hle
    · rw [Nat.min_eq_left hle]
    · rw [Nat.min_eq_right hle, List.drop_length, List.drop_eq_nil_of_le hle]

/-- The loop emits the blocks of what is left of the list. -/
theorem emitsLists_sendRichAcks (s : Session) (acks : List UInt32) (processed : ℕ) :
    ∃ new, EmitsLists s (s.sendRichAcks acks processed)
      (blocks MAX_ACK_PER_PACKET (acks.drop processed)) new := by
  fun_induction sendRichAcks s acks processed with
  | case1 s processed hmore chunkSize ih =>
      rcases ih with ⟨new, hnew⟩
      have hfew : ((acks.drop processed).take chunkSize).length ≤ 65535 := by
        have hmax : MAX_ACK_PER_PACKET = 256 := rfl
        rw [List.length_take]
        omega
      rcases emitsLists_sendRichAck s hfew with ⟨d, hd⟩
      have hne : acks.drop processed ≠ [] := by
        rw [Ne, List.drop_eq_nil_iff]
        omega
      refine ⟨d :: new, ?_⟩
      rw [blocks_of_ne_nil (by decide) hne, ← chunk_eq.1, ← chunk_eq.2]
      exact hd.cons hnew
  | case2 s processed hdone =>
      have hnil : acks.drop processed = [] := List.drop_eq_nil_of_le (by omega)
      rw [hnil, blocks_nil]
      exact ⟨[], .nil s⟩

/-- All that a flush of the queue does to the numbering, the queue and the network. -/
structure FlushesQueue (s s' : Session) (new : List Datagram) : Prop where
  outbox_eq : s'.outbox = s.outbox ++ new
  count : new.length = s.pendingRichAcks.length ⌈/⌉ MAX_ACK_PER_PACKET
  numbered : ∀ i (hi : i < new.length), IsRichAck new[i] (s.localSequenceId + UInt32.ofNat i)
  next_eq : s'.localSequenceId = s.localSequenceId + UInt32.ofNat new.length
  sizes : ∀ d ∈ new, 1 ≤ (listedIn d).length ∧ (listedIn d).length ≤ MAX_ACK_PER_PACKET
  lists_eq : new.flatMap listedIn = s.pendingRichAcks
  emptied : s'.pendingRichAcks = []

theorem flushesQueue_sendAck {s : Session} (hpending : s.pendingRichAcks ≠ []) :
    ∃ new, FlushesQueue s s.sendAck new := by
  rcases emitsLists_sendRichAcks s s.pendingRichAcks 0 with ⟨new, hnew⟩
  rw [List.drop_zero] at hnew
  have hsend : s.sendAck = { s.sendRichAcks s.pendingRichAcks 0 with pendingRichAcks := [] } := by
    rw [sendAck, if_pos (by simpa using hpending)]
  refine ⟨new, ?_⟩
  rw [hsend]
  constructor
  · exact hnew.outbox_eq
  · rw [← length_blocks, ← hnew.lists_eq, List.length_map]
  · exact hnew.numbered
  · exact hnew.next_eq
  · intro d hd
    have hlist : listedIn d ∈ blocks MAX_ACK_PER_PACKET s.pendingRichAcks := by
      rw [← hnew.lists_eq]
      exact List.mem_map_of_mem hd
    exact length_of_mem_blocks (by decide) hlist
  · rw [List.flatMap_def, hnew.lists_eq, flatten_blocks (by decide)]
  · rfl

/-- A flush loses and invents nothing: its packets carry the queue, in order and in chunks
of bounded size, and a peer that checks them all, in whatever order and however often,
forgets exactly the ids that were queued. -/
theorem rich_acks_arrive {s : Session} (hpending : s.pendingRichAcks ≠ []) :
    ∃ new, FlushesQueue s s.sendAck new ∧
      ∀ (peer : Session) (arrivals : List Datagram), (∀ d, d ∈ arrivals ↔ d ∈ new) →
        ∃ t, peer.checkAll arrivals = { peer with sentPackets := t } ∧
          ∀ id, t[id]? = if id ∈ s.pendingRichAcks then none else peer.sentPackets[id]? := by
  rcases flushesQueue_sendAck hpending with ⟨new, hnew⟩
  refine ⟨new, hnew, ?_⟩
  intro peer arrivals hsame
  have hparse : ∀ d ∈ arrivals, ∃ header, Header.parse d.bytes = .ok header := by
    intro d hd
    rcases List.getElem_of_mem ((hsame d).mp hd) with ⟨i, hi, rfl⟩
    rcases hnew.numbered i hi with ⟨header, hheader, -⟩
    exact ⟨header, hheader⟩
  refine ⟨_, peer.checkAll_eq_eraseAll hparse, ?_⟩
  intro id
  -- the order and the repetitions are gone once the lists are seen as one set of ids
  have hlisted : id ∈ arrivals.flatMap listedIn ↔ id ∈ s.pendingRichAcks := by
    rw [← hnew.lists_eq, List.mem_flatMap, List.mem_flatMap]
    constructor
    · rintro ⟨d, hd, hid⟩
      exact ⟨d, (hsame d).mp hd, hid⟩
    · rintro ⟨d, hd, hid⟩
      exact ⟨d, (hsame d).mpr hd, hid⟩
  rw [OrderedMap.getElem?_eraseAll]
  simp only [hlisted]

/-- A queue in which an id stands twice. -/
theorem rich_acks_arrive_repeated :
    let s := { Session.new 1 (Stream'.const 0) with pendingRichAcks := [7, 9, 7] }
    ∃ new, FlushesQueue s s.sendAck new ∧
      ∀ (peer : Session) (arrivals : List Datagram), (∀ d, d ∈ arrivals ↔ d ∈ new) →
        ∃ t, peer.checkAll arrivals = { peer with sentPackets := t } ∧
          ∀ id, t[id]? = if id ∈ s.pendingRichAcks then none else peer.sentPackets[id]? :=
  rich_acks_arrive (List.cons_ne_nil 7 [9, 7])

/-! ## Truncated payloads -/

/-- The number of ids that a payload announces: its first two bytes, the most significant
one first. -/
def announcedCount (payload : ByteBuffer) : ℕ :=
  ByteOrder.ofDigits (payload.take 2).reverse

/-- Id number {lit}`i` of a payload: four bytes, the most significant one first. -/
def announcedId (payload : ByteBuffer) (i : ℕ) : UInt32 :=
  UInt32.ofNat (ByteOrder.ofDigits ((payload.drop (2 + 4 * i)).take 4).reverse)

/-- The ids that a payload announces. -/
def announcedAcks (payload : ByteBuffer) : List UInt32 :=
  (List.range (announcedCount payload)).map (announcedId payload)

/-- The payload is too short for its count, or ends before the announced number of ids. -/
def Truncated (payload : ByteBuffer) : Prop :=
  payload.length < 2 ∨ payload.length < 2 + 4 * announcedCount payload

/-- Every value of the shape is a list of acks. -/
theorem exists_richAckData (data : richAckShape.Val) : ∃ acks, data = richAckData acks := by
  let words : List (BitVec 32) := data.1
  have hwords : (words.map UInt32.ofBitVec).map UInt32.toBitVec = words := by
    simp [List.map_map, Function.comp_def]
  have hdata : data = (words, ()) := rfl
  rw [← hwords] at hdata
  exact ⟨words.map UInt32.ofBitVec, hdata⟩

/-- The acks of a value are read back from it. -/
theorem acks_richAckData (acks : List UInt32) :
    (richAckData acks).1.map UInt32.ofBitVec = acks := by
  have hacks : (acks.map UInt32.toBitVec).map UInt32.ofBitVec = acks := by
    simp [List.map_map, Function.comp_def]
  exact hacks

/-- The wire form of a list of acks. -/
theorem encode_richAckData (acks : List UInt32) :
    richAckShape.encode (richAckData acks) =
      encodeSize acks.length ++
        acks.flatMap fun id => (ByteOrder.bytes (n := 4) id.toBitVec).reverse := by
  have hencode : richAckShape.encode (richAckData acks) =
      encodeSize (acks.map UInt32.toBitVec).length ++
        (acks.map UInt32.toBitVec).flatMap fun item =>
          (ByteOrder.bytes (n := 4) item).reverse := by
    simp only [richAckShape, richAckData, Shape.encode, Shape.encodeFields, List.append_nil]
    rfl
  rw [hencode, List.length_map, List.flatMap_map]

/-- A length prefix is read back from the front of a payload. -/
theorem announcedCount_encodeSize {size : ℕ} (hsize : size ≤ 65535) (rest : ByteBuffer) :
    announcedCount (encodeSize size ++ rest) = size := by
  rw [announcedCount, List.take_left' (length_encodeSize size), encodeSize, List.reverse_reverse,
    ByteOrder.bytes, BitVec.toNat_ofNat, Nat.mod_eq_of_lt (by omega)]
  exact ByteOrder.ofDigits_digits (by omega)

/-- The front of a payload is the length prefix of what it announces. -/
theorem encodeSize_announcedCount {payload : ByteBuffer} (hlong : 2 ≤ payload.length) :
    encodeSize (announcedCount payload) = payload.take 2 := by
  have hlen : (payload.take 2).reverse.length = 2 := by
    rw [List.length_reverse, List.length_take]
    omega
  have hbytes := ByteOrder.bytes_ofBytes hlen
  rw [ByteOrder.ofBytes] at hbytes
  rw [encodeSize, announcedCount, hbytes, List.reverse_reverse]

/-- The bytes of an announced id. -/
theorem bytes_announcedId {payload : ByteBuffer} {i : ℕ} (hlong : 2 + 4 * i + 4 ≤ payload.length) :
    (ByteOrder.bytes (n := 4) (announcedId payload i).toBitVec).reverse =
      (payload.drop (2 + 4 * i)).take 4 := by
  have hlen : ((payload.drop (2 + 4 * i)).take 4).reverse.length = 4 := by
    rw [List.length_reverse, List.length_take, List.length_drop]
    omega
  have hbytes := ByteOrder.bytes_ofBytes hlen
  rw [ByteOrder.ofBytes] at hbytes
  have hid : (announcedId payload i).toBitVec =
      BitVec.ofNat (8 * 4) (ByteOrder.ofDigits ((payload.drop (2 + 4 * i)).take 4).reverse) := rfl
  rw [hid, hbytes, List.reverse_reverse]

/-- A payload that is long enough begins with the wire form of what it announces. -/
theorem encode_announcedAcks {payload : ByteBuffer} (hlong : ¬ Truncated payload) :
    ∃ rest, payload = richAckShape.encode (richAckData (announcedAcks payload)) ++ rest := by
  rw [Truncated, not_or, not_lt, not_lt] at hlong
  rcases hlong with ⟨htwo, hall⟩
  let count := announcedCount payload
  let body := (payload.drop 2).take (4 * count)
  have hblock : ∀ i ∈ List.range count,
      (ByteOrder.bytes (n := 4) (announcedId payload i).toBitVec).reverse = block 4 body i := by
    intro i hi
    have hlt : i < count := List.mem_range.mp hi
    have hfour : 4 ≤ 4 * count - 4 * i := by omega
    rw [bytes_announcedId (by omega), block, List.drop_take, List.take_take, List.drop_drop,
      Nat.min_eq_left hfour]
  have hbody : (announcedAcks payload).flatMap
      (fun id => (ByteOrder.bytes (n := 4) id.toBitVec).reverse) = body := by
    rw [announcedAcks, List.flatMap_map, List.flatMap_congr hblock]
    apply flatMap_range_block
    rw [List.length_take]
    exact Nat.min_le_left _ _
  have hcount : (announcedAcks payload).length = count := by
    rw [announcedAcks, List.length_map, List.length_range]
  refine ⟨(payload.drop 2).drop (4 * count), ?_⟩
  rw [encode_richAckData, hbody, hcount, encodeSize_announcedCount htwo, List.append_assoc,
    List.take_append_drop, List.take_append_drop]

/-- The wire form of a list of acks is not truncated. -/
theorem not_truncated_encode {acks : List UInt32} (hfew : acks.length ≤ 65535)
    (rest : ByteBuffer) : ¬ Truncated (richAckShape.encode (richAckData acks) ++ rest) := by
  have hwords : (acks.flatMap fun id =>
      (ByteOrder.bytes (n := 4) id.toBitVec).reverse).length = 4 * acks.length := by
    rw [List.length_flatMap]
    simp [mul_comm]
  rw [encode_richAckData, List.append_assoc, Truncated, announcedCount_encodeSize hfew,
    List.length_append, List.length_append, length_encodeSize, hwords]
  omega

/-- A list that can be read is not truncated. -/
theorem not_truncated_of_read {p q : Packet} {acks : richAckShape.Val}
    (hposition : p.readPosition = 0) (h : Packet.read richAckShape p = .ok acks q) :
    ¬ Truncated p.buffer := by
  have hsound := Packet.read_sound richAckShape ⟨Nat.succ_pos 3, trivial⟩ p
  rw [h] at hsound
  rcases hsound with ⟨bs, rest, hunread, ⟨hfits, rfl⟩, -⟩
  rw [Packet.unread, hposition, List.drop_zero] at hunread
  rcases exists_richAckData acks with ⟨ids, rfl⟩
  have hfew : (ids.map UInt32.toBitVec).length ≤ 65535 := hfits.1.1
  rw [List.length_map] at hfew
  rw [hunread]
  exact not_truncated_encode hfew rest

theorem length_announcedAcks_le (payload : ByteBuffer) :
    (announcedAcks payload).length ≤ 65535 := by
  have hlt := ByteOrder.ofDigits_lt (payload.take 2).reverse
  have hlen : (payload.take 2).reverse.length ≤ 2 := by
    rw [List.length_reverse, List.length_take]
    exact Nat.min_le_left _ _
  have hpow : 256 ^ (payload.take 2).reverse.length ≤ 256 ^ 2 :=
    Nat.pow_le_pow_right (by norm_num) hlen
  rw [announcedAcks, List.length_map, List.length_range, announcedCount]
  omega

/-- A payload that is not truncated can be read, and lists what it announces. -/
theorem read_of_not_truncated {p : Packet} (hposition : p.readPosition = 0)
    (hlong : ¬ Truncated p.buffer) :
    ∃ q, Packet.read richAckShape p = .ok (richAckData (announcedAcks p.buffer)) q := by
  rcases encode_announcedAcks hlong with ⟨rest, hbuffer⟩
  have hfew : ((announcedAcks p.buffer).map UInt32.toBitVec).length ≤ 65535 := by
    rw [List.length_map]
    exact length_announcedAcks_le p.buffer
  have hfits : richAckShape.Fits (richAckData (announcedAcks p.buffer)) :=
    ⟨⟨hfew, fun _ _ => trivial⟩, trivial⟩
  have hunread : p.unread = richAckShape.encode (richAckData (announcedAcks p.buffer)) ++ rest := by
    rw [Packet.unread, hposition, List.drop_zero]
    exact hbuffer
  have hbounds : p.InBounds := by
    rw [Packet.InBounds, hposition]
    exact Nat.zero_le _
  exact ⟨_, Packet.read_consumes richAckShape _ hfits p rest hbounds hunread⟩

/-- The packet that `checkForOldPackets` reads its list from. -/
def listPacket (rawData : ByteBuffer) (header : Header) : Packet :=
  (Packet.new header.messageId header.flags).setPayload (rawData.drop Header.size)

/-- For every byte string after the header: when it is truncated, reading it throws, the
exception is caught and the session is as it was; when it is not, nothing is thrown and
exactly the announced ids are forgotten, whatever follows them. -/
theorem truncated_acknowledges_nothing (s : Session) (rawData : ByteBuffer) (header : Header) :
    let payload := rawData.drop Header.size
    (Truncated payload →
      (∃ e q, Packet.read richAckShape (listPacket rawData header) = .error e q) ∧
        s.checkForOldPackets rawData header = s) ∧
    (¬ Truncated payload →
      (∃ q, Packet.read richAckShape (listPacket rawData header) =
        .ok (richAckData (announcedAcks payload)) q) ∧
      ∃ t, s.checkForOldPackets rawData header = { s with sentPackets := t } ∧
        ∀ id, t[id]? = if id ∈ announcedAcks payload then none else s.sentPackets[id]?) := by
  simp only
  constructor
  · intro htruncated
    cases hread : Packet.read richAckShape (listPacket rawData header) with
    | ok acks q => exact absurd htruncated (not_truncated_of_read rfl hread)
    | error e q =>
        have hlisted := Endpoint.listedAcks_of_error rfl hread
        rw [listPacket, Packet.setPayload] at hlisted
        refine ⟨⟨e, q, rfl⟩, ?_⟩
        rw [checkForOldPackets_eq_eraseAll, hlisted]
        rfl
  · intro hlong
    rcases read_of_not_truncated (p := listPacket rawData header) rfl hlong with ⟨q, hread⟩
    have hlisted := Endpoint.listedAcks_of_read rfl hread
    rw [acks_richAckData] at hlisted
    refine ⟨⟨q, hread⟩, _, checkForOldPackets_eq_eraseAll s rawData header, ?_⟩
    intro id
    rw [OrderedMap.getElem?_eraseAll]
    have hsame : Endpoint.listedAcks (rawData.drop Header.size) =
        announcedAcks (rawData.drop Header.size) := hlisted
    rw [hsame]

end Session

end Rtype.Rtnt
