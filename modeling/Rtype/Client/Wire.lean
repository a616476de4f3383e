import Mathlib
import Rtype.Client.Handlers
import Rtype.Common.Messages

/-!
# Client - The packets of a lobby on the wire

A lobby puts packets into a queue; the server makes structs of them and sends those over the
session of each receiver.  The callbacks of the client get the structs back and queue the
handlers.  In between are the payload, the header, the network and the dispatcher.

Main results:

- Function {lit}`toMessage`: the struct of a packet.
- Theorem {lit}`dispatch_variant`: the payload of a packet calls the callback with the packet.
- Theorem {lit}`lobby_packets_arrive`: the client handles the packets that the lobby sent.

Current gaps:

- None.
-/

namespace Rtype.Client

open Rtype.Rtnt Rtype.Common Rtype.Server Transition

/-! ## Structs -/

/-- An unsigned number in a field. -/
def field (size n : ℕ) : (Shape.scalar size).Val :=
  BitVec.ofNat (8 * size) n

/-- The number in a field. -/
def number {size : ℕ} (data : (Shape.scalar size).Val) : ℕ :=
  BitVec.toNat data

theorem number_field {size n : ℕ} (h : n < 2 ^ (8 * size)) : number (field size n) = n := by
  rw [number, field, BitVec.toNat_ofNat, Nat.mod_eq_of_lt h]

/-- Numbers in a vector. -/
def fieldList (size : ℕ) (ns : List ℕ) : (Shape.vector (.scalar size)).Val :=
  ns.map (field size)

/-- The numbers in a vector. -/
def numberList {size : ℕ} (data : (Shape.vector (.scalar size)).Val) : List ℕ :=
  List.map number data

theorem numberList_fieldList {size : ℕ} {ns : List ℕ} (h : ∀ n ∈ ns, n < 2 ^ (8 * size)) :
    numberList (fieldList size ns) = ns := by
  have hmap : numberList (fieldList size ns) = ns.map fun n => number (field size n) :=
    List.map_map
  rw [hmap]
  exact (List.map_congr_left fun n hn => number_field (h n hn)).trans (List.map_id' ns)

/-- Bytes in a vector. -/
def fieldBytes (bs : List UInt8) : (Shape.vector (.scalar 1)).Val :=
  bs.map UInt8.toBitVec

/-- The bytes in a vector. -/
def byteList (data : (Shape.vector (.scalar 1)).Val) : List UInt8 :=
  List.map UInt8.ofBitVec data

theorem byteList_fieldBytes (bs : List UInt8) : byteList (fieldBytes bs) = bs := by
  have hmap : byteList (fieldBytes bs) = bs.map fun b => UInt8.ofBitVec b.toBitVec :=
    List.map_map
  rw [hmap]
  exact List.map_id' bs

/-- The struct of a packet. -/
def toMessage : Variant → Message
  | .destroy packet => ⟨Messages.destroy, (field 8 packet.id, field 4 packet.earnedPoints, ())⟩
  | .joinAck packet =>
      ⟨Messages.joinAck, (field 8 packet.id, field 2 packet.roomId, field 8 packet.gameState,
        field 1 packet.status.toNat, ())⟩
  | .spawn packet =>
      ⟨Messages.spawn, (field 8 packet.id, fieldList 8 packet.bitmask,
        fieldBytes packet.content, ())⟩
  | .updateGameState gameState => ⟨Messages.updateGameState, (field 8 gameState, ())⟩
  | .worldInit packet =>
      ⟨Messages.worldInit, (field 1 packet.state, packet.bitsets.map (fieldList 8),
        fieldList 8 packet.ids, packet.entities.map fieldBytes, ())⟩

/-- The numbers of a packet are in range for their fields. -/
def InRange : Variant → Prop
  | .destroy packet => packet.id < 2 ^ 64 ∧ packet.earnedPoints < 2 ^ 32
  | .joinAck packet => packet.id < 2 ^ 64 ∧ packet.roomId < 2 ^ 16 ∧ packet.gameState < 2 ^ 64
  | .spawn packet => packet.id < 2 ^ 64 ∧ ∀ n ∈ packet.bitmask, n < 2 ^ 64
  | .updateGameState gameState => gameState < 2 ^ 64
  | .worldInit packet =>
      packet.state < 2 ^ 8 ∧ (∀ bitset ∈ packet.bitsets, ∀ n ∈ bitset, n < 2 ^ 64) ∧
        ∀ id ∈ packet.ids, id < 2 ^ 64

/-- A packet that can be sent: its numbers are in range, and its lists are not too long. -/
def Sendable (packet : Variant) : Prop :=
  InRange packet ∧ Shape.FitsFields (toMessage packet).1.fields (toMessage packet).2

/-! ## Callbacks -/

/-- The callbacks of {lit}`App::registerAllCallbacks` for the packets of a lobby; what they
queue is the packet with its handler. -/
def callbacks : List (Binding Variant) :=
  [{ type := Messages.destroy
     callback := fun (id, points, ()) => .destroy ⟨number id, number points⟩ },
   { type := Messages.joinAck
     callback := fun (id, roomId, gameState, status, ()) =>
      .joinAck ⟨number id, number roomId, number gameState, number status != 0⟩ },
   { type := Messages.spawn
     callback := fun (id, bitmask, content, ()) =>
      .spawn ⟨number id, numberList bitmask, byteList content⟩ },
   { type := Messages.updateGameState
     callback := fun (gameState, ()) => .updateGameState (number gameState) },
   { type := Messages.worldInit
     callback := fun (state, bitsets, ids, entities, ()) =>
      .worldInit ⟨number state, List.map numberList bitsets, numberList ids,
        List.map byteList entities⟩ }]

theorem nodup_callbacks : (callbacks.map fun binding => binding.type.kId).Nodup := by
  decide


theorem callbacks_protocol {binding : Binding Variant} (h : binding ∈ callbacks) :
    binding.type ∈ Messages.protocol := by
  apply List.subset_append_left Messages.boundByClient
  simp only [callbacks, List.mem_cons, List.not_mem_nil, or_false] at h
  rcases h with rfl | rfl | rfl | rfl | rfl <;> simp [Messages.boundByClient]

/-- The callback of a packet's struct. -/
def bindingOf : Variant → Binding Variant
  | .destroy _ => callbacks[0]
  | .joinAck _ => callbacks[1]
  | .spawn _ => callbacks[2]
  | .updateGameState _ => callbacks[3]
  | .worldInit _ => callbacks[4]

theorem bindingOf_mem (packet : Variant) : bindingOf packet ∈ callbacks := by
  cases packet with
  | destroy packet => exact List.getElem_mem _
  | joinAck packet => exact List.getElem_mem _
  | spawn packet => exact List.getElem_mem _
  | updateGameState gameState => exact List.getElem_mem _
  | worldInit packet => exact List.getElem_mem _

theorem map_numberList {size : ℕ} {rows : List (List ℕ)}
    (h : ∀ row ∈ rows, ∀ n ∈ row, n < 2 ^ (8 * size)) :
    List.map numberList (rows.map (fieldList size)) = rows := by
  rw [List.map_map]
  exact (List.map_congr_left fun row hrow => numberList_fieldList (h row hrow)).trans
    (List.map_id' rows)

theorem map_byteList (rows : List (List UInt8)) :
    List.map byteList (rows.map fieldBytes) = rows := by
  rw [List.map_map]
  exact (List.map_congr_left fun row _ => byteList_fieldBytes row).trans (List.map_id' rows)

/-- The struct of a packet is the one of its callback, and the callback gets the packet. -/
theorem callback_toMessage {packet : Variant} (h : InRange packet) :
    ∃ data : Shape.Vals (bindingOf packet).type.fields,
      toMessage packet = ⟨(bindingOf packet).type, data⟩ ∧
        (bindingOf packet).callback data = packet := by
  cases packet with
  | destroy packet =>
      refine ⟨_, rfl, ?_⟩
      change Variant.destroy ⟨number (field 8 packet.id),
        number (field 4 packet.earnedPoints)⟩ = _
      rw [number_field h.1, number_field h.2]
  | joinAck packet =>
      refine ⟨_, rfl, ?_⟩
      have hstatus : (number (field 1 packet.status.toNat) != 0) = packet.status := by
        cases packet.status with
        | false => rfl
        | true => rfl
      change Variant.joinAck ⟨number (field 8 packet.id), number (field 2 packet.roomId),
        number (field 8 packet.gameState), number (field 1 packet.status.toNat) != 0⟩ = _
      rw [number_field h.1, number_field h.2.1, number_field h.2.2, hstatus]
  | spawn packet =>
      refine ⟨_, rfl, ?_⟩
      change Variant.spawn ⟨number (field 8 packet.id), numberList (fieldList 8 packet.bitmask),
        byteList (fieldBytes packet.content)⟩ = _
      rw [number_field h.1, numberList_fieldList h.2, byteList_fieldBytes]
  | updateGameState gameState =>
      refine ⟨_, rfl, ?_⟩
      change Variant.updateGameState (number (field 8 gameState)) = _
      rw [number_field h]
  | worldInit packet =>
      refine ⟨_, rfl, ?_⟩
      change Variant.worldInit ⟨number (field 1 packet.state),
        List.map numberList (packet.bitsets.map (fieldList 8)),
        numberList (fieldList 8 packet.ids),
        List.map byteList (packet.entities.map fieldBytes)⟩ = _
      rw [number_field h.1, map_numberList h.2.1, numberList_fieldList h.2.2, map_byteList]

/-- A packet with the payload of a struct calls the callback of the struct with its values. -/
theorem dispatch_variant {packet : Variant} (hpacket : Sendable packet) {p : Packet}
    (hid : p.messageId = (toMessage packet).1.kId)
    (hbuffer : p.buffer = Shape.encodeFields (toMessage packet).1.fields (toMessage packet).2)
    (hposition : p.readPosition = 0) :
    (Dispatcher.bindAll callbacks).dispatch p = some packet := by
  rcases callback_toMessage hpacket.1 with ⟨data, hmessage, hcallback⟩
  have hfits := hpacket.2
  rw [hmessage] at hid hbuffer hfits
  have hsame : ∀ binding ∈ callbacks,
      binding.type.kId = (bindingOf packet).type.kId → binding = bindingOf packet := by
    intro binding hbinding hequal
    exact List.inj_on_of_nodup_map nodup_callbacks hbinding (bindingOf_mem packet) hequal
  rw [Dispatcher.dispatch_of_mem (bindingOf_mem packet) hsame hfits hid hbuffer hposition,
    hcallback]

/-! ## Runs of the link -/

/-- The server sends structs of the game; those with the ids of a lobby's packets it makes of
such packets. -/
def SendsVariants (_ : Link) : Side × Action → Prop
  | (j, .send p) => j = .b → ∃ message : Message, message.1 ∈ Messages.protocol ∧
      Shape.FitsFields message.1.fields message.2 ∧ message.pack = .ok p ∧
      ((∃ binding ∈ callbacks, binding.type.kId = message.1.kId) →
        ∃ packet, Sendable packet ∧ message = toMessage packet)
  | (_, .update) => True
  | (_, .receive _) => True
  | (_, .disconnect) => True


variable {target : LeftShift} {w : Link}

theorem sendsMessages_of_run (h : Link.Run target SendsVariants w) :
    Link.Run target (Link.SendsMessages Messages.protocol .b) w := by
  apply Reachable.project (f := fun w => w) h
  · intro w hw
    exact hw
  · intro w x _ hx
    rcases x with ⟨j, a⟩
    right
    refine ⟨(j, a), ⟨hx.1, ?_⟩, rfl⟩
    cases a with
    | send p =>
        intro hj
        rcases hx.2 hj with ⟨message, htype, hfits, hpack, -⟩
        exact ⟨message, htype, hfits, hpack⟩
    | receive d => trivial
    | update => trivial
    | disconnect => trivial

/-- Whatever the server has sent with an id of a lobby's packets is one of them. -/
theorem sent_variants (h : Link.Run target SendsVariants w) :
    ∀ r ∈ (w .b).sent, (∃ binding ∈ callbacks, binding.type.kId = r.packet.messageId) →
      ∃ packet, Sendable packet ∧ (toMessage packet).pack = .ok r.packet := by
  apply h.invariant (P := fun w => ∀ r ∈ (w .b).sent,
    (∃ binding ∈ callbacks, binding.type.kId = r.packet.messageId) →
      ∃ packet, Sendable packet ∧ (toMessage packet).pack = .ok r.packet)
  · rintro w ⟨clock, rfl⟩ r hr
    cases hr
  · intro w x _ hx ih
    rcases x with ⟨j, a⟩
    by_cases hj : Side.b = j
    · subst hj
      rw [Link.step_same]
      cases a with
      | send p =>
          intro r hr hbound
          rcases List.mem_append.mp hr with hr | hr
          · exact ih r hr hbound
          · rcases hx.2 rfl with ⟨message, -, hfits, hpack, hvariant⟩
            rw [List.mem_singleton.mp hr] at hbound ⊢
            change ∃ binding ∈ callbacks, binding.type.kId = p.messageId at hbound
            rw [(Message.pack_eq hfits hpack).1] at hbound
            rcases hvariant hbound with ⟨packet, hpacket, rfl⟩
            exact ⟨packet, hpacket, hpack⟩
      | receive d => exact ih
      | update => exact ih
      | disconnect => exact ih
    · rw [Link.step_other hj]
      exact ih

/-- The callbacks handle a copy of a packet's struct as the packet. -/
theorem dispatch_of_copy (h : Link.Run target SendsVariants w) {x : Incoming}
    (hx : x ∈ (w .a).accepted) {r : SentRecord} (hcopy : Endpoint.IsCopy x r) {packet : Variant}
    (hpacket : Sendable packet) (hpack : (toMessage packet).pack = .ok r.packet) :
    (Dispatcher.bindAll callbacks).dispatch x.packet = some packet := by
  rcases Message.pack_eq hpacket.2 hpack with ⟨hid, -, hbuffer⟩
  rcases (h.endpoint_free .a).acceptedReceived x hx with ⟨d, -, -, hxd⟩
  apply dispatch_variant hpacket
  · rw [hcopy.messageId_eq, hid]
  · rw [hcopy.buffer_eq, hbuffer]
  · rw [hxd]
    rfl

/-- In every run of the link between a server and a client, with any interleaving and with
datagrams that are lost, delayed, reordered and repeated: the client hands over what it has
accepted in that order; a handler of a lobby's packets is queued only with a packet that the
server has sent, with every value as it was put in; and each accepted copy of such a packet is
handed over and queues its handler with it. -/
theorem lobby_packets_arrive (target : LeftShift) {w : Link}
    (h : Link.Run target SendsVariants w) :
    (w .a).returned = (w .a).accepted.filter Endpoint.isPassedOn ∧
      (∀ x ∈ (w .a).returned, ∀ packet,
        (Dispatcher.bindAll callbacks).dispatch x.packet = some packet →
          Sendable packet ∧ ∃ r ∈ (w .b).sent, Endpoint.IsCopy x r ∧
            (toMessage packet).pack = .ok r.packet) ∧
      ∀ x ∈ (w .a).accepted, ∀ r ∈ (w .b).sent, Endpoint.IsCopy x r →
        ∀ packet, Sendable packet → (toMessage packet).pack = .ok r.packet →
          x ∈ (w .a).returned ∧
            (Dispatcher.bindAll callbacks).dispatch x.packet = some packet := by
  have harrive := Link.messages_arrive Messages.plain_protocol Messages.nodup_kId
    (Messages.bound_subset .a) (sendsMessages_of_run h)
  have hreturned : (w .a).returned = (w .a).accepted.filter Endpoint.isPassedOn := harrive.1
  refine ⟨hreturned, ?_, ?_⟩
  · intro x hx packet hhandled
    rw [hreturned, List.mem_filter] at hx
    rcases h.accepted_origin hx.1 with ⟨r, hr, hcopy⟩ | ⟨index, p, -, -, hack⟩
    · by_cases hbound : ∃ binding ∈ callbacks, binding.type.kId = r.packet.messageId
      · rcases sent_variants h r hr hbound with ⟨sent, hsent, hpack⟩
        rw [dispatch_of_copy h hx.1 hcopy hsent hpack, Option.some.injEq] at hhandled
        subst hhandled
        exact ⟨hsent, r, hr, hcopy, hpack⟩
      · have hnone : (Dispatcher.bindAll callbacks).dispatch x.packet = none := by
          apply Dispatcher.dispatch_of_unbound
          intro binding hbinding hid
          rw [hcopy.messageId_eq] at hid
          exact hbound ⟨binding, hbinding, hid⟩
        rw [hnone] at hhandled
        cases hhandled
    · have hnone : (Dispatcher.bindAll callbacks).dispatch x.packet = none := by
        apply Dispatcher.dispatch_of_unbound
        intro binding hbinding hid
        rw [hack.messageId_eq] at hid
        have hplain := Messages.plain_protocol _ (callbacks_protocol hbinding)
        rcases hack.isAckPacket.messageId_mem with hack | hack
        · exact hplain.notAck (hid.trans hack)
        · exact hplain.notRichAck (hid.trans hack)
      rw [hnone] at hhandled
      cases hhandled
  · intro x hx r hr hcopy packet hpacket hpack
    exact ⟨(harrive.2.2 x hx r hr hcopy).1, dispatch_of_copy h hx hcopy hpacket hpack⟩

/-- The end of the game: the server sends it once, and the datagram arrives. -/
def ending : Link :=
  let w := Link.step .x86 (Link.new Link.stillClock)
    (.b, .send ((Packet.new 0x157 Flag.kReliable 1).append [0, 0, 0, 0, 0, 0, 0, 3]))
  Link.step .x86 w (.a, .receive (Link.emitted w .b 0))

/-- The packet is accepted, and the handler is queued with the state of the game. -/
theorem lobby_packets_arrive_ending :
    (ending .a).accepted.length = 1 ∧
      ∀ x ∈ (ending .a).accepted, ∀ r ∈ (ending .b).sent, Endpoint.IsCopy x r →
        ∀ packet, Sendable packet → (toMessage packet).pack = .ok r.packet →
          x ∈ (ending .a).returned ∧
            (Dispatcher.bindAll callbacks).dispatch x.packet = some packet := by
  have hpack : ∃ message : Message, message.1 ∈ Messages.protocol ∧
      Shape.FitsFields message.1.fields message.2 ∧
      message.pack = .ok ((Packet.new 0x157 Flag.kReliable 1).append [0, 0, 0, 0, 0, 0, 0, 3]) ∧
      ((∃ binding ∈ callbacks, binding.type.kId = message.1.kId) →
        ∃ packet, Sendable packet ∧ message = toMessage packet) :=
    ⟨toMessage (.updateGameState 3),
      by simp [toMessage, Messages.protocol, Messages.boundByClient], ⟨trivial, trivial⟩, rfl,
      fun _ => ⟨.updateGameState 3, ⟨by simp [InRange], ⟨trivial, trivial⟩⟩, rfl⟩⟩
  have hrun : Link.Run .x86 SendsVariants ending :=
    ((Link.run_new Link.stillClock).send fun _ => hpack).receive (by decide) trivial
  exact ⟨rfl, (lobby_packets_arrive .x86 hrun).2.2⟩

end Rtype.Client
