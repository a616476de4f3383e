import Mathlib
import Rtype.Rtnt.Dispatcher

/-!
# Common - The messages of the game

The structs that the two programs exchange, with their ids, flags and fields, and the structs
that each program binds.  Some more are bound by the library itself.

Main results:

- The packet structs, under the names of the source, and {lit}`protocol`.
- Theorem {lit}`game_messages_arrive`: what a program handles is what the other one sent.

Current gaps:

- None.
-/

namespace Rtype.Common.Messages

open Rtype.Rtnt

/-! ## The structs of the library -/

def connect : PacketType :=
  { kId := SystemMessageId.kConnect, kChannel := INTERNAL_CHANNEL_ID, fields := [] }

def connectAck : PacketType :=
  { kId := SystemMessageId.kConnectAck, kChannel := INTERNAL_CHANNEL_ID, fields := [.scalar 4] }

def disconnect : PacketType :=
  { kId := SystemMessageId.kDisconnect, kChannel := INTERNAL_CHANNEL_ID, fields := [] }

/-! ## The structs of the client -/

/-- The name of the user, and the room. -/
def join : PacketType :=
  { kId := 0x128, fields := [.string, .scalar 2] }

def start : PacketType :=
  { kId := 0x129, fields := [] }

/-- The mask of the keys. -/
def userInput : PacketType :=
  { kId := 0x12A, fields := [.scalar 1] }

/-- The page. -/
def lobbyList : PacketType :=
  { kId := 0x159, kFlag := Flag.kReliable, fields := [.scalar 4] }

/-! ## The structs of the server -/

/-- The entity, the room, the game state and the status. -/
def joinAck : PacketType :=
  { kId := 0x150, kFlag := Flag.kReliable
    fields := [.scalar 8, .scalar 2, .scalar 8, .scalar 1] }

/-- The entity, the indexes of its mask and its content. -/
def spawn : PacketType :=
  { kId := 0x152, kFlag := Flag.kReliable
    fields := [.scalar 8, .vector (.scalar 8), .vector (.scalar 1)] }

/-- The entity, and the points that were earned. -/
def destroy : PacketType :=
  { kId := 0x153, fields := [.scalar 8, .scalar 4] }

/-- The entity and its state. -/
def updateEntityState : PacketType :=
  { kId := 0x154, kFlag := Flag.kReliable, fields := [.scalar 8, .scalar 1] }

/-- The entity, its position and its velocity. -/
def updatePosition : PacketType :=
  { kId := 0x155, fields := [.scalar 8, .scalar 4, .scalar 4, .scalar 4, .scalar 4] }

/-- The entity and its health. -/
def updateHealth : PacketType :=
  { kId := 0x156, fields := [.scalar 8, .scalar 4] }

/-- The game state. -/
def updateGameState : PacketType :=
  { kId := 0x157, kFlag := Flag.kReliable, fields := [.scalar 8] }

/-- The game state, and the masks, the ids and the contents of the entities. -/
def worldInit : PacketType :=
  { kId := 0x158, kFlag := Flag.kReliable
    fields := [.scalar 1, .vector (.vector (.scalar 8)), .vector (.scalar 8),
      .vector (.vector (.scalar 1))] }

/-- The rooms of a page, the page and the last page. -/
def lobbyListAck : PacketType :=
  { kId := 0x15A, kFlag := Flag.kReliable
    fields := [.vector (.scalar 2), .scalar 4, .scalar 4] }

/-! ## The programs -/

/-- What the client binds: the constructor of {lit}`Dispatcher`, {lit}`core::Client`, and
{lit}`App::registerAllCallbacks`. -/
def boundByClient : List PacketType :=
  [connect, disconnect, connectAck, destroy, joinAck, lobbyListAck, spawn, updateEntityState,
    updateGameState, updateHealth, updatePosition, worldInit]

/-- What the server binds: the constructor of {lit}`Dispatcher`, and
{lit}`App::registerCallbacks`. -/
def boundByServer : List PacketType :=
  [connect, disconnect, userInput, join, start, lobbyList]

/-- The structs of both. -/
def protocol : List PacketType :=
  boundByClient ++ [userInput, join, start, lobbyList]

/-- The ids of the structs are different. -/
theorem nodup_kId : (protocol.map PacketType.kId).Nodup := by
  decide

theorem plain_protocol : ∀ type ∈ protocol, Link.Plain type := by
  intro type htype
  have hall : (protocol.map fun type => isOrdered type.kFlag || type.kId == SystemMessageId.kAck ||
      type.kId == SystemMessageId.kRichAck).all (· == false) := by
    decide
  rw [List.all_map, List.all_eq_true] at hall
  have htype := hall type htype
  simp only [Function.comp_apply, beq_iff_eq, Bool.or_eq_false_iff, beq_eq_false_iff_ne] at htype
  exact ⟨htype.1.1, htype.1.2, htype.2⟩

/-- The client is at one end, and the server at the other. -/
def bound : Side → List PacketType
  | .a => boundByClient
  | .b => boundByServer

theorem bound_subset (i : Side) : bound i ⊆ protocol := by
  cases i with
  | a => exact List.subset_append_left _ _
  | b =>
      intro type htype
      simp only [bound, boundByServer, protocol, boundByClient, List.mem_cons, List.mem_append,
        List.not_mem_nil, or_false] at htype ⊢
      tauto

/-- In every run of a client and a server over one link, with any interleaving and with
datagrams that are lost, delayed, reordered and repeated, where a program sends nothing but
structs of the game: the other program handles packets in the order in which they were
accepted, a callback gets a struct that was sent to it, with the same values, and every
accepted packet that was sent calls the callback of its struct with its values, if the struct
is bound there. -/
theorem game_messages_arrive (target : LeftShift) {w : Link} {i : Side}
    (h : Link.Run target (Link.SendsMessages protocol i) w) :
    (w i.other).returned = (w i.other).accepted.filter Endpoint.isPassedOn ∧
      (∀ x ∈ (w i.other).returned, ∀ message : Message,
        (listens (bound i.other)).dispatch x.packet = some message →
          message.1 ∈ bound i.other ∧ ∃ r ∈ (w i).sent, Endpoint.IsCopy x r ∧
            message.pack = .ok r.packet) ∧
      ∀ x ∈ (w i.other).accepted, ∀ r ∈ (w i).sent, Endpoint.IsCopy x r →
        x ∈ (w i.other).returned ∧ ∃ message : Message, message.1 ∈ protocol ∧
          message.pack = .ok r.packet ∧
          (message.1 ∈ bound i.other →
            (listens (bound i.other)).dispatch x.packet = some message) :=
  Link.messages_arrive plain_protocol nodup_kId (bound_subset i.other) h

/-- A shot: the client sends its keys once, and the datagram arrives. -/
def shot : Link :=
  let w := Link.step .x86 (Link.new Link.stillClock)
    (.a, .send ((Packet.new 0x12A Flag.kUnreliable 1).append [16]))
  Link.step .x86 w (.b, .receive (Link.emitted w .a 0))

/-- The keys are accepted, and the callback of the keys gets them. -/
theorem game_messages_arrive_shot :
    (shot .b).accepted.length = 1 ∧
      ∀ x ∈ (shot .b).accepted, ∀ r ∈ (shot .a).sent, Endpoint.IsCopy x r →
        x ∈ (shot .b).returned ∧ ∃ message : Message, message.1 ∈ protocol ∧
          message.pack = .ok r.packet ∧
          (message.1 ∈ boundByServer →
            (listens boundByServer).dispatch x.packet = some message) := by
  have hpack : ∃ message : Message, message.1 ∈ protocol ∧
      Shape.FitsFields message.1.fields message.2 ∧
      message.pack = .ok ((Packet.new 0x12A Flag.kUnreliable 1).append [16]) :=
    ⟨⟨userInput, (16#8, ())⟩, by simp [protocol], ⟨trivial, trivial⟩, rfl⟩
  have hrun : Link.Run .x86 (Link.SendsMessages protocol .a) shot :=
    ((Link.run_new Link.stillClock).send fun _ => hpack).receive (by decide) trivial
  exact ⟨rfl, (game_messages_arrive .x86 (i := .a) hrun).2.2⟩

end Rtype.Common.Messages
