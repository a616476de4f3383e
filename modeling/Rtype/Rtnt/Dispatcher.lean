import Mathlib
import Rtype.Rtnt.Delivery

/-!
# rtnt - The dispatcher

A packet struct fixes an id, a flag, a channel and the fields that are serialized.  The
dispatcher binds a callback to each id; it reads the struct out of a packet before it calls.
Messages that one end sends are handled at the other end as the same messages, whatever the
network does to the datagrams in between.

Main results:

- Structures {lit}`PacketType` and {lit}`Dispatcher`.
- Theorem {lit}`Dispatcher.dispatch_bindAll`: the first callback that is bound to an id stays.
- Theorem {lit}`Link.messages_arrive`: what is handled has been sent, and every accepted
  message is handled once.

Current gaps:

- What a callback throws is caught and logged, and callbacks are their messages here.
-/

namespace Rtype.Rtnt

/-! ## Packet structs -/

/-- The constants of a packet struct, and the fields of its {lit}`serialize`. -/
structure PacketType where
  kId : UInt16
  kFlag : Flag := Flag.kUnreliable
  kChannel : UInt8 := 1
  fields : List Shape

/-- A value of a packet struct. -/
abbrev Message :=
  (type : PacketType) × Shape.Vals type.fields

/-- {lit}`Session::send<T>`: the packet of a value. -/
def Message.pack (message : Message) : Except String Packet :=
  Packet.writeFields message.1.fields message.2
    (.new message.1.kId message.1.kFlag message.1.kChannel)

/-- A packet that is made of a value has the constants of its struct, and the value can be
read from its payload. -/
theorem Message.pack_eq {message : Message} (hfits : Shape.FitsFields message.1.fields message.2)
    {p : Packet} (hpack : message.pack = .ok p) :
    p.messageId = message.1.kId ∧ p.flag = message.1.kFlag ∧
      p.buffer = Shape.encodeFields message.1.fields message.2 := by
  have hwrite := Packet.writeFields_eq message.1.fields message.2 hfits
    (.new message.1.kId message.1.kFlag message.1.kChannel)
  rw [Message.pack, hwrite, Except.ok.injEq] at hpack
  subst hpack
  exact ⟨rfl, rfl, List.nil_append _⟩

/-- A payload that begins with the wire form of a value is read as that value. -/
theorem readFields_of_buffer {fields : List Shape} {data : Shape.Vals fields}
    (hfits : Shape.FitsFields fields data) {p : Packet}
    (hbuffer : p.buffer = Shape.encodeFields fields data) (hposition : p.readPosition = 0) :
    ∃ p', Packet.readFields fields p = .ok data p' := by
  have hunread : p.unread = Shape.encodeFields fields data ++ [] := by
    rw [Packet.unread, hposition, List.drop_zero, hbuffer, List.append_nil]
  have hbounds : p.InBounds := by
    rw [Packet.InBounds, hposition]
    exact Nat.zero_le _
  exact ⟨_, Packet.readFields_consumes fields data hfits p [] hbounds hunread⟩

/-! ## Binding and dispatching -/

/-- The handlers by id; a handler reads its struct and calls, unless the read throws. -/
abbrev Dispatcher (ε : Type) :=
  UInt16 → Option (Packet → Option ε)

/-- A callback for a packet struct. -/
structure Binding (ε : Type) where
  type : PacketType
  callback : Shape.Vals type.fields → ε

/-- The handler that is registered for a callback. -/
def Binding.handler {ε : Type} (binding : Binding ε) (p : Packet) : Option ε :=
  match Packet.readFields binding.type.fields p with
  | .ok data _ => some (binding.callback data)
  | .error _ _ => none

theorem Binding.handler_of_read {ε : Type} {binding : Binding ε} {p p' : Packet}
    {data : Shape.Vals binding.type.fields}
    (hread : Packet.readFields binding.type.fields p = .ok data p') :
    binding.handler p = some (binding.callback data) := by
  rw [Binding.handler, hread]

namespace Dispatcher

variable {ε : Type}

/-- {lit}`Dispatcher::registerHandler`: an id that is registered already stays. -/
def registerHandler (dispatcher : Dispatcher ε) (binding : Binding ε) : Dispatcher ε :=
  if (dispatcher binding.type.kId).isSome then
    dispatcher
  else
    Function.update dispatcher binding.type.kId (some binding.handler)

/-- Bindings one after another. -/
def bindAll (bindings : List (Binding ε)) : Dispatcher ε :=
  bindings.foldl registerHandler fun _ => none

/-- {lit}`Dispatcher::dispatch`. -/
def dispatch (dispatcher : Dispatcher ε) (p : Packet) : Option ε :=
  match dispatcher p.messageId with
  | some handler => handler p
  | none => none

theorem foldl_registerHandler (dispatcher : Dispatcher ε) (bindings : List (Binding ε))
    (id : UInt16) :
    bindings.foldl registerHandler dispatcher id =
      (dispatcher id).or
        ((bindings.find? fun binding => binding.type.kId == id).map Binding.handler) := by
  induction bindings generalizing dispatcher with
  | nil => exact (Option.or_none).symm
  | cons binding bindings ih =>
      rw [List.foldl_cons, ih, List.find?_cons, registerHandler]
      by_cases hid : binding.type.kId = id
      · subst hid
        rw [beq_self_eq_true]
        split_ifs with hknown
        · rcases Option.isSome_iff_exists.mp hknown with ⟨handler, hhandler⟩
          rw [hhandler, Option.some_or, Option.some_or]
        · rw [Option.not_isSome_iff_eq_none.mp hknown, Function.update_self, Option.some_or,
            Option.none_or, Option.map_some]
      · rw [beq_false_of_ne hid]
        split_ifs
        · rfl
        · rw [Function.update_of_ne (Ne.symm hid)]

/-- The first callback that is bound to an id stays. -/
theorem dispatch_bindAll (bindings : List (Binding ε)) (p : Packet) :
    (bindAll bindings).dispatch p =
      (bindings.find? fun binding => binding.type.kId == p.messageId).bind fun binding =>
        binding.handler p := by
  have hlookup := foldl_registerHandler (fun _ => none) bindings p.messageId
  rw [Option.none_or] at hlookup
  rw [dispatch, bindAll, hlookup]
  cases bindings.find? fun binding => binding.type.kId == p.messageId with
  | none => rfl
  | some binding => rfl

/-- A packet with the id and the payload of a struct that is bound calls its callback. -/
theorem dispatch_of_mem {bindings : List (Binding ε)} {binding : Binding ε}
    (hmem : binding ∈ bindings)
    (hsame : ∀ b ∈ bindings, b.type.kId = binding.type.kId → b = binding)
    {data : Shape.Vals binding.type.fields} (hfits : Shape.FitsFields binding.type.fields data)
    {p : Packet} (hid : p.messageId = binding.type.kId)
    (hbuffer : p.buffer = Shape.encodeFields binding.type.fields data)
    (hposition : p.readPosition = 0) :
    (bindAll bindings).dispatch p = some (binding.callback data) := by
  have hfind : bindings.find? (fun b => b.type.kId == binding.type.kId) = some binding := by
    cases hfound : bindings.find? (fun b => b.type.kId == binding.type.kId) with
    | none => exact absurd (beq_self_eq_true _) (List.find?_eq_none.mp hfound _ hmem)
    | some b =>
        have hequal := List.find?_some hfound
        rw [beq_iff_eq] at hequal
        rw [hsame b (List.mem_of_find?_eq_some hfound) hequal]
  rcases readFields_of_buffer hfits hbuffer hposition with ⟨p', hread⟩
  rw [dispatch_bindAll, hid, hfind]
  exact Binding.handler_of_read hread

/-- A packet whose id is not bound is not handled. -/
theorem dispatch_of_unbound {bindings : List (Binding ε)} {p : Packet}
    (hunbound : ∀ b ∈ bindings, b.type.kId ≠ p.messageId) :
    (bindAll bindings).dispatch p = none := by
  have hfind : bindings.find? (fun b => b.type.kId == p.messageId) = none := by
    rw [List.find?_eq_none]
    intro b hb hequal
    exact hunbound b hb (beq_iff_eq.mp hequal)
  rw [dispatch_bindAll, hfind]
  rfl

end Dispatcher

/-- A callback that gets the message itself. -/
def PacketType.binding (type : PacketType) : Binding Message where
  type := type
  callback data := ⟨type, data⟩

/-- An end that handles some of the structs of a protocol. -/
def listens (types : List PacketType) : Dispatcher Message :=
  Dispatcher.bindAll (types.map PacketType.binding)

/-- A packet with the id and the payload of a message is handled as that message. -/
theorem dispatch_listens {types protocol : List PacketType} (hsub : types ⊆ protocol)
    (hids : (protocol.map PacketType.kId).Nodup) {message : Message}
    (htype : message.1 ∈ types) (hfits : Shape.FitsFields message.1.fields message.2)
    {p : Packet} (hid : p.messageId = message.1.kId)
    (hbuffer : p.buffer = Shape.encodeFields message.1.fields message.2)
    (hposition : p.readPosition = 0) : (listens types).dispatch p = some message := by
  have hsame : ∀ binding ∈ types.map PacketType.binding,
      binding.type.kId = message.1.binding.type.kId → binding = message.1.binding := by
    intro binding hbinding hid
    rcases List.mem_map.mp hbinding with ⟨type, hmem, rfl⟩
    rw [List.inj_on_of_nodup_map hids (hsub hmem) (hsub htype) hid]
  exact @Dispatcher.dispatch_of_mem _ _ message.1.binding (List.mem_map_of_mem htype) hsame
    message.2 hfits _ hid hbuffer hposition

/-- A packet whose id is not bound is not handled. -/
theorem dispatch_listens_of_unbound {types : List PacketType} {p : Packet}
    (hunbound : ∀ type ∈ types, type.kId ≠ p.messageId) : (listens types).dispatch p = none := by
  apply Dispatcher.dispatch_of_unbound
  intro binding hbinding
  rcases List.mem_map.mp hbinding with ⟨type, htype, rfl⟩
  exact hunbound type htype

/-! ## Messages over a link -/

namespace Link

/-- A struct of a protocol whose messages need no order and do not look like the
acknowledgements of a session. -/
structure Plain (type : PacketType) : Prop where
  unordered : isOrdered type.kFlag = false
  notAck : type.kId ≠ SystemMessageId.kAck
  notRichAck : type.kId ≠ SystemMessageId.kRichAck

/-- One end sends nothing but messages of a protocol. -/
def SendsMessages (protocol : List PacketType) (i : Side) (_ : Link) : Side × Action → Prop
  | (j, .send p) => j = i → ∃ message : Message, message.1 ∈ protocol ∧
      Shape.FitsFields message.1.fields message.2 ∧ message.pack = .ok p
  | (_, .update) => True
  | (_, .receive _) => True
  | (_, .disconnect) => True

variable {target : LeftShift} {protocol : List PacketType} {w : Link} {i : Side}

/-- Whatever an end has sent is a message of the protocol. -/
theorem Run.sent_messages (h : Run target (SendsMessages protocol i) w) :
    ∀ r ∈ (w i).sent, ∃ message : Message, message.1 ∈ protocol ∧
      Shape.FitsFields message.1.fields message.2 ∧ message.pack = .ok r.packet := by
  apply h.invariant (P := fun w => ∀ r ∈ (w i).sent, ∃ message : Message,
    message.1 ∈ protocol ∧ Shape.FitsFields message.1.fields message.2 ∧
      message.pack = .ok r.packet)
  · rintro w ⟨clock, rfl⟩ r hr
    cases hr
  · intro w x _ hx ih
    rcases x with ⟨j, a⟩
    by_cases hij : i = j
    · subst hij
      rw [step_same]
      cases a with
      | send p =>
          intro r hr
          rcases List.mem_append.mp hr with hr | hr
          · exact ih r hr
          · rw [List.mem_singleton.mp hr]
            exact hx.2 rfl
      | receive d => exact ih
      | update => exact ih
      | disconnect => exact ih
    · rwa [step_other hij]

/-- What arrives is not ordered. -/
theorem Run.unordered_messages (hplain : ∀ type ∈ protocol, Plain type)
    (h : Run target (SendsMessages protocol i) w) {x : Incoming}
    (hx : x ∈ (w i.other).accepted) : isOrdered x.packet.flag = false := by
  rcases h.accepted_origin hx with ⟨r, hr, hcopy⟩ | ⟨index, p, -, -, hack⟩
  · rw [Side.other_other] at hr
    rcases h.sent_messages r hr with ⟨message, htype, hfits, hpack⟩
    rw [hcopy.isOrdered_eq, (Message.pack_eq hfits hpack).2.1]
    exact (hplain message.1 htype).unordered
  · exact hack.not_ordered

/-- Everything that is accepted and not an acknowledgement is returned, in the order of its
arrival. -/
theorem Run.returned_messages (hplain : ∀ type ∈ protocol, Plain type)
    (h : Run target (SendsMessages protocol i) w) :
    (w i.other).returned = (w i.other).accepted.filter Endpoint.isPassedOn := by
  have hbelow : Endpoint.BelowLastOrderId (w i.other).accepted := by
    intro x hx hordered
    rw [h.unordered_messages hplain hx] at hordered
    cases hordered
  have hdelivered := (h.endpoint_free i.other).delivered hbelow
  have hreturned : (w i.other).returned.filter (fun x => !isOrdered x.packet.flag) =
      (w i.other).returned := by
    rw [List.filter_eq_self]
    intro x hx
    rw [h.unordered_messages hplain (hdelivered.accepted_of_returned hx)]
    rfl
  rw [← hreturned, hdelivered.unordered]
  apply List.filter_congr
  intro x hx
  rw [h.unordered_messages hplain hx, Bool.not_false, Bool.and_true]

/-- A copy of a message is handled as the message, if its struct is bound. -/
theorem dispatch_copy {types : List PacketType} (hids : (protocol.map PacketType.kId).Nodup)
    (htypes : types ⊆ protocol) (h : Run target (SendsMessages protocol i) w) {x : Incoming}
    (hx : x ∈ (w i.other).accepted) {r : SentRecord} (hcopy : Endpoint.IsCopy x r)
    {message : Message} (htype : message.1 ∈ protocol)
    (hfits : Shape.FitsFields message.1.fields message.2)
    (hpack : message.pack = .ok r.packet) :
    (message.1 ∈ types → (listens types).dispatch x.packet = some message) ∧
      (message.1 ∉ types → (listens types).dispatch x.packet = none) := by
  rcases Message.pack_eq hfits hpack with ⟨hid, -, hbuffer⟩
  rcases (h.endpoint_free i.other).acceptedReceived x hx with ⟨d, -, -, hxd⟩
  constructor
  · intro hbound
    apply dispatch_listens htypes hids hbound hfits
    · rw [hcopy.messageId_eq, hid]
    · rw [hcopy.buffer_eq, hbuffer]
    · rw [hxd]
      rfl
  · intro hunbound
    apply dispatch_listens_of_unbound
    intro type hmem hsame
    rw [hcopy.messageId_eq, hid] at hsame
    exact hunbound (List.inj_on_of_nodup_map hids (htypes hmem) htype hsame ▸ hmem)

/-- In every run of two sessions, with any interleaving and with datagrams that are lost,
delayed, reordered and repeated, where one end sends messages of a protocol with different
ids and the other end binds some of its structs: the packets are handled in the order in which
they were accepted; whatever is handled has been sent, with the same struct and the same
values; and every accepted packet that has been sent is passed on and handled, if its struct
is bound. -/
theorem messages_arrive {types : List PacketType} (hplain : ∀ type ∈ protocol, Plain type)
    (hids : (protocol.map PacketType.kId).Nodup) (htypes : types ⊆ protocol)
    (h : Run target (SendsMessages protocol i) w) :
    (w i.other).returned = (w i.other).accepted.filter Endpoint.isPassedOn ∧
      (∀ x ∈ (w i.other).returned, ∀ message : Message,
        (listens types).dispatch x.packet = some message →
          message.1 ∈ types ∧ ∃ r ∈ (w i).sent, Endpoint.IsCopy x r ∧
            message.pack = .ok r.packet) ∧
      ∀ x ∈ (w i.other).accepted, ∀ r ∈ (w i).sent, Endpoint.IsCopy x r →
        x ∈ (w i.other).returned ∧ ∃ message : Message, message.1 ∈ protocol ∧
          message.pack = .ok r.packet ∧
          (message.1 ∈ types → (listens types).dispatch x.packet = some message) := by
  have hreturned := h.returned_messages hplain
  refine ⟨hreturned, ?_, ?_⟩
  · intro x hx message hhandled
    rw [hreturned, List.mem_filter] at hx
    rcases h.accepted_origin hx.1 with ⟨r, hr, hcopy⟩ | ⟨index, p, -, -, hack⟩
    · rw [Side.other_other] at hr
      rcases h.sent_messages r hr with ⟨sent, htype, hfits, hpack⟩
      rcases dispatch_copy hids htypes h hx.1 hcopy htype hfits hpack with ⟨hbound, hunbound⟩
      by_cases hmem : sent.1 ∈ types
      · rw [hbound hmem, Option.some.injEq] at hhandled
        subst hhandled
        exact ⟨hmem, r, hr, hcopy, hpack⟩
      · rw [hunbound hmem] at hhandled
        cases hhandled
    · have hnone : (listens types).dispatch x.packet = none := by
        apply dispatch_listens_of_unbound
        intro type hmem hsame
        rw [hack.messageId_eq] at hsame
        rcases hack.isAckPacket.messageId_mem with hid | hid
        · exact (hplain type (htypes hmem)).notAck (hsame.trans hid)
        · exact (hplain type (htypes hmem)).notRichAck (hsame.trans hid)
      rw [hnone] at hhandled
      cases hhandled
  · intro x hx r hr hcopy
    rcases h.sent_messages r hr with ⟨message, htype, hfits, hpack⟩
    rcases (h.endpoint_free i.other).acceptedReceived x hx with ⟨d, -, -, hxd⟩
    have hpassed : Endpoint.isPassedOn x = true := by
      apply Endpoint.isPassedOn_of_copy _ hcopy
      · rw [Endpoint.ForApplication, (Message.pack_eq hfits hpack).1]
        exact ⟨(hplain message.1 htype).notRichAck,
          fun hack => absurd hack (hplain message.1 htype).notAck⟩
      · rw [hxd]
        rfl
    refine ⟨?_, message, htype, hpack, ?_⟩
    · rw [hreturned]
      exact List.mem_filter.mpr ⟨hx, hpassed⟩
    · exact (dispatch_copy hids htypes h hx hcopy htype hfits hpack).1

end Link

end Rtype.Rtnt
