import Rtype.Foundations.Transition
import Rtype.Rtnt.AckWindow
import Rtype.Rtnt.Serialization

/-!
# rtnt - A session and what it has done

The properties of a session speak about its past: which packets it was given to
send, which datagrams it accepted, which packets it returned.  An endpoint is a
session together with that record.  Every call on the session is one action, and
every action is a sequence of small steps, each of which changes one thing; the
invariants of the following files are proved for the small steps.

Main results:

- Definition {lit}`Endpoint.step`: the effect of a call.
- Inductive type {lit}`Endpoint.Micro`: all that a small step can do.
- Theorems {lit}`Endpoint.steps_send`, {lit}`Endpoint.steps_update` and
  {lit}`Endpoint.receive_decomposition`: every action is made of small steps.

Current gaps:

- None.
-/

namespace Rtype.Rtnt

open Std (TreeMap)
open Transition

/-! ## Endpoints -/

/-- A packet given to `Session::send`, with the ids it was given and the number of
sequence ids drawn before it. -/
structure SentRecord where
  index : ℕ
  sequenceId : UInt32
  orderId : UInt32
  packet : Packet
deriving DecidableEq, Repr

/-- A session with its past.  `accepted` lists the datagrams that passed the
duplicate test, `returned` the packets that `handleIncoming` returned, and
`evicted` the ids that the packet history dropped. -/
structure Endpoint where
  session : Session
  sent : List SentRecord := []
  received : List Datagram := []
  accepted : List Incoming := []
  returned : List Incoming := []
  evicted : List UInt32 := []

/-- The calls on a session. -/
inductive Action where
  | send (packet : Packet)
  | update
  | receive (d : Datagram)
  | disconnect
deriving DecidableEq, Repr

/-- The packet of a datagram that `handleIncoming` accepts. -/
def Session.accepts (s : Session) (d : Datagram) : Option Incoming :=
  match Header.parse d.bytes with
  | .error _ => none
  | .ok header =>
      if s.isDuplicate header.sequenceId then none else some (Incoming.ofDatagram header d)

namespace Endpoint

/-- The endpoint of a fresh session. -/
def new (self : ℕ) (clock : Stream' Time) : Endpoint where
  session := Session.new self clock

/-- The record of a packet that is about to be sent. -/
def recordOf (s : Session) (packet : Packet) : SentRecord where
  index := s.issued
  sequenceId := s.localSequenceId
  orderId := s.orderIdFor packet
  packet := packet

/-- The effect of a call. -/
def step (target : LeftShift) (e : Endpoint) : Action → Endpoint
  | .send packet =>
      { e with
        session := e.session.send packet
        sent := e.sent ++ [recordOf e.session packet] }
  | .update => { e with session := e.session.update }
  | .receive d =>
      let (session, packets) := e.session.handleIncoming target d
      let accepted := (e.session.accepts d).toList
      { e with
        session := session
        received := e.received ++ [d]
        accepted := e.accepted ++ accepted
        returned := e.returned ++ packets
        evicted := e.evicted ++ accepted.flatMap fun x => e.session.evicted x.header.sequenceId }
  | .disconnect => { e with session := e.session.disconnect }

/-- The sequence ids of the accepted datagrams. -/
def acceptedIds (e : Endpoint) : List UInt32 :=
  e.accepted.map fun x => x.header.sequenceId

/-! ## What datagrams say -/

/-- The header describes a packet with the given ids; only the ack flag and the
ack words are free. -/
structure Describes (h : Header) (p : Packet) (sequenceId orderId : UInt32) : Prop where
  sequenceId_eq : h.sequenceId = sequenceId
  channelId_eq : h.channelId = p.channelId
  orderId_eq : h.orderId = orderId
  messageId_eq : h.messageId = p.messageId
  flags_eq : h.flags = p.flag ∨ h.flags = p.flag ||| Flag.kHasAck

/-- The datagram carries a packet with the given ids. -/
def Carries (d : Datagram) (p : Packet) (sequenceId orderId : UInt32) : Prop :=
  ∃ h, Header.parse d.bytes = .ok h ∧ d.bytes.drop Header.size = p.buffer ∧
    Describes h p sequenceId orderId

/-- The ids that a header acknowledges. -/
def headerAcks (h : Header) : List UInt32 :=
  if h.flags &&& Flag.kHasAck != 0 then
    h.acknowledgeId :: windowIds h.acknowledgeId h.acknowledgeBitfield 0
  else []

/-- The ids that a RICH_ACK payload lists, when it can be read. -/
def listedAcks (payload : ByteBuffer) : List UInt32 :=
  match Packet.read Session.richAckShape { buffer := payload } with
  | .ok (oobAcks, ()) _ => oobAcks.map UInt32.ofBitVec
  | .error _ _ => []

/-- The datagram acknowledges a sequence id. -/
def Acknowledges (d : Datagram) (id : UInt32) : Prop :=
  ∃ h, Header.parse d.bytes = .ok h ∧
    (id ∈ headerAcks h ∨
      h.messageId = SystemMessageId.kRichAck ∧ id ∈ listedAcks (d.bytes.drop Header.size))

instance (d : Datagram) (id : UInt32) : Decidable (Acknowledges d id) :=
  match hparse : Header.parse d.bytes with
  | .ok h => decidable_of_iff (id ∈ headerAcks h ∨
      h.messageId = SystemMessageId.kRichAck ∧ id ∈ listedAcks (d.bytes.drop Header.size))
      (by simp [Acknowledges, hparse])
  | .error e => .isFalse (by simp [Acknowledges, hparse])

/-! ## Small steps -/

/-- The part of `send` before the transmission: the ids are drawn and a packet
that is not unreliable is stored. -/
def enroll (e : Endpoint) (packet : Packet) : Endpoint :=
  let s := e.session.drawSequenceId
  let s := if isOrdered packet.flag then s.drawOrderId packet.channelId else s
  let record := recordOf e.session packet
  { e with
    session :=
      if packet.flag != Flag.kUnreliable then s.remember packet record.sequenceId record.orderId
      else s
    sent := e.sent ++ [record] }

/-- The stored packet is the one of the record. -/
structure Stores (info : SentPacketInfo) (r : SentRecord) : Prop where
  packet_eq : info.packet = r.packet
  sequenceId_eq : info.sequenceId = r.sequenceId
  orderId_eq : info.orderId = r.orderId

/-- The acknowledgement packets that a session with the given pending ids sends. -/
inductive AckPacket (pending : List UInt32) : Packet → Prop
  | simple :
      AckPacket pending (Packet.new SystemMessageId.kAck Flag.kUnreliable INTERNAL_CHANNEL_ID)
  | rich {acks : List UInt32} {p : Packet} (hacks : ∀ id ∈ acks, id ∈ pending)
      (hwrite : Packet.write Session.richAckShape (Session.richAckData acks)
        (Packet.new SystemMessageId.kRichAck Flag.kUnreliable INTERNAL_CHANNEL_ID) = .ok p) :
      AckPacket pending p

/-- Restrictions on the packets sent and on the ids accepted, under which an
invariant is proved. -/
structure Guard where
  send : Endpoint → Packet → Prop
  accept : List UInt32 → UInt32 → Prop

/-- No restriction. -/
def Guard.free : Guard where
  send _ _ := True
  accept _ _ := True

/-- A small step of an endpoint. -/
inductive Micro (target : LeftShift) (guard : Guard) : Endpoint → Endpoint → Prop
  /-- Timers, counters and marks change. -/
  | idle (e : Endpoint) (packetsSinceLastAck : UInt32) (hasUnsentAck : Bool)
      (lastAckTime lastSeen : Time) (shouldClose : Bool) (clock : Stream' Time) :
      Micro target guard e
        { e with session := { e.session with
            packetsSinceLastAck, hasUnsentAck, lastAckTime, lastSeen, shouldClose, clock } }
  /-- A packet gets its ids. -/
  | enroll (e : Endpoint) (packet : Packet) (hok : guard.send e packet) :
      Micro target guard e (e.enroll packet)
  /-- The data stored with a packet is refreshed. -/
  | refresh (e : Endpoint) (r : SentRecord) (info : SentPacketInfo) (hr : r ∈ e.sent)
      (hstores : Stores info r) (hflag : r.packet.flag ≠ Flag.kUnreliable) :
      Micro target guard e
        { e with session := { e.session with
            sentPackets := e.session.sentPackets.insert r.sequenceId info } }
  /-- A packet is transmitted. -/
  | transmit (e : Endpoint) (r : SentRecord) (hr : r ∈ e.sent) :
      Micro target guard e
        { e with session := e.session.rawSend r.packet r.sequenceId r.orderId }
  /-- An acknowledgement packet is transmitted. -/
  | sendAck (e : Endpoint) (p : Packet) (hp : AckPacket e.session.pendingRichAcks p) :
      Micro target guard e
        { e with session := e.session.drawSequenceId.rawSend p e.session.localSequenceId 0 }
  /-- The pending acks are cleared. -/
  | flush (e : Endpoint) :
      Micro target guard e { e with session := { e.session with pendingRichAcks := [] } }
  /-- A datagram arrives. -/
  | arrive (e : Endpoint) (d : Datagram) :
      Micro target guard e { e with received := e.received ++ [d] }
  /-- Stored packets that a received datagram acknowledges are removed. -/
  | forget (e : Endpoint) (t : TreeMap UInt32 SentPacketInfo)
      (ht : ∀ id, t[id]? = e.session.sentPackets[id]? ∨
        t[id]? = none ∧ ∃ d ∈ e.received, Acknowledges d id) :
      Micro target guard e { e with session := { e.session with sentPackets := t } }
  /-- A duplicate is queued for an explicit acknowledgement. -/
  | refuse (e : Endpoint) (id : UInt32) (hid : e.session.isDuplicate id = true) :
      Micro target guard e
        { e with session := { e.session with
            pendingRichAcks := e.session.pendingRichAcks ++ [id] } }
  /-- A datagram is accepted. -/
  | accept (e : Endpoint) (h : Header) (d : Datagram) (hd : d ∈ e.received)
      (hparse : Header.parse d.bytes = .ok h)
      (hnew : e.session.isDuplicate h.sequenceId = false)
      (hok : guard.accept e.acceptedIds h.sequenceId) :
      Micro target guard e
        { e with
          session := e.session.updateAcknowledgeInfo target h.sequenceId
          accepted := e.accepted ++ [Incoming.ofDatagram h d]
          evicted := e.evicted ++ e.session.evicted h.sequenceId }

/-- Sequences of small steps. -/
abbrev Steps (target : LeftShift) (guard : Guard) : Endpoint → Endpoint → Prop :=
  Relation.ReflTransGen (Micro target guard)

variable {target : LeftShift} {guard : Guard}

/-! ## Actions as small steps -/

/-- The transmission of one RICH_ACK packet. -/
theorem steps_sendRichAck (e : Endpoint) {acks : List UInt32}
    (hacks : ∀ id ∈ acks, id ∈ e.session.pendingRichAcks) :
    Steps target guard e { e with session := e.session.sendRichAck acks } := by
  simp only [Session.sendRichAck]
  split
  next p hwrite => exact .single (.sendAck e p (.rich hacks hwrite))
  next => exact .refl

/-- Sending acknowledgements changes the numbering, the marks and the log of datagrams
only. -/
theorem sendRichAck_frame (s : Session) (acks : List UInt32) :
    ∃ sequenceId since unsent time clock outbox issued, s.sendRichAck acks =
      { s with
        localSequenceId := sequenceId
        packetsSinceLastAck := since
        hasUnsentAck := unsent
        lastAckTime := time
        clock := clock
        outbox := outbox
        issued := issued } := by
  simp only [Session.sendRichAck]
  split
  · exact ⟨_, _, _, _, _, _, _, rfl⟩
  · exact ⟨_, _, _, _, _, _, _, rfl⟩

theorem sendRichAcks_frame (s : Session) (acks : List UInt32) (processed : ℕ) :
    ∃ sequenceId since unsent time clock outbox issued, s.sendRichAcks acks processed =
      { s with
        localSequenceId := sequenceId
        packetsSinceLastAck := since
        hasUnsentAck := unsent
        lastAckTime := time
        clock := clock
        outbox := outbox
        issued := issued } := by
  fun_induction Session.sendRichAcks s acks processed with
  | case1 s processed hmore chunkSize ih =>
      obtain ⟨_, _, _, _, _, _, _, hchunk⟩ :=
        sendRichAck_frame s ((acks.drop processed).take chunkSize)
      rw [hchunk] at ih
      rw [hchunk]
      exact ih
  | case2 s processed hdone => exact ⟨_, _, _, _, _, _, _, rfl⟩

/-- An acknowledgement also clears the pending acks. -/
theorem sendAck_frame (s : Session) :
    ∃ sequenceId since unsent time clock outbox issued, s.sendAck =
      { s with
        localSequenceId := sequenceId
        pendingRichAcks := []
        packetsSinceLastAck := since
        hasUnsentAck := unsent
        lastAckTime := time
        clock := clock
        outbox := outbox
        issued := issued } := by
  unfold Session.sendAck
  split_ifs with hpending
  · obtain ⟨_, _, _, _, _, _, _, hall⟩ := sendRichAcks_frame s s.pendingRichAcks 0
    rw [hall]
    exact ⟨_, _, _, _, _, _, _, rfl⟩
  · have hnone : s.pendingRichAcks = [] := by simpa using hpending
    have hsame : s = { s with pendingRichAcks := [] } := by rw [← hnone]
    rw [Session.sendSimpleAck, hsame]
    exact ⟨_, _, _, _, _, _, _, rfl⟩

/-- The transmission of a list of acks in chunks. -/
theorem steps_sendRichAcks (s : Session) (acks : List UInt32) (processed : ℕ) (e : Endpoint)
    (hs : e.session = s) (hacks : ∀ id ∈ acks, id ∈ s.pendingRichAcks) :
    Steps target guard e { e with session := s.sendRichAcks acks processed } := by
  fun_induction Session.sendRichAcks s acks processed generalizing e with
  | case1 s processed hmore chunkSize ih =>
      subst hs
      have hchunk : ∀ id ∈ (acks.drop processed).take chunkSize,
          id ∈ e.session.pendingRichAcks :=
        fun id hid => hacks id (List.mem_of_mem_drop (List.mem_of_mem_take hid))
      refine (steps_sendRichAck e hchunk).trans (ih _ rfl fun id hid => ?_)
      obtain ⟨_, _, _, _, _, _, _, hframe⟩ :=
        sendRichAck_frame e.session ((acks.drop processed).take chunkSize)
      rw [hframe]
      exact hacks id hid
  | case2 s processed hdone =>
      subst hs
      exact .refl

/-- The transmission of the acknowledgements that are due. -/
theorem steps_sendAck (e : Endpoint) :
    Steps target guard e { e with session := e.session.sendAck } := by
  unfold Session.sendAck
  split_ifs
  · refine (steps_sendRichAcks e.session _ 0 e rfl fun id hid => hid).trans ?_
    exact .single (.flush _)
  · exact .single (.sendAck e _ .simple)

/-- `send` numbers a packet and transmits it. -/
theorem steps_send {e : Endpoint} {packet : Packet} (hok : guard.send e packet) :
    Steps target guard e (e.step target (.send packet)) := by
  refine .head (.enroll e packet hok) (.single ?_)
  exact .transmit (e.enroll packet) (recordOf e.session packet)
    (List.mem_append_right _ (List.mem_singleton_self _))

theorem steps_disconnect (e : Endpoint) :
    Steps target guard e (e.step target .disconnect) :=
  .single (.idle e _ _ _ _ true _)

/-- The entries of the map of stored packets are those of sent packets. -/
def StoredSent (e : Endpoint) : Prop :=
  ∀ id info, e.session.sentPackets[id]? = some info →
    ∃ r ∈ e.sent, r.sequenceId = id ∧ Stores info r ∧ r.packet.flag ≠ Flag.kUnreliable

/-- One pass of the resend loop. -/
theorem steps_resendExpired (now : Time) (entries : List (UInt32 × SentPacketInfo))
    (e : Endpoint)
    (hentries : ∀ entry ∈ entries, ∃ r ∈ e.sent, r.sequenceId = entry.1 ∧ Stores entry.2 r ∧
      r.packet.flag ≠ Flag.kUnreliable) :
    Steps target guard e
      { e with session := (Session.resendExpired now entries e.session).1 } := by
  induction entries generalizing e with
  | nil => exact .refl
  | cons entry rest ih =>
      obtain ⟨id, info⟩ := entry
      obtain ⟨r, hr, hid, hstores, hflag⟩ := hentries _ (List.mem_cons_self)
      have hrest : ∀ entry ∈ rest, ∃ r ∈ e.sent, r.sequenceId = entry.1 ∧ Stores entry.2 r ∧
          r.packet.flag ≠ Flag.kUnreliable := fun x hx => hentries x (List.mem_cons_of_mem _ hx)
      unfold Session.resendExpired
      split_ifs with hexpired hretries
      · exact .single (.idle e _ _ _ _ true _)
      · refine (Relation.ReflTransGen.single (.transmit e r hr)).trans ?_
        refine (Relation.ReflTransGen.single (.refresh _ r
          { info with sentTime := now, retries := info.retries + 1 } hr
          ⟨hstores.packet_eq, hstores.sequenceId_eq, hstores.orderId_eq⟩ hflag)).trans ?_
        simp only at hid
        rw [hstores.packet_eq, hstores.sequenceId_eq, hstores.orderId_eq, ← hid]
        exact ih _ hrest
      · exact ih e hrest

/-- `update` resends stored packets and acknowledges. -/
theorem steps_update {e : Endpoint} (hstored : e.StoredSent) :
    Steps target guard e (e.step target .update) := by
  let e₁ : Endpoint := { e with session := { e.session with clock := e.session.clock.tail } }
  have htick : Steps target guard e e₁ := .single (.idle e _ _ _ _ _ _)
  have hentries : ∀ entry ∈ e₁.session.sentPackets.toList, ∃ r ∈ e₁.sent,
      r.sequenceId = entry.1 ∧ Stores entry.2 r ∧ r.packet.flag ≠ Flag.kUnreliable := by
    rintro ⟨id, info⟩ hentry
    exact hstored id info (Std.TreeMap.mem_toList_iff_getElem?_eq_some.mp hentry)
  have hresend : Steps target guard e₁ _ :=
    steps_resendExpired e.session.clock.head _ e₁ hentries
  refine htick.trans (hresend.trans ?_)
  simp only [step, Session.update]
  generalize hpass : Session.resendExpired _ _ _ = pass
  obtain ⟨s, gaveUp⟩ := pass
  cases gaveUp with
  | true => exact .refl
  | false =>
      simp only
      split_ifs
      · exact steps_sendAck { e₁ with session := s }
      · exact .refl

/-- The map of stored packets after the ack words of a header. -/
theorem acknowledge_eq (s : Session) (h : Header) :
    ∃ t, s.acknowledge h = { s with sentPackets := t } ∧
      ∀ id, t[id]? = s.sentPackets[id]? ∨ t[id]? = none ∧ id ∈ headerAcks h := by
  unfold Session.acknowledge
  split_ifs with hacks
  · refine ⟨_, rfl, fun id => ?_⟩
    rw [Bool.and_eq_true] at hacks
    rw [OrderedMap.getElem?_eraseAll, headerAcks, if_pos hacks.1]
    split_ifs with hid
    · exact Or.inr ⟨rfl, hid⟩
    · exact Or.inl rfl
  · exact ⟨s.sentPackets, rfl, fun id => Or.inl rfl⟩

/-- What is read from a packet is what its payload lists. -/
theorem listedAcks_of_read {p q : Packet} {acks : Session.richAckShape.Val}
    (hposition : p.readPosition = 0) (h : Packet.read Session.richAckShape p = .ok acks q) :
    listedAcks p.buffer = acks.1.map UInt32.ofBitVec := by
  have hsame := Packet.read_oblivious Session.richAckShape p { buffer := p.buffer }
    ⟨rfl, hposition⟩
  rw [h] at hsame
  unfold listedAcks
  cases hread : Packet.read Session.richAckShape { buffer := p.buffer } with
  | ok acks' q' =>
      rw [hread] at hsame
      rw [hsame.1]
      rfl
  | error e q' =>
      rw [hread] at hsame
      exact hsame.elim

/-- The map of stored packets after the payload of a RICH_ACK packet. -/
theorem checkForOldPackets_eq (s : Session) (h : Header) (bytes : ByteBuffer) :
    ∃ t, s.checkForOldPackets bytes h = { s with sentPackets := t } ∧
      ∀ id, t[id]? = s.sentPackets[id]? ∨
        t[id]? = none ∧ id ∈ listedAcks (bytes.drop Header.size) := by
  simp only [Session.checkForOldPackets]
  split_ifs with hlong
  · cases hread : Packet.read Session.richAckShape
      ((Packet.new h.messageId h.flags).setPayload (bytes.drop Header.size)) with
    | ok acks p =>
        refine ⟨_, rfl, fun id => ?_⟩
        have hlisted := listedAcks_of_read (p := (Packet.new h.messageId h.flags).setPayload
          (bytes.drop Header.size)) rfl hread
        rw [OrderedMap.getElem?_eraseAll]
        split_ifs with hid
        · exact Or.inr ⟨rfl, hlisted ▸ hid⟩
        · exact Or.inl rfl
    | error e p => exact ⟨s.sentPackets, rfl, fun id => Or.inl rfl⟩
  · exact ⟨s.sentPackets, rfl, fun id => Or.inl rfl⟩

/-- The accepted packets that `handleIncoming` does not keep for itself. -/
def isPassedOn (x : Incoming) : Bool :=
  !(x.header.messageId == SystemMessageId.kRichAck) &&
    !(x.packet.buffer.length == 0 && x.header.messageId == SystemMessageId.kAck)

/-- The last part of `handleIncoming`: an accepted packet is returned, or goes
through the reorder buffer of its channel. -/
def passOn (s : Session) (x : Incoming) : Session × List Incoming :=
  if isOrdered x.packet.flag then s.deliverOrdered x else (s, [x])

/-- The endpoint after the last part of `handleIncoming`. -/
def handOver (e : Endpoint) (x : Incoming) : Endpoint :=
  { e with
    session := (passOn e.session x).1
    returned := e.returned ++ (passOn e.session x).2 }

/-- `deliver` by kind of packet. -/
theorem deliver_eq (s : Session) (h : Header) (d : Datagram) :
    s.deliver h d =
      if h.messageId == SystemMessageId.kRichAck then (s.checkForOldPackets d.bytes h, [])
      else if isPassedOn (Incoming.ofDatagram h d) then
        if isOrdered h.flags then s.deliverOrdered (Incoming.ofDatagram h d)
        else (s, [Incoming.ofDatagram h d])
      else (s, []) := by
  have hlen : (Incoming.ofDatagram h d).packet.buffer.length = d.bytes.length - Header.size := by
    simp [Incoming.ofDatagram, Packet.setPayload]
  have hheader : (Incoming.ofDatagram h d).header = h := rfl
  have hflag : (Incoming.ofDatagram h d).packet.flag = h.flags := rfl
  simp only [Session.deliver, isPassedOn, hlen, hheader, hflag]
  by_cases hrich : (h.messageId == SystemMessageId.kRichAck) = true
  · simp only [hrich, if_true]
  · simp only [hrich, Bool.false_eq_true, if_false, Bool.not_false, Bool.true_and]
    by_cases hack :
        (d.bytes.length - Header.size == 0 && h.messageId == SystemMessageId.kAck) = true
    · simp only [hack, if_true, Bool.not_true, Bool.false_eq_true, if_false]
    · simp only [hack, Bool.false_eq_true, if_false, Bool.not_false, if_true]

/-- An accepted datagram is counted, and acknowledged at once when the threshold is
reached. -/
theorem steps_count (e : Endpoint) :
    Steps target guard e
      { e with
        session :=
          if e.session.packetsSinceLastAck + 1 ≥ ACK_PACKET_THRESHOLD then
            { e.session with
              packetsSinceLastAck := e.session.packetsSinceLastAck + 1 }.sendAck
          else
            { e.session with packetsSinceLastAck := e.session.packetsSinceLastAck + 1 } } := by
  have hcount : Steps target guard e
      { e with session := { e.session with
          packetsSinceLastAck := e.session.packetsSinceLastAck + 1 } } :=
    .single (.idle e (e.session.packetsSinceLastAck + 1) _ _ _ _ _)
  refine hcount.trans ?_
  split_ifs
  · exact steps_sendAck _
  · exact .refl

/-- The session after it has noted the time of a datagram. -/
def seen (s : Session) : Session :=
  { s with lastSeen := s.clock.head, clock := s.clock.tail }

/-- The first steps for a datagram that parses. -/
theorem steps_arrive {e : Endpoint} {h : Header} {d : Datagram}
    (hparse : Header.parse d.bytes = .ok h) :
    Steps target guard e
      { e with session := (seen e.session).acknowledge h, received := e.received ++ [d] } := by
  have hmem : d ∈ e.received ++ [d] := List.mem_append_right _ (List.mem_singleton_self d)
  obtain ⟨t, hacked, ht⟩ := acknowledge_eq (seen e.session) h
  rw [hacked]
  have hseen : Micro target guard { e with received := e.received ++ [d] }
      { e with session := seen e.session, received := e.received ++ [d] } :=
    .idle _ _ _ _ _ _ _
  refine .head (.arrive e d) (.head hseen (.single ?_))
  exact .forget _ t fun id => (ht id).imp_right fun hid =>
    ⟨hid.1, d, hmem, h, hparse, Or.inl hid.2⟩

theorem isDuplicate_acknowledge (s : Session) (h : Header) (id : UInt32) :
    ((seen s).acknowledge h).isDuplicate id = s.isDuplicate id := by
  obtain ⟨t, hacked, -⟩ := acknowledge_eq (seen s) h
  rw [hacked]
  rfl

theorem evicted_acknowledge (s : Session) (h : Header) (id : UInt32) :
    ((seen s).acknowledge h).evicted id = s.evicted id := by
  obtain ⟨t, hacked, -⟩ := acknowledge_eq (seen s) h
  rw [hacked]
  rfl

/-- The endpoint after it has accepted a datagram, before the delivery. -/
def afterAccept (target : LeftShift) (e : Endpoint) (h : Header) (d : Datagram) : Endpoint :=
  { e with
    session := ((seen e.session).acknowledge h).accept target h.sequenceId
    received := e.received ++ [d]
    accepted := e.accepted ++ [Incoming.ofDatagram h d]
    evicted := e.evicted ++ e.session.evicted h.sequenceId }

theorem steps_accept (target : LeftShift) {e : Endpoint} {h : Header} {d : Datagram}
    (hparse : Header.parse d.bytes = .ok h)
    (hnew : e.session.isDuplicate h.sequenceId = false)
    (hok : guard.accept e.acceptedIds h.sequenceId) :
    Steps target guard e (e.afterAccept target h d) := by
  have hmem : d ∈ e.received ++ [d] := List.mem_append_right _ (List.mem_singleton_self d)
  refine (steps_arrive hparse).trans (.head (.accept _ h d hmem hparse ?_ hok) ?_)
  · rwa [← isDuplicate_acknowledge e.session h] at hnew
  · rw [evicted_acknowledge]
    exact steps_count _

/-- The steps of an endpoint for a datagram that it has accepted before. -/
theorem steps_refuse {e : Endpoint} {h : Header} {d : Datagram}
    (hparse : Header.parse d.bytes = .ok h)
    (hdup : e.session.isDuplicate h.sequenceId = true) :
    Steps target guard e
      { e with
        session := { (seen e.session).acknowledge h with
          pendingRichAcks := ((seen e.session).acknowledge h).pendingRichAcks ++ [h.sequenceId]
          hasUnsentAck := true }
        received := e.received ++ [d] } := by
  refine (steps_arrive hparse).trans (.head (.refuse _ h.sequenceId ?_) (.single ?_))
  · rwa [← isDuplicate_acknowledge e.session h] at hdup
  · exact .idle _ _ true _ _ _ _

/-- A datagram is handled by small steps, followed by the delivery of its packet
when there is one to deliver. -/
theorem receive_decomposition (target : LeftShift) {e : Endpoint} {d : Datagram}
    (hok : ∀ x, e.session.accepts d = some x → guard.accept e.acceptedIds x.header.sequenceId) :
    ∃ e₁, Steps target guard e e₁ ∧
      (e.step target (.receive d) = e₁ ∧
          (∀ x, e.session.accepts d = some x → isPassedOn x = false) ∨
        ∃ x, e.session.accepts d = some x ∧ isPassedOn x = true ∧
          e.step target (.receive d) = e₁.handOver x) := by
  cases hparse : Header.parse d.bytes with
  | error err =>
      have haccepts : e.session.accepts d = none := by
        simp only [Session.accepts, hparse]
      refine ⟨_, .single (.arrive e d), Or.inl ⟨?_, ?_⟩⟩
      · simp only [step, Session.handleIncoming, hparse, haccepts]
        simp
      · simp [haccepts]
  | ok h =>
      have hdupEq := isDuplicate_acknowledge e.session h h.sequenceId
      unfold seen at hdupEq
      cases hdup : e.session.isDuplicate h.sequenceId with
      | true =>
          have haccepts : e.session.accepts d = none := by
            simp only [Session.accepts, hparse, hdup, if_true]
          refine ⟨_, steps_refuse hparse hdup, Or.inl ⟨?_, ?_⟩⟩
          · simp only [step, Session.handleIncoming, hparse, hdupEq, hdup, if_true, haccepts]
            simp [seen]
          · simp [haccepts]
      | false =>
          have haccepts : e.session.accepts d = some (Incoming.ofDatagram h d) := by
            simp only [Session.accepts, hparse, hdup, Bool.false_eq_true, if_false]
          have hsteps := steps_accept target hparse hdup (hok _ haccepts)
          have hstep : e.step target (.receive d) =
              { e.afterAccept target h d with
                session := ((e.afterAccept target h d).session.deliver h d).1
                returned := e.returned ++ ((e.afterAccept target h d).session.deliver h d).2 } := by
            simp only [step, Session.handleIncoming, hparse, hdupEq, hdup, Bool.false_eq_true,
              if_false, haccepts, Option.toList_some, List.flatMap_cons, List.flatMap_nil,
              List.append_nil]
            rfl
          by_cases hrich : (h.messageId == SystemMessageId.kRichAck) = true
          · have hpassed : isPassedOn (Incoming.ofDatagram h d) = false := by
              have hheader : (Incoming.ofDatagram h d).header = h := rfl
              simp [isPassedOn, hheader, hrich]
            refine ⟨_, hsteps.trans ?_, Or.inl ⟨rfl, ?_⟩⟩
            · rw [hstep, deliver_eq, if_pos hrich]
              obtain ⟨t, hchecked, ht⟩ := checkForOldPackets_eq
                (e.afterAccept target h d).session h d.bytes
              have hmem : d ∈ e.received ++ [d] :=
                List.mem_append_right _ (List.mem_singleton_self d)
              simp only [hchecked, List.append_nil]
              exact .single (.forget _ t fun id => (ht id).imp_right fun hid =>
                ⟨hid.1, d, hmem, h, hparse, Or.inr ⟨by simpa using hrich, hid.2⟩⟩)
            · rintro x hx
              rw [haccepts, Option.some.injEq] at hx
              rwa [← hx]
          · cases hpassed : isPassedOn (Incoming.ofDatagram h d) with
            | false =>
                refine ⟨_, hsteps, Or.inl ⟨?_, ?_⟩⟩
                · rw [hstep, deliver_eq, if_neg hrich, hpassed]
                  simp [afterAccept]
                · rintro x hx
                  rw [haccepts, Option.some.injEq] at hx
                  rwa [← hx]
            | true =>
                refine ⟨_, hsteps, Or.inr ⟨_, haccepts, hpassed, ?_⟩⟩
                rw [hstep, deliver_eq, if_neg hrich, hpassed]
                rfl

/-! ## Invariants -/

/-- What the small steps preserve, sequences of them preserve. -/
theorem Steps.preserves {P : Endpoint → Prop}
    (hmicro : ∀ e e', Micro target guard e e' → P e → P e') {e e' : Endpoint}
    (h : Steps target guard e e') (he : P e) : P e' := by
  induction h with
  | refl => exact he
  | tail _ hlast ih => exact hmicro _ _ hlast ih

/-- The action respects the guard. -/
def Permits (guard : Guard) (e : Endpoint) : Action → Prop
  | .send packet => guard.send e packet
  | .receive d =>
      ∀ x, e.session.accepts d = some x → guard.accept e.acceptedIds x.header.sequenceId
  | .update => True
  | .disconnect => True

theorem permits_free (e : Endpoint) (a : Action) : Permits .free e a := by
  cases a with
  | send => exact trivial
  | receive => exact fun _ _ => trivial
  | update => exact trivial
  | disconnect => exact trivial

/-- What the small steps and the delivery preserve, every action preserves. -/
theorem step_preserves {P : Endpoint → Prop}
    (hmicro : ∀ e e', Micro target guard e e' → P e → P e')
    (hhand : ∀ e x, P e → P (e.handOver x)) {e : Endpoint} {a : Action}
    (hok : Permits guard e a) (hstored : e.StoredSent) (he : P e) : P (e.step target a) := by
  cases a with
  | send packet => exact Steps.preserves hmicro (steps_send hok) he
  | update => exact Steps.preserves hmicro (steps_update hstored) he
  | disconnect => exact Steps.preserves hmicro (steps_disconnect e) he
  | receive d =>
      obtain ⟨e₁, hsteps, hstep⟩ := receive_decomposition target hok
      have he₁ := Steps.preserves hmicro hsteps he
      rcases hstep with ⟨hstep, -⟩ | ⟨x, -, -, hstep⟩
      · rwa [hstep]
      · rw [hstep]
        exact hhand _ _ he₁

/-- A call of `updateAcknowledgeInfo` changes the receive window only. -/
theorem updateAcknowledgeInfo_eq (target : LeftShift) (s : Session) (id : UInt32) :
    ∃ has head bits history unsent, s.updateAcknowledgeInfo target id =
      { s with
        hasReceivedRemotePacket := has
        remoteAcknowledgeId := head
        remoteAcknowledgeBitfield := bits
        oldPacketHistory := history
        hasUnsentAck := unsent } := by
  by_cases hhas : s.hasReceivedRemotePacket = true
  · simp only [Session.updateAcknowledgeInfo, hhas, Bool.not_true, Bool.false_eq_true, if_false]
    split_ifs
    · simp only [Session.advanceWindow]
      split_ifs
      · exact ⟨_, _, _, _, _, rfl⟩
      · exact ⟨_, _, _, _, _, rfl⟩
    · simp only [Session.recordLate]
      split_ifs
      · exact ⟨_, _, _, _, _, rfl⟩
      · exact ⟨_, _, _, _, _, rfl⟩
      · exact ⟨_, _, _, _, _, rfl⟩
      · exact ⟨_, _, _, _, _, rfl⟩
    · exact ⟨_, _, _, _, _, rfl⟩
  · simp only [Bool.not_eq_true] at hhas
    simp only [Session.updateAcknowledgeInfo, hhas, Bool.not_false, if_true]
    exact ⟨_, _, _, _, _, rfl⟩

/-- A delivery changes the reorder state and the returned packets only. -/
theorem handOver_eq (e : Endpoint) (x : Incoming) :
    ∃ next buffers returned, e.handOver x =
      { e with
        session := { e.session with
          nextExpectedOrderIds := next
          reorderBuffers := buffers }
        returned := returned } := by
  simp only [handOver, passOn, Session.deliverOrdered]
  split_ifs
  · exact ⟨_, _, _, rfl⟩
  · exact ⟨_, _, _, rfl⟩
  · exact ⟨_, _, _, rfl⟩
  · exact ⟨_, _, _, rfl⟩

/-- The endpoints of all runs of a session under a guard. -/
def Run (target : LeftShift) (guard : Guard) (self : ℕ) : Endpoint → Prop :=
  Reachable (fun e => ∃ clock, e = new self clock) (step target) (Permits guard)

end Endpoint

end Rtype.Rtnt
