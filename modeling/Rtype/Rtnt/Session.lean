import Rtype.Foundations.OrderedMap
import Rtype.Rtnt.Header

/-!
# rtnt - The session

A session is one end of a logical connection.  It numbers the packets it sends,
remembers the reliable ones until they are acknowledged, piggybacks the state of
its receive window on every datagram, drops duplicates, and holds back ordered
packets that arrive early.  This file embeds every member function that takes
part in that protocol, each as a function of the session state.

Three kinds of data are added to the fields of the class.  The environment
appears as {lit}`clock`, the readings that the coming calls of
{lit}`steady_clock::now()` return, and {lit}`outbox`, the datagrams handed to the
send function so far.  {lit}`self` and {lit}`issued` name the session and count
the sequence ids it has drawn, and a received packet carries the header and the
emitter of its datagram.  No branch reads the data of the last kind; it only
lets a theorem say which packet is meant.

Main results:

- Definitions {lit}`Session.send`, {lit}`Session.update` and
  {lit}`Session.handleIncoming`: the three entry points.
- Definition {lit}`LeftShift`: the shift operator of the target machine, which
  the language fixes for amounts below 32 only.

Current gaps:

- Metrics are in {lit}`Rtnt.Metrics`; logging is left out.
- The send function is always set, as both call sites of the constructor do.
-/

namespace Rtype.Rtnt

open Std (TreeMap)

/-! ## Constants -/

/-- Clock readings in nanoseconds. -/
abbrev Time := ℤ

/-- Timespan a peer can remain silent before an acknowledgement is sent (100 ms). -/
def ACK_TIMEOUT : Time := 100000000

/-- Number of unacknowledged packets received before forcing an immediate ACK. -/
def ACK_PACKET_THRESHOLD : UInt32 := 16

/-- Amount of time between each packet resend (200 ms). -/
def RESEND_TIMEOUT : Time := 200000000

/-- Maximum number of times a peer will attempt to resend a packet. -/
def MAX_RESEND_ATTEMPTS : UInt8 := 8

/-- Maximum number of packet ids that can be stored in the packet history. -/
def MAX_PACKET_HISTORY_SIZE : ℕ := 2 ^ 15

/-- Maximum number of packet ids that can be stored in a single RICH_ACK packet. -/
def MAX_ACK_PER_PACKET : ℕ := 2 ^ 8

/-- The shift operator of the target machine on 32-bit words.  The language
defines it for amounts below 32; beyond that any value is possible. -/
structure LeftShift where
  shl : UInt32 → UInt32 → UInt32
  shl_eq : ∀ x n, n < 32 → shl x n = x <<< n

namespace LeftShift

/-- The shift that the ack window means: bits pushed past position 31 vanish. -/
def intended : LeftShift where
  shl := fun x n => if n < 32 then x <<< n else 0
  shl_eq := fun _ _ hn => if_pos hn

/-- The shift of x86, which takes the amount modulo 32. -/
def x86 : LeftShift where
  shl := fun x n => x <<< n
  shl_eq := fun _ _ _ => rfl

end LeftShift

/-! ## Data -/

/-- A datagram on the network, with the session that emitted it. -/
structure Datagram where
  emitter : ℕ
  bytes : ByteBuffer
deriving DecidableEq, Repr

/-- A packet handed up by a session, with the header and the emitter of the
datagram it came in. -/
structure Incoming where
  packet : Packet
  header : Header
  emitter : ℕ
deriving DecidableEq, Repr

/-- The packet in a datagram with the given header. -/
def Incoming.ofDatagram (header : Header) (d : Datagram) : Incoming where
  packet := (Packet.new header.messageId header.flags).setPayload (d.bytes.drop Header.size)
  header := header
  emitter := d.emitter

/-- A reliable packet that waits for its acknowledgement. -/
structure SentPacketInfo where
  packet : Packet
  sentTime : Time
  sequenceId : UInt32 := 0
  orderId : UInt32 := 0
  retries : UInt8 := 0
deriving DecidableEq, Repr

/-- The state of a session. -/
structure Session where
  hasReceivedRemotePacket : Bool := false
  localSequenceId : UInt32 := 0
  remoteAcknowledgeId : UInt32 := 0
  remoteAcknowledgeBitfield : UInt32 := 0
  localOrderIds : TreeMap UInt8 UInt32 := ∅
  nextExpectedOrderIds : TreeMap UInt8 UInt32 := ∅
  reorderBuffers : TreeMap UInt8 (TreeMap UInt32 Incoming) := ∅
  sentPackets : TreeMap UInt32 SentPacketInfo := ∅
  oldPacketHistory : List UInt32 := []
  pendingRichAcks : List UInt32 := []
  packetsSinceLastAck : UInt32 := 0
  hasUnsentAck : Bool := false
  lastAckTime : Time := 0
  lastSeen : Time
  shouldClose : Bool := false
  clock : Stream' Time
  outbox : List Datagram := []
  self : ℕ
  issued : ℕ := 0

/-- Whether bit `i` of a word is set: `word & (1U << i)`. -/
def hasBit (word : UInt32) (i : ℕ) : Bool :=
  word &&& (1 <<< UInt32.ofNat i) != 0

/-- Whether a packet goes through the reorder buffer of its channel. -/
def isOrdered (flag : Flag) : Bool :=
  flag &&& Flag.kOrdered == Flag.kOrdered

/-- The sequence ids that a loop over the bits of a window finds set, from bit
`first` on. -/
def windowIds (head bitfield : UInt32) (first : ℕ) : List UInt32 :=
  (List.range' first (32 - first)).filterMap fun i =>
    if hasBit bitfield i then some (head - (UInt32.ofNat i + 1)) else none

namespace Session

/-- A fresh session; the constructor reads the clock once. -/
def new (self : ℕ) (clock : Stream' Time) : Session where
  lastSeen := clock.head
  clock := clock.tail
  self := self

/-! ## Sending -/

/-- The header that `rawSend` attaches to a packet. -/
def header (s : Session) (packet : Packet) (sequenceId orderId : UInt32) : Header where
  sequenceId := sequenceId
  channelId := packet.channelId
  orderId := orderId
  acknowledgeId := s.remoteAcknowledgeId
  acknowledgeBitfield := s.remoteAcknowledgeBitfield
  messageId := packet.messageId
  flags := if s.hasReceivedRemotePacket then packet.flag ||| Flag.kHasAck else packet.flag
  packetSize := UInt16.ofNat packet.buffer.length

/-- Constructs the final wire-format buffer and transmits it to the peer. -/
def rawSend (s : Session) (packet : Packet) (sequenceId orderId : UInt32) : Session :=
  { s with
    packetsSinceLastAck := if s.hasReceivedRemotePacket then 0 else s.packetsSinceLastAck
    outbox := s.outbox ++ [⟨s.self, (s.header packet sequenceId orderId).wire ++ packet.buffer⟩]
    hasUnsentAck := false
    lastAckTime := s.clock.head
    clock := s.clock.tail }

/-- `_localSequenceId++`, without the value. -/
def drawSequenceId (s : Session) : Session :=
  { s with localSequenceId := s.localSequenceId + 1, issued := s.issued + 1 }

/-- `_localOrderIds[channel]++`, without the value. -/
def drawOrderId (s : Session) (channel : UInt8) : Session :=
  { s with localOrderIds := s.localOrderIds.insert channel (s.localOrderIds.getD channel 0 + 1) }

/-- Stores a packet until it is acknowledged. -/
def remember (s : Session) (packet : Packet) (sequenceId orderId : UInt32) : Session :=
  { s with
    sentPackets := s.sentPackets.insert sequenceId
      { packet, sentTime := s.clock.head, sequenceId, orderId }
    clock := s.clock.tail }

/-- The order id that `send` gives to a packet. -/
def orderIdFor (s : Session) (packet : Packet) : UInt32 :=
  if isOrdered packet.flag then s.localOrderIds.getD packet.channelId 0 else 0

/-- Encapsulates a packet into a protocol frame and sends it. -/
def send (s : Session) (packet : Packet) : Session :=
  let sequenceId := s.localSequenceId
  let orderId := s.orderIdFor packet
  let s := s.drawSequenceId
  let s := if isOrdered packet.flag then s.drawOrderId packet.channelId else s
  let s := if packet.flag != Flag.kUnreliable then s.remember packet sequenceId orderId else s
  s.rawSend packet sequenceId orderId

/-! ## Acknowledging -/

/-- The serialized form of the RICH_ACK packet: its list of sequence ids. -/
def richAckShape : Shape := .struct [.deque (.scalar 4)]

/-- The acks of a RICH_ACK packet as a value of its shape. -/
def richAckData (acks : List UInt32) : richAckShape.Val :=
  (acks.map UInt32.toBitVec, ())

/-- Sends one RICH_ACK packet. -/
def sendRichAck (s : Session) (acks : List UInt32) : Session :=
  let p := Packet.new SystemMessageId.kRichAck Flag.kUnreliable INTERNAL_CHANNEL_ID
  match Packet.write richAckShape (richAckData acks) p with
  | .ok p => s.drawSequenceId.rawSend p s.localSequenceId 0
  | .error _ => s

/-- The loop that flushes the pending acks in chunks. -/
def sendRichAcks (s : Session) (acks : List UInt32) (processed : ℕ) : Session :=
  if processed < acks.length then
    let chunkSize := min MAX_ACK_PER_PACKET (acks.length - processed)
    sendRichAcks (s.sendRichAck ((acks.drop processed).take chunkSize)) acks
      (processed + chunkSize)
  else s
termination_by acks.length - processed
decreasing_by
  have : 0 < MAX_ACK_PER_PACKET := by decide
  omega

/-- Sends one simple ACK packet. -/
def sendSimpleAck (s : Session) : Session :=
  let p := Packet.new SystemMessageId.kAck Flag.kUnreliable INTERNAL_CHANNEL_ID
  s.drawSequenceId.rawSend p s.localSequenceId 0

/-- Constructs and sends an acknowledgement packet to the remote peer. -/
def sendAck (s : Session) : Session :=
  if !s.pendingRichAcks.isEmpty then
    { s.sendRichAcks s.pendingRichAcks 0 with pendingRichAcks := [] }
  else
    s.sendSimpleAck

/-! ## Maintenance -/

/-- Marks the session for closure. -/
def disconnect (s : Session) : Session :=
  { s with shouldClose := true }

/-- One pass over the stored packets, oldest sequence id first.  The flag tells
whether the pass ended early because a packet had used up its attempts. -/
def resendExpired (now : Time) : List (UInt32 × SentPacketInfo) → Session → Session × Bool
  | [], s => (s, false)
  | (id, info) :: rest, s =>
      if now - info.sentTime > RESEND_TIMEOUT then
        if info.retries ≥ MAX_RESEND_ATTEMPTS then
          (s.disconnect, true)
        else
          let s := s.rawSend info.packet info.sequenceId info.orderId
          let info := { info with sentTime := now, retries := info.retries + 1 }
          resendExpired now rest { s with sentPackets := s.sentPackets.insert id info }
      else
        resendExpired now rest s

/-- Applies the resend logic and the delayed acknowledgement. -/
def update (s : Session) : Session :=
  let now := s.clock.head
  let s := { s with clock := s.clock.tail }
  match resendExpired now s.sentPackets.toList s with
  | (s, true) => s
  | (s, false) =>
      if s.hasUnsentAck && decide (now - s.lastAckTime > ACK_TIMEOUT) then s.sendAck else s

/-! ## The receive window -/

/-- The amount by which a call of `updateAcknowledgeInfo` shifts the bitfield, if
it shifts it at all. -/
def windowShift (s : Session) (sequenceId : UInt32) : Option UInt32 :=
  if s.hasReceivedRemotePacket ∧ sequenceId > s.remoteAcknowledgeId ∧
      ¬ sequenceId - s.remoteAcknowledgeId > 32 then
    some (sequenceId - s.remoteAcknowledgeId)
  else none

/-- The window moves to a sequence id beyond its head. -/
def advanceWindow (target : LeftShift) (s : Session) (sequenceId : UInt32) : Session :=
  let shift := sequenceId - s.remoteAcknowledgeId
  if shift > 32 then
    { s with
      oldPacketHistory := s.oldPacketHistory ++
        windowIds s.remoteAcknowledgeId s.remoteAcknowledgeBitfield 0 ++ [s.remoteAcknowledgeId]
      remoteAcknowledgeBitfield := 0
      remoteAcknowledgeId := sequenceId }
  else
    { s with
      oldPacketHistory := s.oldPacketHistory ++
        windowIds s.remoteAcknowledgeId s.remoteAcknowledgeBitfield (32 - shift.toNat)
      remoteAcknowledgeBitfield :=
        target.shl s.remoteAcknowledgeBitfield shift ||| (1 <<< (shift - 1))
      remoteAcknowledgeId := sequenceId }

/-- A sequence id behind the head is recorded in the window or in the history. -/
def recordLate (s : Session) (sequenceId : UInt32) : Session :=
  let diff := s.remoteAcknowledgeId - sequenceId
  if diff ≤ 32 then
    { s with
      remoteAcknowledgeBitfield := s.remoteAcknowledgeBitfield ||| (1 <<< (diff - 1)) }
  else if sequenceId ∈ s.oldPacketHistory then s
  else
    let history := s.oldPacketHistory ++ [sequenceId]
    { s with
      oldPacketHistory :=
        if history.length > MAX_PACKET_HISTORY_SIZE then history.tail else history }

/-- Updates the receive window with a sequence id. -/
def updateAcknowledgeInfo (target : LeftShift) (s : Session) (sequenceId : UInt32) : Session :=
  if !s.hasReceivedRemotePacket then
    { s with
      remoteAcknowledgeId := sequenceId
      hasReceivedRemotePacket := true
      hasUnsentAck := true }
  else
    let s :=
      if sequenceId > s.remoteAcknowledgeId then s.advanceWindow target sequenceId
      else if sequenceId < s.remoteAcknowledgeId then s.recordLate sequenceId
      else s
    { s with hasUnsentAck := true }

/-- Checks if a packet has already been received. -/
def isDuplicate (s : Session) (sequenceId : UInt32) : Bool :=
  if !s.hasReceivedRemotePacket then false
  else if sequenceId == s.remoteAcknowledgeId then true
  else if sequenceId > s.remoteAcknowledgeId then false
  else
    let diff := s.remoteAcknowledgeId - sequenceId
    if diff ≤ 32 then
      s.remoteAcknowledgeBitfield &&& (1 <<< (diff - 1)) != 0
    else
      s.oldPacketHistory.contains sequenceId

/-! ## Receiving -/

/-- Forgets the sent packets that the header of a datagram acknowledges. -/
def acknowledge (s : Session) (header : Header) : Session :=
  if header.flags &&& Flag.kHasAck != 0 && !s.sentPackets.isEmpty then
    { s with
      sentPackets := OrderedMap.eraseAll s.sentPackets
        (header.acknowledgeId ::
          windowIds header.acknowledgeId header.acknowledgeBitfield 0) }
  else s

/-- Forgets the sent packets that the payload of a RICH_ACK packet lists. -/
def checkForOldPackets (s : Session) (rawData : ByteBuffer) (header : Header) : Session :=
  if rawData.length > Header.size then
    let incomingPacket :=
      (Packet.new header.messageId header.flags).setPayload (rawData.drop Header.size)
    match Packet.read richAckShape incomingPacket with
    | .ok (oobAcks, ()) _ =>
        { s with
          sentPackets := OrderedMap.eraseAll s.sentPackets (oobAcks.map UInt32.ofBitVec) }
    | .error _ _ => s
  else s

/-- Records an accepted sequence id, and acknowledges at once when half a window
has come in since the last datagram sent. -/
def accept (target : LeftShift) (s : Session) (sequenceId : UInt32) : Session :=
  let s := s.updateAcknowledgeInfo target sequenceId
  let s := { s with packetsSinceLastAck := s.packetsSinceLastAck + 1 }
  if s.packetsSinceLastAck ≥ ACK_PACKET_THRESHOLD then s.sendAck else s

/-- Takes the packets at consecutive order ids out of a reorder buffer.  Returns
the rest of the buffer, the packets and the next expected order id. -/
def drain (buffer : TreeMap UInt32 Incoming) (nextExpected : UInt32) :
    TreeMap UInt32 Incoming × List Incoming × UInt32 :=
  match _h : buffer[nextExpected]? with
  | none => (buffer, [], nextExpected)
  | some incoming =>
      let (rest, ready, next) := drain (buffer.erase nextExpected) (nextExpected + 1)
      (rest, incoming :: ready, next)
termination_by buffer.size
decreasing_by exact OrderedMap.size_erase_lt _h

/-- Hands up an ordered packet, with the packets it was holding back, or buffers
it until the gap before it is filled. -/
def deliverOrdered (s : Session) (incoming : Incoming) : Session × List Incoming :=
  let channel := incoming.header.channelId
  let received := incoming.header.orderId
  let nextExpected := s.nextExpectedOrderIds.getD channel 0
  let buffer := s.reorderBuffers.getD channel ∅
  if received == nextExpected then
    let (buffer, ready, next) := drain buffer (nextExpected + 1)
    ({ s with
        nextExpectedOrderIds := s.nextExpectedOrderIds.insert channel next
        reorderBuffers := s.reorderBuffers.insert channel buffer },
      incoming :: ready)
  else if received > nextExpected then
    ({ s with
        reorderBuffers := s.reorderBuffers.insert channel (buffer.insert received incoming) }, [])
  else (s, [])

/-- Hands up the packet of an accepted datagram. -/
def deliver (s : Session) (header : Header) (d : Datagram) : Session × List Incoming :=
  if header.messageId == SystemMessageId.kRichAck then
    (s.checkForOldPackets d.bytes header, [])
  else
    let payloadSize := d.bytes.length - Header.size
    if payloadSize == 0 && header.messageId == SystemMessageId.kAck then (s, [])
    else
      let incoming := Incoming.ofDatagram header d
      if isOrdered incoming.packet.flag then s.deliverOrdered incoming else (s, [incoming])

/-- Processes incoming raw data and returns the packets that are ready. -/
def handleIncoming (target : LeftShift) (s : Session) (d : Datagram) : Session × List Incoming :=
  match Header.parse d.bytes with
  | .error _ => (s, [])
  | .ok header =>
      let s := { s with lastSeen := s.clock.head, clock := s.clock.tail }
      let s := s.acknowledge header
      if s.isDuplicate header.sequenceId then
        ({ s with
            pendingRichAcks := s.pendingRichAcks ++ [header.sequenceId]
            hasUnsentAck := true }, [])
      else
        (s.accept target header.sequenceId).deliver header d

end Session

end Rtype.Rtnt
