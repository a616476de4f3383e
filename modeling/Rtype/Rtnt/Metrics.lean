import Mathlib
import Rtype.Rtnt.Client
import Rtype.Rtnt.Retransmission

/-!
# rtnt - The metrics of a session

A session counts what it sends and receives on each channel, what it sends again, the
duplicates that it drops, and the last and the longest round trip.  The metered session
here does what the session does and keeps the counters beside it; nothing reads them back,
so erasing them gives the session.

Main results:

- Structure {lit}`SessionMetrics` and the calls on a {lit}`Metered` session.
- Theorem {lit}`Metered.session_step`: erasing the metrics of a call gives the call.
- Theorem {lit}`metrics_exact`: after every run the counters are what they are said to count.

Current gaps:

- The counters are read in one thread.
-/

namespace Rtype.Rtnt

/-! ## Data -/

/-- {lit}`stat::ChannelMetrics`. -/
structure ChannelMetrics where
  packetsSent : UInt64 := 0
  packetsReceived : UInt64 := 0
  bytesSent : UInt64 := 0
  bytesReceived : UInt64 := 0
deriving DecidableEq, Repr

/-- {lit}`stat::SessionMetrics`. -/
structure SessionMetrics where
  rtt : UInt32 := 0
  maxRtt : UInt32 := 0
  retransmitCount : UInt64 := 0
  duplicateCount : UInt64 := 0
  packetLossCount : UInt64 := 0
  channels : UInt8 → ChannelMetrics := fun _ => {}

namespace SessionMetrics

/-- What {lit}`rawSend` adds at its end. -/
def countSent (metrics : SessionMetrics) (channel : UInt8) (bytes : ℕ) : SessionMetrics :=
  let counters := metrics.channels channel
  { metrics with
    channels := Function.update metrics.channels channel
      { counters with
        packetsSent := counters.packetsSent + 1
        bytesSent := counters.bytesSent + UInt64.ofNat bytes } }

/-- What {lit}`handleIncoming` adds after the header is parsed. -/
def countReceived (metrics : SessionMetrics) (channel : UInt8) (bytes : ℕ) : SessionMetrics :=
  let counters := metrics.channels channel
  { metrics with
    channels := Function.update metrics.channels channel
      { counters with
        packetsReceived := counters.packetsReceived + 1
        bytesReceived := counters.bytesReceived + UInt64.ofNat bytes } }

/-- {lit}`Session::_updateRtt`. -/
def updateRtt (metrics : SessionMetrics) (rtt : ℤ) : SessionMetrics :=
  let rttMs := UInt32.ofInt rtt
  { metrics with
    rtt := rttMs
    maxRtt := if rttMs > metrics.maxRtt then rttMs else metrics.maxRtt }

end SessionMetrics

/-- A session with its metrics, and the readings of the clock for the round trips. -/
structure Metered where
  session : Session
  metrics : SessionMetrics := {}
  stopwatch : Stream' Time

namespace Metered

/-! ## Calls -/

/-- A fresh session. -/
def new (self : ℕ) (clock stopwatch : Stream' Time) : Metered where
  session := Session.new self clock
  stopwatch := stopwatch

/-- {lit}`Session::rawSend`. -/
def rawSend (m : Metered) (packet : Packet) (sequenceId orderId : UInt32) : Metered :=
  { m with
    session := m.session.rawSend packet sequenceId orderId
    metrics := m.metrics.countSent packet.channelId (packet.buffer.length + Header.size) }

/-- {lit}`Session::send`. -/
def send (m : Metered) (packet : Packet) : Metered :=
  let sequenceId := m.session.localSequenceId
  let orderId := m.session.orderIdFor packet
  let s := m.session.drawSequenceId
  let s := if isOrdered packet.flag then s.drawOrderId packet.channelId else s
  let s := if packet.flag != Flag.kUnreliable then s.remember packet sequenceId orderId else s
  { m with session := s }.rawSend packet sequenceId orderId

/-- One RICH_ACK packet. -/
def sendRichAck (m : Metered) (acks : List UInt32) : Metered :=
  let p := Packet.new SystemMessageId.kRichAck Flag.kUnreliable INTERNAL_CHANNEL_ID
  match Packet.write Session.richAckShape (Session.richAckData acks) p with
  | .ok p =>
      { m with session := m.session.drawSequenceId }.rawSend p m.session.localSequenceId 0
  | .error _ => m

/-- The loop that flushes the pending acks in chunks. -/
def sendRichAcks (m : Metered) (acks : List UInt32) (processed : ℕ) : Metered :=
  if processed < acks.length then
    let chunkSize := min MAX_ACK_PER_PACKET (acks.length - processed)
    sendRichAcks (m.sendRichAck ((acks.drop processed).take chunkSize)) acks
      (processed + chunkSize)
  else m
termination_by acks.length - processed
decreasing_by
  have : 0 < MAX_ACK_PER_PACKET := by decide
  omega

/-- One simple ACK packet. -/
def sendSimpleAck (m : Metered) : Metered :=
  let p := Packet.new SystemMessageId.kAck Flag.kUnreliable INTERNAL_CHANNEL_ID
  { m with session := m.session.drawSequenceId }.rawSend p m.session.localSequenceId 0

/-- {lit}`Session::_internal_sendAck`. -/
def sendAck (m : Metered) : Metered :=
  if !m.session.pendingRichAcks.isEmpty then
    let m := m.sendRichAcks m.session.pendingRichAcks 0
    { m with session := { m.session with pendingRichAcks := [] } }
  else
    m.sendSimpleAck

/-- The loop of {lit}`Session::update`. -/
def resendExpired (now : Time) : List (UInt32 × SentPacketInfo) → Metered → Metered × Bool
  | [], m => (m, false)
  | (id, info) :: rest, m =>
      if now - info.sentTime > RESEND_TIMEOUT then
        if info.retries ≥ MAX_RESEND_ATTEMPTS then
          ({ m with session := m.session.disconnect }, true)
        else
          let m := m.rawSend info.packet info.sequenceId info.orderId
          let info := { info with sentTime := now, retries := info.retries + 1 }
          let s := { m.session with sentPackets := m.session.sentPackets.insert id info }
          let metrics :=
            { m.metrics with retransmitCount := m.metrics.retransmitCount + 1 }
          resendExpired now rest { m with session := s, metrics := metrics }
      else
        resendExpired now rest m

/-- {lit}`Session::update`. -/
def update (m : Metered) : Metered :=
  let now := m.session.clock.head
  let m := { m with session := { m.session with clock := m.session.clock.tail } }
  match resendExpired now m.session.sentPackets.toList m with
  | (m, true) => m
  | (m, false) =>
      if m.session.hasUnsentAck && decide (now - m.session.lastAckTime > ACK_TIMEOUT) then
        m.sendAck
      else m

/-- The round trip of the packet that the header acknowledges by its id, when that packet has
been sent only once. -/
def measure (m : Metered) (header : Header) : Metered :=
  if header.flags &&& Flag.kHasAck != 0 && !m.session.sentPackets.isEmpty then
    match m.session.sentPackets[header.acknowledgeId]? with
    | none => m
    | some info =>
        if info.retries == 0 then
          { m with
            metrics := m.metrics.updateRtt (toMilliseconds (m.stopwatch.head - info.sentTime))
            stopwatch := m.stopwatch.tail }
        else m
  else m

/-- The acceptance of a sequence id. -/
def accept (target : LeftShift) (m : Metered) (sequenceId : UInt32) : Metered :=
  let s := m.session.updateAcknowledgeInfo target sequenceId
  let s := { s with packetsSinceLastAck := s.packetsSinceLastAck + 1 }
  let m := { m with session := s }
  if m.session.packetsSinceLastAck ≥ ACK_PACKET_THRESHOLD then m.sendAck else m

/-- {lit}`Session::handleIncoming` before the duplicate test. -/
def arrive (m : Metered) (header : Header) (d : Datagram) : Metered :=
  let s := { m.session with lastSeen := m.session.clock.head, clock := m.session.clock.tail }
  let metrics := m.metrics.countReceived header.channelId d.bytes.length
  { m with session := s, metrics := metrics }.measure header

/-- {lit}`Session::handleIncoming` from the acknowledgements on. -/
def settle (target : LeftShift) (m : Metered) (header : Header) (d : Datagram) : Metered :=
  let m := { m with session := m.session.acknowledge header }
  if m.session.isDuplicate header.sequenceId then
    { m with
      session :=
        { m.session with
          pendingRichAcks := m.session.pendingRichAcks ++ [header.sequenceId]
          hasUnsentAck := true }
      metrics := { m.metrics with duplicateCount := m.metrics.duplicateCount + 1 } }
  else
    let m := m.accept target header.sequenceId
    { m with session := (m.session.deliver header d).1 }

/-- {lit}`Session::handleIncoming`, without the packets that it returns. -/
def handleIncoming (target : LeftShift) (m : Metered) (d : Datagram) : Metered :=
  match Header.parse d.bytes with
  | .error _ => m
  | .ok header => (m.arrive header d).settle target header d

/-- The effect of a call. -/
def step (target : LeftShift) (m : Metered) : Action → Metered
  | .send packet => m.send packet
  | .update => m.update
  | .receive d => m.handleIncoming target d
  | .disconnect => { m with session := m.session.disconnect }

/-! ## Erasing the metrics -/

section

variable {target : LeftShift} (m : Metered)

theorem session_sendRichAck (acks : List UInt32) :
    (m.sendRichAck acks).session = m.session.sendRichAck acks := by
  unfold sendRichAck Session.sendRichAck
  dsimp only
  cases Packet.write Session.richAckShape (Session.richAckData acks)
    (Packet.new SystemMessageId.kRichAck Flag.kUnreliable INTERNAL_CHANNEL_ID) with
  | ok p => rfl
  | error what => rfl

theorem session_sendRichAcks (m : Metered) (acks : List UInt32) (processed : ℕ) :
    (m.sendRichAcks acks processed).session = m.session.sendRichAcks acks processed := by
  rw [sendRichAcks, Session.sendRichAcks]
  split_ifs with hleft
  · dsimp only
    rw [← session_sendRichAck]
    exact session_sendRichAcks _ acks _
  · rfl
termination_by acks.length - processed
decreasing_by
  have : 0 < MAX_ACK_PER_PACKET := by decide
  omega

theorem session_sendAck : m.sendAck.session = m.session.sendAck := by
  unfold sendAck Session.sendAck
  split_ifs
  · dsimp only
    rw [session_sendRichAcks]
  · rfl

theorem session_resendExpired (now : Time) (entries : List (UInt32 × SentPacketInfo)) :
    (resendExpired now entries m).1.session =
        (Session.resendExpired now entries m.session).1 ∧
      (resendExpired now entries m).2 = (Session.resendExpired now entries m.session).2 := by
  induction entries generalizing m with
  | nil => exact ⟨rfl, rfl⟩
  | cons entry rest ih =>
      rw [resendExpired, Session.resendExpired]
      split_ifs
      · exact ⟨rfl, rfl⟩
      · exact ih _
      · exact ih m

theorem session_update : m.update.session = m.session.update := by
  unfold update Session.update
  dsimp only
  have hpass := session_resendExpired
    { m with session := { m.session with clock := m.session.clock.tail } } m.session.clock.head
    m.session.sentPackets.toList
  generalize resendExpired m.session.clock.head m.session.sentPackets.toList
    { m with session := { m.session with clock := m.session.clock.tail } } = pass at hpass ⊢
  generalize Session.resendExpired m.session.clock.head m.session.sentPackets.toList
    { m.session with clock := m.session.clock.tail } = pass' at hpass ⊢
  rcases pass with ⟨m', stopped⟩
  rcases pass' with ⟨s', stopped'⟩
  rcases hpass with ⟨hsession, hstopped⟩
  subst hsession hstopped
  cases stopped with
  | true => rfl
  | false =>
      dsimp only
      split_ifs
      · exact session_sendAck m'
      · rfl

theorem session_measure (header : Header) : (m.measure header).session = m.session := by
  unfold measure
  split_ifs
  · split
    · rfl
    · split_ifs <;> rfl
  · rfl

theorem session_accept (id : UInt32) :
    (m.accept target id).session = m.session.accept target id := by
  unfold accept Session.accept
  dsimp only
  split_ifs
  · exact session_sendAck _
  · rfl

theorem session_arrive (header : Header) (d : Datagram) :
    (m.arrive header d).session = Endpoint.seen m.session :=
  session_measure _ header

theorem session_handleIncoming (d : Datagram) :
    (m.handleIncoming target d).session = (m.session.handleIncoming target d).1 := by
  unfold handleIncoming
  cases hparse : Header.parse d.bytes with
  | error what => rw [Session.handleIncoming, hparse]
  | ok header =>
      rw [Session.handleIncoming_of_parse target m.session hparse]
      dsimp only
      unfold settle
      rw [session_arrive]
      dsimp only
      split_ifs
      · rfl
      · rw [session_accept]

/-- Erasing the metrics of a call gives the call on the session. -/
theorem session_step (e : Endpoint) (h : m.session = e.session) (a : Action) :
    (m.step target a).session = (e.step target a).session := by
  cases a with
  | send packet =>
      change _ = e.session.send packet
      rw [← h]
      rfl
  | update => exact (session_update m).trans (congrArg Session.update h)
  | receive d =>
      change _ = (e.session.handleIncoming target d).1
      rw [← h]
      exact session_handleIncoming m d
  | disconnect => exact congrArg Session.disconnect h

/-- Erasing the metrics of a run gives the run of the session. -/
theorem session_foldl (target : LeftShift) {m : Metered} {e : Endpoint}
    (h : m.session = e.session) (actions : List Action) :
    (actions.foldl (step target) m).session = (actions.foldl (Endpoint.step target) e).session := by
  induction actions generalizing m e with
  | nil => exact h
  | cons a actions ih => exact ih (session_step m e h a)

end

end Metered

/-! ## The books -/

/-- The channel of a datagram: the byte at the place that the protocol gives it. -/
def channelOf (d : Datagram) : UInt8 :=
  (d.bytes.drop 8).headD 0

/-- The datagrams of a channel. -/
def onChannel (channel : UInt8) (datagrams : List Datagram) : List Datagram :=
  datagrams.filter fun d => channelOf d = channel

/-- The bytes of datagrams. -/
def bytesOf (datagrams : List Datagram) : ℕ :=
  (datagrams.map fun d => d.bytes.length).sum

theorem channelOf_of_parse {d : Datagram} {header : Header}
    (h : Header.parse d.bytes = .ok header) : channelOf d = header.channelId :=
  congrArg Header.channelId (Header.parse_eq_ok h).2.1

theorem channelOf_wire (emitter : ℕ) (header : Header) (payload : ByteBuffer) :
    channelOf ⟨emitter, header.wire ++ payload⟩ = header.channelId := by
  have hcopy := Header.ofObjectBytes_objectBytes header.convertEndianness payload
  exact congrArg (fun copy => copy.channelId) hcopy

theorem onChannel_append_self {channel : UInt8} {datagrams : List Datagram} {d : Datagram}
    (h : channelOf d = channel) :
    onChannel channel (datagrams ++ [d]) = onChannel channel datagrams ++ [d] := by
  rw [onChannel, onChannel, List.filter_append, List.filter_cons_of_pos (by simpa using h),
    List.filter_nil]

theorem onChannel_append_of_ne {channel : UInt8} {datagrams : List Datagram} {d : Datagram}
    (h : channelOf d ≠ channel) :
    onChannel channel (datagrams ++ [d]) = onChannel channel datagrams := by
  rw [onChannel, onChannel, List.filter_append, List.filter_cons_of_neg (by simpa using h),
    List.filter_nil, List.append_nil]

theorem bytesOf_append_singleton (datagrams : List Datagram) (d : Datagram) :
    bytesOf (datagrams ++ [d]) = bytesOf datagrams + d.bytes.length := by
  rw [bytesOf, List.map_append, List.sum_append, List.map_singleton, List.sum_singleton]
  rfl

/-- The counters that a channel should have. -/
def tally (sent heard : List Datagram) (channel : UInt8) : ChannelMetrics where
  packetsSent := UInt64.ofNat (onChannel channel sent).length
  packetsReceived := UInt64.ofNat (onChannel channel heard).length
  bytesSent := UInt64.ofNat (bytesOf (onChannel channel sent))
  bytesReceived := UInt64.ofNat (bytesOf (onChannel channel heard))

/-- One more datagram is sent. -/
theorem channels_countSent {metrics : SessionMetrics} {sent heard : List Datagram}
    (h : metrics.channels = tally sent heard) (d : Datagram) :
    (metrics.countSent (channelOf d) d.bytes.length).channels = tally (sent ++ [d]) heard := by
  ext1 channel
  by_cases hchannel : channel = channelOf d
  · subst hchannel
    dsimp only [SessionMetrics.countSent]
    rw [Function.update_self, h, tally, tally,
      onChannel_append_self rfl, List.length_append, bytesOf_append_singleton,
      UInt64.ofNat_add, UInt64.ofNat_add]
    rfl
  · dsimp only [SessionMetrics.countSent]
    rw [Function.update_of_ne hchannel, h, tally, tally,
      onChannel_append_of_ne (Ne.symm hchannel)]

/-- One more datagram is heard. -/
theorem channels_countReceived {metrics : SessionMetrics} {sent heard : List Datagram}
    (h : metrics.channels = tally sent heard) (d : Datagram) :
    (metrics.countReceived (channelOf d) d.bytes.length).channels =
      tally sent (heard ++ [d]) := by
  ext1 channel
  by_cases hchannel : channel = channelOf d
  · subst hchannel
    dsimp only [SessionMetrics.countReceived]
    rw [Function.update_self, h, tally, tally,
      onChannel_append_self rfl, List.length_append, bytesOf_append_singleton,
      UInt64.ofNat_add, UInt64.ofNat_add]
    rfl
  · dsimp only [SessionMetrics.countReceived]
    rw [Function.update_of_ne hchannel, h, tally, tally,
      onChannel_append_of_ne (Ne.symm hchannel)]

/-- The books are right: the channels are counted, what was emitted beyond the sequence ids
is counted as sent again, what was heard beyond the fresh datagrams is counted as duplicates,
and no round trip was longer than the longest one. -/
structure Books (m : Metered) (heard : List Datagram) (fresh : ℕ) : Prop where
  channels : m.metrics.channels = tally m.session.outbox heard
  again : ∃ n, m.session.outbox.length = m.session.issued + n ∧
    m.metrics.retransmitCount = UInt64.ofNat n
  dropped : ∃ n, heard.length = fresh + n ∧ m.metrics.duplicateCount = UInt64.ofNat n
  longest : m.metrics.rtt ≤ m.metrics.maxRtt

namespace Books

variable {m : Metered} {heard : List Datagram} {fresh : ℕ}

theorem new (self : ℕ) (clock stopwatch : Stream' Time) :
    Books (Metered.new self clock stopwatch) [] 0 where
  channels := rfl
  again := ⟨0, rfl, rfl⟩
  dropped := ⟨0, rfl, rfl⟩
  longest := UInt32.le_refl _

/-- A change that emits nothing and draws no id. -/
theorem withSession (h : Books m heard fresh) {s : Session}
    (houtbox : s.outbox = m.session.outbox) (hissued : s.issued = m.session.issued) :
    Books { m with session := s } heard fresh where
  channels := by
    rw [houtbox]
    exact h.channels
  again := by
    rw [houtbox, hissued]
    exact h.again
  dropped := h.dropped
  longest := h.longest

/-- The datagram of a packet goes on the channel of the packet. -/
theorem channels_rawSend (h : m.metrics.channels = tally m.session.outbox heard)
    {s : Session} (houtbox : s.outbox = m.session.outbox) (packet : Packet)
    (sequenceId orderId : UInt32) :
    ({ m with session := s }.rawSend packet sequenceId orderId).metrics.channels =
      tally ({ m with session := s }.rawSend packet sequenceId orderId).session.outbox
        heard := by
  let d : Datagram := ⟨s.self, (s.header packet sequenceId orderId).wire ++ packet.buffer⟩
  have hchannel : channelOf d = packet.channelId := channelOf_wire ..
  have hlength : d.bytes.length = packet.buffer.length + Header.size := by
    change (_ ++ packet.buffer).length = _
    rw [List.length_append, Header.length_wire, Nat.add_comm]
  have hcount := channels_countSent h d
  rw [hchannel, hlength, ← houtbox] at hcount
  exact hcount

/-- A packet is emitted under a new sequence id. -/
theorem transmit (h : Books m heard fresh) {s : Session}
    (houtbox : s.outbox = m.session.outbox) (hissued : s.issued = m.session.issued + 1)
    (packet : Packet) (sequenceId orderId : UInt32) :
    Books ({ m with session := s }.rawSend packet sequenceId orderId) heard fresh where
  channels := channels_rawSend h.channels houtbox packet sequenceId orderId
  again := by
    rcases h.again with ⟨n, hlength, hcount⟩
    refine ⟨n, ?_, hcount⟩
    change (s.outbox ++ [_]).length = s.issued + n
    rw [List.length_append, List.length_singleton, houtbox, hlength, hissued]
    omega
  dropped := h.dropped
  longest := h.longest

theorem send (h : Books m heard fresh) (packet : Packet) : Books (m.send packet) heard fresh := by
  apply h.transmit
  · split_ifs <;> rfl
  · split_ifs <;> rfl

theorem sendRichAck (h : Books m heard fresh) (acks : List UInt32) :
    Books (m.sendRichAck acks) heard fresh := by
  unfold Metered.sendRichAck
  dsimp only
  split
  · exact h.transmit (s := m.session.drawSequenceId) rfl rfl _ _ _
  · exact h

theorem sendRichAcks {m : Metered} (h : Books m heard fresh) (acks : List UInt32)
    (processed : ℕ) :
    Books (m.sendRichAcks acks processed) heard fresh := by
  rw [Metered.sendRichAcks]
  split_ifs with hleft
  · exact sendRichAcks (h.sendRichAck _) acks _
  · exact h
termination_by acks.length - processed
decreasing_by
  have : 0 < MAX_ACK_PER_PACKET := by decide
  omega

theorem sendAck (h : Books m heard fresh) : Books m.sendAck heard fresh := by
  unfold Metered.sendAck
  split_ifs
  · exact (h.sendRichAcks _ 0).withSession rfl rfl
  · exact h.transmit (s := m.session.drawSequenceId) rfl rfl _ _ _

/-- What is sent again is counted, one by one. -/
theorem resendExpired (h : Books m heard fresh) (now : Time)
    (entries : List (UInt32 × SentPacketInfo)) :
    Books (Metered.resendExpired now entries m).1 heard fresh := by
  induction entries generalizing m with
  | nil => exact h
  | cons entry rest ih =>
      rw [Metered.resendExpired]
      split_ifs
      · exact h.withSession rfl rfl
      · apply ih
        constructor
        · exact channels_rawSend h.channels rfl _ _ _
        · rcases h.again with ⟨n, hlength, hcount⟩
          refine ⟨n + 1, ?_, ?_⟩
          · change (m.session.outbox ++ [_]).length = m.session.issued + (n + 1)
            rw [List.length_append, List.length_singleton, hlength, Nat.add_assoc]
          · rw [UInt64.ofNat_add, ← hcount]
            rfl
        · exact h.dropped
        · exact h.longest
      · exact ih h

theorem update (h : Books m heard fresh) : Books m.update heard fresh := by
  unfold Metered.update
  dsimp only
  have hpass := (h.withSession (s := { m.session with clock := m.session.clock.tail }) rfl
    rfl).resendExpired m.session.clock.head m.session.sentPackets.toList
  split
  · rename_i m' heq
    rw [heq] at hpass
    exact hpass
  · rename_i m' heq
    rw [heq] at hpass
    split_ifs
    · exact sendAck hpass
    · exact hpass

/-- The longest round trip is kept. -/
theorem measure (h : Books m heard fresh) (header : Header) :
    Books (m.measure header) heard fresh := by
  unfold Metered.measure
  split_ifs
  · split
    · exact h
    · split_ifs
      · refine ⟨h.channels, h.again, h.dropped, ?_⟩
        unfold SessionMetrics.updateRtt
        dsimp only
        split_ifs with hlonger
        · exact UInt32.le_refl _
        · exact UInt32.not_lt.mp hlonger
      · exact h
  · exact h

theorem accept (target : LeftShift) (h : Books m heard fresh) (id : UInt32) :
    Books (m.accept target id) heard fresh := by
  rcases Endpoint.updateAcknowledgeInfo_eq target m.session id with
    ⟨has, head, bits, history, unsent, hupdate⟩
  simp only [Metered.accept, hupdate]
  split_ifs
  · exact sendAck (h.withSession rfl rfl)
  · exact h.withSession rfl rfl

/-- A datagram has arrived that may turn out to be fresh. -/
theorem arrive (h : Books m heard fresh) {d : Datagram} {header : Header}
    (hparse : Header.parse d.bytes = .ok header) :
    Books (m.arrive header d) (heard ++ [d]) (fresh + 1) := by
  apply measure
  constructor
  · rw [← channelOf_of_parse hparse]
    exact channels_countReceived h.channels d
  · exact h.again
  · rcases h.dropped with ⟨n, hlength, hcount⟩
    refine ⟨n, ?_, hcount⟩
    rw [List.length_append, List.length_singleton, hlength]
    omega
  · exact h.longest

/-- The datagram was a duplicate. -/
theorem drop (h : Books m heard (fresh + 1)) {s : Session}
    (houtbox : s.outbox = m.session.outbox) (hissued : s.issued = m.session.issued) :
    Books { m with
      session := s
      metrics := { m.metrics with duplicateCount := m.metrics.duplicateCount + 1 } }
      heard fresh where
  channels := (h.withSession houtbox hissued).channels
  again := (h.withSession houtbox hissued).again
  dropped := by
    rcases h.dropped with ⟨n, hlength, hcount⟩
    refine ⟨n + 1, by omega, ?_⟩
    rw [UInt64.ofNat_add, ← hcount]
    rfl
  longest := h.longest

end Books

/-- Whether the header of a datagram can be read. -/
def isHeard (d : Datagram) : Bool :=
  match Header.parse d.bytes with
  | .ok _ => true
  | .error _ => false

/-- A datagram is received: it is heard if it has a header, and then it is fresh or a
duplicate. -/
theorem Books.handleIncoming (target : LeftShift) {m : Metered} {heard : List Datagram}
    {fresh : ℕ} (h : Books m heard fresh) (d : Datagram) :
    Books (m.handleIncoming target d) (heard ++ [d].filter isHeard)
      (fresh + (m.session.accepts d).toList.length) := by
  unfold Metered.handleIncoming
  cases hparse : Header.parse d.bytes with
  | error what =>
      have hunheard : [d].filter isHeard = [] := by
        simp [isHeard, hparse]
      have haccepts : m.session.accepts d = none := by
        simp only [Session.accepts, hparse]
      rw [hunheard, List.append_nil, haccepts]
      exact h
  | ok header =>
      have hheard : [d].filter isHeard = [d] := by
        simp [isHeard, hparse]
      rw [hheard]
      have harrived := h.arrive hparse
      have hdup := Endpoint.isDuplicate_acknowledge m.session header header.sequenceId
      rcases Endpoint.acknowledge_eq (Endpoint.seen m.session) header with ⟨stored, hacked, -⟩
      have hsession := Metered.session_arrive m header d
      dsimp only
      unfold Metered.settle
      rw [hsession]
      dsimp only
      split_ifs with hknown
      · have haccepts : m.session.accepts d = none := by
          rw [hdup] at hknown
          simp only [Session.accepts, hparse, hknown, if_true]
        rw [haccepts]
        apply harrived.drop
        · rw [hsession, hacked]
        · rw [hsession, hacked]
      · have haccepts : (m.session.accepts d).toList.length = 1 := by
          rw [hdup] at hknown
          simp only [Session.accepts, hparse, if_neg hknown]
          rfl
        rw [haccepts]
        apply withSession
        · apply accept
          apply harrived.withSession
          · rw [hsession, hacked]
          · rw [hsession, hacked]
        · rcases Session.deliver_frame _ header d with ⟨stored, next, buffers, hdeliver⟩
          rw [hdeliver]
        · rcases Session.deliver_frame _ header d with ⟨stored, next, buffers, hdeliver⟩
          rw [hdeliver]

/-- A call keeps the books. -/
theorem Books.step (target : LeftShift) {m : Metered} {e : Endpoint}
    (hsession : m.session = e.session)
    (h : Books m (e.received.filter isHeard) e.accepted.length) (a : Action) :
    Books (m.step target a) ((e.step target a).received.filter isHeard)
      (e.step target a).accepted.length := by
  cases a with
  | send packet => exact h.send packet
  | update => exact h.update
  | receive d =>
      have hreceived := h.handleIncoming target d
      rw [hsession, ← List.filter_append, ← List.length_append] at hreceived
      exact hreceived
  | disconnect => exact h.withSession rfl rfl

/-- A run keeps the books. -/
theorem Books.foldl (target : LeftShift) {m : Metered} {e : Endpoint}
    (hsession : m.session = e.session)
    (h : Books m (e.received.filter isHeard) e.accepted.length) (actions : List Action) :
    Books (actions.foldl (Metered.step target) m)
      ((actions.foldl (Endpoint.step target) e).received.filter isHeard)
      (actions.foldl (Endpoint.step target) e).accepted.length := by
  induction actions generalizing m e with
  | nil => exact h
  | cons a actions ih =>
      exact ih (Metered.session_step m e hsession a) (h.step target hsession a)

/-- In every run of a session, with any calls and any readings of the clock: the counters of
each channel are the numbers of the datagrams that were sent on it and of those that came
with a header that names it, and of their bytes; as many datagrams are counted as sent again
as were emitted beyond the sequence ids that were drawn; as many are counted as duplicates as
came with a header and were not accepted; and no round trip was longer than the longest. -/
theorem metrics_exact (target : LeftShift) (self : ℕ) (clock stopwatch : Stream' Time)
    (actions : List Action) :
    let m := actions.foldl (Metered.step target) (Metered.new self clock stopwatch)
    let e := actions.foldl (Endpoint.step target) (Endpoint.new self clock)
    let heard := e.received.filter isHeard
    m.session = e.session ∧
      (∀ channel, m.metrics.channels channel = tally e.session.outbox heard channel) ∧
      (e.session.issued ≤ e.session.outbox.length ∧
        m.metrics.retransmitCount =
          UInt64.ofNat (e.session.outbox.length - e.session.issued)) ∧
      (e.accepted.length ≤ heard.length ∧
        m.metrics.duplicateCount = UInt64.ofNat (heard.length - e.accepted.length)) ∧
      m.metrics.rtt ≤ m.metrics.maxRtt := by
  intro m e heard
  have hsession : m.session = e.session := Metered.session_foldl target rfl actions
  have hbooks : Books m heard e.accepted.length :=
    Books.foldl target rfl (.new self clock stopwatch) actions
  refine ⟨hsession, ?_, ?_, ?_, hbooks.longest⟩
  · intro channel
    rw [← hsession]
    exact congrFun hbooks.channels channel
  · rcases hbooks.again with ⟨n, hlength, hcount⟩
    rw [← hsession, show m.session.outbox.length = _ from hlength]
    refine ⟨Nat.le_add_right _ _, ?_⟩
    rw [Nat.add_sub_cancel_left]
    exact hcount
  · rcases hbooks.dropped with ⟨n, hlength, hcount⟩
    rw [show heard.length = _ from hlength]
    refine ⟨Nat.le_add_right _ _, ?_⟩
    rw [Nat.add_sub_cancel_left]
    exact hcount

/-! ## Round trips -/

namespace Metered

section

variable {target : LeftShift} (m : Metered)

theorem rtt_sendRichAck (acks : List UInt32) :
    (m.sendRichAck acks).metrics.rtt = m.metrics.rtt := by
  unfold sendRichAck
  dsimp only
  split <;> rfl

theorem rtt_sendRichAcks (m : Metered) (acks : List UInt32) (processed : ℕ) :
    (m.sendRichAcks acks processed).metrics.rtt = m.metrics.rtt := by
  rw [sendRichAcks]
  split_ifs with hleft
  · exact (rtt_sendRichAcks _ acks _).trans (rtt_sendRichAck m _)
  · rfl
termination_by acks.length - processed
decreasing_by
  have : 0 < MAX_ACK_PER_PACKET := by decide
  omega

theorem rtt_sendAck : m.sendAck.metrics.rtt = m.metrics.rtt := by
  unfold sendAck
  split_ifs
  · exact rtt_sendRichAcks m m.session.pendingRichAcks 0
  · rfl

/-- Nothing but the acknowledgement by the header is measured. -/
theorem rtt_settle (header : Header) (d : Datagram) :
    (m.settle target header d).metrics.rtt = m.metrics.rtt := by
  unfold settle accept
  dsimp only
  split_ifs
  · rfl
  · exact rtt_sendAck _
  · rfl

end

/-- A round trip that is measured is the one of a packet that waits, was not sent again and is
acknowledged by the id of the header. -/
theorem rtt_handleIncoming (target : LeftShift) (m : Metered) (d : Datagram) :
    (m.handleIncoming target d).metrics.rtt = m.metrics.rtt ∨
      ∃ header info, Header.parse d.bytes = .ok header ∧
        header.acknowledgeId ∈ Endpoint.headerAcks header ∧
        m.session.sentPackets[header.acknowledgeId]? = some info ∧ info.retries = 0 ∧
        (m.handleIncoming target d).metrics.rtt =
          UInt32.ofInt (toMilliseconds (m.stopwatch.head - info.sentTime)) := by
  unfold handleIncoming
  cases hparse : Header.parse d.bytes with
  | error what => exact .inl rfl
  | ok header =>
      dsimp only
      rw [rtt_settle]
      unfold arrive measure
      dsimp only
      split_ifs with hacks
      · split
        · exact .inl rfl
        · rename_i info hinfo
          split_ifs with hretries
          · right
            refine ⟨header, info, rfl, ?_, hinfo, beq_iff_eq.mp hretries, rfl⟩
            rw [Bool.and_eq_true] at hacks
            rw [Endpoint.headerAcks, if_pos hacks.1]
            exact List.mem_cons_self
          · exact .inl rfl
      · exact .inl rfl

end Metered

theorem Ledger.endpoint_foldl (target : LeftShift) (l : Ledger) (actions : List Action) :
    (actions.foldl (step target) l).endpoint =
      actions.foldl (Endpoint.step target) l.endpoint := by
  induction actions generalizing l with
  | nil => rfl
  | cons a actions ih => exact ih (l.step target a)

/-- No round trip is ambiguous: whenever a datagram changes the measured round trip, it takes
the acknowledgement of a packet that waited for it, and the new value is the time since that
packet was sent.  The session has emitted the packet once, and it never emits it again. -/
theorem round_trips_unambiguous (target : LeftShift) (self : ℕ) (clock stopwatch : Stream' Time)
    (actions : List Action) (d : Datagram) :
    let m := actions.foldl (Metered.step target) (Metered.new self clock stopwatch)
    let l := actions.foldl (Ledger.step target) (Ledger.new self clock)
    (m.handleIncoming target d).metrics.rtt = m.metrics.rtt ∨
      ∃ r ∈ l.endpoint.sent, ∃ info,
        l.endpoint.session.sentPackets[r.sequenceId]? = some info ∧
        l.endpoint.session.TakesAck d r.sequenceId ∧
        (m.handleIncoming target d).metrics.rtt =
          UInt32.ofInt (toMilliseconds (m.stopwatch.head - info.sentTime)) ∧
        ∀ more : List Action,
          ((more.foldl (Ledger.step target) (l.step target (.receive d))).emissionsOf r).length =
            1 := by
  intro m l
  have hsession : m.session = l.endpoint.session := by
    rw [Ledger.endpoint_foldl]
    exact Metered.session_foldl target rfl actions
  have hrun : Ledger.Run target self l := by
    apply Transition.Reachable.run (.start ⟨clock, rfl⟩)
    exact Transition.allowedRun_of_forall (fun _ _ => trivial) _ actions
  have hsound := Ledger.Run.sound hrun
  have hinv := Endpoint.Run.sendInvariant (Ledger.Run.endpoint hrun)
  rcases m.rtt_handleIncoming target d with
    hsame | ⟨header, info, hparse, hack, hinfo, hretries, hrtt⟩
  · exact .inl hsame
  · right
    rw [hsession] at hinfo
    rcases hsound.owned _ info hinfo with ⟨r, howner, -⟩
    rcases Endpoint.owner_spec howner with ⟨hsent, hid, -⟩
    have htakes : l.endpoint.session.TakesAck d r.sequenceId := by
      rw [hid]
      exact ⟨header, hparse, .inl hack⟩
    refine ⟨r, hsent, info, by rwa [hid], htakes, hrtt, ?_⟩
    intro more
    have honce : l.table.log.count r = 1 := by
      have hwaiting := hsound.bounded.waiting _ r _ (Endpoint.waiting_eq hinfo howner)
      rw [hwaiting.2, hretries]
      rfl
    have hsettled := Ledger.settled_receive target hsound hinv hsent htakes
    have hafter : Ledger.Run target self (l.step target (.receive d)) :=
      Transition.Reachable.next hrun trivial
    have hcount := ((Ledger.Run.moves hafter more).1.settled hsettled).2
    have hlog : (l.step target (.receive d)).table.log = l.table.log := by
      rw [Ledger.log_table_step _ hsound.owned, Ledger.origins, List.append_nil]
    rw [Ledger.length_emissionsOf, hcount, hlog, honce]

end Rtype.Rtnt
