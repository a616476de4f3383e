import Rtype.Rtnt.Sending

/-!
# rtnt - What a session acknowledges

A session reports the ids it has accepted in three ways: the head id, the
32-bit window and the RICH_ACK list.  This file proves that everything a session
has ever reported was accepted before, in every run that keeps to a guard on the
packets sent and on the ids accepted.

Main results:

- Definition {lit}`Endpoint.Guard.honest`: no sent packet claims to acknowledge ids
  that were not accepted, and no accepted id jumps by the window width unless the
  machine shifts as intended.
- Structure {lit}`Endpoint.AckInvariant`: every ack ever emitted is of an accepted id.
- Theorem {lit}`Endpoint.Run.ackInvariant`: it holds in every guarded run.

Current gaps:

- None.
-/

namespace Rtype.Rtnt

open Transition

namespace Endpoint

/-- The packet claims to acknowledge accepted ids only: it has the ack flag only if
the session has ids to report, and if it is a RICH_ACK packet, it lists ids that the
session has accepted. -/
def HonestPacket (e : Endpoint) (p : Packet) : Prop :=
  (p.flag &&& Flag.kHasAck ≠ 0 → e.session.hasReceivedRemotePacket = true) ∧
    (p.messageId = SystemMessageId.kRichAck →
      ∀ id ∈ listedAcks p.buffer, id ∈ e.acceptedIds)

-- bounded by the list: the instances for finite types would go through all ids
instance (e : Endpoint) (p : Packet) : Decidable (HonestPacket e p) :=
  decidable_of_iff
    ((p.flag &&& Flag.kHasAck ≠ 0 → e.session.hasReceivedRemotePacket = true) ∧
      (p.messageId = SystemMessageId.kRichAck →
        (listedAcks p.buffer).all fun id => decide (id ∈ e.acceptedIds)))
    (by simp [HonestPacket])

/-- The restrictions under which a session reports accepted ids only. -/
def Guard.honest (target : LeftShift) : Guard where
  send := HonestPacket
  accept seen id := ¬ Session.JumpsBy32 seen id ∨ target = .intended

variable {target : LeftShift}

/-- Everything that a session has reported or may come to report was accepted. -/
structure AckInvariant (e : Endpoint) : Prop where
  window : e.session.WindowTracks e.acceptedIds
  history : ∀ id ∈ e.session.oldPacketHistory, id ∈ e.acceptedIds
  pending : ∀ id ∈ e.session.pendingRichAcks, id ∈ e.acceptedIds
  flagged : ∀ r ∈ e.sent, r.packet.flag &&& Flag.kHasAck ≠ 0 →
    e.session.hasReceivedRemotePacket = true
  listed : ∀ r ∈ e.sent, r.packet.messageId = SystemMessageId.kRichAck →
    ∀ id ∈ listedAcks r.packet.buffer, id ∈ e.acceptedIds
  reported : ∀ d ∈ e.session.outbox, ∀ id, Acknowledges d id → id ∈ e.acceptedIds

theorem ackInvariant_new (self : ℕ) (clock : Stream' Time) : (new self clock).AckInvariant where
  window := Session.windowTracks_new self clock
  history := by simp [new, Session.new]
  pending := by simp [new, Session.new]
  flagged := by simp [new]
  listed := by simp [new]
  reported := by simp [new, Session.new]

/-! ## Emitted acks -/

/-- The ack words of an emitted header report accepted ids. -/
theorem headerAcks_header {s : Session} {ids : List UInt32} {p : Packet}
    {sequenceId orderId id : UInt32} (hwindow : s.WindowTracks ids)
    (hflag : p.flag &&& Flag.kHasAck ≠ 0 → s.hasReceivedRemotePacket = true)
    (hid : id ∈ headerAcks (s.header p sequenceId orderId)) : id ∈ ids := by
  have hhas : s.hasReceivedRemotePacket = true := by
    by_contra hnone
    simp only [headerAcks, Session.header, if_neg hnone] at hid
    split_ifs at hid with hflagged
    · exact hnone (hflag (by simpa using hflagged))
    · simp at hid
  have hexact : s.WindowExact ids := by
    rcases hwindow with ⟨-, hnone, -⟩ | hexact
    · rw [hnone] at hhas
      cases hhas
    · exact hexact
  rw [headerAcks] at hid
  split_ifs at hid
  · rcases List.mem_cons.mp hid with rfl | hid
    · exact hexact.head_mem
    · exact hexact.mem_of_mem_windowIds hid
  · simp at hid

/-- An emitted datagram acknowledges what its header says, and what its payload lists
if it is a RICH_ACK packet. -/
theorem acknowledges_rawSend_iff {s : Session} {p : Packet} {sequenceId orderId id : UInt32} :
    Acknowledges ⟨s.self, (s.header p sequenceId orderId).wire ++ p.buffer⟩ id ↔
      id ∈ headerAcks (s.header p sequenceId orderId) ∨
        p.messageId = SystemMessageId.kRichAck ∧ id ∈ listedAcks p.buffer := by
  have hsize : (s.header p sequenceId orderId).packetSize.toNat ≤ p.buffer.length := by
    simp only [Session.header, UInt16.toNat_ofNat']
    exact Nat.mod_le _ _
  have hdrop : ((s.header p sequenceId orderId).wire ++ p.buffer).drop Header.size = p.buffer :=
    List.drop_left' (Header.length_wire _)
  constructor
  · rintro ⟨h, hparse, hacks⟩
    rw [Header.parse_wire (by rfl) hsize, Except.ok.injEq] at hparse
    subst hparse
    rwa [hdrop] at hacks
  · intro hacks
    refine ⟨_, Header.parse_wire (by rfl) hsize, ?_⟩
    rwa [hdrop]

/-- What an emitted datagram acknowledges, besides the payload of a RICH_ACK
packet, was accepted. -/
theorem acknowledges_rawSend {s : Session} {ids : List UInt32} {p : Packet}
    {sequenceId orderId id : UInt32} (hwindow : s.WindowTracks ids)
    (hflag : p.flag &&& Flag.kHasAck ≠ 0 → s.hasReceivedRemotePacket = true)
    (hid : Acknowledges ⟨s.self, (s.header p sequenceId orderId).wire ++ p.buffer⟩ id) :
    id ∈ ids ∨ p.messageId = SystemMessageId.kRichAck ∧ id ∈ listedAcks p.buffer := by
  rw [acknowledges_rawSend_iff] at hid
  exact hid.imp_left (headerAcks_header hwindow hflag)

/-! ## The steps -/

theorem AckInvariant.transmit {e : Endpoint} (h : e.AckInvariant) {r : SentRecord}
    (hr : r ∈ e.sent) :
    AckInvariant { e with session := e.session.rawSend r.packet r.sequenceId r.orderId } where
  window := h.window
  history := h.history
  pending := h.pending
  flagged := h.flagged
  listed := h.listed
  reported := by
    intro d hd id hid
    simp only [Session.rawSend, List.mem_append, List.mem_singleton] at hd
    rcases hd with hd | rfl
    · exact h.reported d hd id hid
    · rcases acknowledges_rawSend h.window (h.flagged r hr) hid with hid | ⟨hrich, hid⟩
      · exact hid
      · exact h.listed r hr hrich id hid

/-- An acknowledgement packet reports pending ids. -/
theorem AckInvariant.sendAck {e : Endpoint} (h : e.AckInvariant) {p : Packet}
    (hp : AckPacket e.session.pendingRichAcks p) :
    AckInvariant
      { e with session := e.session.drawSequenceId.rawSend p e.session.localSequenceId 0 } where
  window := h.window
  history := h.history
  pending := h.pending
  flagged := h.flagged
  listed := h.listed
  reported := by
    intro d hd id hid
    simp only [Session.rawSend, List.mem_append, List.mem_singleton] at hd
    rcases hd with hd | rfl
    · exact h.reported d hd id hid
    · have hflag : p.flag &&& Flag.kHasAck ≠ 0 → e.session.hasReceivedRemotePacket = true := by
        rw [hp.isAckPacket.flag_eq]
        intro hne
        exact absurd rfl hne
      rcases acknowledges_rawSend (s := e.session.drawSequenceId) h.window hflag hid with
        hid | ⟨hrich, hid⟩
      · exact hid
      · cases hp with
        | simple => exact absurd hrich (by decide)
        | rich hacks hwrite =>
            rw [listedAcks_write rfl hwrite] at hid
            exact h.pending id (hacks id hid)

theorem AckInvariant.enroll {e : Endpoint} (h : e.AckInvariant) {p : Packet}
    (hp : HonestPacket e p) : (e.enroll p).AckInvariant := by
  have hsame : (e.enroll p).session.hasReceivedRemotePacket = e.session.hasReceivedRemotePacket ∧
      (e.enroll p).session.remoteAcknowledgeId = e.session.remoteAcknowledgeId ∧
      (e.enroll p).session.remoteAcknowledgeBitfield = e.session.remoteAcknowledgeBitfield ∧
      (e.enroll p).session.oldPacketHistory = e.session.oldPacketHistory ∧
      (e.enroll p).session.pendingRichAcks = e.session.pendingRichAcks := by
    simp only [Endpoint.enroll]
    split_ifs <;> exact ⟨rfl, rfl, rfl, rfl, rfl⟩
  obtain ⟨hhas, hhead, hbits, hhistory, hpending⟩ := hsame
  have hids : (e.enroll p).acceptedIds = e.acceptedIds := rfl
  constructor
  · rw [hids, Session.WindowTracks, Session.WindowExact, hhas, hhead, hbits]
    exact h.window
  · rw [hhistory]
    exact h.history
  · rw [hpending]
    exact h.pending
  · intro r hr hflag
    rw [hhas]
    rw [enroll_sent, List.mem_append, List.mem_singleton] at hr
    rcases hr with hr | rfl
    · exact h.flagged r hr hflag
    · exact hp.1 hflag
  · intro r hr hrich
    rw [enroll_sent, List.mem_append, List.mem_singleton] at hr
    rcases hr with hr | rfl
    · exact h.listed r hr hrich
    · exact hp.2 hrich
  · rw [enroll_outbox]
    exact h.reported

/-- A datagram that does not jump by the window width is accepted. -/
theorem AckInvariant.accept {e : Endpoint} (h : e.AckInvariant) (x : Incoming)
    (hok : ¬ Session.JumpsBy32 e.acceptedIds x.header.sequenceId ∨ target = .intended)
    (evicted : List UInt32) :
    AckInvariant { e with
      session := e.session.updateAcknowledgeInfo target x.header.sequenceId
      accepted := e.accepted ++ [x]
      evicted := evicted } := by
  have hexact := h.window.updateAcknowledgeInfo hok
  have hhistory := h.window.history_updateAcknowledgeInfo target x.header.sequenceId h.history
  have hids : ∀ s evicted,
      acceptedIds { e with session := s, accepted := e.accepted ++ [x], evicted := evicted } =
        e.acceptedIds ++ [x.header.sequenceId] := fun _ _ => List.map_append
  obtain ⟨has, head, bits, history, unsent, heq⟩ :=
    updateAcknowledgeInfo_eq target e.session x.header.sequenceId
  rw [heq] at hexact hhistory ⊢
  constructor
  · rw [hids]
    exact Or.inr hexact
  · rw [hids]
    exact hhistory
  · rw [hids]
    exact fun id hid => List.mem_append_left _ (h.pending id hid)
  · exact fun _ _ _ => hexact.1
  · rw [hids]
    exact fun r hr hrich id hid => List.mem_append_left _ (h.listed r hr hrich id hid)
  · rw [hids]
    exact fun d hd id hid => List.mem_append_left _ (h.reported d hd id hid)

/-- Every small step under the guard preserves the invariant. -/
theorem Micro.ackInvariant {e e' : Endpoint} (hstep : Micro target (.honest target) e e')
    (h : e.AckInvariant) : e'.AckInvariant := by
  cases hstep with
  | idle => exact ⟨h.1, h.2, h.3, h.4, h.5, h.6⟩
  | enroll packet hok => exact h.enroll hok
  | refresh => exact ⟨h.1, h.2, h.3, h.4, h.5, h.6⟩
  | transmit r hr => exact h.transmit hr
  | sendAck p hp => exact h.sendAck hp
  | flush => exact ⟨h.1, h.2, by simp, h.4, h.5, h.6⟩
  | arrive => exact ⟨h.1, h.2, h.3, h.4, h.5, h.6⟩
  | forget => exact ⟨h.1, h.2, h.3, h.4, h.5, h.6⟩
  | refuse id hid =>
      refine ⟨h.1, h.2, fun x hx => ?_, h.4, h.5, h.6⟩
      rcases List.mem_append.mp hx with hx | hx
      · exact h.pending x hx
      · rw [List.mem_singleton.mp hx]
        exact h.window.mem_of_isDuplicate h.history hid
  | accept header d hd hparse hnew hok => exact h.accept (Incoming.ofDatagram header d) hok _

theorem AckInvariant.handOver {e : Endpoint} (h : e.AckInvariant) (x : Incoming) :
    (e.handOver x).AckInvariant := by
  obtain ⟨next, buffers, returned, heq⟩ := handOver_eq e x
  rw [heq]
  exact ⟨h.1, h.2, h.3, h.4, h.5, h.6⟩

/-- The invariant holds in every guarded run. -/
theorem Run.ackInvariant {self : ℕ} {e : Endpoint} (h : Run target (.honest target) self e) :
    e.AckInvariant := by
  refine h.invariant ?_ fun e a hrun hok he => ?_
  · rintro e ⟨clock, rfl⟩
    exact ackInvariant_new self clock
  · exact step_preserves (fun _ _ => Micro.ackInvariant) (fun _ x he => he.handOver x) hok
      (Run.sendInvariant hrun).stored he

end Endpoint

end Rtype.Rtnt
