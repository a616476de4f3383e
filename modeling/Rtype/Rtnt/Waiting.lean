import Rtype.Rtnt.Sending

/-!
# rtnt - What a session waits for

A packet that is not unreliable waits for its acknowledgement from the moment it is sent.
This file says, call by call, what becomes of the packets that wait: only the reception of a
datagram that acknowledges a packet ends its wait.

Main results:

- Theorem {lit}`Endpoint.step_waits`: the calls that end a wait.
- Theorem {lit}`Endpoint.sent_waits`: a reliable packet waits once it is sent.

Current gaps:

- None.
-/

namespace Rtype.Rtnt

open Std (TreeMap)

namespace Session

variable {s : Session} {id : UInt32}

/-! ## Calls that end no wait -/

theorem sentPackets_sendAck (s : Session) : s.sendAck.sentPackets = s.sentPackets := by
  obtain ⟨_, _, _, _, _, _, _, hframe⟩ := Endpoint.sendAck_frame s
  rw [hframe]

theorem sentPackets_accept (target : LeftShift) (s : Session) (sequenceId : UInt32) :
    (s.accept target sequenceId).sentPackets = s.sentPackets := by
  obtain ⟨has, head, bits, history, unsent, hupdate⟩ :=
    Endpoint.updateAcknowledgeInfo_eq target s sequenceId
  simp only [accept, hupdate]
  split_ifs
  · rw [sentPackets_sendAck]
  · rfl

/-- A pass of the resend loop only refreshes entries. -/
theorem mem_resendExpired (now : Time) (entries : List (UInt32 × SentPacketInfo))
    (h : id ∈ s.sentPackets) : id ∈ (resendExpired now entries s).1.sentPackets := by
  induction entries generalizing s with
  | nil => exact h
  | cons entry rest ih =>
      unfold resendExpired
      split_ifs
      · exact h
      · apply ih
        exact TreeMap.mem_insert.mpr (.inr h)
      · exact ih h

theorem mem_update (h : id ∈ s.sentPackets) : id ∈ s.update.sentPackets := by
  have hpass := mem_resendExpired (s := { s with clock := s.clock.tail }) s.clock.head
    s.sentPackets.toList h
  unfold update
  dsimp only
  split
  · rename_i heq
    rw [heq] at hpass
    exact hpass
  · rename_i heq
    rw [heq] at hpass
    split_ifs
    · rw [sentPackets_sendAck]
      exact hpass
    · exact hpass

theorem mem_send (h : id ∈ s.sentPackets) (packet : Packet) :
    id ∈ (s.send packet).sentPackets := by
  simp only [send, rawSend]
  split_ifs
  · exact TreeMap.mem_insert.mpr (.inr h)
  · exact TreeMap.mem_insert.mpr (.inr h)
  · exact h
  · exact h

/-! ## Calls that start and end a wait -/

/-- A packet that is not unreliable waits once it is sent. -/
theorem mem_send_self {packet : Packet} (hflag : packet.flag ≠ Flag.kUnreliable) :
    s.localSequenceId ∈ (s.send packet).sentPackets := by
  have hreliable : (packet.flag != Flag.kUnreliable) = true := bne_iff_ne.mpr hflag
  simp only [send, rawSend, if_pos hreliable]
  split_ifs
  · exact TreeMap.mem_insert_self
  · exact TreeMap.mem_insert_self

/-- The delivery of a packet ends the waits that a RICH_ACK packet lists. -/
theorem mem_deliver (h : id ∈ s.sentPackets) (header : Header) (d : Datagram) :
    id ∈ (s.deliver header d).1.sentPackets ∨
      header.messageId = SystemMessageId.kRichAck ∧
        id ∈ Endpoint.listedAcks (d.bytes.drop Header.size) := by
  unfold deliver
  split_ifs with hrich
  · obtain ⟨t, hchecked, ht⟩ := Endpoint.checkForOldPackets_eq s header d.bytes
    rw [hchecked]
    rcases ht id with hsame | ⟨-, hlisted⟩
    · left
      rw [TreeMap.mem_iff_isSome_getElem?, hsame, ← TreeMap.mem_iff_isSome_getElem?]
      exact h
    · exact .inr ⟨eq_of_beq hrich, hlisted⟩
  · dsimp only
    left
    split_ifs
    · exact h
    · unfold deliverOrdered
      dsimp only
      split_ifs
      · exact h
      · exact h
      · exact h
    · exact h

/-- The reception of a datagram ends the waits that it acknowledges. -/
theorem mem_handleIncoming (target : LeftShift) (h : id ∈ s.sentPackets) (d : Datagram) :
    id ∈ (s.handleIncoming target d).1.sentPackets ∨ Endpoint.Acknowledges d id := by
  unfold handleIncoming
  cases hparse : Header.parse d.bytes with
  | error e => exact .inl h
  | ok header =>
      dsimp only
      obtain ⟨t, hacked, ht⟩ := Endpoint.acknowledge_eq
        { s with lastSeen := s.clock.head, clock := s.clock.tail } header
      rw [hacked]
      rcases ht id with hsame | ⟨-, hacks⟩
      · have hkept : id ∈ t := by
          rw [TreeMap.mem_iff_isSome_getElem?, hsame]
          exact TreeMap.mem_iff_isSome_getElem?.mp h
        split_ifs
        · exact .inl hkept
        · let acked : Session :=
            { s with lastSeen := s.clock.head, clock := s.clock.tail, sentPackets := t }
          have haccepted : id ∈ (acked.accept target header.sequenceId).sentPackets := by
            rw [sentPackets_accept]
            exact hkept
          refine (mem_deliver haccepted header d).imp_right ?_
          rintro ⟨hrich, hlisted⟩
          exact ⟨header, hparse, .inr ⟨hrich, hlisted⟩⟩
      · exact .inr ⟨header, hparse, .inl hacks⟩

end Session

namespace Endpoint

variable {e : Endpoint}

/-- Only the reception of a datagram that acknowledges a packet ends its wait. -/
theorem step_waits (target : LeftShift) (a : Action) {id : UInt32}
    (h : id ∈ e.session.sentPackets) :
    id ∈ (e.step target a).session.sentPackets ∨ ∃ d, a = .receive d ∧ Acknowledges d id := by
  cases a with
  | send packet => exact .inl (Session.mem_send h packet)
  | update => exact .inl (Session.mem_update h)
  | disconnect => exact .inl h
  | receive d =>
      refine (Session.mem_handleIncoming target h d).imp_right ?_
      intro hacks
      exact ⟨d, rfl, hacks⟩

/-- A call sends at most the packet that it is given, which then waits if it is not
unreliable. -/
theorem sent_waits (target : LeftShift) (a : Action) {r : SentRecord}
    (hr : r ∈ (e.step target a).sent) (hflag : r.packet.flag ≠ Flag.kUnreliable) :
    r ∈ e.sent ∨ r.sequenceId ∈ (e.step target a).session.sentPackets := by
  cases a with
  | send packet =>
      have hmem : r ∈ e.sent ++ [recordOf e.session packet] := hr
      refine (List.mem_append.mp hmem).imp_right ?_
      intro hlast
      obtain rfl := List.mem_singleton.mp hlast
      exact Session.mem_send_self hflag
  | update => exact .inl hr
  | disconnect => exact .inl hr
  | receive d => exact .inl hr

end Endpoint

end Rtype.Rtnt
