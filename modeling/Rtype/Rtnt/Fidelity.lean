import Rtype.Rtnt.Receiving

/-!
# rtnt - What is left of a packet after a session

A packet is taken apart into header fields and payload bytes by {lit}`rawSend`, and built
again from them by {lit}`handleIncoming`.  All of it survives but the channel: the header
carries it, and the constructor of the new packet is called without it.

Main results:

- Theorem {lit}`Session.handleIncoming_head`: an accepted packet that is due comes first
  among the returned ones.
- Theorem {lit}`Session.fidelity_iff`: the returned packet is the sent one exactly when
  that was on channel 0.

Current gaps:

- None.
-/

namespace Rtype.Rtnt

/-- The two packets are the same to a receiver: one may have the ack flag and the other
not. -/
structure Packet.SamePacket (p q : Packet) : Prop where
  messageId : q.messageId = p.messageId
  channelId : q.channelId = p.channelId
  buffer : q.buffer = p.buffer
  readPosition : q.readPosition = 0
  flag : q.flag ||| Flag.kHasAck = p.flag ||| Flag.kHasAck

namespace Session

open Endpoint (isPassedOn)

/-- A packet on arrival is due: it is unordered, or next on its channel. -/
def IsDue (s : Session) (x : Incoming) : Prop :=
  isOrdered x.packet.flag = true →
    s.nextExpectedOrderIds.getD x.header.channelId 0 = x.header.orderId

/-- A packet that is due comes first. -/
theorem passOn_head {s : Session} {x : Incoming} (hdue : s.IsDue x) :
    ∃ rest, (Endpoint.passOn s x).2 = x :: rest := by
  unfold Endpoint.passOn
  split_ifs with hordered
  · simp only [deliverOrdered, hdue hordered, beq_self_eq_true, if_true]
    exact ⟨_, rfl⟩
  · exact ⟨[], rfl⟩

/-- An accepted packet that is passed on and due comes first among the returned ones. -/
theorem handleIncoming_head (target : LeftShift) {s : Session} {d : Datagram} {x : Incoming}
    (haccepts : s.accepts d = some x) (hpassed : isPassedOn x = true) (hdue : s.IsDue x) :
    ∃ rest, (s.handleIncoming target d).2 = x :: rest := by
  let e : Endpoint := { session := s }
  rcases Endpoint.receive_decomposition target (Endpoint.permits_free e (.receive d)) with
    ⟨e₁, hsteps, ⟨-, hkept⟩ | ⟨y, hy, -, hstep⟩⟩
  · have hnot := hkept x haccepts
    rw [hpassed] at hnot
    cases hnot
  · have hxy : x = y := Option.some.inj (haccepts.symm.trans hy)
    subst hxy
    rcases Endpoint.Steps.reorder_eq hsteps with ⟨hnext, -, hreturned⟩
    have hdue₁ : e₁.session.IsDue x := by
      intro hordered
      rw [hnext]
      exact hdue hordered
    have hsame : (s.handleIncoming target d).2 = (Endpoint.passOn e₁.session x).2 := by
      have hlists := congrArg Endpoint.returned hstep
      change e.returned ++ (s.handleIncoming target d).2 =
        e₁.returned ++ (Endpoint.passOn e₁.session x).2 at hlists
      rwa [hreturned, List.append_cancel_left_eq] at hlists
    rw [hsame]
    exact passOn_head hdue₁

/-- A packet with a user id is passed on. -/
theorem isPassedOn_of_user {x : Incoming} (huser : 128 ≤ x.header.messageId.toNat) :
    isPassedOn x = true := by
  have hrich : x.header.messageId ≠ SystemMessageId.kRichAck := by
    intro h
    rw [h] at huser
    exact absurd huser (by decide)
  have hack : x.header.messageId ≠ SystemMessageId.kAck := by
    intro h
    rw [h] at huser
    exact absurd huser (by decide)
  simp [isPassedOn, hrich, hack]

/-- The datagram that {lit}`rawSend` makes of a packet, first transmission or not, and
what the peer makes of the datagram. -/
theorem rawSend_returned (target : LeftShift) {s t : Session} {p : Packet}
    {sequenceId orderId : UInt32} (huser : 128 ≤ p.messageId.toNat)
    (hnew : t.isDuplicate sequenceId = false)
    (hnext : isOrdered p.flag = true →
      t.nextExpectedOrderIds.getD p.channelId 0 = orderId) :
    ∃ x rest, (t.handleIncoming target
        ⟨s.self, (s.header p sequenceId orderId).wire ++ p.buffer⟩).2 = x :: rest ∧
      Endpoint.IsCopy x ⟨0, sequenceId, orderId, p⟩ ∧
      x.packet.channelId = 0 ∧ x.packet.readPosition = 0 := by
  have hcarries := Endpoint.carries_rawSend s p sequenceId orderId
  rcases hcarries with ⟨h, hparse, hdrop, hdescribes⟩
  have hcopy := Endpoint.isCopy_of_carries (r := ⟨0, sequenceId, orderId, p⟩) hparse
    ⟨h, hparse, hdrop, hdescribes⟩
  have haccepts : t.accepts ⟨s.self, (s.header p sequenceId orderId).wire ++ p.buffer⟩ =
      some (Incoming.ofDatagram h
        ⟨s.self, (s.header p sequenceId orderId).wire ++ p.buffer⟩) := by
    simp only [accepts, hparse, hdescribes.sequenceId_eq, hnew, Bool.false_eq_true, if_false]
  have hpassed := isPassedOn_of_user (x := Incoming.ofDatagram h
    ⟨s.self, (s.header p sequenceId orderId).wire ++ p.buffer⟩) (by
      rwa [show (Incoming.ofDatagram h _).header = h from rfl, hdescribes.messageId_eq])
  have hdue : t.IsDue (Incoming.ofDatagram h
      ⟨s.self, (s.header p sequenceId orderId).wire ++ p.buffer⟩) := by
    intro hordered
    rw [hcopy.channelId_eq, hcopy.orderId_eq]
    apply hnext
    rwa [hcopy.isOrdered_eq] at hordered
  rcases handleIncoming_head target haccepts hpassed hdue with ⟨rest, hrest⟩
  exact ⟨_, rest, hrest, hcopy, rfl, rfl⟩

/-- {lit}`send` transmits with the next sequence id, and the next order id of the channel
for an ordered packet. -/
theorem outbox_send (s : Session) (p : Packet) :
    ∃ s' : Session, (s.send p).outbox =
      s.outbox ++
        [⟨s'.self, (s'.header p s.localSequenceId (s.orderIdFor p)).wire ++ p.buffer⟩] := by
  unfold send
  simp only
  split_ifs <;> exact ⟨_, rfl⟩

/-- The packet that the peer returns first for an accepted datagram is the one that was
sent exactly when the channel of that was 0. -/
theorem fidelity_iff (target : LeftShift) (s t : Session) (p : Packet) (d : Datagram)
    (huser : 128 ≤ p.messageId.toNat) (hsent : (s.send p).outbox = s.outbox ++ [d])
    (hnew : t.isDuplicate s.localSequenceId = false)
    (hnext : isOrdered p.flag = true →
      t.nextExpectedOrderIds.getD p.channelId 0 = s.orderIdFor p) :
    (∃ x rest, (t.handleIncoming target d).2 = x :: rest ∧ p.SamePacket x.packet) ↔
      p.channelId = 0 := by
  rcases outbox_send s p with ⟨s', houtbox⟩
  have hd := List.singleton_inj.mp (List.append_cancel_left (hsent.symm.trans houtbox))
  rcases rawSend_returned target (s := s') huser hnew hnext with
    ⟨x, rest, hreturned, hcopy, hchannel, hposition⟩
  rw [← hd] at hreturned
  rw [hreturned]
  constructor
  · rintro ⟨y, others, hfirst, hsame⟩
    rw [← (List.cons.inj hfirst).1] at hsame
    rw [← hsame.channelId, hchannel]
  · intro hzero
    refine ⟨x, rest, rfl, hcopy.messageId_eq, ?_, hcopy.buffer_eq, hposition, hcopy.flag_eq⟩
    rw [hchannel, hzero]

/-- Two fresh sessions and a reliable packet on channel 0. -/
theorem fidelity_fresh :
    (∃ x rest, (handleIncoming .x86 (new 2 (Stream'.const 0))
        ⟨1, (header (new 1 (Stream'.const 0)) (.new 200 Flag.kReliable) 0 0).wire ++ []⟩).2 =
          x :: rest ∧
        (Packet.new 200 Flag.kReliable).SamePacket x.packet) ↔
      (Packet.new 200 Flag.kReliable).channelId = 0 := by
  apply fidelity_iff .x86 (new 1 (Stream'.const 0))
  · decide
  · rfl
  · rfl
  · intro _
    rfl

/-- A packet that is sent on channel 1 is returned on channel 0. -/
theorem channel_lost :
    ¬ ∀ (target : LeftShift) (s t : Session) (p : Packet) (d : Datagram),
      128 ≤ p.messageId.toNat → p.buffer.length ≤ 65535 →
      (s.send p).outbox = s.outbox ++ [d] → t.isDuplicate s.localSequenceId = false →
      (isOrdered p.flag = true →
        t.nextExpectedOrderIds.getD p.channelId 0 = s.orderIdFor p) →
      ∃ x rest, (t.handleIncoming target d).2 = x :: rest ∧ p.SamePacket x.packet := by
  intro hall
  have hnew : (new 2 (Stream'.const 0)).isDuplicate 0 = false := rfl
  have hnext : isOrdered (Packet.new 200 Flag.kUnreliable 1).flag = true →
      (new 2 (Stream'.const 0)).nextExpectedOrderIds.getD 1 0 = 0 := fun _ => rfl
  rcases hall .x86 (new 1 (Stream'.const 0)) (new 2 (Stream'.const 0))
    (.new 200 Flag.kUnreliable 1)
    ⟨1, (header (new 1 (Stream'.const 0)) (.new 200 Flag.kUnreliable 1) 0 0).wire ++ []⟩
    (by decide) (by decide) rfl hnew hnext with ⟨x, rest, hreturned, hsame⟩
  rcases rawSend_returned .x86 (s := new 1 (Stream'.const 0)) (by decide) hnew hnext with
    ⟨y, others, hfirst, -, hchannel, -⟩
  have hxy : x = y := (List.cons.inj (hreturned.symm.trans hfirst)).1
  rw [← hxy, hsame.channelId] at hchannel
  exact absurd hchannel (by decide)

end Session

end Rtype.Rtnt
