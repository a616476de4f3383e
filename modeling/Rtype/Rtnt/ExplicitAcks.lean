import Rtype.Rtnt.Replay

/-!
# rtnt - Explicit acknowledgements

The window of a header reaches back 32 ids.  What it cannot say is to be said by
RICH_ACK packets: an id is queued, and a flag keeps the flush of the queue on the
schedule of {lit}`update`.  This file follows the queue and the flag through every
call.  Both rules have a hole: any transmission clears the flag, and an id that
arrives late for the first time is recorded but not queued.

Main results:

- Theorem {lit}`scheduled_iff`: the runs throughout which a queue that is not empty
  stays scheduled.
- Theorem {lit}`acknowledgeable_iff`: the datagrams after which the session can, or
  did, acknowledge the id it received.

Current gaps:

- None.
-/

namespace Rtype.Rtnt

open Transition

namespace Session

/-! ## The flush -/

/-- The queue is empty after an acknowledgement. -/
@[simp]
theorem pendingRichAcks_sendAck (s : Session) : s.sendAck.pendingRichAcks = [] := by
  obtain ⟨_, _, _, _, _, _, _, hframe⟩ := Endpoint.sendAck_frame s
  rw [hframe]

/-! ## The schedule -/

/-- Queued ids are on the schedule of `update`. -/
def Scheduled (s : Session) : Prop :=
  s.pendingRichAcks ≠ [] → s.hasUnsentAck = true

/-- The stored packet that a pass of `update` looks at first among those whose time
has run out. -/
def firstExpired (now : Time) (entries : List (UInt32 × SentPacketInfo)) :
    Option (UInt32 × SentPacketInfo) :=
  entries.find? fun entry => decide (now - entry.2.sentTime > RESEND_TIMEOUT)

/-- The pass transmits a stored packet again: the first one whose time has run out has
attempts left. -/
def Retransmits (s : Session) : Prop :=
  ∃ entry, firstExpired s.clock.head s.sentPackets.toList = some entry ∧
    entry.2.retries < MAX_RESEND_ATTEMPTS

/-- A pass of the resend loop leaves the queue alone, and clears the flag exactly when
it transmits. -/
theorem resendExpired_schedule (now : Time) (entries : List (UInt32 × SentPacketInfo))
    (s : Session) :
    (resendExpired now entries s).1.pendingRichAcks = s.pendingRichAcks ∧
      ((resendExpired now entries s).1.hasUnsentAck = true ↔ s.hasUnsentAck = true ∧
        ¬ ∃ entry, firstExpired now entries = some entry ∧
          entry.2.retries < MAX_RESEND_ATTEMPTS) := by
  induction entries generalizing s with
  | nil => simp [resendExpired, firstExpired]
  | cons entry rest ih =>
      obtain ⟨id, info⟩ := entry
      unfold resendExpired firstExpired
      by_cases hexpired : now - info.sentTime > RESEND_TIMEOUT
      · rw [if_pos hexpired, List.find?_cons_of_pos (by simpa using hexpired)]
        by_cases hretries : info.retries ≥ MAX_RESEND_ATTEMPTS
        · have hnot : ¬ info.retries < MAX_RESEND_ATTEMPTS := UInt8.not_lt.mpr hretries
          simp [if_pos hretries, disconnect, hnot]
        · have hlt : info.retries < MAX_RESEND_ATTEMPTS := UInt8.not_le.mp hretries
          rw [if_neg hretries]
          refine ⟨(ih _).1, ?_⟩
          rw [(ih _).2]
          simp [rawSend, hlt]
      · rw [if_neg hexpired, List.find?_cons_of_neg (by simpa using hexpired)]
        exact ih s

/-- `update` takes queued ids off the schedule exactly when it transmits a stored packet
again: the flag is then clear when it is tested. -/
theorem update_scheduled_iff {s : Session} (hs : s.Scheduled) :
    s.update.Scheduled ↔ s.pendingRichAcks = [] ∨ ¬ s.Retransmits := by
  have hpass := resendExpired_schedule s.clock.head s.sentPackets.toList
    { s with clock := s.clock.tail }
  unfold update
  simp only
  generalize resendExpired _ _ _ = pass at hpass ⊢
  obtain ⟨s', gaveUp⟩ := pass
  obtain ⟨hpending, hflag⟩ := hpass
  have hstay : s'.Scheduled ↔ s.pendingRichAcks = [] ∨ ¬ s.Retransmits := by
    unfold Scheduled Retransmits
    rw [hpending, hflag]
    constructor
    · intro h
      by_cases hnil : s.pendingRichAcks = []
      · exact Or.inl hnil
      · exact Or.inr (h hnil).2
    · rintro (hnil | hno) hpend
      · exact absurd hnil hpend
      · exact ⟨hs hpend, hno⟩
  cases gaveUp with
  | true => exact hstay
  | false =>
      simp only
      split_ifs with hdue
      · -- the flush empties the queue; it only runs when nothing was transmitted
        have hno : ¬ s.Retransmits := (hflag.mp (Bool.and_eq_true_iff.mp hdue).1).2
        refine iff_of_true ?_ (Or.inr hno)
        intro hpend
        exact absurd (pendingRichAcks_sendAck s') hpend
      · exact hstay

theorem sendAck_scheduled (s : Session) : s.sendAck.Scheduled :=
  fun hpend => absurd (pendingRichAcks_sendAck s) hpend

theorem updateAcknowledgeInfo_hasUnsentAck (target : LeftShift) (s : Session) (id : UInt32) :
    (s.updateAcknowledgeInfo target id).hasUnsentAck = true := by
  unfold updateAcknowledgeInfo
  cases s.hasReceivedRemotePacket with
  | false => rfl
  | true => rfl

theorem accept_scheduled (target : LeftShift) (s : Session) (id : UInt32) :
    (s.accept target id).Scheduled := by
  unfold accept
  simp only
  split_ifs
  · exact sendAck_scheduled _
  · intro _
    exact updateAcknowledgeInfo_hasUnsentAck target s id

/-- The delivery of a packet changes the stored packets and the reorder state only. -/
theorem deliver_frame (s : Session) (h : Header) (d : Datagram) :
    ∃ stored next buffers, (s.deliver h d).1 =
      { s with
        sentPackets := stored
        nextExpectedOrderIds := next
        reorderBuffers := buffers } := by
  unfold deliver
  simp only
  split_ifs
  · obtain ⟨t, hchecked, -⟩ := Endpoint.checkForOldPackets_eq s h d.bytes
    exact ⟨t, _, _, hchecked⟩
  · exact ⟨_, _, _, rfl⟩
  · unfold deliverOrdered
    simp only
    split_ifs
    · exact ⟨_, _, _, rfl⟩
    · exact ⟨_, _, _, rfl⟩
    · exact ⟨_, _, _, rfl⟩
  · exact ⟨_, _, _, rfl⟩

/-- Reception puts whatever is queued back on the schedule. -/
theorem handleIncoming_scheduled (target : LeftShift) {s : Session} (hs : s.Scheduled)
    (d : Datagram) : (s.handleIncoming target d).1.Scheduled := by
  unfold handleIncoming
  cases Header.parse d.bytes with
  | error e => exact hs
  | ok h =>
      simp only
      split_ifs
      · intro _
        rfl
      · obtain ⟨stored, next, buffers, hdeliver⟩ := deliver_frame _ h d
        rw [hdeliver]
        exact accept_scheduled target _ _

/-- A transmission clears the flag whatever it transmits. -/
theorem send_scheduled_iff (s : Session) (p : Packet) :
    (s.send p).Scheduled ↔ s.pendingRichAcks = [] := by
  have hpending : (s.send p).pendingRichAcks = s.pendingRichAcks := by
    unfold send
    simp only
    split_ifs <;> rfl
  have hflag : (s.send p).hasUnsentAck = false := rfl
  rw [Scheduled, hpending, hflag]
  constructor
  · intro h
    by_contra hpend
    cases h hpend
  · intro hnil hpend
    exact absurd hnil hpend

end Session

namespace Endpoint

/-- A call transmits no unrelated packet while ids are queued. -/
def SparesQueue (e : Endpoint) : Action → Prop
  | .send _ => e.session.pendingRichAcks = []
  | .update => e.session.pendingRichAcks = [] ∨ ¬ e.session.Retransmits
  | .receive _ => True
  | .disconnect => True

/-- The calls that keep the queue on the schedule. -/
theorem step_scheduled_iff (target : LeftShift) (e : Endpoint) (a : Action)
    (he : e.session.Scheduled) :
    (e.step target a).session.Scheduled ↔ e.SparesQueue a := by
  cases a with
  | send p => exact Session.send_scheduled_iff e.session p
  | update => exact Session.update_scheduled_iff he
  | receive d => exact iff_of_true (Session.handleIncoming_scheduled target he d) trivial
  | disconnect => exact iff_of_true he trivial

/-- Queued ids stay scheduled throughout a run exactly when no call of it sends or
retransmits a packet while ids are queued. -/
theorem scheduled_iff (target : LeftShift) (self : ℕ) (clock : Stream' Time)
    (actions : List Action) :
    Throughout (step target) (fun e => e.session.Scheduled) (new self clock) actions ↔
      AllowedRun (step target) SparesQueue (new self clock) actions :=
  throughout_iff (step_scheduled_iff target) (fun hpend => absurd rfl hpend) actions

/-- A datagram arrives twice, and then a packet is sent: the id of the duplicate stays
queued with nothing to flush it. -/
theorem unscheduled_after_send :
    ¬ ∀ (target : LeftShift) (self : ℕ) (clock : Stream' Time) (actions : List Action),
      Throughout (step target) (fun e => e.session.Scheduled) (new self clock) actions := by
  intro h
  have hrun := h .intended 1 (Stream'.const 0)
    [.receive (Link.plainDatagram 0), .receive (Link.plainDatagram 0), .send (Packet.new 201)]
  have hlast := hrun.2.2.2
  exact absurd (hlast (by decide +kernel)) (by decide +kernel)

end Endpoint

namespace Session

/-! ## Late arrivals -/

/-- The header of the next datagram acknowledges the id. -/
def Reports (s : Session) (id : UInt32) : Prop :=
  id = s.remoteAcknowledgeId ∨ id ∈ windowIds s.remoteAcknowledgeId s.remoteAcknowledgeBitfield 0

/-- The id arrives for the first time, more than 32 ids behind the head. -/
def OutOfWindow (s : Session) (id : UInt32) : Prop :=
  s.hasReceivedRemotePacket = true ∧ s.isDuplicate id = false ∧
    id.toNat + 32 < s.remoteAcknowledgeId.toNat

/-- The datagrams that a call hands to the send function. -/
def emittedSince (s s' : Session) : List Datagram :=
  s'.outbox.drop s.outbox.length

/-- After a call, the session has acknowledged the id or can do so. -/
def Acknowledgeable (s s' : Session) (id : UInt32) : Prop :=
  s'.Reports id ∨ id ∈ s'.pendingRichAcks ∨ ∃ d ∈ emittedSince s s', Endpoint.Acknowledges d id

/-- A window reports nothing further than 32 ids behind its head. -/
theorem not_reports_of_far {s : Session} {id : UInt32}
    (hfar : id.toNat + 32 < s.remoteAcknowledgeId.toNat) : ¬ s.Reports id := by
  rintro (rfl | hid)
  · omega
  · obtain ⟨i, -, hi, -, heq⟩ := mem_windowIds.mp hid
    have hnat : (UInt32.ofNat i + 1).toNat = i + 1 := by
      rw [UInt32.toNat_add, UInt32.toNat_ofNat']
      have hone : (1 : UInt32).toNat = 1 := rfl
      omega
    have hle : UInt32.ofNat i + 1 ≤ s.remoteAcknowledgeId := by
      rw [UInt32.le_iff_toNat_le, hnat]
      omega
    have hid := congrArg UInt32.toNat heq
    rw [UInt32.toNat_sub_of_le _ _ hle, hnat] at hid
    omega

/-- The window takes in every first-time id that it can reach. -/
theorem reports_updateAcknowledgeInfo_iff (target : LeftShift) {s : Session} {id : UInt32}
    (hnew : s.isDuplicate id = false) :
    (s.updateAcknowledgeInfo target id).Reports id ↔ ¬ s.OutOfWindow id := by
  by_cases hhas : s.hasReceivedRemotePacket = true
  · by_cases hgt : id > s.remoteAcknowledgeId
    · have hhead : (s.updateAcknowledgeInfo target id).remoteAcknowledgeId = id := by
        simp only [updateAcknowledgeInfo, hhas, Bool.not_true, Bool.false_eq_true, if_false,
          if_pos hgt, advanceWindow]
        split_ifs <;> rfl
      refine iff_of_true (Or.inl hhead.symm) ?_
      rintro ⟨-, -, hfar⟩
      have hgt' : s.remoteAcknowledgeId.toNat < id.toNat := hgt
      omega
    · have hne : ¬ id = s.remoteAcknowledgeId := by
        rintro rfl
        simp [isDuplicate, hhas] at hnew
      have hlt := lt_of_not_gt_of_ne hgt hne
      have hdist := toNat_distance hlt
      have hlt' : id.toNat < s.remoteAcknowledgeId.toNat := hlt
      have hwhole := s.remoteAcknowledgeId.toNat_lt
      by_cases hnear : s.remoteAcknowledgeId - id ≤ 32
      · have hnear' : s.remoteAcknowledgeId.toNat - id.toNat ≤ 32 := by
          rw [UInt32.le_iff_toNat_le, hdist] at hnear
          exact hnear
        have hbit : hasBit (s.remoteAcknowledgeBitfield ||| 1 <<< (s.remoteAcknowledgeId - id - 1))
            (s.remoteAcknowledgeId.toNat - id.toNat - 1) = true := by
          rw [hasBit_or _ _ (by omega), hasBit_mark (by omega) (by omega) (by omega)]
          simp only [Bool.or_eq_true, decide_eq_true_eq]
          omega
        refine iff_of_true (Or.inr ?_) (fun hout => ?_)
        · simp only [updateAcknowledgeInfo, hhas, Bool.not_true, Bool.false_eq_true, if_false,
            if_neg hgt, if_pos hlt, recordLate, if_pos hnear]
          exact mem_windowIds_of_toNat (Nat.zero_le _) (by omega) hbit (by omega)
        · have hfar := hout.2.2
          omega
      · have hfar : id.toNat + 32 < s.remoteAcknowledgeId.toNat := by
          rw [UInt32.le_iff_toNat_le, hdist] at hnear
          have h32 : (32 : UInt32).toNat = 32 := rfl
          omega
        refine iff_of_false ?_ (not_not_intro ⟨hhas, hnew, hfar⟩)
        apply not_reports_of_far
        simp only [updateAcknowledgeInfo, hhas, Bool.not_true, Bool.false_eq_true, if_false,
          if_neg hgt, if_pos hlt, recordLate, if_neg hnear]
        split_ifs <;> exact hfar
  · have hnone : s.hasReceivedRemotePacket = false := by simpa using hhas
    refine iff_of_true (Or.inl ?_) (fun hout => hhas hout.1)
    simp only [updateAcknowledgeInfo, hnone, Bool.not_false, if_true]

/-! ## What a flush emits -/

/-- A header reports its window at most. -/
theorem reports_of_mem_headerAcks {s : Session} {p : Packet} {sequenceId orderId id : UInt32}
    (hid : id ∈ Endpoint.headerAcks (s.header p sequenceId orderId)) : s.Reports id := by
  unfold Endpoint.headerAcks at hid
  split_ifs at hid
  · exact List.mem_cons.mp hid
  · cases hid

/-- The call emitted datagrams that acknowledge all of `acks`, and besides them only
what the window reports. -/
structure Flushes (s s' : Session) (acks : List UInt32) (new : List Datagram) : Prop where
  outbox_eq : s'.outbox = s.outbox ++ new
  complete : ∀ id ∈ acks, ∃ d ∈ new, Endpoint.Acknowledges d id
  sound : ∀ d ∈ new, ∀ id, Endpoint.Acknowledges d id → s.Reports id ∨ id ∈ acks

/-- The RICH_ACK packet before its list is written. -/
def blankRichAck : Packet :=
  Packet.new SystemMessageId.kRichAck Flag.kUnreliable INTERNAL_CHANNEL_ID

/-- A list of acks that fits its length field is written without an exception. -/
theorem write_blankRichAck {acks : List UInt32} (hfew : acks.length ≤ 65535) :
    Packet.write richAckShape (richAckData acks) blankRichAck =
      .ok (blankRichAck.append (richAckShape.encode (richAckData acks))) := by
  have hlen : (acks.map UInt32.toBitVec).length ≤ 65535 := by
    rw [List.length_map]
    exact hfew
  have hfits : richAckShape.Fits (richAckData acks) := ⟨⟨hlen, fun _ _ => trivial⟩, trivial⟩
  exact Packet.write_eq richAckShape (richAckData acks) hfits blankRichAck

/-- Such a list is sent in a packet of its own. -/
theorem sendRichAck_eq (s : Session) {acks : List UInt32} (hfew : acks.length ≤ 65535) :
    s.sendRichAck acks = s.drawSequenceId.rawSend
      (blankRichAck.append (richAckShape.encode (richAckData acks))) s.localSequenceId 0 := by
  have hwrite := write_blankRichAck hfew
  simp only [blankRichAck] at hwrite ⊢
  simp only [sendRichAck, hwrite]

theorem flushes_sendRichAck (s : Session) {acks : List UInt32} (hfew : acks.length ≤ 65535) :
    ∃ d, Flushes s (s.sendRichAck acks) acks [d] := by
  let p := blankRichAck.append (richAckShape.encode (richAckData acks))
  have hsend : s.sendRichAck acks = s.drawSequenceId.rawSend p s.localSequenceId 0 :=
    sendRichAck_eq s hfew
  have hlisted : Endpoint.listedAcks p.buffer = acks :=
    Endpoint.listedAcks_write rfl (write_blankRichAck hfew)
  rw [hsend]
  refine ⟨⟨s.self, (s.drawSequenceId.header p s.localSequenceId 0).wire ++ p.buffer⟩, ?_⟩
  constructor
  · rfl
  · intro id hid
    refine ⟨_, List.mem_singleton_self _, ?_⟩
    exact Endpoint.acknowledges_rawSend_iff.mpr (Or.inr ⟨rfl, by rwa [hlisted]⟩)
  · intro d hd id hacks
    rw [List.mem_singleton.mp hd] at hacks
    rcases Endpoint.acknowledges_rawSend_iff.mp hacks with hid | ⟨-, hid⟩
    · exact Or.inl (reports_of_mem_headerAcks (s := s.drawSequenceId) hid)
    · exact Or.inr (by rwa [hlisted] at hid)

theorem reports_of_window {s s' : Session} (h : s'.window = s.window) (id : UInt32) :
    s'.Reports id ↔ s.Reports id := by
  simp only [window, Prod.mk.injEq] at h
  rw [Reports, Reports, h.2.1, h.2.2.1]

/-- The loop over the chunks flushes all that is left of the list. -/
theorem flushes_sendRichAcks (s : Session) (acks : List UInt32) (processed : ℕ) :
    ∃ new, Flushes s (s.sendRichAcks acks processed) (acks.drop processed) new := by
  fun_induction sendRichAcks s acks processed with
  | case1 s processed hmore chunkSize ih =>
      obtain ⟨new, hnew⟩ := ih
      have hfew : ((acks.drop processed).take chunkSize).length ≤ 65535 := by
        have hmax : MAX_ACK_PER_PACKET = 256 := rfl
        rw [List.length_take]
        omega
      obtain ⟨d, hd⟩ := flushes_sendRichAck s hfew
      have hsplit : acks.drop processed =
          (acks.drop processed).take chunkSize ++ acks.drop (processed + chunkSize) := by
        rw [← List.drop_drop, List.take_append_drop]
      refine ⟨d :: new, ?_, ?_, ?_⟩
      · rw [hnew.outbox_eq, hd.outbox_eq, List.append_assoc, List.singleton_append]
      · intro id hid
        rw [hsplit, List.mem_append] at hid
        rcases hid with hid | hid
        · obtain ⟨d', hd', hacks⟩ := hd.complete id hid
          exact ⟨d', List.mem_cons.mpr (Or.inl (List.mem_singleton.mp hd')), hacks⟩
        · obtain ⟨d', hd', hacks⟩ := hnew.complete id hid
          exact ⟨d', List.mem_cons_of_mem _ hd', hacks⟩
      · intro d' hd' id hacks
        rw [hsplit, List.mem_append]
        rcases List.mem_cons.mp hd' with rfl | hd'
        · exact (hd.sound d' (List.mem_singleton_self _) id hacks).imp_right Or.inl
        · have hid := hnew.sound d' hd' id hacks
          rw [reports_of_window (window_sendRichAck s _)] at hid
          exact hid.imp_right Or.inr
  | case2 s processed hdone =>
      have hnil : acks.drop processed = [] := List.drop_eq_nil_of_le (by omega)
      rw [hnil]
      exact ⟨[], by rw [List.append_nil], by simp, by simp⟩

/-- An acknowledgement flushes the whole queue. -/
theorem flushes_sendAck (s : Session) : ∃ new, Flushes s s.sendAck s.pendingRichAcks new := by
  unfold sendAck
  split_ifs with hpending
  · obtain ⟨new, hnew⟩ := flushes_sendRichAcks s s.pendingRichAcks 0
    exact ⟨new, hnew.outbox_eq, hnew.complete, hnew.sound⟩
  · have hnil : s.pendingRichAcks = [] := by simpa using hpending
    rw [hnil]
    refine ⟨_, rfl, by simp, ?_⟩
    intro d hd id hacks
    rw [List.mem_singleton.mp hd] at hacks
    rcases Endpoint.acknowledges_rawSend_iff.mp hacks with hid | ⟨hrich, -⟩
    · exact Or.inl (reports_of_mem_headerAcks (s := s.drawSequenceId) hid)
    · exact absurd hrich (by decide)

/-! ## What a call leaves acknowledgeable -/

/-- An accepted id is acknowledgeable unless it came in out of the window, and then
only if it was in the queue already. -/
theorem accept_acknowledgeable_iff (target : LeftShift) {s : Session} {id : UInt32}
    (hnew : s.isDuplicate id = false) :
    Acknowledgeable s (s.accept target id) id ↔ ¬ s.OutOfWindow id ∨ id ∈ s.pendingRichAcks := by
  have hreports : (s.accept target id).Reports id ↔ ¬ s.OutOfWindow id := by
    rw [reports_of_window (window_accept target s id), reports_updateAcknowledgeInfo_iff target hnew]
  -- what is left of the claim: the queue before the call is still there, or was flushed
  have hqueue : ¬ (s.accept target id).Reports id →
      ((id ∈ (s.accept target id).pendingRichAcks ∨
          ∃ d ∈ emittedSince s (s.accept target id), Endpoint.Acknowledges d id) ↔
        id ∈ s.pendingRichAcks) := by
    intro hno
    obtain ⟨has, head, bits, history, unsent, hupdate⟩ :=
      Endpoint.updateAcknowledgeInfo_eq target s id
    unfold accept at hno ⊢
    rw [hupdate] at hno ⊢
    simp only at hno ⊢
    split_ifs at hno ⊢
    · obtain ⟨new, hnew⟩ := flushes_sendAck
        { s with
          hasReceivedRemotePacket := has
          remoteAcknowledgeId := head
          remoteAcknowledgeBitfield := bits
          oldPacketHistory := history
          hasUnsentAck := unsent
          packetsSinceLastAck := s.packetsSinceLastAck + 1 }
      rw [reports_of_window (window_sendAck _)] at hno
      rw [pendingRichAcks_sendAck, emittedSince, hnew.outbox_eq, List.drop_left]
      constructor
      · rintro (hid | ⟨d, hd, hacks⟩)
        · cases hid
        · exact (hnew.sound d hd id hacks).resolve_left hno
      · intro hid
        exact Or.inr (hnew.complete id hid)
    · simp [emittedSince]
  rw [Acknowledgeable]
  by_cases hreport : (s.accept target id).Reports id
  · exact iff_of_true (Or.inl hreport) (Or.inl (hreports.mp hreport))
  · have hout : ¬ ¬ s.OutOfWindow id := fun h => hreport (hreports.mpr h)
    rw [hqueue hreport]
    simp only [hreport, hout, false_or]

/-- What a session can acknowledge does not depend on the stored packets, the reorder
state or the clock. -/
theorem acknowledgeable_congr {s s' t t' : Session} {id : UInt32}
    (hbefore : t.outbox = s.outbox) (hwindow : t'.window = s'.window)
    (hpending : t'.pendingRichAcks = s'.pendingRichAcks) (hafter : t'.outbox = s'.outbox) :
    Acknowledgeable t t' id ↔ Acknowledgeable s s' id := by
  rw [Acknowledgeable, Acknowledgeable, reports_of_window hwindow, hpending, emittedSince,
    emittedSince, hbefore, hafter]

/-- Right after `handleIncoming`, the received id is reported by the window, queued, or
acknowledged by a datagram of the call, exactly when it did not arrive for the first
time more than 32 ids behind the head, or was in the queue already. -/
theorem acknowledgeable_iff (target : LeftShift) (s : Session) {d : Datagram} {h : Header}
    (hparse : Header.parse d.bytes = .ok h) :
    Acknowledgeable s (s.handleIncoming target d).1 h.sequenceId ↔
      ¬ s.OutOfWindow h.sequenceId ∨ h.sequenceId ∈ s.pendingRichAcks := by
  obtain ⟨stored, hacked, -⟩ := Endpoint.acknowledge_eq (Endpoint.seen s) h
  have hdup := Endpoint.isDuplicate_acknowledge s h h.sequenceId
  unfold handleIncoming
  simp only [hparse]
  rw [Endpoint.seen] at hacked hdup
  rw [hdup]
  cases hold : s.isDuplicate h.sequenceId with
  | true =>
      have hnot : ¬ s.OutOfWindow h.sequenceId := by
        rintro ⟨-, hnew, -⟩
        rw [hold] at hnew
        cases hnew
      refine iff_of_true (Or.inr (Or.inl ?_)) (Or.inl hnot)
      exact List.mem_append_right _ (List.mem_singleton_self _)
  | false =>
      simp only [Bool.false_eq_true, if_false]
      obtain ⟨stored', next, buffers, hdeliver⟩ := deliver_frame
        (({ s with lastSeen := s.clock.head, clock := s.clock.tail }.acknowledge h).accept target
          h.sequenceId) h d
      rw [hdeliver]
      rw [hold] at hdup
      have haccept := accept_acknowledgeable_iff target hdup
      rw [hacked] at haccept ⊢
      exact (acknowledgeable_congr rfl rfl rfl rfl).trans haccept

/-- After its first packet, of id 40, a session receives packet 30 and reports it. -/
theorem acknowledgeable_in_window :
    Acknowledgeable (handleIncoming .x86 (.new 1 (Stream'.const 0)) (Link.plainDatagram 40)).1
      (handleIncoming .x86
        (handleIncoming .x86 (.new 1 (Stream'.const 0)) (Link.plainDatagram 40)).1
        (Link.plainDatagram 30)).1 30 := by
  refine (acknowledgeable_iff .x86 _ (Link.parse_plainDatagram 30)).mpr (Or.inl ?_)
  rintro ⟨-, -, hfar⟩
  exact absurd hfar (by decide +kernel)

/-- After its first packet, of id 40, a session receives packet 7: the id is in the
history, and nothing will ever acknowledge it. -/
theorem late_id_lost :
    ¬ ∀ (target : LeftShift) (self : ℕ) (e : Endpoint), Endpoint.Run target .free self e →
      ∀ (d : Datagram) (h : Header), Header.parse d.bytes = .ok h →
        Acknowledgeable e.session (e.session.handleIncoming target d).1 h.sequenceId := by
  intro hall
  let e := (Endpoint.new 1 (Stream'.const 0)).step .x86 (.receive (Link.plainDatagram 40))
  have hrun : Endpoint.Run .x86 .free 1 e :=
    (Reachable.start ⟨_, rfl⟩).next (Endpoint.permits_free _ _)
  rcases hall .x86 1 e hrun _ _ (Link.parse_plainDatagram 7) with hreports | hqueued | ⟨d, hd, -⟩
  · have hhead : (e.session.handleIncoming .x86 (Link.plainDatagram 7)).1.remoteAcknowledgeId.toNat
        = 40 := by decide +kernel
    refine not_reports_of_far ?_ hreports
    rw [hhead]
    decide +kernel
  · have hnil : (e.session.handleIncoming .x86 (Link.plainDatagram 7)).1.pendingRichAcks = [] := by
      decide +kernel
    rw [hnil] at hqueued
    cases hqueued
  · have hnil : (e.session.handleIncoming .x86 (Link.plainDatagram 7)).1.outbox = [] := by
      decide +kernel
    rw [emittedSince, hnil, List.drop_nil] at hd
    cases hd

end Session

end Rtype.Rtnt
