import Rtype.Rtnt.Endpoint

/-!
# rtnt - What a session emits

Every datagram that a session emits carries either a packet it was given to send,
with the ids that packet was given, or an acknowledgement packet of its own with
a sequence id that no sent packet has.  A packet that is not unreliable stays
stored until a received datagram acknowledges its sequence id.

Main results:

- Structure {lit}`Endpoint.SendInvariant`: the numbering of the sent packets, the
  stored packets and the emitted datagrams.
- Theorem {lit}`Endpoint.Run.sendInvariant`: it holds in every run.

Current gaps:

- None.
-/

namespace Rtype.Rtnt

open Std (TreeMap)
open Transition

namespace Session

/-! ## RICH_ACK payloads -/

/-- A RICH_ACK packet is written only when its list is short enough. -/
theorem write_richAck {acks : List UInt32} {p q : Packet}
    (h : Packet.write richAckShape (richAckData acks) p = .ok q) :
    richAckShape.Fits (richAckData acks) ∧
      q = p.append (richAckShape.encode (richAckData acks)) := by
  by_cases hlen : (acks.map UInt32.toBitVec).length ≤ 65535
  · have hfits : richAckShape.Fits (richAckData acks) :=
      ⟨⟨hlen, fun _ _ => trivial⟩, trivial⟩
    rw [Packet.write_eq _ _ hfits] at h
    exact ⟨hfits, (Except.ok.inj h).symm⟩
  · have hdeque : Packet.write (.deque (.scalar 4)) (acks.map UInt32.toBitVec) p =
        .error "Deque is too large to serialize (limit is 65535)" := by
      rw [Packet.write]
      exact if_pos (Nat.lt_of_not_le hlen)
    have hstruct : Packet.write richAckShape (richAckData acks) p =
        Packet.write (.deque (.scalar 4)) (acks.map UInt32.toBitVec) p >>=
          Packet.writeFields [] () :=
      calc Packet.write richAckShape (richAckData acks) p
          = Packet.writeFields [.deque (.scalar 4)] (richAckData acks) p :=
            Packet.write.eq_def _ _ _
        _ = _ := Packet.writeFields.eq_def _ _ _
    have herror : Packet.write richAckShape (richAckData acks) p =
        .error "Deque is too large to serialize (limit is 65535)" := by
      rw [hstruct, hdeque]
      rfl
    rw [herror] at h
    cases h

/-- The payload of a RICH_ACK packet is read back as it was written. -/
theorem read_richAck {acks : List UInt32} (hfits : richAckShape.Fits (richAckData acks)) :
    ∃ q, Packet.read richAckShape { buffer := richAckShape.encode (richAckData acks) } =
      .ok (richAckData acks) q := by
  have hunread : Packet.unread { buffer := richAckShape.encode (richAckData acks) } =
      richAckShape.encode (richAckData acks) ++ [] := by
    simp [Packet.unread]
  exact ⟨_, Packet.read_consumes richAckShape (richAckData acks) hfits _ [] (Nat.zero_le _)
    hunread⟩

end Session

namespace Endpoint

/-- The ids that the payload of a written RICH_ACK packet lists. -/
theorem listedAcks_write {acks : List UInt32} {p q : Packet} (hp : p.buffer = [])
    (hwrite : Packet.write Session.richAckShape (Session.richAckData acks) p = .ok q) :
    listedAcks q.buffer = acks := by
  obtain ⟨hfits, rfl⟩ := Session.write_richAck hwrite
  obtain ⟨r, hread⟩ := Session.read_richAck hfits
  have hlisted := listedAcks_of_read (p := { buffer := _ }) rfl hread
  simp only [Packet.append, hp, List.nil_append]
  rw [hlisted]
  change (acks.map UInt32.toBitVec).map UInt32.ofBitVec = acks
  rw [List.map_map]
  exact List.map_id acks

/-! ## Emitted datagrams -/

/-- `rawSend` emits a datagram that carries its packet. -/
theorem carries_rawSend (s : Session) (p : Packet) (sequenceId orderId : UInt32) :
    Carries ⟨s.self, (s.header p sequenceId orderId).wire ++ p.buffer⟩ p sequenceId orderId := by
  refine ⟨s.header p sequenceId orderId, Header.parse_wire rfl ?_, ?_, ⟨rfl, rfl, rfl, rfl, ?_⟩⟩
  · simp only [Session.header, UInt16.toNat_ofNat']
    exact Nat.mod_le _ _
  · rw [List.drop_left' (Header.length_wire _)]
  · by_cases hhas : s.hasReceivedRemotePacket = true
    · exact Or.inr (by simp only [Session.header, hhas, if_true])
    · exact Or.inl (by simp only [Session.header, hhas, Bool.false_eq_true, if_false])

/-- The packets that carry an acknowledgement only. -/
structure IsAckPacket (p : Packet) : Prop where
  messageId_mem : p.messageId = SystemMessageId.kAck ∨ p.messageId = SystemMessageId.kRichAck
  flag_eq : p.flag = Flag.kUnreliable

theorem AckPacket.isAckPacket {pending : List UInt32} {p : Packet} (h : AckPacket pending p) :
    IsAckPacket p := by
  cases h with
  | simple => exact ⟨Or.inl rfl, rfl⟩
  | rich hacks hwrite =>
      obtain ⟨-, rfl⟩ := Session.write_richAck hwrite
      exact ⟨Or.inr rfl, rfl⟩

/-- Where an emitted datagram comes from: a sent packet, or an acknowledgement
packet whose sequence id was drawn for it. -/
def Emitted (e : Endpoint) (d : Datagram) : Prop :=
  d.emitter = e.session.self ∧
    ((∃ r ∈ e.sent, Carries d r.packet r.sequenceId r.orderId) ∨
      ∃ index p, index < e.session.issued ∧ (∀ r ∈ e.sent, r.index ≠ index) ∧ IsAckPacket p ∧
        Carries d p (UInt32.ofNat index) 0)

/-! ## The invariant -/

/-- The ordered packets sent on a channel, in the order they were sent. -/
def sentOn (e : Endpoint) (channel : UInt8) : List SentRecord :=
  e.sent.filter fun r => isOrdered r.packet.flag && r.packet.channelId == channel

/-- The numbering of the sent packets, the stored packets and the emitted
datagrams of a session. -/
structure SendInvariant (e : Endpoint) : Prop where
  counter : e.session.localSequenceId = UInt32.ofNat e.session.issued
  numbered : ∀ r ∈ e.sent, r.index < e.session.issued ∧ r.sequenceId = UInt32.ofNat r.index
  increasing : e.sent.Pairwise fun r r' => r.index < r'.index
  ordered : ∀ c, (e.sentOn c).map SentRecord.orderId =
    (List.range (e.sentOn c).length).map UInt32.ofNat
  orderCounter : ∀ c, e.session.localOrderIds.getD c 0 = UInt32.ofNat (e.sentOn c).length
  stored : e.StoredSent
  emitted : ∀ d ∈ e.session.outbox, e.Emitted d
  kept : ∀ r ∈ e.sent, r.packet.flag ≠ Flag.kUnreliable →
    r.sequenceId ∈ e.session.sentPackets ∨ ∃ d ∈ e.received, Acknowledges d r.sequenceId

theorem sendInvariant_new (self : ℕ) (clock : Stream' Time) :
    (new self clock).SendInvariant where
  counter := rfl
  numbered := by simp [new]
  increasing := List.Pairwise.nil
  ordered := by simp [new, sentOn]
  orderCounter := by simp [new, sentOn, Session.new]
  stored := by simp [StoredSent, new, Session.new]
  emitted := by simp [new, Session.new]
  kept := by simp [new]

/-- An emitted datagram keeps its origin when more is sent. -/
theorem Emitted.mono {e e' : Endpoint} {d : Datagram} (h : e.Emitted d)
    (hself : e'.session.self = e.session.self) (hissued : e.session.issued ≤ e'.session.issued)
    (hsent : ∃ more, e'.sent = e.sent ++ more ∧ ∀ r ∈ more, e.session.issued ≤ r.index) :
    e'.Emitted d := by
  obtain ⟨more, hmore, hindex⟩ := hsent
  refine ⟨h.1.trans hself.symm, ?_⟩
  rcases h.2 with ⟨r, hr, hcarries⟩ | ⟨index, p, hlt, hfree, hp, hcarries⟩
  · exact Or.inl ⟨r, hmore ▸ List.mem_append_left _ hr, hcarries⟩
  · refine Or.inr ⟨index, p, by omega, fun r hr => ?_, hp, hcarries⟩
    rw [hmore, List.mem_append] at hr
    rcases hr with hr | hr
    · exact hfree r hr
    · have := hindex r hr
      omega

/-! ## Numbering a packet -/

@[simp]
theorem enroll_sent (e : Endpoint) (p : Packet) :
    (e.enroll p).sent = e.sent ++ [recordOf e.session p] := rfl

@[simp]
theorem enroll_issued (e : Endpoint) (p : Packet) :
    (e.enroll p).session.issued = e.session.issued + 1 := by
  simp only [enroll]
  split_ifs <;> rfl

@[simp]
theorem enroll_localSequenceId (e : Endpoint) (p : Packet) :
    (e.enroll p).session.localSequenceId = e.session.localSequenceId + 1 := by
  simp only [enroll]
  split_ifs <;> rfl

@[simp]
theorem enroll_outbox (e : Endpoint) (p : Packet) :
    (e.enroll p).session.outbox = e.session.outbox := by
  simp only [enroll]
  split_ifs <;> rfl

@[simp]
theorem enroll_self (e : Endpoint) (p : Packet) :
    (e.enroll p).session.self = e.session.self := by
  simp only [enroll]
  split_ifs <;> rfl

theorem enroll_localOrderIds (e : Endpoint) (p : Packet) :
    (e.enroll p).session.localOrderIds =
      if isOrdered p.flag then
        e.session.localOrderIds.insert p.channelId
          (e.session.localOrderIds.getD p.channelId 0 + 1)
      else e.session.localOrderIds := by
  simp only [enroll]
  split_ifs <;> rfl

theorem getElem?_enroll_sentPackets (e : Endpoint) (p : Packet) (id : UInt32) :
    (e.enroll p).session.sentPackets[id]? =
      if p.flag ≠ Flag.kUnreliable ∧ id = e.session.localSequenceId then
        some {
          packet := p
          sentTime := e.session.clock.head
          sequenceId := e.session.localSequenceId
          orderId := e.session.orderIdFor p }
      else e.session.sentPackets[id]? := by
  have hid : compare e.session.localSequenceId id = .eq ↔ id = e.session.localSequenceId := by
    rw [Std.LawfulEqCmp.compare_eq_iff_eq]
    exact eq_comm
  simp only [enroll, Session.remember, recordOf, bne_iff_ne]
  by_cases hflag : p.flag = Flag.kUnreliable
  · simp only [hflag, ne_eq, not_true_eq_false, if_false, false_and]
    split_ifs <;> rfl
  · simp only [hflag, ne_eq, not_false_eq_true, if_true, true_and]
    split_ifs with hordered hsame hsame
    all_goals
      rw [Std.TreeMap.getElem?_insert]
      simp only [Session.drawOrderId, Session.drawSequenceId]
      simp [hid, hsame]

/-- The ordered packets sent on a channel, after one more packet. -/
theorem sentOn_enroll (e : Endpoint) (p : Packet) (c : UInt8) :
    (e.enroll p).sentOn c =
      e.sentOn c ++ if isOrdered p.flag && p.channelId == c then [recordOf e.session p] else [] := by
  simp only [sentOn, enroll_sent, List.filter_append, List.filter_singleton, Bool.cond_eq_ite]
  rfl

theorem SendInvariant.enroll {e : Endpoint} (h : e.SendInvariant) (p : Packet) :
    (e.enroll p).SendInvariant where
  counter := by
    rw [enroll_localSequenceId, enroll_issued, h.counter, UInt32.ofNat_add]
    rfl
  numbered := by
    intro r hr
    rw [enroll_sent, List.mem_append, List.mem_singleton] at hr
    rw [enroll_issued]
    rcases hr with hr | rfl
    · exact ⟨Nat.lt_succ_of_lt (h.numbered r hr).1, (h.numbered r hr).2⟩
    · exact ⟨Nat.lt_succ_self _, h.counter⟩
  increasing := by
    rw [enroll_sent, List.pairwise_append]
    refine ⟨h.increasing, List.pairwise_singleton _ _, fun r hr r' hr' => ?_⟩
    rw [List.mem_singleton] at hr'
    rw [hr']
    exact (h.numbered r hr).1
  ordered := by
    intro c
    rw [sentOn_enroll]
    split_ifs with hc
    · rw [Bool.and_eq_true, beq_iff_eq] at hc
      have hid : (recordOf e.session p).orderId = UInt32.ofNat (e.sentOn c).length := by
        rw [← h.orderCounter c, ← hc.2]
        exact if_pos hc.1
      simp [List.range_succ, h.ordered c, hid]
    · simpa using h.ordered c
  orderCounter := by
    intro c
    rw [sentOn_enroll, enroll_localOrderIds]
    by_cases hordered : isOrdered p.flag = true
    · rw [if_pos hordered, hordered, Std.TreeMap.getD_insert]
      by_cases hc : p.channelId = c
      · subst hc
        simp [h.orderCounter, UInt32.ofNat_add]
      · simp [hc, h.orderCounter]
    · simp [hordered, h.orderCounter]
  stored := by
    intro id info hinfo
    rw [getElem?_enroll_sentPackets] at hinfo
    split_ifs at hinfo with hnew
    · rw [Option.some.injEq] at hinfo
      subst hinfo
      exact ⟨recordOf e.session p, List.mem_append_right _ (List.mem_singleton_self _),
        hnew.2.symm, ⟨rfl, rfl, rfl⟩, hnew.1⟩
    · obtain ⟨r, hr, hrest⟩ := h.stored id info hinfo
      exact ⟨r, List.mem_append_left _ hr, hrest⟩
  emitted := by
    intro d hd
    rw [enroll_outbox] at hd
    refine (h.emitted d hd).mono (enroll_self e p) ?_ ⟨_, rfl, ?_⟩
    · rw [enroll_issued]
      exact Nat.le_succ _
    · intro r hr
      rw [List.mem_singleton.mp hr]
      exact le_rfl
  kept := by
    intro r hr hflag
    rw [enroll_sent, List.mem_append, List.mem_singleton] at hr
    rw [Std.TreeMap.mem_iff_isSome_getElem?, getElem?_enroll_sentPackets]
    rcases hr with hr | rfl
    · rcases h.kept r hr hflag with hin | hacked
      · rw [Std.TreeMap.mem_iff_isSome_getElem?] at hin
        left
        split_ifs
        · rfl
        · exact hin
      · exact Or.inr hacked
    · left
      rw [if_pos ⟨hflag, rfl⟩]
      rfl

/-! ## The other steps -/

variable {target : LeftShift} {guard : Guard}

theorem SendInvariant.refresh {e : Endpoint} (h : e.SendInvariant) {r : SentRecord}
    {info : SentPacketInfo} (hr : r ∈ e.sent) (hstores : Stores info r)
    (hflag : r.packet.flag ≠ Flag.kUnreliable) :
    SendInvariant { e with session := { e.session with
      sentPackets := e.session.sentPackets.insert r.sequenceId info } } where
  counter := h.counter
  numbered := h.numbered
  increasing := h.increasing
  ordered := h.ordered
  orderCounter := h.orderCounter
  stored := by
    intro id info' hinfo
    simp only [Std.TreeMap.getElem?_insert] at hinfo
    split_ifs at hinfo with hid
    · rw [Option.some.injEq] at hinfo
      rw [← hinfo]
      exact ⟨r, hr, Std.LawfulEqCmp.eq_of_compare hid, hstores, hflag⟩
    · exact h.stored id info' hinfo
  emitted := h.emitted
  kept := by
    intro r' hr' hflag'
    refine (h.kept r' hr' hflag').imp_left fun hin => ?_
    simp only [Std.TreeMap.mem_insert]
    exact Or.inr hin

/-- One more datagram is emitted. -/
theorem SendInvariant.transmit {e : Endpoint} (h : e.SendInvariant) {r : SentRecord}
    (hr : r ∈ e.sent) :
    SendInvariant { e with session := e.session.rawSend r.packet r.sequenceId r.orderId } where
  counter := h.counter
  numbered := h.numbered
  increasing := h.increasing
  ordered := h.ordered
  orderCounter := h.orderCounter
  stored := h.stored
  emitted := by
    intro d hd
    simp only [Session.rawSend, List.mem_append, List.mem_singleton] at hd
    rcases hd with hd | rfl
    · exact h.emitted d hd
    · exact ⟨rfl, Or.inl ⟨r, hr, carries_rawSend _ _ _ _⟩⟩
  kept := h.kept

/-- An acknowledgement packet draws a sequence id of its own. -/
theorem SendInvariant.sendAck {e : Endpoint} (h : e.SendInvariant) {p : Packet}
    (hp : IsAckPacket p) :
    SendInvariant
      { e with session := e.session.drawSequenceId.rawSend p e.session.localSequenceId 0 } where
  counter := by
    simp only [Session.rawSend, Session.drawSequenceId, h.counter, UInt32.ofNat_add]
    rfl
  numbered := fun r hr => ⟨Nat.lt_succ_of_lt (h.numbered r hr).1, (h.numbered r hr).2⟩
  increasing := h.increasing
  ordered := h.ordered
  orderCounter := h.orderCounter
  stored := h.stored
  emitted := by
    intro d hd
    simp only [Session.rawSend, Session.drawSequenceId, List.mem_append,
      List.mem_singleton] at hd
    rcases hd with hd | rfl
    · exact (h.emitted d hd).mono rfl (Nat.le_succ _) ⟨[], by simp, by simp⟩
    · refine ⟨rfl, Or.inr ⟨e.session.issued, p, Nat.lt_succ_self _, fun r hr => ?_, hp, ?_⟩⟩
      · exact (h.numbered r hr).1.ne
      · rw [← h.counter]
        exact carries_rawSend e.session.drawSequenceId p e.session.localSequenceId 0
  kept := h.kept

theorem SendInvariant.forget {e : Endpoint} (h : e.SendInvariant)
    {t : TreeMap UInt32 SentPacketInfo}
    (ht : ∀ id, t[id]? = e.session.sentPackets[id]? ∨
      t[id]? = none ∧ ∃ d ∈ e.received, Acknowledges d id) :
    SendInvariant { e with session := { e.session with sentPackets := t } } where
  counter := h.counter
  numbered := h.numbered
  increasing := h.increasing
  ordered := h.ordered
  orderCounter := h.orderCounter
  stored := by
    intro id info hinfo
    rcases ht id with hsame | ⟨hnone, -⟩
    · exact h.stored id info (hsame ▸ hinfo)
    · simp [hnone] at hinfo
  emitted := h.emitted
  kept := by
    intro r hr hflag
    rcases h.kept r hr hflag with hin | hacked
    · rcases ht r.sequenceId with hsame | ⟨-, hacked⟩
      · left
        rw [Std.TreeMap.mem_iff_isSome_getElem?] at hin ⊢
        rwa [hsame]
      · exact Or.inr hacked
    · exact Or.inr hacked

/-- Every small step preserves the invariant. -/
theorem Micro.sendInvariant {e e' : Endpoint} (hstep : Micro target guard e e')
    (h : e.SendInvariant) : e'.SendInvariant := by
  cases hstep with
  | idle => exact ⟨h.1, h.2, h.3, h.4, h.5, h.6, h.7, h.8⟩
  | enroll packet => exact h.enroll packet
  | refresh r info hr hstores hflag => exact h.refresh hr hstores hflag
  | transmit r hr => exact h.transmit hr
  | sendAck p hp => exact h.sendAck hp.isAckPacket
  | flush => exact ⟨h.1, h.2, h.3, h.4, h.5, h.6, h.7, h.8⟩
  | arrive d =>
      refine ⟨h.1, h.2, h.3, h.4, h.5, h.6, h.7, fun r hr hflag => ?_⟩
      refine (h.kept r hr hflag).imp_right ?_
      rintro ⟨d', hd', hacked⟩
      exact ⟨d', List.mem_append_left _ hd', hacked⟩
  | forget t ht => exact h.forget ht
  | refuse => exact ⟨h.1, h.2, h.3, h.4, h.5, h.6, h.7, h.8⟩
  | accept header d =>
      obtain ⟨has, head, bits, history, unsent, heq⟩ :=
        updateAcknowledgeInfo_eq target e.session header.sequenceId
      rw [heq]
      exact ⟨h.1, h.2, h.3, h.4, h.5, h.6, h.7, h.8⟩

theorem SendInvariant.handOver {e : Endpoint} (h : e.SendInvariant) (x : Incoming) :
    (e.handOver x).SendInvariant := by
  obtain ⟨next, buffers, returned, heq⟩ := handOver_eq e x
  rw [heq]
  exact ⟨h.1, h.2, h.3, h.4, h.5, h.6, h.7, h.8⟩

/-- The invariant holds in every run. -/
theorem Run.sendInvariant {self : ℕ} {e : Endpoint} (h : Run target guard self e) :
    e.SendInvariant := by
  refine h.invariant ?_ fun e a _ hok he => ?_
  · rintro e ⟨clock, rfl⟩
    exact sendInvariant_new self clock
  · exact step_preserves (fun _ _ => Micro.sendInvariant) (fun _ x he => he.handOver x) hok
      he.stored he

/-! ## What only grows -/

/-- The name stays, and nothing that was issued, emitted or accepted is taken back. -/
structure Grows (e e' : Endpoint) : Prop where
  self_eq : e'.session.self = e.session.self
  issued_le : e.session.issued ≤ e'.session.issued
  outbox : ∀ d ∈ e.session.outbox, d ∈ e'.session.outbox
  accepted : ∀ x ∈ e.accepted, x ∈ e'.accepted

theorem Grows.refl (e : Endpoint) : Grows e e :=
  ⟨rfl, le_rfl, fun _ hd => hd, fun _ hx => hx⟩

theorem Grows.trans {e e' e'' : Endpoint} (h : Grows e e') (h' : Grows e' e'') : Grows e e'' where
  self_eq := h'.self_eq.trans h.self_eq
  issued_le := h.issued_le.trans h'.issued_le
  outbox d hd := h'.outbox d (h.outbox d hd)
  accepted x hx := h'.accepted x (h.accepted x hx)

theorem Micro.grows {e e' : Endpoint} (hstep : Micro target guard e e') : Grows e e' := by
  cases hstep with
  | enroll packet =>
      refine ⟨enroll_self e packet, ?_, fun d hd => ?_, fun _ hx => hx⟩
      · rw [enroll_issued]
        exact Nat.le_succ _
      · rwa [enroll_outbox]
  | transmit r => exact ⟨rfl, le_rfl, fun _ hd => List.mem_append_left _ hd, fun _ hx => hx⟩
  | sendAck p =>
      exact ⟨rfl, Nat.le_succ _, fun _ hd => List.mem_append_left _ hd, fun _ hx => hx⟩
  | accept header d =>
      obtain ⟨has, head, bits, history, unsent, heq⟩ :=
        updateAcknowledgeInfo_eq target e.session header.sequenceId
      rw [heq]
      exact ⟨rfl, le_rfl, fun _ hd => hd, fun _ hx => List.mem_append_left _ hx⟩
  | idle => exact ⟨rfl, le_rfl, fun _ hd => hd, fun _ hx => hx⟩
  | refresh => exact ⟨rfl, le_rfl, fun _ hd => hd, fun _ hx => hx⟩
  | flush => exact ⟨rfl, le_rfl, fun _ hd => hd, fun _ hx => hx⟩
  | arrive => exact ⟨rfl, le_rfl, fun _ hd => hd, fun _ hx => hx⟩
  | forget => exact ⟨rfl, le_rfl, fun _ hd => hd, fun _ hx => hx⟩
  | refuse => exact ⟨rfl, le_rfl, fun _ hd => hd, fun _ hx => hx⟩

theorem grows_handOver (e : Endpoint) (x : Incoming) : Grows e (e.handOver x) := by
  obtain ⟨next, buffers, returned, heq⟩ := handOver_eq e x
  rw [heq]
  exact ⟨rfl, le_rfl, fun _ hd => hd, fun _ hx => hx⟩

/-- Every call lets the session grow. -/
theorem grows_step (target : LeftShift) {e : Endpoint} (hstored : e.StoredSent) (a : Action) :
    Grows e (e.step target a) :=
  step_preserves (P := fun e' => Grows e e')
    (fun _ _ hstep he => he.trans hstep.grows) (fun e' x he => he.trans (grows_handOver e' x))
    (permits_free e a) hstored (.refl e)

/-- The name of a session never changes. -/
theorem Run.self_eq {self : ℕ} {e : Endpoint} (h : Run target guard self e) :
    e.session.self = self := by
  refine h.invariant (P := fun e => e.session.self = self) ?_ fun e a hrun _ he => ?_
  · rintro e ⟨clock, rfl⟩
    rfl
  · rw [(grows_step target (Run.sendInvariant hrun).stored a).self_eq]
    exact he

/-! ## What the numbering gives -/

/-- No more packets were sent than sequence ids were drawn. -/
theorem SendInvariant.length_sent_le {e : Endpoint} (h : e.SendInvariant) :
    e.sent.length ≤ e.session.issued := by
  have hnodup : (e.sent.map SentRecord.index).Nodup := by
    rw [List.Nodup, List.pairwise_map]
    exact h.increasing.imp fun hlt => hlt.ne
  have hsub : e.sent.map SentRecord.index ⊆ List.range e.session.issued := by
    intro index hindex
    obtain ⟨r, hr, rfl⟩ := List.mem_map.mp hindex
    exact List.mem_range.mpr (h.numbered r hr).1
  simpa using (hnodup.subperm hsub).length_le

theorem SendInvariant.length_sentOn_le {e : Endpoint} (h : e.SendInvariant) (c : UInt8) :
    (e.sentOn c).length ≤ e.session.issued :=
  (List.length_filter_le _ _).trans h.length_sent_le

/-- A number below 2^32 is determined by its 32-bit form. -/
theorem ofNat_inj {m n : ℕ} (hm : m < 2 ^ 32) (hn : n < 2 ^ 32)
    (h : UInt32.ofNat m = UInt32.ofNat n) : m = n := by
  have hnat := congrArg UInt32.toNat h
  rwa [UInt32.toNat_ofNat', UInt32.toNat_ofNat', Nat.mod_eq_of_lt hm, Nat.mod_eq_of_lt hn]
    at hnat

/-- Records with the same number are the same. -/
theorem SendInvariant.eq_of_index {e : Endpoint} (h : e.SendInvariant) {r r' : SentRecord}
    (hr : r ∈ e.sent) (hr' : r' ∈ e.sent) (hindex : r.index = r'.index) : r = r' := by
  obtain ⟨i, hi, rfl⟩ := List.mem_iff_getElem.mp hr
  obtain ⟨j, hj, rfl⟩ := List.mem_iff_getElem.mp hr'
  have hlt := List.pairwise_iff_getElem.mp h.increasing
  congr 1
  rcases Nat.lt_trichotomy i j with hij | hij | hij
  · have := hlt i j hi hj hij
    omega
  · exact hij
  · have := hlt j i hj hi hij
    omega

/-- Before the sequence ids wrap around, a sequence id determines the packet. -/
theorem SendInvariant.eq_of_sequenceId {e : Endpoint} (h : e.SendInvariant)
    (hissued : e.session.issued ≤ 2 ^ 32) {r r' : SentRecord} (hr : r ∈ e.sent)
    (hr' : r' ∈ e.sent) (hid : r.sequenceId = r'.sequenceId) : r = r' := by
  have hlt := (h.numbered r hr).1
  have hlt' := (h.numbered r' hr').1
  rw [(h.numbered r hr).2, (h.numbered r' hr').2] at hid
  exact h.eq_of_index hr hr' (ofNat_inj (by omega) (by omega) hid)

/-- The order id of an ordered packet is its position on its channel. -/
theorem SendInvariant.orderId_getElem {e : Endpoint} (h : e.SendInvariant) {c : UInt8} {k : ℕ}
    (hk : k < (e.sentOn c).length) : (e.sentOn c)[k].orderId = UInt32.ofNat k := by
  have hget : ((e.sentOn c).map SentRecord.orderId)[k]? =
      ((List.range (e.sentOn c).length).map UInt32.ofNat)[k]? := by rw [h.ordered c]
  simpa [hk] using hget

theorem mem_sentOn {e : Endpoint} {c : UInt8} {r : SentRecord} :
    r ∈ e.sentOn c ↔ r ∈ e.sent ∧ isOrdered r.packet.flag = true ∧ r.packet.channelId = c := by
  simp [sentOn]

/-- Before the order ids of a channel wrap around, an order id determines the packet. -/
theorem SendInvariant.eq_of_orderId {e : Endpoint} (h : e.SendInvariant) {c : UInt8}
    (hcount : (e.sentOn c).length ≤ 2 ^ 32) {r r' : SentRecord} (hr : r ∈ e.sentOn c)
    (hr' : r' ∈ e.sentOn c) (hid : r.orderId = r'.orderId) : r = r' := by
  obtain ⟨i, hi, rfl⟩ := List.mem_iff_getElem.mp hr
  obtain ⟨j, hj, rfl⟩ := List.mem_iff_getElem.mp hr'
  rw [h.orderId_getElem hi, h.orderId_getElem hj] at hid
  congr 1
  exact ofNat_inj (by omega) (by omega) hid

/-! ## Copies of sent packets -/

/-- The packet is a copy of a sent one; only the ack flag may have been added. -/
structure IsCopy (x : Incoming) (r : SentRecord) : Prop where
  sequenceId_eq : x.header.sequenceId = r.sequenceId
  channelId_eq : x.header.channelId = r.packet.channelId
  orderId_eq : x.header.orderId = r.orderId
  messageId_eq : x.packet.messageId = r.packet.messageId
  flag_eq : x.packet.flag ||| Flag.kHasAck = r.packet.flag ||| Flag.kHasAck
  buffer_eq : x.packet.buffer = r.packet.buffer

instance (x : Incoming) (r : SentRecord) : Decidable (IsCopy x r) :=
  decidable_of_iff (x.header.sequenceId = r.sequenceId ∧
      x.header.channelId = r.packet.channelId ∧ x.header.orderId = r.orderId ∧
      x.packet.messageId = r.packet.messageId ∧
      x.packet.flag ||| Flag.kHasAck = r.packet.flag ||| Flag.kHasAck ∧
      x.packet.buffer = r.packet.buffer)
    ⟨fun ⟨hid, hchannel, horder, hmessage, hflag, hbuffer⟩ =>
      ⟨hid, hchannel, horder, hmessage, hflag, hbuffer⟩,
    fun h => ⟨h.sequenceId_eq, h.channelId_eq, h.orderId_eq, h.messageId_eq, h.flag_eq,
      h.buffer_eq⟩⟩

theorem isCopy_of_carries {d : Datagram} {h : Header} {r : SentRecord}
    (hparse : Header.parse d.bytes = .ok h)
    (hcarries : Carries d r.packet r.sequenceId r.orderId) :
    IsCopy (Incoming.ofDatagram h d) r := by
  obtain ⟨h', hparse', hdrop, hdesc⟩ := hcarries
  rw [hparse, Except.ok.injEq] at hparse'
  subst hparse'
  refine ⟨hdesc.sequenceId_eq, hdesc.channelId_eq, hdesc.orderId_eq, hdesc.messageId_eq, ?_, hdrop⟩
  rcases hdesc.flags_eq with hflags | hflags
  · exact congrArg (· ||| Flag.kHasAck) hflags
  · refine (congrArg (· ||| Flag.kHasAck) hflags).trans ?_
    rw [UInt8.or_assoc, UInt8.or_self]

/-- The ack flag does not make a packet ordered. -/
theorem isOrdered_or_kHasAck (flag : Flag) : isOrdered (flag ||| Flag.kHasAck) = isOrdered flag := by
  have hmask : (flag ||| Flag.kHasAck) &&& Flag.kOrdered = flag &&& Flag.kOrdered := by
    have hzero : Flag.kHasAck.toBitVec &&& Flag.kOrdered.toBitVec = 0#8 := rfl
    rw [← UInt8.toBitVec_inj, UInt8.toBitVec_and, UInt8.toBitVec_or, UInt8.toBitVec_and,
      BitVec.and_or_distrib_right, hzero, BitVec.or_zero]
  rw [isOrdered, isOrdered, hmask]

theorem IsCopy.isOrdered_eq {x : Incoming} {r : SentRecord} (h : IsCopy x r) :
    isOrdered x.packet.flag = isOrdered r.packet.flag := by
  rw [← isOrdered_or_kHasAck x.packet.flag, h.flag_eq, isOrdered_or_kHasAck]

/-- The packet of an acknowledgement datagram. -/
structure IsAckCopy (x : Incoming) (p : Packet) (index : ℕ) : Prop where
  isAckPacket : IsAckPacket p
  sequenceId_eq : x.header.sequenceId = UInt32.ofNat index
  messageId_eq : x.packet.messageId = p.messageId
  not_ordered : isOrdered x.packet.flag = false

theorem isAckCopy_of_carries {d : Datagram} {h : Header} {p : Packet} {index : ℕ}
    (hparse : Header.parse d.bytes = .ok h) (hp : IsAckPacket p)
    (hcarries : Carries d p (UInt32.ofNat index) 0) :
    IsAckCopy (Incoming.ofDatagram h d) p index := by
  obtain ⟨h', hparse', -, hdesc⟩ := hcarries
  rw [hparse, Except.ok.injEq] at hparse'
  subst hparse'
  refine ⟨hp, hdesc.sequenceId_eq, hdesc.messageId_eq, ?_⟩
  change isOrdered h.flags = false
  rcases hdesc.flags_eq with hflags | hflags
  · rw [hflags, hp.flag_eq]
    rfl
  · rw [hflags, isOrdered_or_kHasAck, hp.flag_eq]
    rfl

end Endpoint

end Rtype.Rtnt
