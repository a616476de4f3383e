import Rtype.Rtnt.Link

/-!
# rtnt - Reliable and ordered delivery

What a packet's flag promises, over every run of two sessions and a network: a
packet that is not unreliable is not forgotten before the other end has it, and
the ordered packets of a channel come out in the order in which they went in.

Main results:

- Theorem {lit}`Link.acknowledged_delivered`: no acknowledged packet is lost, as long
  as the acknowledging end is not made to claim acknowledgements.
- Theorem {lit}`Link.ordered_delivery`: on every channel the returned ordered packets
  are the longest prefix of the sent ones that has been accepted.

Current gaps:

- None.
-/

namespace Rtype.Rtnt

open Transition Resequencer

namespace Endpoint

variable {target : LeftShift} {guard : Guard} {self : ℕ} {e f : Endpoint}

/-! ## Accepted packets come out -/

/-- The packet is not an acknowledgement, which the receiving session keeps for itself. -/
def ForApplication (p : Packet) : Prop :=
  p.messageId ≠ SystemMessageId.kRichAck ∧ (p.messageId = SystemMessageId.kAck → p.buffer ≠ [])

instance (p : Packet) : Decidable (ForApplication p) :=
  inferInstanceAs (Decidable (_ ∧ _))

/-- A copy of a packet for the application is passed on. -/
theorem isPassedOn_of_copy {x : Incoming} {r : SentRecord}
    (hid : x.header.messageId = x.packet.messageId) (hcopy : IsCopy x r)
    (happ : ForApplication r.packet) : isPassedOn x = true := by
  rw [hcopy.messageId_eq] at hid
  rcases happ with ⟨hrich, hack⟩
  have hlength : x.header.messageId = SystemMessageId.kAck → x.packet.buffer.length ≠ 0 := by
    intro hsimple hzero
    rw [hid] at hsimple
    rw [hcopy.buffer_eq] at hzero
    exact hack hsimple (List.length_eq_zero_iff.mp hzero)
  rw [← hid] at hrich
  simp only [isPassedOn, beq_eq_false_iff_ne.mpr hrich, Bool.not_false, Bool.true_and,
    Bool.not_eq_true', Bool.and_eq_false_iff, beq_eq_false_iff_ne]
  by_cases hsimple : x.header.messageId = SystemMessageId.kAck
  · exact Or.inl (hlength hsimple)
  · exact Or.inr hsimple

/-- A user packet is for the application. -/
theorem forApplication_of_user {p : Packet} (huser : 128 ≤ p.messageId) : ForApplication p := by
  have hne : ∀ id : UInt16, id < 128 → p.messageId ≠ id := by
    rintro id hlt rfl
    exact absurd huser (UInt16.not_le.mpr hlt)
  exact ⟨hne _ (by decide), fun hack => absurd hack (hne _ (by decide))⟩

/-- A copy of a user packet is not for the session itself. -/
theorem Run.isPassedOn_of_user (h : Run target guard self e) {x : Incoming}
    (hx : x ∈ e.accepted) {r : SentRecord} (hcopy : IsCopy x r)
    (huser : 128 ≤ r.packet.messageId) : isPassedOn x = true := by
  have hid : x.header.messageId = x.packet.messageId := by
    obtain ⟨d, -, -, hxd⟩ := h.acceptedReceived x hx
    rw [hxd]
    rfl
  exact isPassedOn_of_copy hid hcopy (forApplication_of_user huser)

/-- A copy of an ordered packet has the position of the packet on its channel as its
order id. -/
theorem SendInvariant.position_of_copy (hsend : f.SendInvariant) {x : Incoming} {r : SentRecord}
    (hr : r ∈ f.sent) (hcopy : IsCopy x r) (hflag : isOrdered x.packet.flag = true) :
    ∃ k, ∃ hk : k < (f.sentOn x.header.channelId).length,
      (f.sentOn x.header.channelId)[k] = r ∧ x.header.orderId = UInt32.ofNat k := by
  have hmem : r ∈ f.sentOn x.header.channelId :=
    mem_sentOn.mpr ⟨hr, hcopy.isOrdered_eq ▸ hflag, hcopy.channelId_eq.symm⟩
  obtain ⟨k, hk, rfl⟩ := List.mem_iff_getElem.mp hmem
  refine ⟨k, hk, rfl, ?_⟩
  rw [hcopy.orderId_eq]
  exact hsend.orderId_getElem hk

/-- A user packet that was accepted from a session was returned or is held in the
reorder buffer of its channel, provided the ordered packets that were accepted are all
of that session.  What was returned or is held is a copy of it. -/
theorem Run.returned_or_held (h : Run target guard self e) (hsend : f.SendInvariant)
    (hissued : f.session.issued < 2 ^ 32)
    (horigin : ∀ x ∈ e.accepted, isOrdered x.packet.flag = true → ∃ r ∈ f.sent, IsCopy x r)
    {x : Incoming} (hx : x ∈ e.accepted) {r : SentRecord} (hr : r ∈ f.sent)
    (hcopy : IsCopy x r) (huser : 128 ≤ r.packet.messageId) :
    ∃ y ∈ e.accepted, IsCopy y r ∧ (y = x ∨ isOrdered y.packet.flag = true) ∧
      (y ∈ e.returned ∨
        (e.session.reorderBuffers.getD r.packet.channelId ∅)[r.orderId]? = some y) := by
  have hcount : ∀ c, (f.sentOn c).length < 2 ^ 32 := fun c =>
    (hsend.length_sentOn_le c).trans_lt hissued
  have hbelow : BelowLastOrderId e.accepted := by
    intro y hy hflag
    obtain ⟨r', hr', hcopy'⟩ := horigin y hy hflag
    obtain ⟨k, hk, -, horder⟩ := hsend.position_of_copy hr' hcopy' hflag
    have hlt := hcount y.header.channelId
    rw [orderKey, horder, UInt32.toNat_ofNat', Nat.mod_eq_of_lt (by omega)]
    omega
  have hdelivered := h.delivered hbelow
  have hpassed := h.isPassedOn_of_user hx hcopy huser
  by_cases hflag : isOrdered x.packet.flag = true
  · have hsettled := hdelivered.settled x.header.channelId
    have harrived : x ∈ arrivedOn e.accepted x.header.channelId := ⟨hx, hpassed, hflag, rfl⟩
    have hsame : ∀ y ∈ arrivedOn e.accepted x.header.channelId,
        orderKey y = orderKey x → IsCopy y r := by
      intro y hy hkey
      obtain ⟨r', hr', hcopy'⟩ := horigin y hy.1 hy.2.2.1
      obtain ⟨k, hk, hget, -⟩ := hsend.position_of_copy hr' hcopy' hy.2.2.1
      have hmem : r ∈ f.sentOn y.header.channelId :=
        mem_sentOn.mpr ⟨hr, hcopy.isOrdered_eq ▸ hflag,
          hcopy.channelId_eq.symm.trans hy.2.2.2.symm⟩
      have heq := hsend.eq_of_orderId (hcount _).le (hget ▸ List.getElem_mem hk) hmem (by
        rw [← hcopy'.orderId_eq, ← hcopy.orderId_eq]
        exact UInt32.toNat_inj.mp hkey)
      exact heq ▸ hcopy'
    rcases hsettled.accounted x harrived with hlt | hheld
    · rw [← hsettled.length_released] at hlt
      have hmem := List.getElem_mem hlt
      have hmem' := hsettled.released_arrived _ hmem
      exact ⟨_, hmem'.1, hsame _ hmem' (hsettled.key_released hlt), Or.inr hmem'.2.2.1,
        Or.inl (List.mem_filter.mp hmem).1⟩
    · obtain ⟨y, hy⟩ := Option.ne_none_iff_exists'.mp hheld
      obtain ⟨hkey, -, hmem⟩ := hsettled.held_spec _ y hy
      refine ⟨y, hmem.1, hsame y hmem hkey, Or.inr hmem.2.2.1, Or.inr ?_⟩
      rw [orderKey, heldIn_toNat] at hy
      rw [← hcopy.channelId_eq, ← hcopy.orderId_eq]
      exact hy
  · refine ⟨x, hx, hcopy, Or.inl rfl, Or.inl ?_⟩
    have hmem : x ∈ e.accepted.filter fun x => isPassedOn x && !isOrdered x.packet.flag := by
      simp [hx, hpassed, hflag]
    rw [← hdelivered.unordered] at hmem
    exact (List.mem_filter.mp hmem).1

end Endpoint

namespace Link

variable {target : LeftShift} {condition : Link → Side × Action → Prop} {w : Link}

/-! ## No acknowledged packet is lost -/

/-- The session at one end is not made to claim acknowledgements of packets that it
has not accepted. -/
def HonestSends (i : Side) (w : Link) : Side × Action → Prop
  | (j, .send p) => j = i → Endpoint.HonestPacket (w i) p
  | (_, .update) => True
  | (_, .receive _) => True
  | (_, .disconnect) => True

/-- A user packet that the other end has sent and this end has accepted was returned
or is held in the reorder buffer of its channel. -/
theorem Run.returned_or_held (h : Run target condition w) {i : Side}
    (hissued : (w i.other).session.issued < 2 ^ 32) {x : Incoming} (hx : x ∈ (w i).accepted)
    {r : SentRecord} (hr : r ∈ (w i.other).sent) (hcopy : Endpoint.IsCopy x r)
    (huser : 128 ≤ r.packet.messageId) :
    (∃ y ∈ (w i).returned, Endpoint.IsCopy y r) ∨
      ∃ y, ((w i).session.reorderBuffers.getD r.packet.channelId ∅)[r.orderId]? = some y ∧
        Endpoint.IsCopy y r := by
  have horigin : ∀ y ∈ (w i).accepted, isOrdered y.packet.flag = true →
      ∃ r ∈ (w i.other).sent, Endpoint.IsCopy y r := by
    intro y hy hflag
    obtain ⟨k, hk, hcopyY, -⟩ := h.ordered_origin hy hflag
    exact ⟨_, (Endpoint.mem_sentOn.mp (List.getElem_mem hk)).1, hcopyY⟩
  obtain ⟨y, -, hcopyY, -, hreturned | hheld⟩ := (h.endpoint_free i).returned_or_held
    (h.endpoint_free i.other).sendInvariant hissued horigin hx hr hcopy huser
  · exact Or.inl ⟨y, hreturned, hcopyY⟩
  · exact Or.inr ⟨y, hheld, hcopyY⟩

/-- A user packet sent with another flag than `kUnreliable` is forgotten only after
the other end has returned it or holds it in the reorder buffer of its channel,
in every run in which the other end is not made to claim acknowledgements. -/
theorem acknowledged_delivered {i : Side} (h : Run .intended (HonestSends i.other) w)
    (hissued : (w i).session.issued < 2 ^ 32) {r : SentRecord} (hr : r ∈ (w i).sent)
    (hflag : r.packet.flag ≠ Flag.kUnreliable) (huser : 128 ≤ r.packet.messageId)
    (hgone : r.sequenceId ∉ (w i).session.sentPackets) :
    (∃ x ∈ (w i.other).returned, Endpoint.IsCopy x r) ∨
      ∃ x, ((w i.other).session.reorderBuffers.getD r.packet.channelId ∅)[r.orderId]? = some x ∧
        Endpoint.IsCopy x r := by
  have hsend := (h.endpoint_free i).sendInvariant
  have hack : (w i.other).AckInvariant := by
    refine Endpoint.Run.ackInvariant (h.endpoint fun w a hcondition => ?_)
    cases a with
    | send p => exact hcondition rfl
    | receive d => exact fun _ _ => Or.inr rfl
    | update => exact trivial
    | disconnect => exact trivial
  obtain ⟨d, hd, hacked⟩ := (hsend.kept r hr hflag).resolve_left hgone
  have hid := hack.reported d (h.received_emitted i d hd) _ hacked
  obtain ⟨x, hx, hxid⟩ := List.mem_map.mp hid
  have hback : r ∈ (w i.other.other).sent := by rwa [Side.other_other]
  rcases h.accepted_origin hx with ⟨r', hr', hcopy⟩ | ⟨index, p, hlt, hfree, hackCopy⟩
  · rw [Side.other_other] at hr'
    have hsame := hsend.eq_of_sequenceId hissued.le hr' hr (hcopy.sequenceId_eq.symm.trans hxid)
    rw [hsame] at hcopy
    exact h.returned_or_held (by rwa [Side.other_other]) hx hback hcopy huser
  · rw [Side.other_other] at hlt hfree
    have hindex : UInt32.ofNat r.index = UInt32.ofNat index := by
      rw [← (hsend.numbered r hr).2, ← hxid]
      exact hackCopy.sequenceId_eq
    have hr_lt := (hsend.numbered r hr).1
    exact absurd (Endpoint.ofNat_inj (by omega) (by omega) hindex) (hfree r hr)

/-- A reliable packet is sent, arrives, and is acknowledged by a packet of the other
end. -/
def answered : Link :=
  let w₁ := step .intended (new stillClock) (.a, .send (Packet.new 200 Flag.kReliable))
  let w₂ := step .intended w₁ (.b, .receive (emitted w₁ .a 0))
  let w₃ := step .intended w₂ (.b, .send (Packet.new 201))
  step .intended w₃ (.a, .receive (emitted w₃ .b 0))

/-- In that run the acknowledged packet was delivered. -/
theorem acknowledged_delivered_answered :
    (∃ x ∈ (answered .b).returned,
      Endpoint.IsCopy x ⟨0, 0, 0, Packet.new 200 Flag.kReliable⟩) ∨
    ∃ x, ((answered .b).session.reorderBuffers.getD 0 ∅)[(0 : UInt32)]? = some x ∧
      Endpoint.IsCopy x ⟨0, 0, 0, Packet.new 200 Flag.kReliable⟩ := by
  have hrun : Run .intended (HonestSends .b) answered := by
    refine ((((run_new stillClock).send ?_).receive (by decide) trivial).send ?_).receive
      (by decide) trivial
    · intro h
      cases h
    · intro _
      exact ⟨fun h => absurd rfl h, fun h => absurd h (by decide)⟩
  have hsent : (answered .a).sent = [⟨0, 0, 0, Packet.new 200 Flag.kReliable⟩] := rfl
  refine acknowledged_delivered (i := .a) hrun (by decide) ?_ (by decide) (by decide) (by decide)
  rw [hsent]
  exact List.mem_singleton_self _

/-- A reliable packet is sent; the other end sends a packet with the ack flag before
it has received anything, and that packet arrives. -/
def misled : Link :=
  let w₁ := step .intended (new stillClock) (.a, .send (Packet.new 200 Flag.kReliable))
  let w₂ := step .intended w₁ (.b, .send (Packet.new 201 Flag.kHasAck))
  step .intended w₂ (.a, .receive (emitted w₂ .b 0))

/-- Without the condition packets are lost: `rawSend` keeps the ack flag of the packet
it sends, and so acknowledges id 0 before anything has arrived. -/
theorem acknowledged_lost :
    ¬ ∀ w, Run .intended Unconditional w → (∀ i, (w i).session.issued < 2 ^ 32) →
      ∀ i, ∀ r ∈ (w i).sent, r.packet.flag ≠ Flag.kUnreliable → 128 ≤ r.packet.messageId →
        r.sequenceId ∉ (w i).session.sentPackets →
        (∃ x ∈ (w i.other).returned, Endpoint.IsCopy x r) ∨
          ∃ x, ((w i.other).session.reorderBuffers.getD r.packet.channelId ∅)[r.orderId]? =
            some x ∧ Endpoint.IsCopy x r := by
  intro h
  have hrun : Run .intended Unconditional misled :=
    (((run_new stillClock).send trivial).send trivial).receive (by decide) trivial
  have hissued : ∀ i, (misled i).session.issued < 2 ^ 32 := by
    intro i
    cases i <;> decide
  have hsent : (misled .a).sent = [⟨0, 0, 0, Packet.new 200 Flag.kReliable⟩] := rfl
  have hreturned : (misled .b).returned = [] := rfl
  have hbuffers : (misled .b).session.reorderBuffers = ∅ := rfl
  rcases h misled hrun hissued .a ⟨0, 0, 0, Packet.new 200 Flag.kReliable⟩
    (by rw [hsent]; exact List.mem_singleton_self _) (by decide) (by decide) (by decide) with
    ⟨x, hx, -⟩ | ⟨x, hx, -⟩
  · rw [Side.other, hreturned] at hx
    cases hx
  · simp [Side.other, hbuffers] at hx

/-! ## Ordered delivery -/

/-- Every packet sent at one end has a user id. -/
def UserSends (i : Side) (_ : Link) : Side × Action → Prop
  | (j, .send p) => j = i → 128 ≤ p.messageId
  | (_, .update) => True
  | (_, .receive _) => True
  | (_, .disconnect) => True

/-- Whether a session has accepted the datagram of an ordered packet. -/
def hasAccepted (e : Endpoint) (r : SentRecord) : Bool :=
  e.accepted.any fun x =>
    isOrdered x.packet.flag && x.header.channelId == r.packet.channelId &&
      x.header.orderId == r.orderId

/-- What the sender and the receiver of a packet agree on: its message id, its flag up
to the ack flag, and its payload. -/
def content (p : Packet) : UInt16 × Flag × ByteBuffer :=
  (p.messageId, p.flag ||| Flag.kHasAck, p.buffer)

theorem content_eq {x : Incoming} {r : SentRecord} (h : Endpoint.IsCopy x r) :
    content x.packet = content r.packet := by
  rw [content, content, h.messageId_eq, h.flag_eq, h.buffer_eq]

/-- Only user packets are sent at an end under the condition. -/
theorem Run.user_sent {i : Side} (h : Run target (UserSends i) w) :
    ∀ r ∈ (w i).sent, 128 ≤ r.packet.messageId := by
  refine h.invariant (P := fun w => ∀ r ∈ (w i).sent, 128 ≤ r.packet.messageId) ?_
    fun w x _ hx ih => ?_
  · rintro w ⟨clock, rfl⟩ r hr
    simp [new, Endpoint.new] at hr
  · obtain ⟨j, a⟩ := x
    by_cases hij : i = j
    · subst hij
      rw [step_same]
      cases a with
      | send p =>
          intro r hr
          rcases List.mem_append.mp hr with hr | hr
          · exact ih r hr
          · rw [List.mem_singleton.mp hr]
            exact hx.2 rfl
      | receive => exact ih
      | update => exact ih
      | disconnect => exact ih
    · rwa [step_other hij]

/-- On every channel, the ordered packets that one end has returned are the longest
prefix of those that the other end has sent there whose members have all been
accepted, each with its original content. -/
theorem ordered_delivery {i : Side} (h : Run target (UserSends i) w)
    (hcount : ∀ c, ((w i).sentOn c).length < 2 ^ 32) (c : UInt8) :
    (Endpoint.returnedOn (w i.other).returned c).map (fun x => content x.packet) =
      (((w i).sentOn c).takeWhile (hasAccepted (w i.other))).map fun r => content r.packet := by
  have hsend := (h.endpoint_free i).sendInvariant
  have hcount' : ∀ c, ((w i.other.other).sentOn c).length < 2 ^ 32 := by
    rwa [Side.other_other]
  have hdelivered := (h.endpoint_free i.other).delivered (h.belowLastOrderId hcount')
  -- the order id of an arrived packet is the position of its original
  have horigin : ∀ x ∈ (w i.other).accepted, isOrdered x.packet.flag = true →
      x.header.channelId = c → ∃ hk : orderKey x < ((w i).sentOn c).length,
        Endpoint.IsCopy x ((w i).sentOn c)[orderKey x] := by
    rintro x hx hflag rfl
    obtain ⟨k, hk, hcopy, horder⟩ := h.ordered_origin hx hflag
    have hlt := hcount' x.header.channelId
    have hkey : orderKey x = k := by
      rw [orderKey, horder, UInt32.toNat_ofNat', Nat.mod_eq_of_lt (by omega)]
    subst hkey
    simp only [Side.other_other] at hk hcopy
    exact ⟨hk, hcopy⟩
  refine (hdelivered.settled c).map_released (fun k hk => ?_) fun x hx => ?_
  · have hmem := Endpoint.mem_sentOn.mp (List.getElem_mem hk)
    have horder := hsend.orderId_getElem hk
    have hlt := hcount c
    rw [hasAccepted, List.any_eq_true]
    constructor
    · rintro ⟨x, hx, hmatch⟩
      simp only [Bool.and_eq_true, beq_iff_eq, hmem.2.2, horder] at hmatch
      obtain ⟨⟨hflag, hchannel⟩, hid⟩ := hmatch
      obtain ⟨hk', hcopy⟩ := horigin x hx hflag hchannel
      refine ⟨x, ⟨hx, ?_, hflag, hchannel⟩, ?_⟩
      · exact (h.endpoint_free i.other).isPassedOn_of_user hx hcopy
          (h.user_sent _ (Endpoint.mem_sentOn.mp (List.getElem_mem hk')).1)
      · rw [orderKey, hid, UInt32.toNat_ofNat', Nat.mod_eq_of_lt (by omega)]
    · rintro ⟨x, ⟨hx, -, hflag, hchannel⟩, rfl⟩
      refine ⟨x, hx, ?_⟩
      simp only [Bool.and_eq_true, beq_iff_eq]
      refine ⟨⟨hflag, hchannel.trans hmem.2.2.symm⟩, ?_⟩
      rw [horder, orderKey, UInt32.ofNat_toNat]
  · obtain ⟨hx, -, hflag, hchannel⟩ := hx
    obtain ⟨hk, hcopy⟩ := horigin x hx hflag hchannel
    exact ⟨hk, content_eq hcopy⟩

/-- Two ordered packets are sent on channel 1 and arrive in the opposite order. -/
def swapped : Link :=
  let w₁ := step .x86 (new stillClock) (.a, .send (Packet.new 200 Flag.kOrdered 1))
  let w₂ := step .x86 w₁ (.a, .send (Packet.new 201 Flag.kOrdered 1))
  let w₃ := step .x86 w₂ (.b, .receive (emitted w₂ .a 1))
  step .x86 w₃ (.b, .receive (emitted w₃ .a 0))

/-- In that run they are returned in the order in which they were sent. -/
theorem ordered_delivery_swapped :
    (Endpoint.returnedOn (swapped .b).returned 1).map (fun x => content x.packet) =
      [(200, Flag.kOrdered ||| Flag.kHasAck, []), (201, Flag.kOrdered ||| Flag.kHasAck, [])] := by
  have hrun : Run .x86 (UserSends .a) swapped :=
    ((((run_new stillClock).send fun _ => by decide).send fun _ => by decide).receive
      (by decide) trivial).receive (by decide) trivial
  have hcount : ∀ c, ((swapped .a).sentOn c).length < 2 ^ 32 := by
    intro c
    refine lt_of_le_of_lt (List.length_filter_le _ _) ?_
    decide
  exact (ordered_delivery (i := .a) hrun hcount 1).trans rfl

end Link

end Rtype.Rtnt
