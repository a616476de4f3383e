import Rtype.Foundations.Retries
import Rtype.Rtnt.RichAcks
import Rtype.Rtnt.Waiting

/-!
# rtnt - Retransmission

A packet that is not unreliable is stored when it is sent, and {lit}`update` transmits it
again until an acknowledgement removes it.  This file keeps, next to a session, a log that
tells for every datagram which packet it is an emission of, and proves that the session
with its log is a bounded retransmission in the sense of {lit}`Retries`.

Main results:

- Definition {lit}`Ledger.step`: a call, with the packets behind the datagrams it emits.
- Theorem {lit}`Ledger.moves_step`: a call makes moves of a bounded retransmission.
- Theorem {lit}`Ledger.retransmission_bounded`: how often, and with which ids and payload,
  a packet is emitted in any run.

Current gaps:

- None.
-/

namespace Rtype.Rtnt

open Std (TreeMap)

namespace Session

/-! ## What a pass of update resends -/

/-- The time of a stored packet has run out. -/
def isExpired (now : Time) (info : SentPacketInfo) : Bool :=
  decide (now - info.sentTime > RESEND_TIMEOUT)

/-- The stored packets that a pass transmits again: the expired ones before the first of
them that has used up its attempts. -/
def resent (now : Time) (entries : List (UInt32 × SentPacketInfo)) :
    List (UInt32 × SentPacketInfo) :=
  (entries.filter fun entry => isExpired now entry.2).takeWhile fun entry =>
    decide (entry.2.retries < MAX_RESEND_ATTEMPTS)

section

variable {now : Time} {id : UInt32} {info : SentPacketInfo}
  {rest : List (UInt32 × SentPacketInfo)}

theorem resent_of_fresh (hfresh : ¬ now - info.sentTime > RESEND_TIMEOUT) :
    resent now ((id, info) :: rest) = resent now rest := by
  have hexpired : isExpired now info = false := decide_eq_false hfresh
  rw [resent, List.filter_cons_of_neg (by simp [hexpired]), resent]

theorem resent_of_spent (hexpired : now - info.sentTime > RESEND_TIMEOUT)
    (hspent : info.retries ≥ MAX_RESEND_ATTEMPTS) : resent now ((id, info) :: rest) = [] := by
  have hexpired : isExpired now info = true := decide_eq_true hexpired
  have hnot : ¬ info.retries < MAX_RESEND_ATTEMPTS := UInt8.not_lt.mpr hspent
  rw [resent, List.filter_cons_of_pos (by simp [hexpired]),
    List.takeWhile_cons_of_neg (by simp [hnot])]

theorem resent_of_due (hexpired : now - info.sentTime > RESEND_TIMEOUT)
    (hleft : ¬ info.retries ≥ MAX_RESEND_ATTEMPTS) :
    resent now ((id, info) :: rest) = (id, info) :: resent now rest := by
  have hexpired : isExpired now info = true := decide_eq_true hexpired
  have hlt : info.retries < MAX_RESEND_ATTEMPTS := UInt8.not_le.mp hleft
  rw [resent, List.filter_cons_of_pos (by simp [hexpired]),
    List.takeWhile_cons_of_pos (by simp [hlt]), resent]

end

/-- The datagram that `rawSend` hands to the network. -/
def datagramOf (s : Session) (packet : Packet) (sequenceId orderId : UInt32) : Datagram where
  emitter := s.self
  bytes := (s.header packet sequenceId orderId).wire ++ packet.buffer

/-- The datagram of a stored packet. -/
def datagramOfStored (s : Session) (info : SentPacketInfo) : Datagram :=
  s.datagramOf info.packet info.sequenceId info.orderId

/-- A pass emits one datagram for each stored packet that it resends. -/
theorem outbox_resendExpired (now : Time) (entries : List (UInt32 × SentPacketInfo))
    (s : Session) :
    (resendExpired now entries s).1.outbox =
      s.outbox ++ (resent now entries).map fun entry => s.datagramOfStored entry.2 := by
  induction entries generalizing s with
  | nil => exact (List.append_nil _).symm
  | cons entry rest ih =>
      rcases entry with ⟨id, info⟩
      unfold resendExpired
      split_ifs with hexpired hspent
      · rw [resent_of_spent hexpired hspent]
        exact (List.append_nil _).symm
      · rw [ih, resent_of_due hexpired hspent, List.map_cons]
        -- the pass changes neither the name of the session nor its window
        exact List.append_assoc s.outbox _ _
      · rw [ih, resent_of_fresh hexpired]

/-- A pass that finds an expired packet without attempts left marks the session. -/
theorem shouldClose_resendExpired {now : Time} {entries : List (UInt32 × SentPacketInfo)}
    {s : Session} {entry : UInt32 × SentPacketInfo} (hentry : entry ∈ entries)
    (hexpired : now - entry.2.sentTime > RESEND_TIMEOUT)
    (hspent : entry.2.retries ≥ MAX_RESEND_ATTEMPTS) :
    (resendExpired now entries s).1.shouldClose = true ∧
      (resendExpired now entries s).2 = true := by
  induction entries generalizing s with
  | nil => cases hentry
  | cons head rest ih =>
      rcases head with ⟨id, info⟩
      unfold resendExpired
      rcases List.mem_cons.mp hentry with rfl | hrest
      · rw [if_pos hexpired, if_pos hspent]
        exact ⟨rfl, rfl⟩
      · split_ifs
        · exact ⟨rfl, rfl⟩
        · exact ih hrest
        · exact ih hrest

/-- `update` marks the session for closing when it finds such a packet. -/
theorem shouldClose_update {s : Session} {id : UInt32} {info : SentPacketInfo}
    (hinfo : s.sentPackets[id]? = some info)
    (hexpired : s.clock.head - info.sentTime > RESEND_TIMEOUT)
    (hspent : info.retries ≥ MAX_RESEND_ATTEMPTS) : s.update.shouldClose = true := by
  have hentry : (id, info) ∈ s.sentPackets.toList :=
    TreeMap.mem_toList_iff_getElem?_eq_some.mpr hinfo
  have hpass := shouldClose_resendExpired (s := { s with clock := s.clock.tail }) hentry hexpired
    hspent
  unfold update
  dsimp only
  split
  · rename_i heq
    rw [heq] at hpass
    exact hpass.1
  · rename_i heq
    rw [heq] at hpass
    cases hpass.2

/-! ## What a reception forgets -/

/-- The reception of a datagram takes an acknowledgement of the id: from the header of any
datagram, and from the list of a RICH_ACK packet that is not dropped as a duplicate. -/
def TakesAck (s : Session) (d : Datagram) (id : UInt32) : Prop :=
  ∃ header, Header.parse d.bytes = .ok header ∧
    (id ∈ Endpoint.headerAcks header ∨
      s.isDuplicate header.sequenceId = false ∧ header.messageId = SystemMessageId.kRichAck ∧
        id ∈ listedIn d)

theorem getElem?_acknowledge_of_mem (s : Session) {header : Header} {id : UInt32}
    (hid : id ∈ Endpoint.headerAcks header) : (s.acknowledge header).sentPackets[id]? = none := by
  unfold Endpoint.headerAcks at hid
  split_ifs at hid with hflag
  · unfold acknowledge
    by_cases hempty : s.sentPackets.isEmpty = true
    · rw [hempty, Bool.not_true, Bool.and_false, if_neg (by decide)]
      exact TreeMap.getElem?_of_isEmpty hempty
    · rw [Bool.not_eq_true] at hempty
      rw [hempty, Bool.not_false, Bool.and_true, if_pos hflag]
      change (OrderedMap.eraseAll s.sentPackets _)[id]? = none
      rw [OrderedMap.getElem?_eraseAll, if_pos hid]
  · cases hid

theorem sentPackets_deliver (s : Session) (header : Header) (d : Datagram) :
    (s.deliver header d).1.sentPackets =
      if header.messageId = SystemMessageId.kRichAck then
        OrderedMap.eraseAll s.sentPackets (listedIn d)
      else s.sentPackets := by
  unfold deliver
  by_cases hrich : header.messageId = SystemMessageId.kRichAck
  · rw [if_pos (by simpa using hrich), if_pos hrich, checkForOldPackets_eq_eraseAll]
    rfl
  · rw [if_neg (by simpa using hrich), if_neg hrich]
    dsimp only
    split_ifs
    · rfl
    · unfold deliverOrdered
      dsimp only
      split_ifs
      · rfl
      · rfl
      · rfl
    · rfl

/-- The parts of a reception, once the header has been read. -/
theorem handleIncoming_of_parse (target : LeftShift) (s : Session) {d : Datagram}
    {header : Header} (hparse : Header.parse d.bytes = .ok header) :
    s.handleIncoming target d =
      let acked := (Endpoint.seen s).acknowledge header
      if acked.isDuplicate header.sequenceId then
        ({ acked with
            pendingRichAcks := acked.pendingRichAcks ++ [header.sequenceId]
            hasUnsentAck := true }, [])
      else
        (acked.accept target header.sequenceId).deliver header d := by
  rw [handleIncoming, hparse]
  rfl

/-- A reception removes stored packets at most, among them those that it takes an
acknowledgement of. -/
theorem getElem?_handleIncoming (target : LeftShift) (s : Session) (d : Datagram) (id : UInt32) :
    ((s.handleIncoming target d).1.sentPackets[id]? = s.sentPackets[id]? ∨
        (s.handleIncoming target d).1.sentPackets[id]? = none) ∧
      (s.TakesAck d id → (s.handleIncoming target d).1.sentPackets[id]? = none) := by
  cases hparse : Header.parse d.bytes with
  | error e =>
      have hsame : (s.handleIncoming target d).1 = s := by rw [handleIncoming, hparse]
      rw [hsame]
      refine ⟨Or.inl rfl, ?_⟩
      rintro ⟨header, hheader, -⟩
      rw [hparse] at hheader
      cases hheader
  | ok header =>
      let acked := (Endpoint.seen s).acknowledge header
      have hstored : (s.handleIncoming target d).1.sentPackets =
          if s.isDuplicate header.sequenceId = false ∧
              header.messageId = SystemMessageId.kRichAck then
            OrderedMap.eraseAll acked.sentPackets (listedIn d)
          else acked.sentPackets := by
        rw [handleIncoming_of_parse target s hparse]
        dsimp only
        rw [Endpoint.isDuplicate_acknowledge]
        cases s.isDuplicate header.sequenceId with
        | true => rfl
        | false =>
            rw [if_neg (by decide), sentPackets_deliver, sentPackets_accept]
            simp only [true_and, acked]
      rcases Endpoint.acknowledge_eq (Endpoint.seen s) header with ⟨t, hacked, ht⟩
      have ht' : acked.sentPackets = t := by
        simp only [acked, hacked]
      have hkept : acked.sentPackets[id]? = s.sentPackets[id]? ∨
          acked.sentPackets[id]? = none := by
        rw [ht']
        exact (ht id).imp_right And.left
      have hlisted : (OrderedMap.eraseAll acked.sentPackets (listedIn d))[id]? =
          if id ∈ listedIn d then none else acked.sentPackets[id]? :=
        OrderedMap.getElem?_eraseAll _ _ _
      rw [hstored]
      constructor
      · split_ifs
        · rw [hlisted]
          split_ifs
          · exact Or.inr rfl
          · exact hkept
        · exact hkept
      · rintro ⟨header', hheader, htakes⟩
        rw [hparse] at hheader
        cases hheader
        rcases htakes with hid | ⟨hnew, hrich, hid⟩
        · have hnone : acked.sentPackets[id]? = none :=
            getElem?_acknowledge_of_mem (Endpoint.seen s) hid
          split_ifs
          · rw [hlisted, hnone, ite_self]
          · exact hnone
        · rw [if_pos ⟨hnew, hrich⟩, hlisted, if_pos hid]

end Session

/-! ## Whose packet is stored -/

namespace Endpoint

/-- The packet stored under a sequence id: the last one sent with it that is not
unreliable. -/
def owner (sent : List SentRecord) (id : UInt32) : Option SentRecord :=
  sent.reverse.find? fun r => r.sequenceId == id && r.packet.flag != Flag.kUnreliable

theorem owner_append (sent : List SentRecord) (r : SentRecord) (id : UInt32) :
    owner (sent ++ [r]) id =
      if r.sequenceId = id ∧ r.packet.flag ≠ Flag.kUnreliable then some r else owner sent id := by
  rw [owner, List.reverse_append, List.reverse_singleton, List.singleton_append]
  by_cases hr : r.sequenceId = id ∧ r.packet.flag ≠ Flag.kUnreliable
  · rw [if_pos hr]
    apply List.find?_cons_of_pos
    rw [Bool.and_eq_true, beq_iff_eq, bne_iff_ne]
    exact hr
  · rw [if_neg hr, owner]
    apply List.find?_cons_of_neg
    rw [Bool.and_eq_true, beq_iff_eq, bne_iff_ne]
    exact hr

theorem owner_spec {sent : List SentRecord} {id : UInt32} {r : SentRecord}
    (h : owner sent id = some r) :
    r ∈ sent ∧ r.sequenceId = id ∧ r.packet.flag ≠ Flag.kUnreliable := by
  have hmem := List.mem_of_find?_eq_some h
  have hr := List.find?_some h
  rw [Bool.and_eq_true, beq_iff_eq, bne_iff_ne] at hr
  exact ⟨List.mem_reverse.mp hmem, hr⟩

/-- Every stored packet is that of its owner. -/
def Owned (sent : List SentRecord) (stored : TreeMap UInt32 SentPacketInfo) : Prop :=
  ∀ id info, stored[id]? = some info → ∃ r, owner sent id = some r ∧ Stores info r

/-- The packet that waits under a sequence id, with the number of its retries. -/
def waiting (sent : List SentRecord) (stored : TreeMap UInt32 SentPacketInfo) (id : UInt32) :
    Option (SentRecord × ℕ) :=
  stored[id]?.bind fun info => (owner sent id).map fun r => (r, info.retries.toNat)

theorem waiting_eq {sent : List SentRecord} {stored : TreeMap UInt32 SentPacketInfo}
    {id : UInt32} {info : SentPacketInfo} {r : SentRecord} (hinfo : stored[id]? = some info)
    (hr : owner sent id = some r) : waiting sent stored id = some (r, info.retries.toNat) := by
  rw [waiting, hinfo, Option.bind_some, hr, Option.map_some]

/-- What waits follows what is stored. -/
theorem waiting_congr {sent : List SentRecord} {stored stored' : TreeMap UInt32 SentPacketInfo}
    {id : UInt32} (h : stored'[id]? = stored[id]?) :
    waiting sent stored' id = waiting sent stored id := by
  rw [waiting, h, waiting]

theorem waiting_of_none {sent : List SentRecord} {stored : TreeMap UInt32 SentPacketInfo}
    {id : UInt32} (h : stored[id]? = none) : waiting sent stored id = none := by
  rw [waiting, h, Option.bind_none]

/-- Storing data of a packet under its id. -/
theorem waiting_insert {sent : List SentRecord} {stored : TreeMap UInt32 SentPacketInfo}
    {id : UInt32} {info : SentPacketInfo} {r : SentRecord} (hr : owner sent id = some r) :
    waiting sent (stored.insert id info) =
      Function.update (waiting sent stored) id (some (r, info.retries.toNat)) := by
  funext k
  by_cases hk : k = id
  · subst hk
    rw [Function.update_self]
    exact waiting_eq (by simp) hr
  · rw [Function.update_of_ne hk]
    apply waiting_congr
    rw [TreeMap.getElem?_insert, if_neg]
    intro heq
    exact hk (Std.LawfulEqCmp.eq_of_compare heq).symm

theorem Owned.insert {sent : List SentRecord} {stored : TreeMap UInt32 SentPacketInfo}
    (h : Owned sent stored) {id : UInt32} {info : SentPacketInfo} {r : SentRecord}
    (hr : owner sent id = some r) (hstores : Stores info r) :
    Owned sent (stored.insert id info) := by
  intro k info' hinfo
  rw [TreeMap.getElem?_insert] at hinfo
  split_ifs at hinfo with hk
  · cases hinfo
    rw [← Std.LawfulEqCmp.eq_of_compare hk]
    exact ⟨r, hr, hstores⟩
  · exact h k info' hinfo

/-! ## What the calls emit -/

/-- The datagram carries an acknowledgement packet of the session itself. -/
def IsOwnAck (d : Datagram) : Prop :=
  ∃ p id, IsAckPacket p ∧ Carries d p id 0

/-- The session has emitted acknowledgement packets of its own only. -/
def EmitsAcks (s s' : Session) : Prop :=
  ∃ acks, s'.outbox = s.outbox ++ acks ∧ ∀ d ∈ acks, IsOwnAck d

theorem EmitsAcks.of_outbox {s s' : Session} (h : s'.outbox = s.outbox) : EmitsAcks s s' :=
  ⟨[], by rw [h, List.append_nil], by simp⟩

theorem EmitsAcks.trans {s s' s'' : Session} (h : EmitsAcks s s') (h' : EmitsAcks s' s'') :
    EmitsAcks s s'' := by
  rcases h with ⟨acks, houtbox, hacks⟩
  rcases h' with ⟨acks', houtbox', hacks'⟩
  refine ⟨acks ++ acks', by rw [houtbox', houtbox, List.append_assoc], ?_⟩
  intro d hd
  rcases List.mem_append.mp hd with hd | hd
  · exact hacks d hd
  · exact hacks' d hd

theorem emitsAcks_ackPacket (s : Session) {p : Packet} (hp : IsAckPacket p) :
    EmitsAcks s (s.drawSequenceId.rawSend p s.localSequenceId 0) := by
  refine ⟨_, rfl, ?_⟩
  intro d hd
  rw [List.mem_singleton.mp hd]
  exact ⟨p, s.localSequenceId, hp, carries_rawSend s.drawSequenceId p s.localSequenceId 0⟩

theorem emitsAcks_sendRichAck (s : Session) (acks : List UInt32) :
    EmitsAcks s (s.sendRichAck acks) := by
  simp only [Session.sendRichAck]
  split
  · rename_i p hwrite
    have hack : AckPacket acks p := .rich (fun _ hid => hid) hwrite
    exact emitsAcks_ackPacket s hack.isAckPacket
  · exact .of_outbox rfl

theorem emitsAcks_sendRichAcks (s : Session) (acks : List UInt32) (processed : ℕ) :
    EmitsAcks s (s.sendRichAcks acks processed) := by
  fun_induction Session.sendRichAcks s acks processed with
  | case1 s processed hmore chunkSize ih => exact (emitsAcks_sendRichAck s _).trans ih
  | case2 s processed hdone => exact .of_outbox rfl

theorem emitsAcks_sendAck (s : Session) : EmitsAcks s s.sendAck := by
  unfold Session.sendAck
  split_ifs
  · exact emitsAcks_sendRichAcks s s.pendingRichAcks 0
  · exact emitsAcks_ackPacket s ⟨Or.inl rfl, rfl⟩

theorem emitsAcks_accept (target : LeftShift) (s : Session) (id : UInt32) :
    EmitsAcks s (s.accept target id) := by
  rcases updateAcknowledgeInfo_eq target s id with ⟨has, head, bits, history, unsent, hupdate⟩
  simp only [Session.accept, hupdate]
  split_ifs
  · exact emitsAcks_sendAck _
  · exact .of_outbox rfl

/-- A reception emits acknowledgement packets at most. -/
theorem emitsAcks_handleIncoming (target : LeftShift) (s : Session) (d : Datagram) :
    EmitsAcks s (s.handleIncoming target d).1 := by
  cases hparse : Header.parse d.bytes with
  | error e =>
      apply EmitsAcks.of_outbox
      rw [Session.handleIncoming, hparse]
  | ok header =>
      rcases acknowledge_eq (seen s) header with ⟨t, hacked, -⟩
      rw [Session.handleIncoming_of_parse target s hparse, hacked]
      dsimp only
      split_ifs
      · exact .of_outbox rfl
      · rcases Session.deliver_frame
          (({ seen s with sentPackets := t }).accept target header.sequenceId) header d with
          ⟨stored, next, buffers, hdeliver⟩
        rw [hdeliver]
        exact emitsAcks_accept target { seen s with sentPackets := t } header.sequenceId

/-- `send` emits its packet. -/
theorem outbox_send (s : Session) (packet : Packet) :
    (s.send packet).outbox =
      s.outbox ++ [s.datagramOf packet s.localSequenceId (s.orderIdFor packet)] := by
  unfold Session.send
  simp only
  split_ifs <;> rfl

/-- `update` emits what its pass resends, and acknowledgement packets at most after it. -/
theorem outbox_update (s : Session) :
    ∃ acks, s.update.outbox =
        s.outbox ++ (Session.resent s.clock.head s.sentPackets.toList).map
          (fun entry => s.datagramOfStored entry.2) ++ acks ∧
      ∀ d ∈ acks, IsOwnAck d := by
  have hpass := Session.outbox_resendExpired s.clock.head s.sentPackets.toList
    { s with clock := s.clock.tail }
  unfold Session.update
  dsimp only
  split
  · rename_i s' heq
    rw [heq] at hpass
    exact ⟨[], by rw [hpass, List.append_nil]; rfl, by simp⟩
  · rename_i s' heq
    rw [heq] at hpass
    split_ifs
    · rcases emitsAcks_sendAck s' with ⟨acks, houtbox, hacks⟩
      exact ⟨acks, by rw [houtbox, hpass]; rfl, hacks⟩
    · exact ⟨[], by rw [hpass, List.append_nil]; rfl, by simp⟩

end Endpoint

/-! ## The log -/

/-- A datagram that a session has emitted, with the sent packet that it is an emission of,
if it is one. -/
structure Emission where
  origin : Option SentRecord
  datagram : Datagram

/-- An endpoint with the log of its emissions. -/
structure Ledger where
  endpoint : Endpoint
  log : List Emission := []

namespace Ledger

open Endpoint Transition

/-- Datagrams, the first of which are emissions of the given packets. -/
def assign : List SentRecord → List Datagram → List Emission
  | r :: origins, d :: datagrams => ⟨some r, d⟩ :: assign origins datagrams
  | _, datagrams => datagrams.map fun d => ⟨none, d⟩

/-- The sent packets that a call emits, in the order of their emission. -/
def origins (e : Endpoint) : Action → List SentRecord
  | .send packet => [recordOf e.session packet]
  | .update =>
      (Session.resent e.session.clock.head e.session.sentPackets.toList).filterMap fun entry =>
        owner e.sent entry.1
  | .receive _ => []
  | .disconnect => []

/-- The log of a fresh session. -/
def new (self : ℕ) (clock : Stream' Time) : Ledger where
  endpoint := .new self clock

/-- The effect of a call. -/
def step (target : LeftShift) (l : Ledger) (a : Action) : Ledger :=
  let endpoint := l.endpoint.step target a
  { endpoint
    log := l.log ++ assign (origins l.endpoint a)
      (Session.emittedSince l.endpoint.session endpoint.session) }

@[simp]
theorem endpoint_step (target : LeftShift) (l : Ledger) (a : Action) :
    (l.step target a).endpoint = l.endpoint.step target a := rfl

/-- The emissions of a packet. -/
def emissionsOf (l : Ledger) (r : SentRecord) : List Datagram :=
  (l.log.filter fun x => x.origin = some r).map Emission.datagram

/-- The waiting packets and the log, as a table of retries. -/
def table (l : Ledger) : Retries.Table UInt32 SentRecord where
  pending := waiting l.endpoint.sent l.endpoint.session.sentPackets
  log := l.log.filterMap Emission.origin

theorem length_emissionsOf (l : Ledger) (r : SentRecord) :
    (l.emissionsOf r).length = l.table.log.count r := by
  rw [emissionsOf, List.length_map, table]
  induction l.log with
  | nil => rfl
  | cons x log ih =>
      cases hx : x.origin with
      | none =>
          rw [List.filterMap_cons_none hx, List.filter_cons_of_neg (by simp [hx])]
          exact ih
      | some r' =>
          rw [List.filterMap_cons_some hx, List.count_cons]
          by_cases hr : r' = r
          · rw [List.filter_cons_of_pos (by simp [hx, hr]), List.length_cons, ih]
            simp [hr]
          · rw [List.filter_cons_of_neg (by simp [hx, hr]), ih]
            simp [hr]

/-- Datagrams that come with their packets, and others behind them. -/
theorem assign_append {α : Type} {xs : List α} {origin : α → Option SentRecord}
    (horigin : ∀ x ∈ xs, ∃ r, origin x = some r) (datagram : α → Datagram)
    (others : List Datagram) :
    assign (xs.filterMap origin) (xs.map datagram ++ others) =
      xs.map (fun x => ⟨origin x, datagram x⟩) ++ others.map fun d => ⟨none, d⟩ := by
  induction xs with
  | nil =>
      rw [List.filterMap_nil, List.map_nil, List.nil_append, List.map_nil, List.nil_append,
        assign]
      simp
  | cons x xs ih =>
      rcases horigin x List.mem_cons_self with ⟨r, hr⟩
      have hrest := ih fun y hy => horigin y (List.mem_cons_of_mem x hy)
      rw [List.filterMap_cons_some hr, List.map_cons, List.cons_append, assign, hrest,
        List.map_cons, List.cons_append, hr]

/-! ## What a call logs -/

/-- The log tells the whole outbox, the packets behind its datagrams, and that the
datagrams behind which there is none are acknowledgement packets. -/
structure Faithful (l : Ledger) : Prop where
  account : l.log.map Emission.datagram = l.endpoint.session.outbox
  carries : ∀ x ∈ l.log, ∀ r, x.origin = some r →
    r ∈ l.endpoint.sent ∧ Carries x.datagram r.packet r.sequenceId r.orderId
  acks : ∀ x ∈ l.log, x.origin = none → IsOwnAck x.datagram

/-- What a call adds to the log: emissions of known packets, and then acknowledgement
packets. -/
structure Logs (l l' : Ledger) (origins : List SentRecord) (new : List Emission) : Prop where
  log_eq : l'.log = l.log ++ new
  outbox_eq : l'.endpoint.session.outbox =
    l.endpoint.session.outbox ++ new.map Emission.datagram
  origins_eq : new.filterMap Emission.origin = origins
  carries : ∀ x ∈ new, ∀ r, x.origin = some r →
    r ∈ l'.endpoint.sent ∧ Carries x.datagram r.packet r.sequenceId r.orderId
  acks : ∀ x ∈ new, x.origin = none → IsOwnAck x.datagram

section

variable {target : LeftShift} {l : Ledger}

theorem emittedSince_eq {s s' : Session} {datagrams : List Datagram}
    (h : s'.outbox = s.outbox ++ datagrams) : Session.emittedSince s s' = datagrams := by
  rw [Session.emittedSince, h, List.drop_left]

/-- A call that emits acknowledgement packets at most. -/
theorem logs_of_emitsAcks {a : Action} (horigins : origins l.endpoint a = [])
    (hacks : EmitsAcks l.endpoint.session (l.endpoint.step target a).session) :
    ∃ new, Logs l (l.step target a) (origins l.endpoint a) new := by
  rcases hacks with ⟨acks, houtbox, hacks⟩
  refine ⟨acks.map fun d => ⟨none, d⟩, ?_⟩
  constructor
  · rw [step, horigins, emittedSince_eq houtbox]
    cases acks <;> rfl
  · rw [endpoint_step, houtbox, List.map_map]
    simp [Function.comp_def]
  · rw [horigins]
    simp [List.filterMap_map]
  · intro x hx r hr
    rcases List.mem_map.mp hx with ⟨d, hd, rfl⟩
    cases hr
  · intro x hx hnone
    rcases List.mem_map.mp hx with ⟨d, hd, rfl⟩
    exact hacks d hd

theorem logs_send (packet : Packet) :
    ∃ new, Logs l (l.step target (.send packet)) (origins l.endpoint (.send packet)) new := by
  let r := recordOf l.endpoint.session packet
  have houtbox := outbox_send l.endpoint.session packet
  refine ⟨[⟨some r, l.endpoint.session.datagramOf packet r.sequenceId r.orderId⟩], ?_⟩
  constructor
  · have hemitted : Session.emittedSince l.endpoint.session
        (l.endpoint.step target (.send packet)).session = _ := emittedSince_eq houtbox
    rw [step, hemitted]
    rfl
  · exact houtbox
  · rfl
  · intro x hx r hr
    rw [List.mem_singleton.mp hx] at hr ⊢
    cases hr
    refine ⟨List.mem_append_right _ (List.mem_singleton_self _), ?_⟩
    exact carries_rawSend l.endpoint.session packet _ _
  · intro x hx hnone
    rw [List.mem_singleton.mp hx] at hnone
    cases hnone

/-- What a pass resends is stored, and owned. -/
theorem owned_of_mem_resent (howned : Owned l.endpoint.sent l.endpoint.session.sentPackets)
    {now : Time} {entry : UInt32 × SentPacketInfo}
    (hentry : entry ∈ Session.resent now l.endpoint.session.sentPackets.toList) :
    ∃ r, owner l.endpoint.sent entry.1 = some r ∧ Stores entry.2 r := by
  have hmem := List.mem_of_mem_filter (List.takeWhile_subset _ hentry)
  exact howned entry.1 entry.2 (TreeMap.mem_toList_iff_getElem?_eq_some.mp hmem)

theorem logs_update (howned : Owned l.endpoint.sent l.endpoint.session.sentPackets) :
    ∃ new, Logs l (l.step target .update) (origins l.endpoint .update) new := by
  let s := l.endpoint.session
  let entries := Session.resent s.clock.head s.sentPackets.toList
  rcases outbox_update s with ⟨acks, houtbox, hacks⟩
  have horigin : ∀ entry ∈ entries, ∃ r, owner l.endpoint.sent entry.1 = some r := by
    intro entry hentry
    rcases owned_of_mem_resent howned hentry with ⟨r, hr, -⟩
    exact ⟨r, hr⟩
  have hassign := assign_append horigin (fun entry => s.datagramOfStored entry.2) acks
  refine ⟨(entries.map fun entry =>
    ⟨owner l.endpoint.sent entry.1, s.datagramOfStored entry.2⟩) ++
      acks.map fun d => ⟨none, d⟩, ?_⟩
  constructor
  · have hemitted : Session.emittedSince l.endpoint.session
        (l.endpoint.step target .update).session = _ :=
      emittedSince_eq (houtbox.trans (List.append_assoc _ _ _))
    rw [← hassign, step, hemitted]
    rfl
  · have houtbox' : (l.step target .update).endpoint.session.outbox = _ := houtbox
    rw [houtbox', List.map_append, List.map_map, List.map_map, List.append_assoc]
    simp [Function.comp_def, entries, s]
  · rw [List.filterMap_append, List.filterMap_map, List.filterMap_map]
    simp [origins, entries, s]
  · intro x hx r hr
    rcases List.mem_append.mp hx with hx | hx
    · rcases List.mem_map.mp hx with ⟨entry, hentry, rfl⟩
      rcases owned_of_mem_resent howned hentry with ⟨r', hr', hstores⟩
      obtain rfl : r' = r := Option.some.inj (hr'.symm.trans hr)
      refine ⟨(owner_spec hr').1, ?_⟩
      rw [← hstores.packet_eq, ← hstores.sequenceId_eq, ← hstores.orderId_eq]
      exact carries_rawSend s entry.2.packet entry.2.sequenceId entry.2.orderId
    · rcases List.mem_map.mp hx with ⟨d, hd, rfl⟩
      cases hr
  · intro x hx hnone
    rcases List.mem_append.mp hx with hx | hx
    · rcases List.mem_map.mp hx with ⟨entry, hentry, rfl⟩
      rcases horigin entry hentry with ⟨r, hr⟩
      rw [hr] at hnone
      cases hnone
    · rcases List.mem_map.mp hx with ⟨d, hd, rfl⟩
      exact hacks d hd

variable (target) in
/-- Every call logs what it emits. -/
theorem logs_step (howned : Owned l.endpoint.sent l.endpoint.session.sentPackets) (a : Action) :
    ∃ new, Logs l (l.step target a) (origins l.endpoint a) new := by
  cases a with
  | send packet => exact logs_send packet
  | update => exact logs_update howned
  | receive d =>
      exact logs_of_emitsAcks rfl (emitsAcks_handleIncoming target l.endpoint.session d)
  | disconnect => exact logs_of_emitsAcks rfl (.of_outbox rfl)

theorem sent_step (target : LeftShift) (e : Endpoint) (a : Action) {r : SentRecord}
    (hr : r ∈ e.sent) : r ∈ (e.step target a).sent := by
  cases a with
  | send packet => exact List.mem_append_left _ hr
  | update => exact hr
  | receive d => exact hr
  | disconnect => exact hr

theorem Faithful.step (h : l.Faithful)
    (howned : Owned l.endpoint.sent l.endpoint.session.sentPackets) (a : Action) :
    (l.step target a).Faithful := by
  rcases logs_step target howned a with ⟨new, hnew⟩
  constructor
  · rw [hnew.log_eq, hnew.outbox_eq, List.map_append, h.account]
  · intro x hx r hr
    rw [hnew.log_eq] at hx
    rcases List.mem_append.mp hx with hx | hx
    · rcases h.carries x hx r hr with ⟨hsent, hcarries⟩
      exact ⟨sent_step target l.endpoint a hsent, hcarries⟩
    · exact hnew.carries x hx r hr
  · intro x hx hnone
    rw [hnew.log_eq] at hx
    rcases List.mem_append.mp hx with hx | hx
    · exact h.acks x hx hnone
    · exact hnew.acks x hx hnone

/-! ## A call as moves of a bounded retransmission -/

/-- The moves that a session may make. -/
abbrev Moves : Retries.Table UInt32 SentRecord → Retries.Table UInt32 SentRecord → Prop :=
  Retries.Moves MAX_RESEND_ATTEMPTS.toNat

/-- A pass retries the packets that it resends, one after another. -/
theorem moves_resendExpired {sent : List SentRecord} (now : Time)
    {entries : List (UInt32 × SentPacketInfo)} {s : Session} (log : List SentRecord)
    (hcurrent : ∀ entry ∈ entries, s.sentPackets[entry.1]? = some entry.2)
    (hdistinct : entries.Pairwise fun a b => a.1 ≠ b.1) (howned : Owned sent s.sentPackets) :
    Owned sent (Session.resendExpired now entries s).1.sentPackets ∧
      Moves ⟨waiting sent s.sentPackets, log⟩
        ⟨waiting sent (Session.resendExpired now entries s).1.sentPackets,
          log ++ (Session.resent now entries).filterMap fun entry => owner sent entry.1⟩ := by
  induction entries generalizing s log with
  | nil =>
      refine ⟨howned, ?_⟩
      rw [Session.resent, List.filter_nil, List.takeWhile_nil, List.filterMap_nil,
        List.append_nil]
      exact .refl
  | cons entry rest ih =>
      rcases entry with ⟨id, info⟩
      rcases List.pairwise_cons.mp hdistinct with ⟨hother, hrest⟩
      have hinfo : s.sentPackets[id]? = some info := hcurrent _ List.mem_cons_self
      unfold Session.resendExpired
      split_ifs with hexpired hspent
      · rw [Session.resent_of_spent hexpired hspent, List.filterMap_nil, List.append_nil]
        exact ⟨howned, .refl⟩
      · rcases howned id info hinfo with ⟨r, hr, hstores⟩
        have hlt : info.retries.toNat < MAX_RESEND_ATTEMPTS.toNat := UInt8.not_le.mp hspent
        have hretries : (info.retries + 1).toNat = info.retries.toNat + 1 := by
          rw [UInt8.toNat_add]
          have hmax : MAX_RESEND_ATTEMPTS.toNat = 8 := rfl
          have hone : (1 : UInt8).toNat = 1 := rfl
          omega
        let info' := { info with sentTime := now, retries := info.retries + 1 }
        let s' := { s.rawSend info.packet info.sequenceId info.orderId with
          sentPackets := s.sentPackets.insert id info' }
        have hcurrent' : ∀ entry ∈ rest, s'.sentPackets[entry.1]? = some entry.2 := by
          intro entry hentry
          change (s.sentPackets.insert id info')[entry.1]? = some entry.2
          rw [TreeMap.getElem?_insert, if_neg]
          · exact hcurrent entry (List.mem_cons_of_mem _ hentry)
          · intro heq
            exact hother entry hentry (Std.LawfulEqCmp.eq_of_compare heq)
        have howned' : Owned sent s'.sentPackets :=
          howned.insert hr ⟨hstores.packet_eq, hstores.sequenceId_eq, hstores.orderId_eq⟩
        rcases ih (log ++ [r]) hcurrent' hrest howned' with ⟨hfinal, hmoves⟩
        refine ⟨hfinal, ?_⟩
        have hmove : Retries.Move MAX_RESEND_ATTEMPTS.toNat ⟨waiting sent s.sentPackets, log⟩
            ⟨waiting sent s'.sentPackets, log ++ [r]⟩ := by
          have hwaiting : waiting sent s'.sentPackets =
              Function.update (waiting sent s.sentPackets) id (some (r, info'.retries.toNat)) :=
            waiting_insert hr
          rw [hwaiting, hretries]
          exact .again _ id r info.retries.toNat (waiting_eq hinfo hr) hlt
        have hlog : ((Session.resent now ((id, info) :: rest)).filterMap fun entry =>
            owner sent entry.1) =
              r :: (Session.resent now rest).filterMap fun entry => owner sent entry.1 := by
          rw [Session.resent_of_due hexpired hspent]
          exact List.filterMap_cons_some hr
        rw [hlog, ← List.singleton_append, ← List.append_assoc]
        exact .head hmove hmoves
      · rw [Session.resent_of_fresh hexpired]
        exact ih log (fun entry hentry => hcurrent entry (List.mem_cons_of_mem _ hentry)) hrest
          howned

theorem moves_update {sent : List SentRecord} {s : Session} (log : List SentRecord)
    (howned : Owned sent s.sentPackets) :
    Owned sent s.update.sentPackets ∧
      Moves ⟨waiting sent s.sentPackets, log⟩ ⟨waiting sent s.update.sentPackets,
        log ++ (Session.resent s.clock.head s.sentPackets.toList).filterMap fun entry =>
          owner sent entry.1⟩ := by
  have hcurrent : ∀ entry ∈ s.sentPackets.toList, s.sentPackets[entry.1]? = some entry.2 :=
    fun entry hentry => TreeMap.mem_toList_iff_getElem?_eq_some.mp hentry
  have hdistinct : s.sentPackets.toList.Pairwise fun a b => a.1 ≠ b.1 := by
    apply TreeMap.distinct_keys_toList.imp
    intro a b hne heq
    exact hne (Std.LawfulEqCmp.compare_eq_iff_eq.mpr heq)
  have hpass := moves_resendExpired (s := { s with clock := s.clock.tail }) s.clock.head log
    hcurrent hdistinct howned
  have hstored : s.update.sentPackets =
      (Session.resendExpired s.clock.head s.sentPackets.toList
        { s with clock := s.clock.tail }).1.sentPackets := by
    unfold Session.update
    dsimp only
    generalize Session.resendExpired _ _ _ = pass
    rcases pass with ⟨s', gaveUp⟩
    cases gaveUp with
    | true => rfl
    | false =>
        dsimp only
        split_ifs
        · exact Session.sentPackets_sendAck s'
        · rfl
  rw [hstored]
  exact hpass

/-- What is stored after a packet was sent. -/
theorem getElem?_sentPackets_send (e : Endpoint) (packet : Packet) (id : UInt32) :
    (e.session.send packet).sentPackets[id]? =
      if packet.flag ≠ Flag.kUnreliable ∧ id = e.session.localSequenceId then
        some {
          packet
          sentTime := e.session.clock.head
          sequenceId := e.session.localSequenceId
          orderId := e.session.orderIdFor packet }
      else e.session.sentPackets[id]? :=
  getElem?_enroll_sentPackets e packet id

theorem moves_send {l : Ledger} (packet : Packet) (hinv : l.endpoint.SendInvariant)
    (hfaithful : l.Faithful) (howned : Owned l.endpoint.sent l.endpoint.session.sentPackets) :
    Owned (l.endpoint.sent ++ [recordOf l.endpoint.session packet])
        (l.endpoint.session.send packet).sentPackets ∧
      Moves l.table
        ⟨waiting (l.endpoint.sent ++ [recordOf l.endpoint.session packet])
          (l.endpoint.session.send packet).sentPackets,
          l.table.log ++ [recordOf l.endpoint.session packet]⟩ := by
  let r := recordOf l.endpoint.session packet
  have hnew : r ∉ l.table.log := by
    intro hr
    rcases List.mem_filterMap.mp hr with ⟨x, hx, horigin⟩
    have hlt := (hinv.numbered r (hfaithful.carries x hx r horigin).1).1
    exact lt_irrefl _ hlt
  have hid : r.sequenceId = l.endpoint.session.localSequenceId := rfl
  have hflag : r.packet.flag = packet.flag := rfl
  constructor
  · intro id info hinfo
    rw [getElem?_sentPackets_send] at hinfo
    rw [owner_append, hid, hflag]
    split_ifs at hinfo with hstored
    · cases hinfo
      rw [if_pos ⟨hstored.2.symm, hstored.1⟩]
      exact ⟨r, rfl, rfl, rfl, rfl⟩
    · rw [if_neg fun h => hstored ⟨h.2, h.1.symm⟩]
      exact howned id info hinfo
  · by_cases hreliable : packet.flag = Flag.kUnreliable
    · have hwaiting :
          waiting (l.endpoint.sent ++ [r]) (l.endpoint.session.send packet).sentPackets =
          l.table.pending := by
        funext id
        rw [waiting, getElem?_sentPackets_send, owner_append, hflag,
          if_neg fun h => h.1 hreliable, if_neg fun h => h.2 hreliable]
        rfl
      rw [hwaiting]
      exact .single (.once l.table r hnew)
    · have hwaiting :
          waiting (l.endpoint.sent ++ [r]) (l.endpoint.session.send packet).sentPackets =
          Function.update l.table.pending r.sequenceId (some (r, 0)) := by
        funext id
        rw [waiting, getElem?_sentPackets_send, owner_append, hflag]
        by_cases hsame : id = r.sequenceId
        · subst hsame
          rw [if_pos ⟨hreliable, hid⟩, if_pos ⟨rfl, hreliable⟩, Function.update_self]
          rfl
        · rw [if_neg fun h => hsame (h.2.trans hid.symm), if_neg fun h => hsame h.1.symm,
            Function.update_of_ne hsame]
          rfl
      rw [hwaiting]
      exact .single (.first l.table r.sequenceId r hnew)

theorem moves_receive {sent : List SentRecord} (target : LeftShift) {s : Session}
    (d : Datagram) (log : List SentRecord) (howned : Owned sent s.sentPackets) :
    Owned sent (s.handleIncoming target d).1.sentPackets ∧
      Moves ⟨waiting sent s.sentPackets, log⟩
        ⟨waiting sent (s.handleIncoming target d).1.sentPackets, log⟩ := by
  have hstored := fun id => (Session.getElem?_handleIncoming target s d id).1
  constructor
  · intro id info hinfo
    rcases hstored id with hsame | hnone
    · exact howned id info (hsame ▸ hinfo)
    · rw [hnone] at hinfo
      cases hinfo
  · apply Relation.ReflTransGen.single
    apply Retries.Move.forget
    intro id
    exact (hstored id).imp waiting_congr waiting_of_none

variable (target) in
/-- A call logs the packets that it emits. -/
theorem log_table_step (howned : Owned l.endpoint.sent l.endpoint.session.sentPackets)
    (a : Action) : (l.step target a).table.log = l.table.log ++ origins l.endpoint a := by
  rcases logs_step target howned a with ⟨new, hnew⟩
  rw [table, hnew.log_eq, List.filterMap_append, hnew.origins_eq, table]

variable (target) in
/-- A call makes moves of a bounded retransmission. -/
theorem moves_step (hinv : l.endpoint.SendInvariant) (hfaithful : l.Faithful)
    (howned : Owned l.endpoint.sent l.endpoint.session.sentPackets) (a : Action) :
    Owned (l.step target a).endpoint.sent (l.step target a).endpoint.session.sentPackets ∧
      Moves l.table (l.step target a).table := by
  have hlog := log_table_step target howned a
  have htable : (l.step target a).table = ⟨(l.step target a).table.pending,
    l.table.log ++ origins l.endpoint a⟩ := by rw [← hlog]
  rw [htable]
  cases a with
  | send packet => exact moves_send packet hinv hfaithful howned
  | update => exact moves_update l.table.log howned
  | receive d =>
      rw [origins, List.append_nil]
      exact moves_receive target d l.table.log howned
  | disconnect =>
      rw [origins, List.append_nil]
      exact ⟨howned, .refl⟩

/-! ## Runs -/

/-- The logs of all runs of a session. -/
def Run (target : LeftShift) (self : ℕ) : Ledger → Prop :=
  Reachable (fun l => ∃ clock, l = new self clock) (step target) fun _ _ => True

/-- The log is faithful, the stored packets are known, the retries are bounded, and every
packet that was sent was emitted. -/
structure Sound (l : Ledger) : Prop where
  faithful : l.Faithful
  owned : Owned l.endpoint.sent l.endpoint.session.sentPackets
  bounded : Retries.Bounded MAX_RESEND_ATTEMPTS.toNat l.table
  logged : ∀ r ∈ l.endpoint.sent, r ∈ l.table.log

theorem sound_new (self : ℕ) (clock : Stream' Time) : (new self clock).Sound where
  faithful := ⟨rfl, by simp [new], by simp [new]⟩
  owned := by simp [new, Owned, Endpoint.new, Session.new]
  bounded := by
    have hnone : ∀ id, (new self clock).table.pending id = none := by
      intro id
      have hstored : (new self clock).endpoint.session.sentPackets[id]? = none := by
        simp [new, Endpoint.new, Session.new]
      change waiting (new self clock).endpoint.sent (new self clock).endpoint.session.sentPackets
        id = none
      exact waiting_of_none hstored
    have hempty : (new self clock).table = ⟨fun _ => none, []⟩ :=
      congrArg (fun pending => Retries.Table.mk pending []) (funext hnone)
    rw [hempty]
    exact Retries.bounded_empty _
  logged := by simp [new, Endpoint.new]

variable (target) in
theorem Sound.step (h : l.Sound) (hinv : l.endpoint.SendInvariant) (a : Action) :
    (l.step target a).Sound where
  faithful := h.faithful.step h.owned a
  owned := (moves_step target hinv h.faithful h.owned a).1
  bounded := (moves_step target hinv h.faithful h.owned a).2.bounded h.bounded
  logged := by
    intro r hr
    rw [log_table_step _ h.owned, List.mem_append]
    cases a with
    | send packet =>
        rcases List.mem_append.mp hr with hr | hr
        · exact Or.inl (h.logged r hr)
        · exact Or.inr hr
    | update => exact Or.inl (h.logged r hr)
    | receive d => exact Or.inl (h.logged r hr)
    | disconnect => exact Or.inl (h.logged r hr)

theorem Run.endpoint {self : ℕ} (h : Run target self l) :
    Endpoint.Run target .free self l.endpoint := by
  apply Reachable.project (f := Ledger.endpoint) h
  · rintro l ⟨clock, rfl⟩
    exact ⟨clock, rfl⟩
  · intro l a _ _
    exact Or.inr ⟨a, permits_free _ a, rfl⟩

theorem Run.sound {self : ℕ} (h : Run target self l) : l.Sound := by
  apply Reachable.invariant h
  · rintro l ⟨clock, rfl⟩
    exact sound_new self clock
  · intro l a hrun _ hsound
    exact hsound.step target (Endpoint.Run.sendInvariant (Run.endpoint hrun)) a

/-- A run that goes on makes moves, and keeps its log. -/
theorem Run.moves {self : ℕ} (h : Run target self l) (more : List Action) :
    Moves l.table (more.foldl (Ledger.step target) l).table ∧
      ∀ r, l.emissionsOf r <+: (more.foldl (Ledger.step target) l).emissionsOf r := by
  induction more generalizing l with
  | nil => exact ⟨.refl, fun r => List.prefix_rfl⟩
  | cons a more ih =>
      have hsound := Run.sound h
      have hinv := Endpoint.Run.sendInvariant (Run.endpoint h)
      have hmoves := (moves_step target hinv hsound.faithful hsound.owned a).2
      rcases ih (Reachable.next h trivial) with ⟨hrest, hearlier⟩
      refine ⟨hmoves.trans hrest, ?_⟩
      intro r
      apply List.IsPrefix.trans _ (hearlier r)
      apply List.IsPrefix.map
      apply List.IsPrefix.filter
      exact List.prefix_append _ _

/-- What waits is stored and owned. -/
theorem stored_of_waiting {sent : List SentRecord} {stored : TreeMap UInt32 SentPacketInfo}
    {id : UInt32} {r : SentRecord} {n : ℕ} (h : waiting sent stored id = some (r, n)) :
    r.sequenceId = id ∧ ∃ info, stored[id]? = some info := by
  rw [waiting, Option.bind_eq_some_iff] at h
  rcases h with ⟨info, hinfo, howner⟩
  rw [Option.map_eq_some_iff] at howner
  rcases howner with ⟨r', hr', heq⟩
  cases heq
  exact ⟨(owner_spec hr').2.1, info, hinfo⟩

variable (target) in
/-- A packet whose acknowledgement is taken does not wait any more. -/
theorem settled_receive (h : l.Sound) (hinv : l.endpoint.SendInvariant) {r : SentRecord}
    {d : Datagram} (hr : r ∈ l.endpoint.sent)
    (htakes : l.endpoint.session.TakesAck d r.sequenceId) :
    Retries.Settled (l.step target (.receive d)).table r := by
  have hnone := (Session.getElem?_handleIncoming target l.endpoint.session d r.sequenceId).2 htakes
  constructor
  · exact (h.step target hinv (.receive d)).logged r hr
  · intro id n hwaiting
    rcases stored_of_waiting hwaiting with ⟨rfl, info, hinfo⟩
    change (l.endpoint.session.handleIncoming target d).1.sentPackets[r.sequenceId]? = _ at hinfo
    rw [hnone] at hinfo
    cases hinfo

/-- In every run of a session, with any calls and any readings of the clock, and with the
log that tells for each datagram of the outbox which packet it is an emission of:
a packet that is not unreliable is emitted at most once and then as often as the attempts
allow, always with its sequence id, order id, channel, message id and payload; no counter of
retries passes the limit; a packet is not emitted again once an acknowledgement of it was
taken; and {lit}`update` marks the session when it finds an expired packet without
attempts left. -/
theorem retransmission_bounded (target : LeftShift) (self : ℕ) (clock : Stream' Time)
    (actions : List Action) :
    let l := actions.foldl (step target) (new self clock)
    let s := l.endpoint.session
    l.Faithful ∧
    (∀ r ∈ l.endpoint.sent, r.packet.flag ≠ Flag.kUnreliable →
      (l.emissionsOf r).length ≤ 1 + MAX_RESEND_ATTEMPTS.toNat ∧
        ∀ d ∈ l.emissionsOf r, Carries d r.packet r.sequenceId r.orderId) ∧
    (∀ (id : UInt32) (info : SentPacketInfo), s.sentPackets[id]? = some info →
      info.retries ≤ MAX_RESEND_ATTEMPTS) ∧
    (∀ r ∈ l.endpoint.sent, ∀ d, s.TakesAck d r.sequenceId → ∀ more : List Action,
      (more.foldl (step target) (l.step target (.receive d))).emissionsOf r = l.emissionsOf r) ∧
    (∀ (id : UInt32) (info : SentPacketInfo), s.sentPackets[id]? = some info →
      s.clock.head - info.sentTime > RESEND_TIMEOUT → info.retries ≥ MAX_RESEND_ATTEMPTS →
      s.update.shouldClose = true) := by
  intro l s
  have hrun : Run target self l := by
    apply Reachable.run (.start ⟨clock, rfl⟩)
    exact allowedRun_of_forall (fun _ _ => trivial) _ actions
  have hsound := Run.sound hrun
  have hinv := Endpoint.Run.sendInvariant (Run.endpoint hrun)
  refine ⟨hsound.faithful, ?_, ?_, ?_, ?_⟩
  · intro r hr hflag
    constructor
    · rw [length_emissionsOf]
      exact hsound.bounded.count_le r
    · intro d hd
      rcases List.mem_map.mp hd with ⟨x, hx, rfl⟩
      rcases List.mem_filter.mp hx with ⟨hx, horigin⟩
      exact (hsound.faithful.carries x hx r (by simpa using horigin)).2
  · intro id info hinfo
    rcases hsound.owned id info hinfo with ⟨r, hr, -⟩
    exact (hsound.bounded.waiting id r _ (waiting_eq hinfo hr)).1
  · intro r hr d htakes more
    have hsettled := settled_receive target hsound hinv hr htakes
    have hafter : Run target self (l.step target (.receive d)) := Reachable.next hrun trivial
    have hcount := ((Run.moves hafter more).1.settled hsettled).2
    have hsame : (l.step target (.receive d)).table.log = l.table.log := by
      rw [log_table_step _ hsound.owned, origins, List.append_nil]
    have hearlier := (Run.moves hrun (.receive d :: more)).2 r
    apply Eq.symm
    apply hearlier.eq_of_length
    rw [length_emissionsOf, length_emissionsOf, ← hsame]
    exact hcount.symm
  · intro id info hinfo hexpired hspent
    exact Session.shouldClose_update hinfo hexpired hspent

end

end Ledger

end Rtype.Rtnt
