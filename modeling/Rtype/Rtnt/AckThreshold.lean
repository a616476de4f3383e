import Rtype.Rtnt.WrapAround

/-!
# rtnt - The acknowledgement threshold

Every datagram reports the whole receive window.  A session therefore counts the packets
it has accepted since it last sent one, and sends an acknowledgement by itself when half
a window has come in.  This file runs the counter of the code next to the count that it
stands for, and proves that no id leaves the window of a receiver before a datagram has
reported it, as long as the packets come in without gaps.

Main results:

- Structure {lit}`Session.Transmits`: all that a session does when it transmits.
- Structure {lit}`Session.Covered`: the counter is right, and the ids that were not
  reported yet are the latest ones.
- Theorem {lit}`Tally.threshold_covers_window`: the bound on the count, and the report of
  each id before it leaves the window.

Current gaps:

- None.
-/

namespace Rtype.Rtnt

open Transition

/-- The datagram reports the id: its header has the ack flag, and the id as acknowledge id
or in the bit field. -/
def ReportedBy (d : Datagram) (id : UInt32) : Prop :=
  ∃ h, Header.parse d.bytes = .ok h ∧ id ∈ Endpoint.headerAcks h

namespace Session

/-! ## Transmissions -/

/-- The session has emitted the new datagrams: each reports the whole window, if there is
one, and the counter starts again when there is one to report and a datagram to do so. -/
structure Transmits (s s' : Session) (new : List Datagram) : Prop where
  window : s'.window = s.window
  outbox : s'.outbox = s.outbox ++ new
  counter : s'.packetsSinceLastAck =
    if s.hasReceivedRemotePacket = true ∧ new ≠ [] then 0 else s.packetsSinceLastAck
  reports : s.hasReceivedRemotePacket = true → ∀ d ∈ new, ∀ id, s.Reports id → ReportedBy d id

/-- What changes neither the window nor the counter transmits nothing. -/
theorem transmits_nil {s s' : Session} (hwindow : s'.window = s.window)
    (houtbox : s'.outbox = s.outbox) (hcounter : s'.packetsSinceLastAck = s.packetsSinceLastAck) :
    Transmits s s' [] where
  window := hwindow
  outbox := by rw [houtbox, List.append_nil]
  counter := by rw [hcounter, if_neg (fun h => h.2 rfl)]
  reports := by simp

theorem Transmits.received_eq {s s' : Session} {new : List Datagram} (h : Transmits s s' new) :
    s'.hasReceivedRemotePacket = s.hasReceivedRemotePacket := by
  have hwindow := h.window
  simp only [Session.window, Prod.mk.injEq] at hwindow
  exact hwindow.1

theorem Transmits.trans {s s' s'' : Session} {new new' : List Datagram}
    (h : Transmits s s' new) (h' : Transmits s' s'' new') : Transmits s s'' (new ++ new') where
  window := h'.window.trans h.window
  outbox := by rw [h'.outbox, h.outbox, List.append_assoc]
  counter := by
    rw [h'.counter, h.counter, h.received_eq]
    by_cases hhas : s.hasReceivedRemotePacket = true
    · by_cases hnew' : new' = []
      · simp [hnew', hhas]
      · simp [hnew', hhas]
    · simp [hhas]
  reports := by
    intro hhas d hd id hid
    rcases List.mem_append.mp hd with hd | hd
    · exact h.reports hhas d hd id hid
    · exact h'.reports (h.received_eq.trans hhas) d hd id
        ((reports_of_window h.window id).mpr hid)

theorem transmits_rawSend (s : Session) (p : Packet) (sequenceId orderId : UInt32) :
    Transmits s (s.rawSend p sequenceId orderId)
      [⟨s.self, (s.header p sequenceId orderId).wire ++ p.buffer⟩] where
  window := rfl
  outbox := rfl
  counter := by simp [rawSend]
  reports := by
    intro hhas d hd id hid
    have hsize : (s.header p sequenceId orderId).packetSize.toNat ≤ p.buffer.length := by
      simp only [header, UInt16.toNat_ofNat']
      exact Nat.mod_le _ _
    rw [List.mem_singleton.mp hd]
    refine ⟨s.header p sequenceId orderId, Header.parse_wire rfl hsize, ?_⟩
    rw [headerAcks_header_eq hhas]
    exact List.mem_cons.mpr hid

/-- An acknowledgement packet draws a sequence id first. -/
theorem transmits_ackPacket (s : Session) (p : Packet) :
    ∃ d, Transmits s (s.drawSequenceId.rawSend p s.localSequenceId 0) [d] := by
  have hdraw : Transmits s s.drawSequenceId [] := transmits_nil rfl rfl rfl
  exact ⟨_, hdraw.trans (transmits_rawSend s.drawSequenceId p s.localSequenceId 0)⟩

/-- The loop over the chunks transmits when there is a chunk left. -/
theorem transmits_sendRichAcks (s : Session) (acks : List UInt32) (processed : ℕ) :
    ∃ new, Transmits s (s.sendRichAcks acks processed) new ∧
      (processed < acks.length → new ≠ []) := by
  fun_induction sendRichAcks s acks processed with
  | case1 s processed hmore chunkSize ih =>
      rcases ih with ⟨new, hnew, -⟩
      have hfew : ((acks.drop processed).take chunkSize).length ≤ 65535 := by
        have hmax : MAX_ACK_PER_PACKET = 256 := rfl
        rw [List.length_take]
        omega
      rcases transmits_ackPacket s _ with ⟨d, hd⟩
      rw [← sendRichAck_eq s hfew] at hd
      exact ⟨[d] ++ new, hd.trans hnew, fun _ => List.cons_ne_nil d new⟩
  | case2 s processed hdone =>
      exact ⟨[], transmits_nil rfl rfl rfl, fun hmore => absurd hmore hdone⟩

/-- An acknowledgement is a datagram at least. -/
theorem transmits_sendAck (s : Session) : ∃ new, new ≠ [] ∧ Transmits s s.sendAck new := by
  unfold sendAck
  split_ifs with hpending
  · rcases transmits_sendRichAcks s s.pendingRichAcks 0 with ⟨new, hnew, hmore⟩
    have hne : s.pendingRichAcks ≠ [] := by simpa using hpending
    refine ⟨new, hmore (List.length_pos_of_ne_nil hne), ?_⟩
    exact ⟨hnew.window, hnew.outbox, hnew.counter, hnew.reports⟩
  · rcases transmits_ackPacket s
      (Packet.new SystemMessageId.kAck Flag.kUnreliable INTERNAL_CHANNEL_ID) with ⟨d, hd⟩
    exact ⟨[d], List.cons_ne_nil d [], hd⟩

theorem transmits_resendExpired (now : Time) (entries : List (UInt32 × SentPacketInfo))
    (s : Session) : ∃ new, Transmits s (resendExpired now entries s).1 new := by
  induction entries generalizing s with
  | nil => exact ⟨[], transmits_nil rfl rfl rfl⟩
  | cons entry rest ih =>
      rcases entry with ⟨id, info⟩
      unfold resendExpired
      split_ifs with hexpired hretries
      · exact ⟨[], transmits_nil rfl rfl rfl⟩
      · have hsend := transmits_rawSend s info.packet info.sequenceId info.orderId
        have hstore : Transmits (s.rawSend info.packet info.sequenceId info.orderId)
            { s.rawSend info.packet info.sequenceId info.orderId with
              sentPackets := s.sentPackets.insert id
                { info with sentTime := now, retries := info.retries + 1 } } [] :=
          transmits_nil rfl rfl rfl
        rcases ih { s.rawSend info.packet info.sequenceId info.orderId with
          sentPackets := s.sentPackets.insert id
            { info with sentTime := now, retries := info.retries + 1 } } with ⟨new, hnew⟩
        exact ⟨_, (hsend.trans hstore).trans hnew⟩
      · exact ih s

theorem transmits_update (s : Session) : ∃ new, Transmits s s.update new := by
  rcases transmits_resendExpired s.clock.head s.sentPackets.toList
    { s with clock := s.clock.tail } with ⟨new, hnew⟩
  have hpass : Transmits s (resendExpired s.clock.head s.sentPackets.toList
      { s with clock := s.clock.tail }).1 new :=
    ⟨hnew.window, hnew.outbox, hnew.counter, hnew.reports⟩
  unfold update
  simp only
  generalize resendExpired _ _ _ = pass at hpass ⊢
  rcases pass with ⟨s', gaveUp⟩
  cases gaveUp with
  | true => exact ⟨new, hpass⟩
  | false =>
      simp only
      split_ifs
      · rcases transmits_sendAck s' with ⟨new', -, hack⟩
        exact ⟨new ++ new', hpass.trans hack⟩
      · exact ⟨new, hpass⟩

theorem transmits_send (s : Session) (p : Packet) : ∃ d, Transmits s (s.send p) [d] := by
  have hprepared : ∀ s' : Session, s'.window = s.window → s'.outbox = s.outbox →
      s'.packetsSinceLastAck = s.packetsSinceLastAck →
      ∃ d, Transmits s (s'.rawSend p s.localSequenceId (s.orderIdFor p)) [d] := by
    intro s' hwindow houtbox hcounter
    exact ⟨_, (transmits_nil hwindow houtbox hcounter).trans (transmits_rawSend s' p _ _)⟩
  unfold send
  simp only
  split_ifs <;> exact hprepared _ rfl rfl rfl

/-! ## The count and the window -/

/-- The id lies in the receive window: it is the head or one of the 32 numbers below. -/
def InWindow (s : Session) (id : UInt32) : Prop :=
  id.toNat ≤ s.remoteAcknowledgeId.toNat ∧ s.remoteAcknowledgeId.toNat ≤ id.toNat + 32

/-- An exact window reports the accepted ids that lie in it. -/
theorem WindowExact.reports {s : Session} {ids : List UInt32} {id : UInt32}
    (h : s.WindowExact ids) (hid : id ∈ ids) (hin : s.InWindow id) : s.Reports id := by
  by_cases hhead : id = s.remoteAcknowledgeId
  · exact Or.inl hhead
  · have hne : id.toNat ≠ s.remoteAcknowledgeId.toNat := fun heq => hhead (UInt32.toNat_inj.mp heq)
    rcases hin with ⟨hle, hnear⟩
    have hpos : s.remoteAcknowledgeId.toNat - id.toNat - 1 < 32 := by omega
    have hsum : id.toNat + (s.remoteAcknowledgeId.toNat - id.toNat - 1 + 1) =
        s.remoteAcknowledgeId.toNat := by omega
    have hbit := (h.2.bit_iff _ hpos).mpr ⟨id.toNat, ⟨id, hid, rfl⟩, hsum⟩
    exact Or.inr (mem_windowIds_of_toNat (Nat.zero_le _) hpos hbit hsum)

/-- The session has accepted the ids, `count` of them since its last datagram: its counter
says so, and the ids in the window that no datagram has reported are the latest ones. -/
structure Covered (s : Session) (ids : List UInt32) (count : ℕ) : Prop where
  tracks : s.WindowTracks ids
  silent : s.hasReceivedRemotePacket = false → count = 0
  counted : s.packetsSinceLastAck.toNat = count
  reported : ∀ id ∈ ids, s.InWindow id →
    (∃ d ∈ s.outbox, ReportedBy d id) ∨ s.remoteAcknowledgeId.toNat < id.toNat + count

theorem covered_new (self : ℕ) (clock : Stream' Time) : (new self clock).Covered [] 0 where
  tracks := windowTracks_new self clock
  silent := fun _ => rfl
  counted := rfl
  reported := by simp

theorem WindowTracks.of_window {s s' : Session} {ids : List UInt32} (h : s.WindowTracks ids)
    (hwindow : s'.window = s.window) : s'.WindowTracks ids := by
  simp only [window, Prod.mk.injEq] at hwindow
  rcases hwindow with ⟨hhas, hhead, hbits, -⟩
  simpa only [WindowTracks, WindowExact, hhas, hhead, hbits] using h

/-- A transmission reports the window and starts the count again. -/
theorem Covered.transmits {s s' : Session} {ids : List UInt32} {count : ℕ}
    {datagrams : List Datagram} (h : s.Covered ids count) (ht : Transmits s s' datagrams) :
    s'.Covered ids (if datagrams = [] then count else 0) := by
  have hwindow := ht.window
  simp only [window, Prod.mk.injEq] at hwindow
  rcases hwindow with ⟨hhas, hhead, -, -⟩
  have hout : ∀ d ∈ s.outbox, d ∈ s'.outbox := fun d hd => by
    rw [ht.outbox]
    exact List.mem_append_left _ hd
  constructor
  · exact h.tracks.of_window ht.window
  · intro hnone
    rw [h.silent (hhas ▸ hnone), ite_self]
  · rw [ht.counter]
    by_cases hnil : datagrams = []
    · rw [if_neg (fun hand => hand.2 hnil), if_pos hnil, h.counted]
    · rw [if_neg hnil]
      by_cases hreceived : s.hasReceivedRemotePacket = true
      · rw [if_pos ⟨hreceived, hnil⟩]
        rfl
      · rw [if_neg (fun hand => hreceived hand.1), h.counted]
        exact h.silent (Bool.not_eq_true _ ▸ hreceived)
  · intro id hid hin
    rw [InWindow, hhead] at hin
    by_cases hnil : datagrams = []
    · rw [if_pos hnil, hhead]
      refine (h.reported id hid hin).imp_left ?_
      rintro ⟨d, hd, hreported⟩
      exact ⟨d, hout d hd, hreported⟩
    · rcases List.exists_mem_of_ne_nil datagrams hnil with ⟨d, hd⟩
      rcases h.tracks with ⟨hnone, -⟩ | hexact
      · rw [hnone] at hid
        cases hid
      · have hreports := ht.reports hexact.1 d hd id (hexact.reports hid hin)
        refine Or.inl ⟨d, ?_, hreports⟩
        rw [ht.outbox]
        exact List.mem_append_right _ hd

/-- The count goes on when the next id is one more than the head.  At the end of the range
the next id is 0, which lies in no window. -/
theorem Covered.updateAcknowledgeInfo (target : LeftShift) {s : Session} {ids : List UInt32}
    {count : ℕ} {id : UInt32} (h : s.Covered ids count) (hcount : count < 16)
    (hnext : s.hasReceivedRemotePacket = true → id = s.remoteAcknowledgeId + 1) :
    { s.updateAcknowledgeInfo target id with
      packetsSinceLastAck := s.packetsSinceLastAck + 1 }.Covered (ids ++ [id]) (count + 1) := by
  have hone : (1 : UInt32).toNat = 1 := rfl
  have hjump : ¬ JumpsBy32 ids id := by
    rintro ⟨m, hm, hmax, hsum⟩
    rcases h.tracks with ⟨hnone, -⟩ | hexact
    · rw [hnone] at hm
      cases hm
    · have hle : m.toNat ≤ s.remoteAcknowledgeId.toNat := hexact.2.greatest.2 ⟨m, hm, rfl⟩
      have hge : s.remoteAcknowledgeId ≤ m := hmax _ hexact.head_mem
      have hge' : s.remoteAcknowledgeId.toNat ≤ m.toNat := hge
      rw [hnext hexact.1, UInt32.toNat_add, hone] at hsum
      omega
  constructor
  · have hshift : ¬ JumpsBy32 ids id ∨ target = .intended := Or.inl hjump
    exact Or.inr (h.tracks.updateAcknowledgeInfo hshift)
  · intro hnone
    have hhas := received_updateAcknowledgeInfo target s id
    rw [hhas] at hnone
    cases hnone
  · rw [UInt32.toNat_add, h.counted, hone]
    omega
  · intro x hx hin
    have houtbox : (s.updateAcknowledgeInfo target id).outbox = s.outbox := by
      rcases Endpoint.updateAcknowledgeInfo_eq target s id with ⟨_, _, _, _, _, heq⟩
      rw [heq]
    rcases hin with ⟨hle, hnear⟩
    simp only [houtbox] at hle hnear ⊢
    rw [List.mem_append, List.mem_singleton] at hx
    rcases h.tracks with ⟨hnone, hhas, -⟩ | hexact
    · rw [head_updateAcknowledgeInfo_first target hhas] at hle hnear ⊢
      rcases hx with hx | rfl
      · rw [hnone] at hx
        cases hx
      · exact Or.inr (by omega)
    · have hidNat : id.toNat = (s.remoteAcknowledgeId.toNat + 1) % 2 ^ 32 := by
        rw [hnext hexact.1, UInt32.toNat_add, hone]
      have hheadLt := s.remoteAcknowledgeId.toNat_lt
      -- either the head moves by one, or the range has ended and it stays
      have hhead : (s.updateAcknowledgeInfo target id).remoteAcknowledgeId.toNat =
            s.remoteAcknowledgeId.toNat + 1 ∧ id.toNat = s.remoteAcknowledgeId.toNat + 1 ∨
          (s.updateAcknowledgeInfo target id).remoteAcknowledgeId.toNat =
            s.remoteAcknowledgeId.toNat ∧ id.toNat + 32 < s.remoteAcknowledgeId.toNat := by
        by_cases hgt : s.remoteAcknowledgeId < id
        · have hgt' : s.remoteAcknowledgeId.toNat < id.toNat := hgt
          rw [head_updateAcknowledgeInfo_of_gt target hgt]
          exact Or.inl ⟨by omega, by omega⟩
        · have hgt' : ¬ s.remoteAcknowledgeId.toNat < id.toNat := hgt
          rw [head_updateAcknowledgeInfo_of_le target hexact.1 hgt]
          exact Or.inr ⟨rfl, by omega⟩
      rcases hx with hx | rfl
      · have hmax : x.toNat ≤ s.remoteAcknowledgeId.toNat := hexact.2.greatest.2 ⟨x, hx, rfl⟩
        refine (h.reported x hx ⟨hmax, by omega⟩).imp_right ?_
        omega
      · exact Or.inr (by omega)

/-- What changes neither the window, the counter nor the outbox. -/
theorem Covered.congr {s s' : Session} {ids : List UInt32} {count : ℕ} (h : s.Covered ids count)
    (hwindow : s'.window = s.window) (houtbox : s'.outbox = s.outbox)
    (hcounter : s'.packetsSinceLastAck = s.packetsSinceLastAck) : s'.Covered ids count :=
  h.transmits (transmits_nil hwindow houtbox hcounter)

/-- An accepted id is counted, or the acknowledgement that is due starts the count
again. -/
theorem Covered.accept (target : LeftShift) {s : Session} {ids : List UInt32} {count : ℕ}
    {id : UInt32} (h : s.Covered ids count) (hcount : count < 16)
    (hnext : s.hasReceivedRemotePacket = true → id = s.remoteAcknowledgeId + 1) :
    ∃ datagrams, (s.accept target id).outbox = s.outbox ++ datagrams ∧
      (s.accept target id).Covered (ids ++ [id]) (if datagrams = [] then count + 1 else 0) ∧
      (if datagrams = [] then count + 1 else 0) < 16 := by
  have hcounted := h.updateAcknowledgeInfo target hcount hnext
  rcases Endpoint.updateAcknowledgeInfo_eq target s id with ⟨has, head, bits, history, unsent, heq⟩
  have houtbox : (s.updateAcknowledgeInfo target id).outbox = s.outbox := by
    rw [heq]
  have hcounter : (s.updateAcknowledgeInfo target id).packetsSinceLastAck =
      s.packetsSinceLastAck := by
    rw [heq]
  simp only [Session.accept, hcounter]
  split_ifs with hdue
  · rcases transmits_sendAck { s.updateAcknowledgeInfo target id with
      packetsSinceLastAck := s.packetsSinceLastAck + 1 } with ⟨datagrams, hsome, ht⟩
    refine ⟨datagrams, ?_, hcounted.transmits ht, ?_⟩
    · rw [ht.outbox, houtbox]
    · rw [if_neg hsome]
      omega
  · have hbelow : ¬ 16 ≤ (s.packetsSinceLastAck + 1).toNat := hdue
    rw [hcounted.counted] at hbelow
    refine ⟨[], ?_, ?_, ?_⟩
    · rw [houtbox, List.append_nil]
    · rw [if_pos rfl]
      exact hcounted
    · rw [if_pos rfl]
      omega

/-- The sequence ids that a call of {lit}`handleIncoming` accepts. -/
def newIds (s : Session) (d : Datagram) : List UInt32 :=
  (s.accepts d).toList.map fun x => x.header.sequenceId

/-- The id of an accepted packet is one more than the head. -/
def NextInOrder (s : Session) (d : Datagram) : Prop :=
  ∀ id ∈ s.newIds d, s.hasReceivedRemotePacket = true → id = s.remoteAcknowledgeId + 1

theorem newIds_eq {s : Session} {d : Datagram} {g : Header} (hparse : Header.parse d.bytes = .ok g) :
    s.newIds d = if s.isDuplicate g.sequenceId then [] else [g.sequenceId] := by
  simp only [newIds, accepts, hparse]
  split_ifs <;> rfl

theorem Covered.handleIncoming (target : LeftShift) {s : Session} {ids : List UInt32} {count : ℕ}
    {d : Datagram} (h : s.Covered ids count) (hcount : count < 16) (hnext : s.NextInOrder d) :
    ∃ datagrams, (s.handleIncoming target d).1.outbox = s.outbox ++ datagrams ∧
      (s.handleIncoming target d).1.Covered (ids ++ s.newIds d)
        (if datagrams = [] then count + (s.newIds d).length else 0) ∧
      (if datagrams = [] then count + (s.newIds d).length else 0) < 16 := by
  unfold Session.handleIncoming
  cases hparse : Header.parse d.bytes with
  | error e =>
      have hnone : s.newIds d = [] := by
        simp only [newIds, accepts, hparse, Option.toList_none, List.map_nil]
      rw [hnone, List.append_nil]
      exact ⟨[], (List.append_nil _).symm, h, hcount⟩
  | ok g =>
      have hids := newIds_eq (s := s) hparse
      have hdup := Endpoint.isDuplicate_acknowledge s g g.sequenceId
      rcases Endpoint.acknowledge_eq (Endpoint.seen s) g with ⟨stored, hacked, -⟩
      rw [Endpoint.seen] at hdup hacked
      simp only [hdup]
      have hheard : ({ s with lastSeen := s.clock.head, clock := s.clock.tail }.acknowledge
          g).Covered ids count := by
        rw [hacked]
        exact h.congr rfl rfl rfl
      have houtbox : ({ s with lastSeen := s.clock.head, clock := s.clock.tail }.acknowledge
          g).outbox = s.outbox := by
        rw [hacked]
      split_ifs with hold
      · rw [if_pos hold] at hids
        rw [hids, List.append_nil]
        exact ⟨[], houtbox.trans (List.append_nil _).symm, hheard.congr rfl rfl rfl, hcount⟩
      · rw [if_neg hold] at hids
        rw [NextInOrder, hids] at hnext
        rw [hids]
        have hgap : ({ s with lastSeen := s.clock.head, clock := s.clock.tail }.acknowledge
            g).hasReceivedRemotePacket = true → g.sequenceId =
              ({ s with lastSeen := s.clock.head, clock := s.clock.tail }.acknowledge
                g).remoteAcknowledgeId + 1 := by
          rw [hacked]
          exact hnext g.sequenceId (List.mem_singleton_self _)
        rcases hheard.accept target hcount hgap with ⟨datagrams, hsent, haccept, hbound⟩
        rcases deliver_frame (({ s with lastSeen := s.clock.head, clock := s.clock.tail }.acknowledge
          g).accept target g.sequenceId) g d with ⟨stored', next, buffers, hdeliver⟩
        rw [hdeliver]
        rw [houtbox] at hsent
        exact ⟨datagrams, hsent, haccept.congr rfl rfl rfl, hbound⟩

/-- Reception in order moves the head up, by one at most. -/
theorem head_handleIncoming (target : LeftShift) {s : Session} {d : Datagram}
    (hhas : s.hasReceivedRemotePacket = true) (hnext : s.NextInOrder d) :
    s.remoteAcknowledgeId.toNat ≤ (s.handleIncoming target d).1.remoteAcknowledgeId.toNat ∧
      (s.handleIncoming target d).1.remoteAcknowledgeId.toNat ≤
        s.remoteAcknowledgeId.toNat + 1 := by
  have hwindow := window_handleIncoming target s d
  cases haccepts : s.accepts d with
  | none =>
      rw [haccepts] at hwindow
      simp only [window, Prod.mk.injEq] at hwindow
      rw [hwindow.2.1]
      exact ⟨le_rfl, Nat.le_succ _⟩
  | some x =>
      have hmem : x.header.sequenceId ∈ s.newIds d := by
        rw [newIds, haccepts, Option.toList_some]
        exact List.mem_singleton_self _
      have hid := hnext _ hmem hhas
      have hidNat : x.header.sequenceId.toNat =
          (s.remoteAcknowledgeId.toNat + 1) % 2 ^ 32 := by
        rw [hid]
        exact UInt32.toNat_add _ _
      have hmod := Nat.mod_le (s.remoteAcknowledgeId.toNat + 1) (2 ^ 32)
      rw [haccepts] at hwindow
      simp only [window, Prod.mk.injEq] at hwindow
      rw [hwindow.2.1]
      by_cases hgt : s.remoteAcknowledgeId < x.header.sequenceId
      · have hgt' : s.remoteAcknowledgeId.toNat < x.header.sequenceId.toNat := hgt
        rw [head_updateAcknowledgeInfo_of_gt target hgt]
        omega
      · rw [head_updateAcknowledgeInfo_of_le target hhas hgt]
        exact ⟨le_rfl, Nat.le_succ _⟩

end Session

/-! ## Runs -/

/-- An endpoint, with the number of packets it has accepted since it last emitted a
datagram. -/
structure Tally where
  endpoint : Endpoint
  accepted : ℕ := 0

namespace Tally

/-- The effect of a call. -/
def step (target : LeftShift) (t : Tally) (a : Action) : Tally :=
  let endpoint := t.endpoint.step target a
  { endpoint
    accepted :=
      if t.endpoint.session.outbox.length < endpoint.session.outbox.length then 0
      else t.accepted + (endpoint.accepted.length - t.endpoint.accepted.length) }

@[simp]
theorem endpoint_step (target : LeftShift) (t : Tally) (a : Action) :
    (t.step target a).endpoint = t.endpoint.step target a := rfl

/-- The id of a packet that the call accepts is one more than the head. -/
def InOrder (t : Tally) : Action → Prop
  | .receive d => t.endpoint.session.NextInOrder d
  | .send _ => True
  | .update => True
  | .disconnect => True

/-- The states of the sessions that accept their ids in order. -/
abbrev Run (target : LeftShift) : Tally → Prop :=
  Reachable (fun t => ∃ self clock, t = { endpoint := .new self clock }) (step target) InOrder

variable {target : LeftShift} {t : Tally}

/-- The count after a call, told from what the call has emitted. -/
theorem accepted_step {a : Action} {datagrams : List Datagram} {ids : List UInt32}
    (houtbox : (t.endpoint.step target a).session.outbox =
      t.endpoint.session.outbox ++ datagrams)
    (hids : (t.endpoint.step target a).acceptedIds = t.endpoint.acceptedIds ++ ids) :
    (t.step target a).accepted = if datagrams = [] then t.accepted + ids.length else 0 := by
  have hlength := congrArg List.length hids
  rw [List.length_append, Endpoint.acceptedIds, Endpoint.acceptedIds, List.length_map,
    List.length_map] at hlength
  simp only [step, houtbox, hlength, List.length_append, Nat.add_sub_cancel_left]
  by_cases hnil : datagrams = []
  · rw [if_pos hnil, hnil, List.length_nil, if_neg (by omega)]
  · have hpos := List.length_pos_of_ne_nil hnil
    rw [if_neg hnil, if_pos (by omega)]

/-- The session is covered, and the count is below the threshold. -/
def Safe (t : Tally) : Prop :=
  t.endpoint.session.Covered t.endpoint.acceptedIds t.accepted ∧ t.accepted < 16

/-- A call that accepts nothing keeps the count or starts it again. -/
theorem Safe.transmits (h : t.Safe) {a : Action} {datagrams : List Datagram}
    (hids : (t.endpoint.step target a).acceptedIds = t.endpoint.acceptedIds)
    (ht : Session.Transmits t.endpoint.session (t.endpoint.step target a).session datagrams) :
    (t.step target a).Safe := by
  have hnone : (t.endpoint.step target a).acceptedIds = t.endpoint.acceptedIds ++ [] := by
    rw [hids, List.append_nil]
  have hcount := accepted_step ht.outbox hnone
  rw [List.length_nil, Nat.add_zero] at hcount
  constructor
  · rw [hcount]
    change (t.endpoint.step target a).session.Covered
      (t.endpoint.step target a).acceptedIds _
    rw [hids]
    exact h.1.transmits ht
  · rw [hcount]
    split_ifs
    · exact h.2
    · exact Nat.zero_lt_succ _

theorem Safe.step (h : t.Safe) {a : Action} (ha : t.InOrder a) : (t.step target a).Safe := by
  cases a with
  | send p =>
      rcases t.endpoint.session.transmits_send p with ⟨d, hd⟩
      exact h.transmits rfl hd
  | update =>
      rcases t.endpoint.session.transmits_update with ⟨datagrams, ht⟩
      exact h.transmits rfl ht
  | disconnect => exact h.transmits rfl (Session.transmits_nil rfl rfl rfl)
  | receive d =>
      rcases h.1.handleIncoming target h.2 ha with ⟨datagrams, houtbox, hcovered, hbound⟩
      have hids : (t.endpoint.step target (.receive d)).acceptedIds =
          t.endpoint.acceptedIds ++ t.endpoint.session.newIds d := List.map_append
      have hcount := accepted_step (a := .receive d) houtbox hids
      constructor
      · rw [hcount]
        change (t.endpoint.step target (.receive d)).session.Covered
          (t.endpoint.step target (.receive d)).acceptedIds _
        rw [hids]
        exact hcovered
      · rw [hcount]
        exact hbound

theorem Run.safe (h : Run target t) : t.Safe := by
  induction h with
  | start hstart =>
      rcases hstart with ⟨self, clock, rfl⟩
      exact ⟨Session.covered_new self clock, Nat.zero_lt_succ _⟩
  | next _ ha ih => exact ih.step ha

/-- A call in order moves the head up, by one at most. -/
theorem head_step (target : LeftShift) {a : Action} (ha : t.InOrder a)
    (hhas : t.endpoint.session.hasReceivedRemotePacket = true) :
    t.endpoint.session.remoteAcknowledgeId.toNat ≤
        (t.endpoint.step target a).session.remoteAcknowledgeId.toNat ∧
      (t.endpoint.step target a).session.remoteAcknowledgeId.toNat ≤
        t.endpoint.session.remoteAcknowledgeId.toNat + 1 := by
  have hsame : ∀ s' : Session, s'.window = t.endpoint.session.window →
      t.endpoint.session.remoteAcknowledgeId.toNat ≤ s'.remoteAcknowledgeId.toNat ∧
        s'.remoteAcknowledgeId.toNat ≤ t.endpoint.session.remoteAcknowledgeId.toNat + 1 := by
    intro s' hwindow
    simp only [Session.window, Prod.mk.injEq] at hwindow
    rw [hwindow.2.1]
    exact ⟨le_rfl, Nat.le_succ _⟩
  cases a with
  | send p => exact hsame _ (t.endpoint.session.window_send p)
  | update => exact hsame _ t.endpoint.session.window_update
  | disconnect => exact hsame _ rfl
  | receive d => exact Session.head_handleIncoming target hhas ha

/-- While the ids come in order, fewer packets than the threshold were accepted since the
last datagram, and an accepted id that the next call pushes out of the window was reported
by a datagram before. -/
theorem threshold_covers_window (h : Run target t) :
    t.accepted < ACK_PACKET_THRESHOLD.toNat ∧
      ∀ a, t.InOrder a → ∀ id ∈ t.endpoint.acceptedIds,
        t.endpoint.session.InWindow id → ¬ (t.step target a).endpoint.session.InWindow id →
        ∃ d ∈ t.endpoint.session.outbox, ReportedBy d id := by
  rcases h.safe with ⟨hcovered, hcount⟩
  refine ⟨hcount, ?_⟩
  intro a ha id hid hin hout
  rcases hcovered.tracks with ⟨hnone, -⟩ | hexact
  · rw [hnone] at hid
    cases hid
  · have hhead := head_step target ha hexact.1
    apply (hcovered.reported id hid hin).resolve_right
    intro hlate
    apply hout
    change id.toNat ≤ (t.endpoint.step target a).session.remoteAcknowledgeId.toNat ∧
      (t.endpoint.step target a).session.remoteAcknowledgeId.toNat ≤ id.toNat + 32
    rcases hin with ⟨hle, -⟩
    omega

/-! ## A window that fills up -/

/-- A fresh session after the packets up to number `n`, in order. -/
def afterPlain (target : LeftShift) (self : ℕ) (clock : Stream' Time) (n : ℕ) : Tally :=
  (List.range (n + 1)).foldl (fun t k => t.step target (.receive (Link.plainDatagram k)))
    { endpoint := .new self clock }

theorem afterPlain_endpoint (target : LeftShift) (self : ℕ) (clock : Stream' Time) (n : ℕ) :
    (afterPlain target self clock n).endpoint =
      Link.arriveAll target (.new self clock) (List.range (n + 1)) := by
  have hfold : ∀ (ks : List ℕ) (t : Tally),
      (ks.foldl (fun t k => t.step target (.receive (Link.plainDatagram k))) t).endpoint =
        Link.arriveAll target t.endpoint ks := by
    intro ks
    induction ks with
    | nil => exact fun _ => rfl
    | cons k ks ih =>
        intro t
        rw [List.foldl_cons, ih, endpoint_step, Link.arriveAll, Link.arriveAll, List.foldl_cons]
  exact hfold _ _

theorem afterPlain_succ (target : LeftShift) (self : ℕ) (clock : Stream' Time) (n : ℕ) :
    afterPlain target self clock (n + 1) =
      (afterPlain target self clock n).step target (.receive (Link.plainDatagram (n + 1))) := by
  rw [afterPlain, List.range_succ, List.foldl_append, List.foldl_cons, List.foldl_nil]
  rfl

/-- The next packet is in order. -/
theorem inOrder_plain (target : LeftShift) (self : ℕ) (clock : Stream' Time) {n : ℕ}
    (hn : n < 2 ^ 32) :
    (afterPlain target self clock n).InOrder (.receive (Link.plainDatagram (n + 1))) := by
  have horder := Link.inOrder_arriveAll target self clock hn
  rw [← afterPlain_endpoint] at horder
  intro id hid _
  rw [Session.newIds_eq (Link.parse_plainDatagram (n + 1))] at hid
  split_ifs at hid
  · cases hid
  · rw [List.mem_singleton.mp hid, horder.head]
    exact Session.ofNat_succ n

theorem run_afterPlain (target : LeftShift) (self : ℕ) (clock : Stream' Time) {n : ℕ}
    (hn : n < 2 ^ 32) : Run target (afterPlain target self clock n) := by
  induction n with
  | zero =>
      have hfirst : InOrder { endpoint := .new self clock } (.receive (Link.plainDatagram 0)) := by
        intro id _ hhas
        cases hhas
      exact Reachable.next (.start ⟨self, clock, rfl⟩) hfirst
  | succ n ih =>
      rw [afterPlain_succ]
      exact (ih (by omega)).next (inOrder_plain target self clock (by omega))

/-- After the packets up to number `m`, the first id is in the window exactly when `m` is at
most its width. -/
theorem inWindow_afterPlain_iff (target : LeftShift) (self : ℕ) (clock : Stream' Time) {m : ℕ}
    (hm : m < 2 ^ 32) : (afterPlain target self clock m).endpoint.session.InWindow 0 ↔ m ≤ 32 := by
  have horder := Link.inOrder_arriveAll target self clock hm
  rw [← afterPlain_endpoint] at horder
  have hzero : (0 : UInt32).toNat = 0 := rfl
  rw [Session.InWindow, horder.head, Session.toNat_ofNat_lt hm, hzero, Nat.zero_add]
  exact and_iff_right (Nat.zero_le m)

theorem zero_mem_afterPlain (target : LeftShift) (self : ℕ) (clock : Stream' Time) {m : ℕ}
    (hm : m < 2 ^ 32) : 0 ∈ (afterPlain target self clock m).endpoint.acceptedIds := by
  rw [afterPlain_endpoint, Link.acceptedIds_arriveAll target self clock hm]
  exact List.mem_map.mpr ⟨0, List.mem_range.mpr (Nat.succ_pos m), rfl⟩

/-- The packet after number 32 pushes the first id out of the window. -/
theorem not_inWindow_step (target : LeftShift) (self : ℕ) (clock : Stream' Time) {m : ℕ}
    (hm : m + 1 < 2 ^ 32) (hfull : 32 ≤ m) :
    ¬ ((afterPlain target self clock m).step target
      (.receive (Link.plainDatagram (m + 1)))).endpoint.session.InWindow 0 := by
  rw [← afterPlain_succ, inWindow_afterPlain_iff target self clock hm]
  omega

/-- The packets up to number 32 fill the window, and number 33 pushes the first id out:
by then a datagram has reported it. -/
theorem first_id_reported :
    ∃ d ∈ (afterPlain .x86 1 (Stream'.const 0) 32).endpoint.session.outbox, ReportedBy d 0 :=
  (threshold_covers_window (run_afterPlain .x86 1 (Stream'.const 0) (by decide))).2
    (.receive (Link.plainDatagram (32 + 1))) (inOrder_plain .x86 1 (Stream'.const 0) (by decide))
    0 (zero_mem_afterPlain .x86 1 (Stream'.const 0) (by decide))
    ((inWindow_afterPlain_iff .x86 1 (Stream'.const 0) (by decide)).mpr (by decide))
    (not_inWindow_step .x86 1 (Stream'.const 0) (by decide) (by decide))

end Tally

end Rtype.Rtnt
