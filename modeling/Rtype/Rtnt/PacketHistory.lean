import Rtype.Rtnt.ExplicitAcks

/-!
# rtnt - The size of the packet history

Ids that leave the receive window enter the packet history, so that a late copy of them
is recognized.  The history has a maximum size, and only the branch for late arrivals
keeps to it: a move of the window appends what it pushes out and drops nothing.

Main results:

- Theorem {lit}`Session.window_handleIncoming`: what reception does to the window and to
  the history.
- Theorem {lit}`Session.length_history_advanceWindow`: a move adds one id for each
  reported id that it pushes out.
- Theorem {lit}`Endpoint.history_bounded_iff`: the runs throughout which the history keeps
  to its maximum size.
- Theorem {lit}`Link.inOrder_arriveAll`: the window and the history after packets that
  arrive in order.

Current gaps:

- None.
-/

namespace Rtype.Rtnt

open Transition

namespace Session

/-! ## Calls and the window -/

/-- What a call of {lit}`updateAcknowledgeInfo` does to the window depends on the window
only. -/
theorem window_updateAcknowledgeInfo_congr (target : LeftShift) {s s' : Session}
    (h : s'.window = s.window) (id : UInt32) :
    (s'.updateAcknowledgeInfo target id).window = (s.updateAcknowledgeInfo target id).window := by
  simp only [window, Prod.mk.injEq] at h
  rcases h with ⟨hhas, hhead, hbits, hhistory⟩
  simp only [updateAcknowledgeInfo, advanceWindow, recordLate, hhas, hhead, hbits, hhistory]
  split_ifs <;> simp only [window, hhas, hhead, hbits, hhistory]

/-- Reception moves the window for the id of an accepted packet, and for nothing else. -/
theorem window_handleIncoming (target : LeftShift) (s : Session) (d : Datagram) :
    (s.handleIncoming target d).1.window =
      match s.accepts d with
      | none => s.window
      | some x => (s.updateAcknowledgeInfo target x.header.sequenceId).window := by
  unfold handleIncoming accepts
  cases Header.parse d.bytes with
  | error e => rfl
  | ok h =>
      have hdup := Endpoint.isDuplicate_acknowledge s h h.sequenceId
      rcases Endpoint.acknowledge_eq (Endpoint.seen s) h with ⟨stored, hacked, -⟩
      rw [Endpoint.seen] at hdup hacked
      simp only [hdup]
      split_ifs with hold
      · simp only [hacked]
        rfl
      · rcases deliver_frame (({ s with lastSeen := s.clock.head, clock := s.clock.tail }.acknowledge
          h).accept target h.sequenceId) h d with ⟨stored', next, buffers, hdeliver⟩
        rw [hdeliver]
        have hframe : ({ s with lastSeen := s.clock.head, clock := s.clock.tail }.acknowledge
            h).window = s.window := by
          rw [hacked]
          rfl
        exact (window_accept target _ _).trans
          (window_updateAcknowledgeInfo_congr target hframe h.sequenceId)

theorem window_resendExpired (now : Time) (entries : List (UInt32 × SentPacketInfo))
    (s : Session) : (resendExpired now entries s).1.window = s.window := by
  induction entries generalizing s with
  | nil => rfl
  | cons entry rest ih =>
      unfold resendExpired
      split_ifs
      · rfl
      · exact ih _
      · exact ih s

theorem window_update (s : Session) : s.update.window = s.window := by
  have hpass := window_resendExpired s.clock.head s.sentPackets.toList
    { s with clock := s.clock.tail }
  unfold update
  simp only
  generalize resendExpired _ _ _ = pass at hpass ⊢
  rcases pass with ⟨s', gaveUp⟩
  cases gaveUp with
  | true => exact hpass
  | false =>
      simp only
      split_ifs
      · exact (window_sendAck s').trans hpass
      · exact hpass

theorem window_send (s : Session) (p : Packet) : (s.send p).window = s.window := by
  unfold send
  simp only
  split_ifs <;> rfl

/-- An id beyond the head becomes the head. -/
theorem head_updateAcknowledgeInfo_of_gt (target : LeftShift) {s : Session} {id : UInt32}
    (hid : s.remoteAcknowledgeId < id) :
    (s.updateAcknowledgeInfo target id).remoteAcknowledgeId = id := by
  by_cases hhas : s.hasReceivedRemotePacket = true
  · simp only [updateAcknowledgeInfo, hhas, Bool.not_true, Bool.false_eq_true, if_false,
      if_pos hid, advanceWindow]
    split_ifs <;> rfl
  · rw [Bool.not_eq_true] at hhas
    simp only [updateAcknowledgeInfo, hhas, Bool.not_false, if_true]

/-- The first id becomes the head. -/
theorem head_updateAcknowledgeInfo_first (target : LeftShift) {s : Session} {id : UInt32}
    (hhas : s.hasReceivedRemotePacket = false) :
    (s.updateAcknowledgeInfo target id).remoteAcknowledgeId = id := by
  simp only [updateAcknowledgeInfo, hhas, Bool.not_false, if_true]

/-- An id that is not beyond the head leaves the head alone. -/
theorem head_updateAcknowledgeInfo_of_le (target : LeftShift) {s : Session} {id : UInt32}
    (hhas : s.hasReceivedRemotePacket = true) (hid : ¬ s.remoteAcknowledgeId < id) :
    (s.updateAcknowledgeInfo target id).remoteAcknowledgeId = s.remoteAcknowledgeId := by
  simp only [updateAcknowledgeInfo, hhas, Bool.not_true, Bool.false_eq_true, if_false,
    if_neg hid, recordLate]
  split_ifs <;> rfl

theorem received_updateAcknowledgeInfo (target : LeftShift) (s : Session) (id : UInt32) :
    (s.updateAcknowledgeInfo target id).hasReceivedRemotePacket = true :=
  (isDuplicate_iff.mp (isDuplicate_self target s id)).1

theorem or_and_self (flag mask : Flag) : (flag ||| mask) &&& mask = mask := by
  rw [← UInt8.toBitVec_inj, UInt8.toBitVec_and, UInt8.toBitVec_or]
  ext i hi
  rw [BitVec.getElem_and, BitVec.getElem_or]
  cases flag.toBitVec[i] <;> simp

/-- Once a packet was received, every header reports the whole window. -/
theorem headerAcks_header_eq {s : Session} (hhas : s.hasReceivedRemotePacket = true) (p : Packet)
    (sequenceId orderId : UInt32) :
    Endpoint.headerAcks (s.header p sequenceId orderId) =
      s.remoteAcknowledgeId :: windowIds s.remoteAcknowledgeId s.remoteAcknowledgeBitfield 0 := by
  have hflag : ((p.flag ||| Flag.kHasAck) &&& Flag.kHasAck != 0) = true := by
    rw [or_and_self]
    rfl
  simp only [Endpoint.headerAcks, header, hhas, if_true, hflag]

/-! ## What a move pushes out -/

/-- The distances below the head of the reported ids that a move to the id pushes out of
the window: more than 32 below the new head. -/
def leaving (s : Session) (id : UInt32) : List ℕ :=
  (List.range 33).filter fun distance =>
    (distance == 0 || hasBit s.remoteAcknowledgeBitfield (distance - 1)) &&
      decide (32 < distance + (id.toNat - s.remoteAcknowledgeId.toNat))

/-- The bits that a loop from bit `first` on finds set. -/
theorem length_windowIds (head bitfield : UInt32) {first : ℕ} (hfirst : first ≤ 32) :
    (windowIds head bitfield first).length =
      ((List.range 32).filter fun i => hasBit bitfield i && decide (first ≤ i)).length := by
  have hsplit : List.range 32 = List.range first ++ List.range' first (32 - first) := by
    have happend : List.range' 0 first ++ List.range' (0 + first) (32 - first) =
        List.range' 0 (first + (32 - first)) := List.range'_append_1
    rw [Nat.zero_add, Nat.add_sub_cancel' hfirst] at happend
    rw [List.range_eq_range', List.range_eq_range', happend]
  have hlow : (List.range first).filter (fun i => hasBit bitfield i && decide (first ≤ i)) = [] := by
    apply List.filter_eq_nil_iff.mpr
    intro i hi
    have hlt := List.mem_range.mp hi
    simp only [Bool.and_eq_true, decide_eq_true_eq, not_and]
    omega
  have hhigh : (List.range' first (32 - first)).filter
      (fun i => hasBit bitfield i && decide (first ≤ i)) =
        (List.range' first (32 - first)).filter (hasBit bitfield) := by
    apply List.filter_congr
    intro i hi
    have hge := (List.mem_range'_1.mp hi).1
    rw [decide_eq_true hge, Bool.and_true]
  have hmap : ∀ is : List ℕ, (is.filterMap fun i =>
      if hasBit bitfield i then some (head - (UInt32.ofNat i + 1)) else none).length =
        (is.filter (hasBit bitfield)).length := by
    intro is
    induction is with
    | nil => rfl
    | cons i is ih =>
        rw [List.filterMap_cons, List.filter_cons]
        split_ifs
        · simp only [List.length_cons, ih]
        · exact ih
  rw [hsplit, List.filter_append, hlow, List.nil_append, hhigh, ← hmap]
  rfl

/-- The head leaves when the move is longer than the window, and a bit when its position
is pushed past the end. -/
theorem length_leaving {s : Session} {id : UInt32} :
    (s.leaving id).length =
      (if 32 < id.toNat - s.remoteAcknowledgeId.toNat then 1 else 0) +
        ((List.range 32).filter fun i => hasBit s.remoteAcknowledgeBitfield i &&
          decide (32 - (id.toNat - s.remoteAcknowledgeId.toNat) ≤ i)).length := by
  have hrange : List.range 33 = 0 :: (List.range 32).map Nat.succ := List.range_succ_eq_map
  have hbits : ((List.range 32).map Nat.succ).filter (fun distance =>
      (distance == 0 || hasBit s.remoteAcknowledgeBitfield (distance - 1)) &&
        decide (32 < distance + (id.toNat - s.remoteAcknowledgeId.toNat))) =
      ((List.range 32).filter fun i => hasBit s.remoteAcknowledgeBitfield i &&
        decide (32 - (id.toNat - s.remoteAcknowledgeId.toNat) ≤ i)).map Nat.succ := by
    rw [List.filter_map]
    apply congrArg (List.map Nat.succ)
    apply List.filter_congr
    intro i _
    simp only [Function.comp_apply, Nat.succ_eq_add_one, Nat.add_sub_cancel]
    have hsame : 32 < i + 1 + (id.toNat - s.remoteAcknowledgeId.toNat) ↔
        32 - (id.toNat - s.remoteAcknowledgeId.toNat) ≤ i := by omega
    simp [hsame]
  rw [leaving, hrange, List.filter_cons, hbits]
  simp only [beq_self_eq_true, Bool.true_or, Bool.true_and, Nat.zero_add, decide_eq_true_eq]
  split_ifs
  · rw [List.length_cons, List.length_map]
    omega
  · rw [List.length_map]
    omega

/-- A move adds one id to the history for each id that it pushes out. -/
theorem length_history_advanceWindow (target : LeftShift) {s : Session} {id : UInt32}
    (hid : s.remoteAcknowledgeId < id) :
    (s.advanceWindow target id).oldPacketHistory.length =
      s.oldPacketHistory.length + (s.leaving id).length := by
  have hdist := toNat_distance hid
  rw [length_leaving, ← hdist]
  simp only [advanceWindow]
  split_ifs with hfar hfar' hfar'
  · have hzero : 32 - (id - s.remoteAcknowledgeId).toNat = 0 := by omega
    rw [List.length_append, List.length_append, List.length_singleton, hzero,
      length_windowIds _ _ (Nat.zero_le 32)]
    omega
  · exact absurd hfar hfar'
  · exact absurd hfar' hfar
  · rw [List.length_append, length_windowIds _ _ (by omega), Nat.zero_add]

/-- A late id leaves a history that keeps to its size within it. -/
theorem length_history_recordLate {s : Session} {id : UInt32}
    (hs : s.oldPacketHistory.length ≤ MAX_PACKET_HISTORY_SIZE) :
    (s.recordLate id).oldPacketHistory.length ≤ MAX_PACKET_HISTORY_SIZE := by
  simp only [recordLate]
  split_ifs with hnear hold hfull
  · exact hs
  · exact hs
  · rw [List.length_tail, List.length_append, List.length_singleton]
    exact hs
  · exact Nat.le_of_not_lt hfull

/-- The history keeps to its maximum size. -/
def HistoryBounded (s : Session) : Prop :=
  s.oldPacketHistory.length ≤ MAX_PACKET_HISTORY_SIZE

/-- When the id moves the window, the history has room for the ids pushed out of it. -/
def HasRoom (s : Session) (id : UInt32) : Prop :=
  s.hasReceivedRemotePacket = true → s.remoteAcknowledgeId < id →
    s.oldPacketHistory.length + (s.leaving id).length ≤ MAX_PACKET_HISTORY_SIZE

/-- A call keeps the bound exactly when there is room for what it pushes out. -/
theorem historyBounded_updateAcknowledgeInfo_iff (target : LeftShift) {s : Session} {id : UInt32}
    (hs : s.HistoryBounded) :
    (s.updateAcknowledgeInfo target id).HistoryBounded ↔ s.HasRoom id := by
  unfold HistoryBounded HasRoom
  by_cases hhas : s.hasReceivedRemotePacket = true
  · simp only [updateAcknowledgeInfo, hhas, Bool.not_true, Bool.false_eq_true, if_false,
      true_implies]
    split_ifs with hgt hlt
    · rw [length_history_advanceWindow target hgt]
      exact ⟨fun h _ => h, fun h => h hgt⟩
    · exact iff_of_true (length_history_recordLate hs) fun h => absurd h hgt
    · exact iff_of_true hs fun h => absurd h hgt
  · rw [Bool.not_eq_true] at hhas
    simp only [updateAcknowledgeInfo, hhas, Bool.not_false, if_true, Bool.false_eq_true,
      false_implies, iff_true]
    exact hs

theorem historyBounded_of_window {s s' : Session} (h : s'.window = s.window) :
    s'.HistoryBounded ↔ s.HistoryBounded := by
  simp only [window, Prod.mk.injEq] at h
  rw [HistoryBounded, HistoryBounded, h.2.2.2]

end Session

namespace Endpoint

/-! ## Runs -/

/-- The call accepts no packet, or the history has room for what its id pushes out. -/
def HasRoom (e : Endpoint) : Action → Prop
  | .receive d => ∀ x, e.session.accepts d = some x → e.session.HasRoom x.header.sequenceId
  | .send _ => True
  | .update => True
  | .disconnect => True

theorem step_historyBounded_iff (target : LeftShift) (e : Endpoint) (a : Action)
    (he : e.session.HistoryBounded) :
    (e.step target a).session.HistoryBounded ↔ e.HasRoom a := by
  cases a with
  | send p =>
      exact iff_of_true ((Session.historyBounded_of_window (e.session.window_send p)).mpr he)
        trivial
  | update =>
      exact iff_of_true ((Session.historyBounded_of_window e.session.window_update).mpr he)
        trivial
  | disconnect => exact iff_of_true he trivial
  | receive d =>
      have hwindow := Session.window_handleIncoming target e.session d
      change (e.session.handleIncoming target d).1.HistoryBounded ↔
        ∀ x, e.session.accepts d = some x → e.session.HasRoom x.header.sequenceId
      cases haccepts : e.session.accepts d with
      | none =>
          rw [haccepts] at hwindow
          refine iff_of_true ((Session.historyBounded_of_window hwindow).mpr he) ?_
          intro x hx
          cases hx
      | some x =>
          rw [haccepts] at hwindow
          rw [Session.historyBounded_of_window hwindow,
            Session.historyBounded_updateAcknowledgeInfo_iff target he]
          constructor
          · intro hroom y hy
            rw [← Option.some.inj hy]
            exact hroom
          · intro hroom
            exact hroom x rfl

/-- The history keeps to its maximum size throughout a run exactly when it has room
whenever a packet moves the window. -/
theorem history_bounded_iff (target : LeftShift) (self : ℕ) (clock : Stream' Time)
    (actions : List Action) :
    Throughout (step target) (fun e => e.session.HistoryBounded) (new self clock) actions ↔
      AllowedRun (step target) HasRoom (new self clock) actions :=
  throughout_iff (step_historyBounded_iff target) (Nat.zero_le _) actions

end Endpoint

/-! ## Packets in order -/

namespace Session

/-- The window and the history of a session that has accepted the ids up to `n`, in
order and without a gap. -/
structure InOrderTo (s : Session) (n : ℕ) : Prop where
  received : s.hasReceivedRemotePacket = true
  head : s.remoteAcknowledgeId = UInt32.ofNat n
  bits : ∀ i < 32, hasBit s.remoteAcknowledgeBitfield i = true ↔ i + 1 ≤ n
  history : s.oldPacketHistory = (List.range (n - 32)).map UInt32.ofNat

theorem InOrderTo.of_window {s s' : Session} {n : ℕ} (h : s.InOrderTo n)
    (hwindow : s'.window = s.window) : s'.InOrderTo n := by
  simp only [window, Prod.mk.injEq] at hwindow
  rcases hwindow with ⟨hhas, hhead, hbits, hhistory⟩
  constructor
  · rw [hhas, h.received]
  · rw [hhead, h.head]
  · rw [hbits]
    exact h.bits
  · rw [hhistory, h.history]

theorem toNat_ofNat_lt {n : ℕ} (hn : n < 2 ^ 32) : (UInt32.ofNat n).toNat = n := by
  rw [UInt32.toNat_ofNat', Nat.mod_eq_of_lt hn]

/-- The loop over the last bit finds the id that is 32 below the head. -/
theorem InOrderTo.windowIds_last {s : Session} {n : ℕ} (h : s.InOrderTo n) (hn : n < 2 ^ 32) :
    windowIds s.remoteAcknowledgeId s.remoteAcknowledgeBitfield 31 =
      if 32 ≤ n then [UInt32.ofNat (n - 32)] else [] := by
  have hlast : windowIds s.remoteAcknowledgeId s.remoteAcknowledgeBitfield 31 =
      if hasBit s.remoteAcknowledgeBitfield 31 then
        [s.remoteAcknowledgeId - (UInt32.ofNat 31 + 1)] else [] := by
    simp only [windowIds, List.range'_one, Nat.reduceSub, List.filterMap_cons, List.filterMap_nil]
    split_ifs <;> rfl
  rw [hlast]
  have hbit := h.bits 31 (by omega)
  by_cases hfull : 32 ≤ n
  · rw [if_pos (hbit.mpr hfull), if_pos hfull]
    apply congrArg (fun id => [id])
    apply sub_ofNat_add_one
    rw [h.head, toNat_ofNat_lt hn, toNat_ofNat_lt (by omega)]
    omega
  · rw [if_neg (fun hset => hfull (hbit.mp hset)), if_neg hfull]

/-- The next id is fresh, and the window moves by one. -/
theorem InOrderTo.next (target : LeftShift) {s : Session} {n : ℕ} (h : s.InOrderTo n)
    (hn : n + 1 < 2 ^ 32) :
    s.isDuplicate (UInt32.ofNat (n + 1)) = false ∧
      (s.updateAcknowledgeInfo target (UInt32.ofNat (n + 1))).InOrderTo (n + 1) := by
  have hheadNat : s.remoteAcknowledgeId.toNat = n := by
    rw [h.head, toNat_ofNat_lt (by omega)]
  have hidNat : (UInt32.ofNat (n + 1)).toNat = n + 1 := toNat_ofNat_lt hn
  have hgt : s.remoteAcknowledgeId < UInt32.ofNat (n + 1) := by
    rw [UInt32.lt_iff_toNat_lt, hheadNat, hidNat]
    omega
  have hshift : UInt32.ofNat (n + 1) - s.remoteAcknowledgeId = 1 := by
    apply UInt32.toNat_inj.mp
    rw [toNat_distance hgt, hheadNat, hidNat, Nat.add_sub_cancel_left]
    rfl
  constructor
  · rw [← Bool.not_eq_true, isDuplicate_iff]
    rintro ⟨-, heq | ⟨i, -, hsum, -⟩ | ⟨hfar, -⟩⟩
    · rw [heq] at hgt
      exact absurd hgt (UInt32.lt_irrefl _)
    · omega
    · omega
  · have hnear : ¬ (1 : UInt32) > 32 := by decide
    have hfirst : 32 - (1 : UInt32).toNat = 31 := rfl
    simp only [updateAcknowledgeInfo, h.received, Bool.not_true, Bool.false_eq_true, if_false,
      if_pos hgt, advanceWindow, hshift, if_neg hnear, hfirst, h.windowIds_last (by omega)]
    constructor
    · rfl
    · rfl
    · intro i hi
      have hone : (1 : UInt32).toNat = 1 := rfl
      rw [hasBit_or _ _ hi, hasBit_mark (n := 1) (by decide) (by decide) hi,
        target.shl_eq _ 1 (by decide), hasBit_shiftLeft _ 1 (by decide) hi, hone]
      by_cases hzero : i = 0
      · simp [hzero]
      · have hprev := h.bits (i - 1) (by omega)
        have hpos : 1 ≤ i := by omega
        have hsame : i - 1 + 1 ≤ n ↔ i + 1 ≤ n + 1 := by omega
        simp only [hpos, decide_true, Bool.true_and, Bool.or_eq_true, decide_eq_true_eq]
        rw [hprev, hsame]
        constructor
        · rintro (hle | heq)
          · exact hle
          · omega
        · exact Or.inl
    · simp only [h.history]
      by_cases hfull : 32 ≤ n
      · rw [if_pos hfull, Nat.sub_add_comm hfull, List.range_succ, List.map_append,
          List.map_singleton]
      · have hnone : n + 1 - 32 = 0 := by omega
        have hnone' : n - 32 = 0 := by omega
        rw [if_neg hfull, hnone, hnone', List.append_nil]

end Session

namespace Link

/-- The window of a fresh session after the packets up to number `n`, in order. -/
theorem inOrder_arriveAll (target : LeftShift) (self : ℕ) (clock : Stream' Time) {n : ℕ}
    (hn : n < 2 ^ 32) :
    (arriveAll target (.new self clock) (List.range (n + 1))).session.InOrderTo n := by
  induction n with
  | zero =>
      have hstep := step_receive_plain target (e := .new self clock) (k := 0) rfl
      refine Session.InOrderTo.of_window ?_ hstep.1
      constructor
      · rfl
      · rfl
      · intro i _
        refine iff_of_false ?_ (by omega)
        exact Bool.eq_false_iff.mp (hasBit_zero i)
      · rfl
  | succ n ih =>
      have hprev := ih (by omega)
      rcases hprev.next target hn with ⟨hfresh, hnext⟩
      have hstep := step_receive_plain target hfresh
      rw [List.range_succ, arriveAll_append, arriveAll_singleton]
      refine hnext.of_window (hstep.1.trans ?_)
      exact Session.window_updateAcknowledgeInfo_congr target (window_seen _) _

/-- When the history keeps to its size while the packets up to number `n` arrive in
order, `n` is at most its size and the width of the window. -/
theorem le_of_historyBounded (target : LeftShift) (self : ℕ) (clock : Stream' Time) {n : ℕ}
    (hn : n < 2 ^ 32)
    (h : Throughout (Endpoint.step target) (fun e => e.session.HistoryBounded)
      (.new self clock) ((List.range (n + 1)).map fun k => .receive (plainDatagram k))) :
    n ≤ MAX_PACKET_HISTORY_SIZE + 32 := by
  have hlast := h.last
  rw [List.foldl_map] at hlast
  have horder := inOrder_arriveAll target self clock hn
  rw [arriveAll] at horder
  rw [Session.HistoryBounded, horder.history, List.length_map, List.length_range] at hlast
  omega

/-- After the packets up to number 32801, which arrive in order, the history has one id
more than it may have. -/
theorem history_unbounded :
    ¬ ∀ (target : LeftShift) (self : ℕ) (clock : Stream' Time) (actions : List Action),
      Throughout (Endpoint.step target) (fun e => e.session.HistoryBounded)
        (.new self clock) actions := by
  intro hall
  have hle : ∀ n < 2 ^ 32, n ≤ MAX_PACKET_HISTORY_SIZE + 32 := fun n hn =>
    le_of_historyBounded .x86 1 (Stream'.const 0) hn (hall .x86 1 (Stream'.const 0) _)
  exact absurd (hle 32801 (by decide)) (by decide)

end Link

end Rtype.Rtnt
