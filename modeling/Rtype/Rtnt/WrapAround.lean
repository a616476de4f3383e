import Rtype.Rtnt.Fidelity
import Rtype.Rtnt.PacketHistory

/-!
# rtnt - Sequence ids at the end of their range

A sender numbers its datagrams with 32 bits and goes on with 0 after the last number.  A
receiver decides what is new by comparing the numbers themselves.  This file follows the
head of the receive window through datagrams in order: it follows them up to the last
number, and then stays there for good.

Main results:

- Theorem {lit}`Session.numberedFrom_sendAll`: a sender numbers its datagrams one after
  another, and goes on with 0 after the last number.
- Theorem {lit}`Endpoint.Run.head_of_consecutive`: after ids in order the head is the last
  one.
- Theorem {lit}`Session.follows_of_below`: before the end of the range a receiver follows
  any number of datagrams in order.
- Theorem {lit}`Endpoint.follows_after_last_iff`: after the last number it follows none.

Current gaps:

- None.
-/

namespace Rtype.Rtnt

open Transition

/-- The last sequence id of the range. -/
def lastSequenceId : UInt32 := 4294967295

theorem toNat_lastSequenceId : lastSequenceId.toNat = 2 ^ 32 - 1 := rfl

/-- The ids are in order and without a gap. -/
def Consecutive (ids : List UInt32) : Prop :=
  ids.IsChain fun a b => b.toNat = a.toNat + 1

/-- The datagrams have consecutive sequence ids from the given number on, modulo the
range. -/
def NumberedFrom : ℕ → List Datagram → Prop
  | _, [] => True
  | k, d :: ds =>
      (∃ h, Header.parse d.bytes = .ok h ∧ h.sequenceId = UInt32.ofNat k) ∧
        NumberedFrom (k + 1) ds

theorem consecutive_append_singleton {ids : List UInt32} {id : UInt32} :
    Consecutive (ids ++ [id]) ↔
      Consecutive ids ∧ ∀ last ∈ ids.getLast?, id.toNat = last.toNat + 1 := by
  unfold Consecutive
  rw [List.isChain_append]
  constructor
  · rintro ⟨hids, -, hlast⟩
    exact ⟨hids, fun last hmem => hlast last hmem id rfl⟩
  · rintro ⟨hids, hlast⟩
    refine ⟨hids, List.isChain_singleton id, fun last hmem y hy => ?_⟩
    rw [List.head?_singleton, Option.mem_some_iff] at hy
    rw [← hy]
    exact hlast last hmem

namespace Session

/-! ## The sender -/

/-- The next sequence id is one more, and 0 after the last one. -/
theorem localSequenceId_send (s : Session) (p : Packet) :
    (s.send p).localSequenceId = s.localSequenceId + 1 := by
  unfold send
  simp only
  split_ifs <;> rfl

theorem ofNat_succ (k : ℕ) : UInt32.ofNat (k + 1) = UInt32.ofNat k + 1 :=
  UInt32.ofNat_add k 1

/-- A sender numbers its datagrams one after another, across the end of the range. -/
theorem numberedFrom_sendAll (s : Session) (ps : List Packet) {k : ℕ}
    (hk : s.localSequenceId = UInt32.ofNat k) :
    ∃ ds, (ps.foldl send s).outbox = s.outbox ++ ds ∧ ds.length = ps.length ∧
      NumberedFrom k ds := by
  induction ps generalizing s k with
  | nil => exact ⟨[], (List.append_nil _).symm, rfl, trivial⟩
  | cons p ps ih =>
      have hnext : (s.send p).localSequenceId = UInt32.ofNat (k + 1) := by
        rw [localSequenceId_send, hk, ofNat_succ]
      rcases outbox_send s p with ⟨s', houtbox⟩
      rcases ih (s.send p) hnext with ⟨ds, hrest, hlength, hnumbered⟩
      refine ⟨⟨s'.self, (s'.header p s.localSequenceId (s.orderIdFor p)).wire ++ p.buffer⟩ :: ds,
        ?_, ?_, ?_, hnumbered⟩
      · rw [List.foldl_cons, hrest, houtbox, List.append_assoc, List.singleton_append]
      · rw [List.length_cons, List.length_cons, hlength]
      · rcases Endpoint.carries_rawSend s' p s.localSequenceId (s.orderIdFor p) with
          ⟨h, hparse, -, hdescribes⟩
        exact ⟨h, hparse, by rw [hdescribes.sequenceId_eq, hk]⟩

/-! ## The head of the window -/

/-- The window is open and its head is the given id. -/
def HeadIs (s : Session) (id : UInt32) : Prop :=
  s.hasReceivedRemotePacket = true ∧ s.remoteAcknowledgeId = id

theorem HeadIs.of_window {s s' : Session} {id : UInt32} (h : s.HeadIs id)
    (hwindow : s'.window = s.window) : s'.HeadIs id := by
  simp only [window, Prod.mk.injEq] at hwindow
  exact ⟨hwindow.1.trans h.1, hwindow.2.1.trans h.2⟩

/-- No id is beyond the last one, so reception leaves the head there. -/
theorem HeadIs.stays (target : LeftShift) {s : Session} (h : s.HeadIs lastSequenceId)
    (d : Datagram) : (s.handleIncoming target d).1.HeadIs lastSequenceId := by
  have hwindow := window_handleIncoming target s d
  cases haccepts : s.accepts d with
  | none =>
      rw [haccepts] at hwindow
      exact h.of_window hwindow
  | some x =>
      rw [haccepts] at hwindow
      have hmax : ¬ s.remoteAcknowledgeId < x.header.sequenceId := by
        have hlt := x.header.sequenceId.toNat_lt
        rw [h.2, UInt32.lt_iff_toNat_lt, toNat_lastSequenceId]
        omega
      refine HeadIs.of_window ⟨received_updateAcknowledgeInfo target s _, ?_⟩ hwindow
      rw [head_updateAcknowledgeInfo_of_le target h.1 hmax, h.2]

/-! ## Following datagrams in order -/

/-- Each of the datagrams is accepted, and only once, its id becomes the acknowledge id,
and the header of whatever is sent next reports it. -/
def Follows (target : LeftShift) : Session → List Datagram → Prop
  | _, [] => True
  | s, d :: ds =>
      (∃ x, s.accepts d = some x ∧ (s.handleIncoming target d).1.accepts d = none ∧
        (s.handleIncoming target d).1.remoteAcknowledgeId = x.header.sequenceId ∧
        ∀ p sequenceId orderId, x.header.sequenceId ∈
          Endpoint.headerAcks ((s.handleIncoming target d).1.header p sequenceId orderId)) ∧
      Follows target (s.handleIncoming target d).1 ds

/-- A session whose window is open reports its head. -/
theorem HeadIs.reported {s : Session} {id : UInt32} (h : s.HeadIs id) (p : Packet)
    (sequenceId orderId : UInt32) :
    id ∈ Endpoint.headerAcks (s.header p sequenceId orderId) := by
  rw [headerAcks_header_eq h.1, h.2]
  exact List.mem_cons_self

/-- An id beyond the head is accepted and becomes the head. -/
theorem HeadIs.advances (target : LeftShift) {s : Session} {head : UInt32} (h : s.HeadIs head)
    {d : Datagram} {g : Header} (hparse : Header.parse d.bytes = .ok g)
    (hid : head < g.sequenceId) :
    s.accepts d = some (Incoming.ofDatagram g d) ∧
      (s.handleIncoming target d).1.accepts d = none ∧
      (s.handleIncoming target d).1.HeadIs g.sequenceId := by
  have hfresh : s.isDuplicate g.sequenceId = false := by
    have hlt : head.toNat < g.sequenceId.toNat := hid
    rw [← Bool.not_eq_true, isDuplicate_iff, h.2]
    rintro ⟨-, heq | ⟨i, -, hsum, -⟩ | ⟨hfar, -⟩⟩
    · rw [heq] at hlt
      omega
    · omega
    · omega
  have haccepts : s.accepts d = some (Incoming.ofDatagram g d) := by
    simp only [accepts, hparse, hfresh, Bool.false_eq_true, if_false]
  have hwindow := window_handleIncoming target s d
  rw [haccepts] at hwindow
  have hagain : (s.handleIncoming target d).1.isDuplicate g.sequenceId = true := by
    rw [isDuplicate_eq_of_window hwindow]
    exact isDuplicate_self target s g.sequenceId
  refine ⟨haccepts, ?_, HeadIs.of_window ⟨received_updateAcknowledgeInfo target s _, ?_⟩ hwindow⟩
  · simp only [accepts, hparse, hagain, if_true]
  · exact head_updateAcknowledgeInfo_of_gt target (h.2 ▸ hid)

/-- Before the end of the range the head follows the datagrams. -/
theorem follows_of_below (target : LeftShift) {s : Session} {head : UInt32} (h : s.HeadIs head)
    {ds : List Datagram} (hds : NumberedFrom (head.toNat + 1) ds)
    (hroom : head.toNat + ds.length < 2 ^ 32) : Follows target s ds := by
  induction ds generalizing s head with
  | nil => trivial
  | cons d ds ih =>
      rcases hds with ⟨⟨g, hparse, hid⟩, hrest⟩
      rw [List.length_cons] at hroom
      have hidNat : g.sequenceId.toNat = head.toNat + 1 := by
        rw [hid, toNat_ofNat_lt (by omega)]
      have hgt : head < g.sequenceId := by
        rw [UInt32.lt_iff_toNat_lt, hidNat]
        omega
      rcases h.advances target hparse hgt with ⟨haccepts, honce, hhead⟩
      refine ⟨⟨_, haccepts, honce, hhead.2, hhead.reported⟩, ?_⟩
      refine ih hhead ?_ ?_
      · rwa [hidNat]
      · rw [hidNat]
        omega

/-- At the end of the range it follows none. -/
theorem HeadIs.follows_iff (target : LeftShift) {s : Session} (h : s.HeadIs lastSequenceId)
    {ds : List Datagram} (hds : NumberedFrom 0 ds) : Follows target s ds ↔ ds = [] := by
  cases ds with
  | nil => exact iff_of_true trivial rfl
  | cons d ds =>
      refine iff_of_false ?_ (List.cons_ne_nil d ds)
      rintro ⟨⟨x, haccepts, -, hhead, -⟩, -⟩
      rcases hds with ⟨⟨g, hparse, hid⟩, -⟩
      have hx : x.header.sequenceId = g.sequenceId := by
        simp only [accepts, hparse] at haccepts
        split_ifs at haccepts
        rw [← Option.some.inj haccepts]
        rfl
      rw [(h.stays target d).2, hx, hid] at hhead
      exact absurd hhead (by decide)

end Session

namespace Endpoint

variable {target : LeftShift} {guard : Guard} {self : ℕ} {e : Endpoint}

/-! ## Receivers of ids in order -/

/-- A receiver that has accepted its ids in order has the last of them as its head. -/
theorem Run.head_of_consecutive (h : Run target guard self e)
    (hids : Consecutive e.acceptedIds) :
    e.acceptedIds = [] ∧ e.session.hasReceivedRemotePacket = false ∨
      ∃ id, e.acceptedIds.getLast? = some id ∧ e.session.HeadIs id := by
  induction h with
  | start hstart =>
      rcases hstart with ⟨clock, rfl⟩
      exact Or.inl ⟨rfl, rfl⟩
  | @next e a _ _ ih =>
      cases a with
      | send p =>
          refine (ih hids).imp ?_ ?_
          · rintro ⟨hnil, hhas⟩
            have hwindow := e.session.window_send p
            simp only [Session.window, Prod.mk.injEq] at hwindow
            exact ⟨hnil, hwindow.1.trans hhas⟩
          · rintro ⟨id, hlast, hhead⟩
            exact ⟨id, hlast, hhead.of_window (e.session.window_send p)⟩
      | update =>
          refine (ih hids).imp ?_ ?_
          · rintro ⟨hnil, hhas⟩
            have hwindow := e.session.window_update
            simp only [Session.window, Prod.mk.injEq] at hwindow
            exact ⟨hnil, hwindow.1.trans hhas⟩
          · rintro ⟨id, hlast, hhead⟩
            exact ⟨id, hlast, hhead.of_window e.session.window_update⟩
      | disconnect => exact ih hids
      | receive d =>
          have hwindow := Session.window_handleIncoming target e.session d
          have haccepted : (e.step target (.receive d)).acceptedIds =
              e.acceptedIds ++ ((e.session.accepts d).toList.map fun x => x.header.sequenceId) :=
            List.map_append
          rw [haccepted] at hids ⊢
          cases haccepts : e.session.accepts d with
          | none =>
              rw [haccepts] at hwindow hids
              rw [Option.toList_none, List.map_nil, List.append_nil] at hids ⊢
              refine (ih hids).imp ?_ ?_
              · rintro ⟨hnil, hhas⟩
                simp only [Session.window, Prod.mk.injEq] at hwindow
                exact ⟨hnil, hwindow.1.trans hhas⟩
              · rintro ⟨id, hlast, hhead⟩
                exact ⟨id, hlast, hhead.of_window hwindow⟩
          | some x =>
              rw [haccepts] at hwindow hids
              rw [Option.toList_some, List.map_singleton] at hids ⊢
              rcases consecutive_append_singleton.mp hids with ⟨hbefore, hnext⟩
              refine Or.inr ⟨x.header.sequenceId, List.getLast?_concat, ?_⟩
              refine Session.HeadIs.of_window
                ⟨Session.received_updateAcknowledgeInfo target e.session _, ?_⟩ hwindow
              rcases ih hbefore with ⟨-, hhas⟩ | ⟨id, hlast, hhead⟩
              · exact Session.head_updateAcknowledgeInfo_first target hhas
              · have hid := hnext id hlast
                apply Session.head_updateAcknowledgeInfo_of_gt
                rw [hhead.2, UInt32.lt_iff_toNat_lt]
                omega

/-- The head of a receiver that has accepted the ids up to the last one in order. -/
theorem Run.headIs_last (h : Run target guard self e) (hids : Consecutive e.acceptedIds)
    (hlast : e.acceptedIds.getLast? = some lastSequenceId) : e.session.HeadIs lastSequenceId := by
  rcases h.head_of_consecutive hids with ⟨hnil, -⟩ | ⟨id, hid, hhead⟩
  · rw [hnil] at hlast
    cases hlast
  · have hsame : id = lastSequenceId := Option.some.inj (hid.symm.trans hlast)
    rwa [hsame] at hhead

/-- A receiver that has accepted the ids up to the last one in order follows the datagrams
that are numbered from 0 on exactly when there are none. -/
theorem follows_after_last_iff (h : Run target .free self e) (hids : Consecutive e.acceptedIds)
    (hlast : e.acceptedIds.getLast? = some lastSequenceId) {ds : List Datagram}
    (hds : NumberedFrom 0 ds) : e.session.Follows target ds ↔ ds = [] :=
  (h.headIs_last hids hlast).follows_iff target hds

end Endpoint

/-! ## A receiver of the whole range -/

namespace Link

/-- In order, each packet is accepted. -/
theorem acceptedIds_arriveAll (target : LeftShift) (self : ℕ) (clock : Stream' Time) {n : ℕ}
    (hn : n < 2 ^ 32) :
    (arriveAll target (.new self clock) (List.range (n + 1))).acceptedIds =
      (List.range (n + 1)).map UInt32.ofNat := by
  have hstep : ∀ (e : Endpoint) (k : ℕ), e.session.isDuplicate (UInt32.ofNat k) = false →
      (e.step target (.receive (plainDatagram k))).acceptedIds =
        e.acceptedIds ++ [UInt32.ofNat k] := by
    intro e k hfresh
    have hfresh' : e.session.isDuplicate (plainHeader k).sequenceId = false := hfresh
    have haccepts : e.session.accepts (plainDatagram k) = some (plainIncoming k) := by
      simp only [Session.accepts, parse_plainDatagram, hfresh', Bool.false_eq_true, if_false]
      rfl
    simp only [Endpoint.acceptedIds, Endpoint.step, haccepts, Option.toList_some, List.map_append,
      List.map_singleton]
    rfl
  induction n with
  | zero => exact hstep (.new self clock) 0 rfl
  | succ n ih =>
      have horder := inOrder_arriveAll target self clock (n := n) (by omega)
      rw [List.range_succ, arriveAll_append, arriveAll_singleton,
        hstep _ _ (horder.next target hn).1, ih (by omega), List.map_append, List.map_singleton]

theorem run_arriveAll (target : LeftShift) (self : ℕ) (clock : Stream' Time) (ks : List ℕ) :
    Endpoint.Run target .free self (arriveAll target (.new self clock) ks) := by
  induction ks using List.reverseRecOn with
  | nil => exact .start ⟨clock, rfl⟩
  | append_singleton ks k ih =>
      rw [arriveAll_append, arriveAll_singleton]
      exact ih.next (Endpoint.permits_free _ _)

/-- The ids of the first packets are in order. -/
theorem consecutive_range {n : ℕ} (hn : n < 2 ^ 32) :
    Consecutive ((List.range (n + 1)).map UInt32.ofNat) := by
  unfold Consecutive
  rw [List.isChain_map, List.isChain_range_succ]
  intro m hm
  rw [Session.toNat_ofNat_lt (by omega), Session.toNat_ofNat_lt (by omega)]

/-- A receiver of the whole range, of which `n` is the last number, has accepted its ids in
order. -/
theorem received_range (target : LeftShift) (self : ℕ) (clock : Stream' Time) {n : ℕ}
    (hn : n + 1 = 2 ^ 32) :
    Consecutive (arriveAll target (.new self clock) (List.range (n + 1))).acceptedIds ∧
      (arriveAll target (.new self clock) (List.range (n + 1))).acceptedIds.getLast? =
        some lastSequenceId := by
  have hlast : UInt32.ofNat n = lastSequenceId := by
    apply UInt32.toNat_inj.mp
    rw [Session.toNat_ofNat_lt (by omega), toNat_lastSequenceId]
    omega
  rw [acceptedIds_arriveAll target self clock (by omega)]
  refine ⟨consecutive_range (by omega), ?_⟩
  rw [List.range_succ, List.map_append, List.map_singleton, List.getLast?_concat, hlast]

theorem numberedFrom_plain : NumberedFrom 0 [plainDatagram 0] :=
  ⟨⟨plainHeader 0, parse_plainDatagram 0, rfl⟩, trivial⟩

/-- The receiver of the whole range, and the packet with number 0 after it. -/
theorem follows_after_range :
    (arriveAll .x86 (.new 1 (Stream'.const 0)) (List.range (4294967295 + 1))).session.Follows
        .x86 [plainDatagram 0] ↔ [plainDatagram 0] = [] :=
  Endpoint.follows_after_last_iff (run_arriveAll .x86 1 (Stream'.const 0) _)
    (received_range .x86 1 (Stream'.const 0) (by norm_num)).1
    (received_range .x86 1 (Stream'.const 0) (by norm_num)).2 numberedFrom_plain

/-- The receiver of the whole range does not follow that packet. -/
theorem wrap_lost :
    ¬ ∀ (target : LeftShift) (self : ℕ) (e : Endpoint), Endpoint.Run target .free self e →
      Consecutive e.acceptedIds → e.acceptedIds.getLast? = some lastSequenceId →
      ∀ ds, NumberedFrom 0 ds → e.session.Follows target ds := by
  intro hall
  have hrun := run_arriveAll .x86 1 (Stream'.const 0) (List.range (4294967295 + 1))
  have hreceived := received_range .x86 1 (Stream'.const 0) (n := 4294967295) (by norm_num)
  have hhead := hrun.headIs_last hreceived.1 hreceived.2
  have hfollows := hall .x86 1 _ hrun hreceived.1 hreceived.2 _ numberedFrom_plain
  cases (hhead.follows_iff .x86 numberedFrom_plain).mp hfollows

end Link

end Rtype.Rtnt
