import Rtype.Rtnt.Link

/-!
# rtnt - At-most-once delivery

The duplicate test remembers every accepted id in the window or in the packet
history, until the history is full: from then on each late id that is accepted
for the first time pushes the oldest one out, and a replayed datagram with that
id is delivered again.

Main results:

- Theorem {lit}`Link.returned_once`: a packet is returned at most once unless the
  packet history has dropped its id.
- Theorem {lit}`Link.fill_history`: late ids fill the history in the order of their
  arrival.
- Theorem {lit}`Link.returned_twice`: the history does drop ids that come again.

Current gaps:

- None.
-/

namespace Rtype.Rtnt

open Transition

/-! ## The receive window of a session -/

namespace Session

/-- The part of the state that the duplicate test reads. -/
def window (s : Session) : Bool × UInt32 × UInt32 × List UInt32 :=
  (s.hasReceivedRemotePacket, s.remoteAcknowledgeId, s.remoteAcknowledgeBitfield,
    s.oldPacketHistory)

theorem window_sendRichAck (s : Session) (acks : List UInt32) :
    (s.sendRichAck acks).window = s.window := by
  obtain ⟨_, _, _, _, _, _, _, hframe⟩ := Endpoint.sendRichAck_frame s acks
  rw [hframe]
  rfl

/-- An acknowledgement leaves the receive window alone. -/
theorem window_sendAck (s : Session) : s.sendAck.window = s.window := by
  obtain ⟨_, _, _, _, _, _, _, hframe⟩ := Endpoint.sendAck_frame s
  rw [hframe]
  rfl

theorem window_accept (target : LeftShift) (s : Session) (id : UInt32) :
    (s.accept target id).window = (s.updateAcknowledgeInfo target id).window := by
  simp only [accept]
  split_ifs
  · exact window_sendAck _
  · rfl

theorem isDuplicate_eq_of_window {s s' : Session} (h : s'.window = s.window) (id : UInt32) :
    s'.isDuplicate id = s.isDuplicate id := by
  simp only [window, Prod.mk.injEq] at h
  exact isDuplicate_congr h.1 h.2.1 h.2.2.1 h.2.2.2 id

/-- The window after a first-time id that lies behind it: the history takes the id,
and drops its oldest one when it is full. -/
theorem window_late (target : LeftShift) {s : Session} {head bits id : UInt32}
    {history : List UInt32} (h : s.window = (true, head, bits, history))
    (hfar : id.toNat + 32 < head.toNat) (hnew : id ∉ history) :
    (s.updateAcknowledgeInfo target id).window =
      (true, head, bits,
        if history.length < MAX_PACKET_HISTORY_SIZE then history ++ [id]
        else (history ++ [id]).tail) := by
  simp only [window, Prod.mk.injEq] at h
  obtain ⟨hhas, rfl, rfl, rfl⟩ := h
  have hlt : id < s.remoteAcknowledgeId := by
    rw [UInt32.lt_iff_toNat_lt]
    omega
  have hgt : ¬ id > s.remoteAcknowledgeId := fun hgt => by
    have hgt' : s.remoteAcknowledgeId.toNat < id.toNat := hgt
    omega
  have hbeyond : ¬ s.remoteAcknowledgeId - id ≤ 32 := by
    have hdist := toNat_distance hlt
    rw [UInt32.le_iff_toNat_le]
    have h32 : (32 : UInt32).toNat = 32 := rfl
    omega
  simp only [updateAcknowledgeInfo, hhas, Bool.not_true, Bool.false_eq_true, if_false,
    if_neg hgt, if_pos hlt, recordLate, if_neg hbeyond, if_neg hnew, window]
  by_cases hfull : s.oldPacketHistory.length < MAX_PACKET_HISTORY_SIZE
  · have hlen : ¬ (s.oldPacketHistory ++ [id]).length > MAX_PACKET_HISTORY_SIZE := by
      rw [List.length_append, List.length_singleton]
      omega
    simp only [if_pos hfull, if_neg hlen]
  · have hlen : (s.oldPacketHistory ++ [id]).length > MAX_PACKET_HISTORY_SIZE := by
      rw [List.length_append, List.length_singleton]
      omega
    simp only [if_neg hfull, if_pos hlen]

end Session

namespace Link

variable {target : LeftShift} {condition : Link → Side × Action → Prop} {w : Link}

/-- A sequence id is returned at most once unless the packet history has dropped it,
on every target machine. -/
theorem returned_once {i : Side} (h : Run target condition w)
    (hissued : (w i.other).session.issued < 2 ^ 32) {id : UInt32} (hkept : id ∉ (w i).evicted) :
    ((w i).returned.filter fun x => x.header.sequenceId == id).length ≤ 1 := by
  have hcount : ∀ c, ((w i.other).sentOn c).length < 2 ^ 32 := fun c =>
    ((h.endpoint_free i.other).sendInvariant.length_sentOn_le c).trans_lt hissued
  exact ((h.endpoint_free i).delivered (h.belowLastOrderId hcount)).length_filter_le
    ((h.endpoint_free i).onceInvariant.once id hkept)

/-- A packet is sent and its datagram arrives twice. -/
def replayed : Link :=
  let w₁ := step .x86 (new stillClock) (.a, .send (Packet.new 200))
  let w₂ := step .x86 w₁ (.b, .receive (emitted w₁ .a 0))
  step .x86 w₂ (.b, .receive (emitted w₂ .a 0))

/-- In that run it is returned once. -/
theorem returned_once_replayed :
    ((replayed .b).returned.filter fun x => x.header.sequenceId == 0).length ≤ 1 := by
  have hrun : Run .x86 Unconditional replayed :=
    (((run_new stillClock).send trivial).receive (by decide) trivial).receive (by decide) trivial
  have hevicted : (replayed .b).evicted = [] := rfl
  exact returned_once (i := .b) hrun (by decide) (by rw [hevicted]; exact List.not_mem_nil)

/-! ## Filling the history -/

/-- The header of the unreliable packet number `k` of a session that has received
nothing. -/
def plainHeader (k : ℕ) : Header where
  sequenceId := UInt32.ofNat k
  messageId := 200

/-- The datagram of that packet. -/
def plainDatagram (k : ℕ) : Datagram where
  emitter := 0
  bytes := (plainHeader k).wire ++ []

/-- That packet on arrival. -/
def plainIncoming (k : ℕ) : Incoming :=
  Incoming.ofDatagram (plainHeader k) (plainDatagram k)

theorem parse_plainDatagram (k : ℕ) :
    Header.parse (plainDatagram k).bytes = .ok (plainHeader k) :=
  Header.parse_wire rfl (Nat.zero_le _)

theorem window_seen (s : Session) : (Endpoint.seen s).window = s.window := rfl

/-- A first-time packet is returned, and its id enters the receive window. -/
theorem step_receive_plain (target : LeftShift) {e : Endpoint} {k : ℕ}
    (hnew : e.session.isDuplicate (UInt32.ofNat k) = false) :
    (e.step target (.receive (plainDatagram k))).session.window =
        ((Endpoint.seen e.session).updateAcknowledgeInfo target (UInt32.ofNat k)).window ∧
      (e.step target (.receive (plainDatagram k))).returned =
        e.returned ++ [plainIncoming k] := by
  have hflag : ((plainHeader k).flags &&& Flag.kHasAck != 0) = false := by
    change (Flag.kUnreliable &&& Flag.kHasAck != 0) = false
    decide
  have hacks : ∀ s : Session, s.acknowledge (plainHeader k) = s := by
    intro s
    simp only [Session.acknowledge, hflag, Bool.false_and, Bool.false_eq_true, if_false]
  have hdup : (Endpoint.seen e.session).isDuplicate (plainHeader k).sequenceId = false := hnew
  have hdeliver : ∀ s : Session, s.deliver (plainHeader k) (plainDatagram k) =
      (s, [plainIncoming k]) := by
    intro s
    have hrich : ((200 : UInt16) == SystemMessageId.kRichAck) = false := by decide
    have hack : ((200 : UInt16) == SystemMessageId.kAck) = false := by decide
    have hid : (plainHeader k).messageId = 200 := rfl
    have hunordered : isOrdered (plainIncoming k).packet.flag = false := by
      change isOrdered Flag.kUnreliable = false
      decide
    simp only [Session.deliver, hid, hrich, hack, Bool.and_false, Bool.false_eq_true, if_false]
    exact if_neg (Bool.eq_false_iff.mp hunordered)
  unfold Endpoint.seen at hdup
  simp only [Endpoint.step, Session.handleIncoming, parse_plainDatagram, hacks, hdup,
    Bool.false_eq_true, if_false, hdeliver]
  exact ⟨Session.window_accept _ _ _, trivial⟩

/-- The arrival of the packets with the given numbers. -/
def arriveAll (target : LeftShift) (e : Endpoint) (ks : List ℕ) : Endpoint :=
  ks.foldl (fun e k => e.step target (.receive (plainDatagram k))) e

theorem arriveAll_append (target : LeftShift) (e : Endpoint) (ks ls : List ℕ) :
    arriveAll target e (ks ++ ls) = arriveAll target (arriveAll target e ks) ls := by
  simp [arriveAll]

theorem arriveAll_singleton (target : LeftShift) (e : Endpoint) (k : ℕ) :
    arriveAll target e [k] = e.step target (.receive (plainDatagram k)) := rfl

/-- An id far behind the window that is not in the history is no duplicate. -/
theorem isDuplicate_late {s : Session} {head : UInt32} {history : List UInt32} {id : UInt32}
    (h : s.window = (true, head, 0, history)) (hfar : id.toNat + 32 < head.toNat)
    (hnew : id ∉ history) : s.isDuplicate id = false := by
  simp only [Session.window, Prod.mk.injEq] at h
  obtain ⟨-, rfl, hbits, rfl⟩ := h
  rw [← Bool.not_eq_true, Session.isDuplicate_iff, hbits]
  rintro ⟨-, rfl | ⟨i, -, -, hbit⟩ | ⟨-, hmem⟩⟩
  · omega
  · simp at hbit
  · exact hnew hmem

private theorem ofNat_notMem_range {k n : ℕ} (hk : n ≤ k) (hlt : k < 2 ^ 32) :
    UInt32.ofNat k ∉ (List.range n).map UInt32.ofNat := by
  intro hmem
  obtain ⟨j, hj, heq⟩ := List.mem_map.mp hmem
  have hj' := List.mem_range.mp hj
  have := Endpoint.ofNat_inj (by omega) hlt heq
  omega

/-- Late ids fill the history in the order of their arrival. -/
theorem fill_history (target : LeftShift) {e : Endpoint} {ahead : ℕ} (hahead : ahead < 2 ^ 32)
    (he : e.session.window = (true, UInt32.ofNat ahead, 0, [])) {n : ℕ}
    (hn : n ≤ MAX_PACKET_HISTORY_SIZE) (hfar : n + 32 ≤ ahead) :
    (arriveAll target e (List.range n)).session.window =
        (true, UInt32.ofNat ahead, 0, (List.range n).map UInt32.ofNat) ∧
      (arriveAll target e (List.range n)).returned =
        e.returned ++ (List.range n).map plainIncoming := by
  induction n with
  | zero => exact ⟨he, (List.append_nil _).symm⟩
  | succ n ih =>
      obtain ⟨hwindow, hreturned⟩ := ih (by omega) (by omega)
      have hlate : (UInt32.ofNat n).toNat + 32 < (UInt32.ofNat ahead).toNat := by
        rw [UInt32.toNat_ofNat', UInt32.toNat_ofNat', Nat.mod_eq_of_lt hahead,
          Nat.mod_eq_of_lt (by omega)]
        omega
      have hnew := ofNat_notMem_range (le_refl n) (by omega)
      have hstep := step_receive_plain target (isDuplicate_late hwindow hlate hnew)
      have hroom : ((List.range n).map UInt32.ofNat).length < MAX_PACKET_HISTORY_SIZE := by
        rw [List.length_map, List.length_range]
        omega
      rw [List.range_succ, arriveAll_append, arriveAll_singleton, hstep.1, hstep.2, hreturned,
        Session.window_late target ((window_seen _).trans hwindow) hlate hnew, if_pos hroom]
      simp

private theorem zero_notMem_tail (n : ℕ) (hn : n < 2 ^ 32) :
    UInt32.ofNat 0 ∉ ((List.range n).map UInt32.ofNat ++ [UInt32.ofNat n]).tail := by
  have htail : ((List.range n).map UInt32.ofNat ++ [UInt32.ofNat n]).tail =
      ((List.range n).map Nat.succ).map UInt32.ofNat := by
    rw [← List.map_singleton, ← List.map_append, ← List.range_succ, List.range_succ_eq_map]
    rfl
  rw [htail]
  intro hmem
  obtain ⟨k, hk, hzero⟩ := List.mem_map.mp hmem
  obtain ⟨j, hj, rfl⟩ := List.mem_map.mp hk
  have hj' := List.mem_range.mp hj
  exact absurd (Endpoint.ofNat_inj (by omega) (by omega) hzero) (Nat.succ_ne_zero j)

/-- One more late packet than the history holds pushes out the first of them, and when
the datagram of that one comes again, it is returned again. -/
theorem evicted_returned_again (target : LeftShift) {e : Endpoint} {ahead : ℕ}
    (hahead : ahead < 2 ^ 32) (he : e.session.window = (true, UInt32.ofNat ahead, 0, []))
    (hfar : MAX_PACKET_HISTORY_SIZE + 33 ≤ ahead) :
    2 ≤ ((arriveAll target e (List.range (MAX_PACKET_HISTORY_SIZE + 1) ++ [0])).returned.filter
      fun x => x.header.sequenceId == UInt32.ofNat 0).length := by
  have hM : MAX_PACKET_HISTORY_SIZE = 32768 := rfl
  obtain ⟨hwindow, hreturned⟩ := fill_history target hahead he le_rfl (by omega)
  have hlate : ∀ k, k ≤ MAX_PACKET_HISTORY_SIZE →
      (UInt32.ofNat k).toNat + 32 < (UInt32.ofNat ahead).toNat := by
    intro k hk
    rw [UInt32.toNat_ofNat', UInt32.toNat_ofNat', Nat.mod_eq_of_lt hahead,
      Nat.mod_eq_of_lt (by omega)]
    omega
  have hnew := ofNat_notMem_range (le_refl MAX_PACKET_HISTORY_SIZE) (by omega)
  have hlast := step_receive_plain target (isDuplicate_late hwindow (hlate _ le_rfl) hnew)
  have hfull : ¬ ((List.range MAX_PACKET_HISTORY_SIZE).map UInt32.ofNat).length <
      MAX_PACKET_HISTORY_SIZE := by
    rw [List.length_map, List.length_range]
    exact lt_irrefl _
  rw [Session.window_late target ((window_seen _).trans hwindow) (hlate _ le_rfl) hnew,
    if_neg hfull] at hlast
  have hgone := zero_notMem_tail MAX_PACKET_HISTORY_SIZE (by omega)
  have hagain := step_receive_plain target
    (isDuplicate_late hlast.1 (hlate 0 (Nat.zero_le _)) hgone)
  rw [arriveAll_append, arriveAll_singleton, List.range_succ, arriveAll_append,
    arriveAll_singleton, hagain.2, hlast.2, hreturned, List.filter_append, List.length_append,
    List.filter_append, List.length_append, List.filter_append, List.length_append]
  have hfirst : 0 < (((List.range MAX_PACKET_HISTORY_SIZE).map plainIncoming).filter
      fun x => x.header.sequenceId == UInt32.ofNat 0).length := by
    refine List.length_pos_of_mem (a := plainIncoming 0) (List.mem_filter.mpr ⟨?_, ?_⟩)
    · exact List.mem_map_of_mem (List.mem_range.mpr (by omega))
    · exact beq_self_eq_true _
  have hsecond : ([plainIncoming 0].filter
      fun x => x.header.sequenceId == UInt32.ofNat 0).length = 1 := rfl
  omega

/-! ## A replay that succeeds -/

/-- A session that has sent `n` such packets and received nothing. -/
structure HasSent (e : Endpoint) (n : ℕ) : Prop where
  self_eq : e.session.self = 0
  issued_eq : e.session.issued = n
  localSequenceId_eq : e.session.localSequenceId = UInt32.ofNat n
  silent : e.session.hasReceivedRemotePacket = false
  acknowledgeId_eq : e.session.remoteAcknowledgeId = 0
  bitfield_eq : e.session.remoteAcknowledgeBitfield = 0
  outbox_eq : e.session.outbox = (List.range n).map plainDatagram

theorem HasSent.send (target : LeftShift) {e : Endpoint} {n : ℕ} (h : HasSent e n) :
    HasSent (e.step target (.send (Packet.new 200))) (n + 1) where
  self_eq := h.self_eq
  issued_eq := congrArg (· + 1) h.issued_eq
  localSequenceId_eq := by
    have hnext : UInt32.ofNat (n + 1) = UInt32.ofNat n + 1 := UInt32.ofNat_add n 1
    rw [hnext, ← h.localSequenceId_eq]
    rfl
  silent := h.silent
  acknowledgeId_eq := h.acknowledgeId_eq
  bitfield_eq := h.bitfield_eq
  outbox_eq := by
    have hheader : e.session.header (Packet.new 200) e.session.localSequenceId 0 =
        plainHeader n := by
      simp only [Session.header, h.silent, h.acknowledgeId_eq, h.bitfield_eq,
        h.localSequenceId_eq]
      rfl
    have hdatagram : plainDatagram n = ⟨e.session.self,
        (e.session.header (Packet.new 200) e.session.localSequenceId 0).wire ++ []⟩ := by
      rw [hheader, h.self_eq]
      rfl
    rw [List.range_succ, List.map_append, ← h.outbox_eq, List.map_singleton, hdatagram]
    rfl

/-- The link after `n` packets have been sent at one end. -/
def flooded (target : LeftShift) : ℕ → Link
  | 0 => new stillClock
  | n + 1 => step target (flooded target n) (.a, .send (Packet.new 200))

theorem run_flooded (target : LeftShift) (n : ℕ) :
    Run target Unconditional (flooded target n) := by
  induction n with
  | zero => exact run_new stillClock
  | succ n ih => exact ih.send trivial

theorem hasSent_flooded (target : LeftShift) (n : ℕ) : HasSent (flooded target n .a) n := by
  induction n with
  | zero => exact ⟨rfl, rfl, rfl, rfl, rfl, rfl, rfl⟩
  | succ n ih =>
      rw [flooded, step_same]
      exact ih.send target

theorem flooded_b (target : LeftShift) (n : ℕ) :
    flooded target n .b = Endpoint.new 1 (stillClock .b) := by
  induction n with
  | zero => rfl
  | succ n ih => rw [flooded, step_other (by decide), ih]

/-- The link after some of the packets sent have arrived. -/
def arrived (target : LeftShift) (n : ℕ) (ks : List ℕ) : Link :=
  Function.update (flooded target n) .b
    (arriveAll target (Endpoint.new 1 (stillClock .b)) ks)

theorem run_arrived (target : LeftShift) {n : ℕ} {ks : List ℕ} (hks : ∀ k ∈ ks, k < n) :
    Run target Unconditional (arrived target n ks) := by
  induction ks using List.reverseRecOn with
  | nil =>
      have hsame : arrived target n [] = flooded target n := by
        rw [arrived, arriveAll, List.foldl_nil, ← flooded_b target n, Function.update_eq_self]
      rw [hsame]
      exact run_flooded target n
  | append_singleton ks k ih =>
      have hrun := ih fun j hj => hks j (List.mem_append_left _ hj)
      have hstep : arrived target n (ks ++ [k]) =
          step target (arrived target n ks) (.b, .receive (plainDatagram k)) := by
        rw [arrived, arriveAll_append, arriveAll_singleton, step, arrived]
        simp
      rw [hstep]
      refine .next hrun ⟨?_, trivial⟩
      have hsender : arrived target n ks .a = flooded target n .a := by simp [arrived]
      have hk : k < n := hks k (List.mem_append_right _ (List.mem_singleton_self k))
      simp only [Authentic, Side.other, hsender, (hasSent_flooded target n).outbox_eq]
      exact List.mem_map_of_mem (List.mem_range.mpr hk)

/-- A packet can be returned twice: one packet arrives far ahead of the others, then
enough late ones to fill the history and to push the first of them out, then that one
again. -/
theorem returned_twice :
    ¬ ∀ (target : LeftShift) (w : Link), Run target Unconditional w →
      ∀ i, (w i.other).session.issued < 2 ^ 32 →
        ∀ id, ((w i).returned.filter fun x => x.header.sequenceId == id).length ≤ 1 := by
  intro h
  have hM : MAX_PACKET_HISTORY_SIZE = 32768 := rfl
  let n := MAX_PACKET_HISTORY_SIZE + 34
  let ks := (MAX_PACKET_HISTORY_SIZE + 33) ::
    (List.range (MAX_PACKET_HISTORY_SIZE + 1) ++ [0])
  have hks : ∀ k ∈ ks, k < n := by
    intro k hk
    rcases List.mem_cons.mp hk with rfl | hk
    · exact Nat.lt_succ_self _
    · rcases List.mem_append.mp hk with hk | hk
      · have := List.mem_range.mp hk
        omega
      · rw [List.mem_singleton.mp hk]
        exact Nat.succ_pos _
  have hsender : (arrived .x86 n ks .a).session.issued < 2 ^ 32 := by
    have hsame : arrived .x86 n ks .a = flooded .x86 n .a := by simp [arrived]
    rw [hsame, (hasSent_flooded .x86 n).issued_eq]
    omega
  have honce := h .x86 _ (run_arrived .x86 hks) .b hsender (UInt32.ofNat 0)
  have hreceiver : arrived .x86 n ks .b = arriveAll .x86
      (arriveAll .x86 (Endpoint.new 1 (stillClock .b)) [MAX_PACKET_HISTORY_SIZE + 33])
      (List.range (MAX_PACKET_HISTORY_SIZE + 1) ++ [0]) := by
    rw [arrived, Function.update_self, ← arriveAll_append, List.singleton_append]
  have hahead := step_receive_plain .x86 (e := Endpoint.new 1 (stillClock .b))
    (k := MAX_PACKET_HISTORY_SIZE + 33) rfl
  rw [← arriveAll_singleton] at hahead
  have htwice := evicted_returned_again .x86
    (show MAX_PACKET_HISTORY_SIZE + 33 < 2 ^ 32 by omega) (hahead.1.trans rfl) le_rfl
  rw [hreceiver] at honce
  omega

end Link

end Rtype.Rtnt
