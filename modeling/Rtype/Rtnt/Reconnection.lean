import Rtype.Rtnt.Connection
import Rtype.Rtnt.Delivery
import Rtype.Rtnt.Waiting

/-!
# rtnt - Reconnection

The client numbers its packets from zero on every session, but the server keeps the session
that it has for the endpoint, and answers another CONNECT without resetting it.  So the
server may refuse a packet of the new session as the duplicate of a packet of an earlier one
and acknowledge it all the same, or accept it under an order id that its channel has passed.

Main results:

- Definition {lit}`Connection.Condition`: the steps at which two sessions of the client do
  not get mixed up.
- Theorem {lit}`Connection.reconnection_swallows_nothing`: in every run of such steps, a
  packet that the client has stopped waiting for went to the event queue or into a reorder
  buffer of the server.

Current gaps:

- None.
-/

namespace Rtype.Rtnt

open Transition

namespace Endpoint

/-- A copy of a packet for the application is passed on. -/
theorem isPassedOn_of_accepts {s : Session} {d : Datagram} {x : Incoming} {r : SentRecord}
    (hx : s.accepts d = some x) (hcopy : IsCopy x r) (happ : ForApplication r.packet) :
    isPassedOn x = true := by
  have hid : x.header.messageId = x.packet.messageId := by
    unfold Session.accepts at hx
    split at hx
    · cases hx
    · split_ifs at hx
      rw [← Option.some.inj hx]
      rfl
  exact isPassedOn_of_copy hid hcopy happ

variable {target : LeftShift}

/-- A call takes no record away. -/
theorem mem_sent_step {e : Endpoint} {r : SentRecord} (h : r ∈ e.sent)
    (a : Action) : r ∈ (e.step target a).sent := by
  cases a with
  | send p => exact List.mem_append_left _ h
  | update => exact h
  | receive d => exact h
  | disconnect => exact h

/-- Sending draws a sequence id. -/
theorem issued_lt_send (e : Endpoint) (p : Packet) :
    e.session.issued < (e.step target (.send p)).session.issued := by
  simp only [step, Session.send]
  split_ifs
  · exact Nat.lt_succ_self _
  · exact Nat.lt_succ_self _
  · exact Nat.lt_succ_self _
  · exact Nat.lt_succ_self _

end Endpoint

namespace Connection

open Endpoint

variable {target : LeftShift} {clientEndpoint serverEndpoint : UdpEndpoint}
  {condition : Connection → Act → Prop} {w : Connection}

/-! ## What the server owes to the client -/

/-- A packet that waits in the reorder buffer after its reception was put there. -/
theorem mem_newlyBuffered {v : Server} {σ : ℕ} {d : Datagram} {x : Incoming}
    (hio : v.io = .handling σ d) (hx : (v.heap.object σ).session.accepts d = some x)
    (hheld : ((v.heap.object σ).session.handleIncoming target d).1.Holds x) :
    (σ, x) ∈ newlyBuffered target v .handle := by
  simp only [newlyBuffered, hio, hx, Option.toList_some, List.mem_map, List.mem_filter,
    List.mem_singleton, decide_eq_true_eq]
  exact ⟨x, ⟨rfl, hheld⟩, rfl⟩

/-- A promise is made when a connected client sends a packet on its session. -/
theorem newlyPromised_spec {c : Client} {act : Client.Act} {k : ℕ} {r : SentRecord}
    (h : (k, r) ∈ newlyPromised c act) :
    ∃ p, act = .send p ∧ c.serverSession = some k ∧ r = recordOf (c.heap.object k).session p := by
  unfold newlyPromised at h
  split at h
  next p =>
    split at h
    next j hconnected hsession =>
      rw [List.mem_singleton, Prod.mk.injEq] at h
      rcases h with ⟨rfl, rfl⟩
      exact ⟨p, rfl, hsession, rfl⟩
    next => cases h
  next => cases h

/-- The packets for the application that the client sent reliably on a session while it was
connected. -/
def owed (w : Connection) (k : ℕ) : List SentRecord :=
  (w.promised.filter fun entry => entry.1 = k ∧ entry.2.packet.flag ≠ Flag.kUnreliable ∧
    ForApplication entry.2.packet).map Prod.snd

theorem mem_owed {k : ℕ} {r : SentRecord} : r ∈ w.owed k ↔
    (k, r) ∈ w.promised ∧ r.packet.flag ≠ Flag.kUnreliable ∧ ForApplication r.packet := by
  simp only [owed, List.mem_map, List.mem_filter, decide_eq_true_eq]
  constructor
  · rintro ⟨⟨j, r'⟩, ⟨hmem, rfl, hflag, happ⟩, rfl⟩
    exact ⟨hmem, hflag, happ⟩
  · rintro ⟨hmem, hflag, happ⟩
    exact ⟨(k, r), ⟨hmem, rfl, hflag, happ⟩, rfl⟩

/-- The client session still waits for the acknowledgement of the packet. -/
def Waits (w : Connection) (k : ℕ) (r : SentRecord) : Prop :=
  r.sequenceId ∈ (w.client.heap.object k).session.sentPackets

instance (w : Connection) (k : ℕ) (r : SentRecord) : Decidable (w.Waits k r) :=
  inferInstanceAs (Decidable (_ ∈ _))

/-- The packet is a copy of the one that the client session has sent. -/
def IsCopyFrom (k : ℕ) (r : SentRecord) (x : Incoming) : Prop :=
  x.emitter = Client.name k ∧ IsCopy x r

instance (k : ℕ) (r : SentRecord) (x : Incoming) : Decidable (IsCopyFrom k r x) :=
  inferInstanceAs (Decidable (_ ∧ _))

/-- The server has passed the packet to its event queue or to a reorder buffer. -/
def HasPassed (w : Connection) (k : ℕ) (r : SentRecord) : Prop :=
  ∃ σ x, IsCopyFrom k r x ∧ ((σ, x) ∈ w.server.pushed ∨ (σ, x) ∈ w.buffered)

/-! ## The condition -/

/-- A session of the server accepts the packet without a shift by the width of its window,
and the first copy of a packet that it owes to the client in time for its channel. -/
def AcceptsInTime (w : Connection) (σ : ℕ) (x : Incoming) : Prop :=
  ¬ Session.JumpsBy32 (w.server.heap.object σ).acceptedIds x.header.sequenceId ∧
    ∀ k < w.client.heap.created, ∀ r ∈ w.owed k, IsCopyFrom k r x →
      (∀ y ∈ (w.server.heap.object σ).accepted, ¬ IsCopyFrom k r y) →
        (w.server.heap.object σ).session.InTime x

instance (w : Connection) (σ : ℕ) (x : Incoming) : Decidable (w.AcceptsInTime σ x) :=
  inferInstanceAs (Decidable (_ ∧ ∀ k < _, ∀ r ∈ _, _ → _ → _))

/-- The I/O thread of the server is about to push a copy of the packet. -/
def IsPushing (w : Connection) (σ k : ℕ) (r : SentRecord) : Prop :=
  match w.server.io with
  | .pushing session packets => session = σ ∧ ∃ x ∈ packets, IsCopyFrom k r x
  | _ => False

instance (w : Connection) (σ k : ℕ) (r : SentRecord) : Decidable (w.IsPushing σ k r) := by
  unfold IsPushing
  split <;> infer_instance

/-- The session of the server has accepted nothing else under the id of the packet, and is
not about to push the packet. -/
def Distinguishes (w : Connection) (σ k : ℕ) (r : SentRecord) : Prop :=
  (∀ x ∈ (w.server.heap.object σ).accepted, x.header.sequenceId = r.sequenceId →
    x.emitter = Client.name k) ∧ ¬ w.IsPushing σ k r

instance (w : Connection) (σ k : ℕ) (r : SentRecord) : Decidable (w.Distinguishes σ k r) :=
  inferInstanceAs (Decidable (_ ∧ _))

/-- A datagram that acknowledges an owed packet comes from a session of the server that does
not take another packet for it. -/
def AcknowledgesOwn (w : Connection) (k : ℕ) (d : Datagram) : Prop :=
  ∀ r ∈ w.owed k, w.Waits k r → Acknowledges d r.sequenceId →
    (w.client.heap.object k).session.issued ≤ 2 ^ 32 ∧
      ∀ σ < w.server.heap.created, d.emitter = Server.name σ → w.Distinguishes σ k r

instance (w : Connection) (k : ℕ) (d : Datagram) : Decidable (w.AcknowledgesOwn k d) :=
  inferInstanceAs (Decidable (∀ r ∈ _, _ → _ → _ ∧ ∀ σ < _, _ → _))

/-- The server does not claim acknowledgements, and the sessions do not get mixed up. -/
def Condition (w : Connection) : Act → Prop
  | .server (.send σ p) => HonestPacket (w.server.heap.object σ) p
  | .server .handle =>
      match w.server.io with
      | .handling σ d =>
          ∀ x ∈ (w.server.heap.object σ).session.accepts d, w.AcceptsInTime σ x
      | _ => True
  | .client .handle =>
      match w.client.io with
      | .handling k d => w.AcknowledgesOwn k d
      | _ => True
  | _ => True

instance (w : Connection) (act : Act) : Decidable (w.Condition act) := by
  unfold Condition
  split
  · infer_instance
  · split <;> infer_instance
  · split <;> infer_instance
  · infer_instance

/-- The condition keeps the sessions of the server honest. -/
theorem Condition.permits {act : Server.Act} (h : w.Condition (.server act)) {k : ℕ}
    {e : Endpoint} {a : Action} (hcall : w.server.Calls act k e a) :
    Permits (.honest target) e a := by
  cases a with
  | send p =>
      rcases hcall with rfl | ⟨rfl, rfl⟩
      · have hflag : (connectAckPacket k).flag = Flag.kUnreliable := rfl
        have hid : (connectAckPacket k).messageId = SystemMessageId.kConnectAck := rfl
        constructor
        · intro hne
          rw [hflag] at hne
          exact absurd rfl hne
        · intro hrich
          rw [hid] at hrich
          exact absurd hrich (by decide)
      · exact h
  | receive d =>
      rcases hcall with ⟨rfl, hio, rfl⟩
      intro x hx
      simp only [Condition, hio] at h
      exact Or.inl (h x hx).1
  | update => exact trivial
  | disconnect => exact trivial

theorem Run.honestRuns (h : Run target clientEndpoint serverEndpoint Condition w) :
    w.server.heap.Runs target (.honest target) Server.name :=
  h.serverRuns fun _ _ hact _ _ _ hcall => hact.permits hcall

/-! ## The invariants -/

/-- What is promised on a session was sent there. -/
theorem Run.promised_sent (h : Run target clientEndpoint serverEndpoint condition w) :
    ∀ k r, (k, r) ∈ w.promised →
      k < w.client.heap.created ∧ r ∈ (w.client.heap.object k).sent := by
  apply h.invariant (P := fun w => ∀ k r, (k, r) ∈ w.promised →
    k < w.client.heap.created ∧ r ∈ (w.client.heap.object k).sent)
  · rintro w rfl k r hr
    cases hr
  · rintro w (act | act) hrun - ih
    · have heffects := Client.step_effects target w.client act
      intro k r hr
      rcases List.mem_append.mp hr with hold | hnew
      · rcases ih k r hold with ⟨hk, hsent⟩
        refine ⟨hk.trans_le heffects.created_le, ?_⟩
        exact heffects.keeps (P := fun e => r ∈ e.sent) hk
          (fun e a _ hmem => mem_sent_step hmem a) hsent
      · rcases newlyPromised_spec hnew with ⟨p, rfl, hsession, rfl⟩
        have hk := Run.holdsCreated hrun k hsession
        refine ⟨hk.trans_le heffects.created_le, ?_⟩
        change _ ∈ ((w.client.send target p).heap.object k).sent
        simp only [Client.send, hsession, Client.call, SessionHeap.object_call_self]
        exact List.mem_append_right _ (List.mem_singleton_self _)
    · exact ih

/-- A session of the server has returned a copy of the packet, or buffered one. -/
def Reaches (w : Connection) (σ k : ℕ) (r : SentRecord) : Prop :=
  ∃ x, IsCopyFrom k r x ∧
    (x ∈ (w.server.heap.object σ).returned ∨ (σ, x) ∈ w.buffered)

/-- What a session of the server has accepted of the packets that it owes to the client, it
has returned or buffered. -/
def Placed (w : Connection) : Prop :=
  ∀ σ < w.server.heap.created, ∀ x ∈ (w.server.heap.object σ).accepted, ∀ k r, r ∈ w.owed k →
    IsCopyFrom k r x → (w.client.heap.object k).session.issued ≤ 2 ^ 32 → w.Reaches σ k r

/-- No packet that was accepted before is a copy of one that the client sends now. -/
theorem Run.not_copy_of_new (h : Run target clientEndpoint serverEndpoint condition w) {σ k : ℕ}
    (hσ : σ < w.server.heap.created) {x : Incoming}
    (hx : x ∈ (w.server.heap.object σ).accepted) {p : Packet}
    (hissued : (w.client.heap.object k).session.issued < 2 ^ 32) :
    ¬ IsCopyFrom k (recordOf (w.client.heap.object k).session p) x := by
  rintro ⟨hemitter, hcopy⟩
  rcases h.accepted_drawn hσ hx hemitter with ⟨index, hlt, hid⟩
  have hk := (h.accepted_origin hσ hx hemitter).1
  have hcounter := (h.clientRuns k hk).sendInvariant.counter
  have hsame : UInt32.ofNat index = UInt32.ofNat (w.client.heap.object k).session.issued := by
    rw [← hid, ← hcounter]
    exact hcopy.sequenceId_eq
  have heq := ofNat_inj (by omega) hissued hsame
  omega

/-- A step of the client leaves what the server has placed. -/
theorem Run.placed_client (h : Run target clientEndpoint serverEndpoint condition w)
    (hplaced : w.Placed) (act : Client.Act) : (w.step target (.client act)).Placed := by
  intro σ hσ x hx k r hr hcopy hissued
  rcases mem_owed.mp hr with ⟨hpromised, hflag, happ⟩
  rcases List.mem_append.mp hpromised with hold | hnew
  · have hk := (h.promised_sent k r hold).1
    have hgrows := (Client.step_effects target w.client act).grows h.clientRuns hk
    exact hplaced σ hσ x hx k r (mem_owed.mpr ⟨hold, hflag, happ⟩) hcopy
      (hgrows.issued_le.trans hissued)
  · rcases newlyPromised_spec hnew with ⟨p, rfl, hsession, rfl⟩
    have hdraws : (w.client.heap.object k).session.issued <
        ((w.step target (.client (.send p))).client.heap.object k).session.issued := by
      change _ < ((w.client.send target p).heap.object k).session.issued
      simp only [Client.send, hsession, Client.call, SessionHeap.object_call_self]
      exact issued_lt_send _ p
    exact absurd hcopy (h.not_copy_of_new hσ hx (hdraws.trans_le hissued))

/-- The server returns or buffers the first copy that it accepts of a packet. -/
theorem Run.takes_first (h : Run target clientEndpoint serverEndpoint condition w) {σ k : ℕ}
    {d : Datagram} (hio : w.server.io = .handling σ d) {x : Incoming}
    (hx : (w.server.heap.object σ).session.accepts d = some x)
    (htime : w.AcceptsInTime σ x) {r : SentRecord} (hr : r ∈ w.owed k)
    (hcopy : IsCopyFrom k r x)
    (hearlier : ∀ y ∈ (w.server.heap.object σ).accepted, ¬ IsCopyFrom k r y) :
    x ∈ ((w.server.heap.object σ).step target (.receive d)).returned ∨
      (σ, x) ∈ (w.step target (.server .handle)).buffered := by
  rcases mem_owed.mp hr with ⟨hpromised, -, happ⟩
  have hk := (h.promised_sent k r hpromised).1
  have hpassed := isPassedOn_of_accepts hx hcopy.2 happ
  rcases receive_takes target hx hpassed (htime.2 k hk r hr hcopy hearlier) with
    hreturned | hheld
  · exact Or.inl hreturned
  · exact Or.inr (List.mem_append_right _ (mem_newlyBuffered hio hx hheld))

/-- A step of the server places what it accepts. -/
theorem Run.placed_server (h : Run target clientEndpoint serverEndpoint condition w)
    {act : Server.Act} (hact : w.Condition (.server act)) (hplaced : w.Placed) :
    (w.step target (.server act)).Placed := by
  apply (Server.step_effects target w.server act).preserves
    (P := fun σ e => ∀ x ∈ e.accepted, ∀ k r, r ∈ w.owed k → IsCopyFrom k r x →
      (w.client.heap.object k).session.issued ≤ 2 ^ 32 → ∃ y, IsCopyFrom k r y ∧
        (y ∈ e.returned ∨ (σ, y) ∈ (w.step target (.server act)).buffered))
  · intro σ clock x hx
    cases hx
  · intro σ e a hcall he x hx k r hr hcopy hissued
    cases a with
    | receive d =>
        rcases hcall with ⟨rfl, hio, rfl⟩
        have hkeep : ∀ y, y ∈ (w.server.heap.object σ).accepted → IsCopyFrom k r y →
            ∃ y, IsCopyFrom k r y ∧
              (y ∈ ((w.server.heap.object σ).step target (.receive d)).returned ∨
                (σ, y) ∈ (w.step target (.server .handle)).buffered) := by
          intro y hy hcopyY
          rcases he y hy k r hr hcopyY hissued with ⟨z, hz, hreached⟩
          exact ⟨z, hz, hreached.imp_left (List.mem_append_left _)⟩
        have hmem : x ∈ (w.server.heap.object σ).accepted ++
            ((w.server.heap.object σ).session.accepts d).toList := hx
        rw [List.mem_append, Option.mem_toList] at hmem
        rcases hmem with hold | hnew
        · exact hkeep x hold hcopy
        · simp only [Condition, hio] at hact
          by_cases hearlier : ∀ y ∈ (w.server.heap.object σ).accepted, ¬ IsCopyFrom k r y
          · exact ⟨x, hcopy, h.takes_first hio hnew (hact x hnew) hr hcopy hearlier⟩
          · push Not at hearlier
            rcases hearlier with ⟨y, hy, hcopyY⟩
            exact hkeep y hy hcopyY
    | send p => exact he x hx k r hr hcopy hissued
    | update => exact he x hx k r hr hcopy hissued
    | disconnect => exact he x hx k r hr hcopy hissued
  · intro σ hσ x hx k r hr hcopy hissued
    rcases hplaced σ hσ x hx k r hr hcopy hissued with ⟨y, hy, hreached⟩
    exact ⟨y, hy, hreached.imp_right (List.mem_append_left _)⟩

/-- Whatever was accepted of the owed packets was returned or buffered. -/
theorem Run.placed (h : Run target clientEndpoint serverEndpoint Condition w) :
    w.Placed := by
  apply h.invariant (P := Placed)
  · rintro w rfl σ hσ
    cases hσ
  · rintro w (act | act) hrun hact ih
    · exact Run.placed_client hrun ih act
    · exact Run.placed_server hrun hact.2 ih

/-- An acknowledgement that ends the wait for a packet comes after the packet was passed. -/
theorem Run.passed_of_acknowledged
    (h : Run target clientEndpoint serverEndpoint Condition w) {k : ℕ} {d : Datagram}
    (hio : w.client.io = .handling k d) (hown : w.AcknowledgesOwn k d) {r : SentRecord}
    (hr : r ∈ w.owed k) (hwaits : w.Waits k r) (hacks : Acknowledges d r.sequenceId) :
    w.HasPassed k r := by
  rcases h.inbound hio with ⟨σ, hσ, hmem⟩
  have hrun := h.honestRuns σ hσ
  have hname : d.emitter = Server.name σ := by
    rw [(hrun.sendInvariant.emitted d hmem).1]
    exact hrun.self_eq
  rcases hown r hr hwaits hacks with ⟨hissued, hdistinguishes⟩
  rcases hdistinguishes σ hσ hname with ⟨hforeign, hidle⟩
  rcases List.mem_map.mp (hrun.ackInvariant.reported d hmem r.sequenceId hacks) with
    ⟨x, hx, hid⟩
  have hemitter := hforeign x hx hid
  have hsent := (h.promised_sent k r (mem_owed.mp hr).1).2
  have hcopy := h.isCopy_of_sequenceId hσ hx hemitter hissued hsent hid
  rcases h.placed σ hσ x hx k r hr ⟨hemitter, hcopy⟩ hissued with ⟨y, hy, hreturned | hbuffered⟩
  · rcases h.handsOver σ hσ y hreturned with hpushed | ⟨packets, hpushing, hmemY⟩
    · exact ⟨σ, y, hy, Or.inl hpushed⟩
    · exfalso
      apply hidle
      simp only [IsPushing, hpushing]
      exact ⟨trivial, y, hmemY, hy⟩
  · exact ⟨σ, y, hy, Or.inr hbuffered⟩

/-- A step of the client ends the wait for a packet only when the packet was passed. -/
theorem Run.waits_client (h : Run target clientEndpoint serverEndpoint Condition w)
    {act : Client.Act} (hact : w.Condition (.client act)) {k : ℕ} {r : SentRecord}
    (hr : r ∈ w.owed k) (hwaits : w.Waits k r) :
    (w.step target (.client act)).Waits k r ∨ w.HasPassed k r := by
  have hk := (h.promised_sent k r (mem_owed.mp hr).1).1
  by_cases hacked : ∃ d, act = .handle ∧ w.client.io = .handling k d ∧ Acknowledges d r.sequenceId
  · rcases hacked with ⟨d, rfl, hio, hacks⟩
    simp only [Condition, hio] at hact
    exact Or.inr (h.passed_of_acknowledged hio hact hr hwaits hacks)
  · left
    apply (Client.step_effects target w.client act).keeps
      (P := fun e => r.sequenceId ∈ e.session.sentPackets) hk
    · intro e a hcall hmem
      rcases step_waits target a hmem with hkept | ⟨d, rfl, hacks⟩
      · exact hkept
      · rcases hcall d rfl with ⟨hhandle, hio⟩
        exact absurd ⟨d, hhandle, hio, hacks⟩ hacked
    · exact hwaits

/-- What was passed stays passed. -/
theorem HasPassed.step {k : ℕ} {r : SentRecord} (h : w.HasPassed k r) (act : Act) :
    (w.step target act).HasPassed k r := by
  rcases act with act | act
  · exact h
  · rcases h with ⟨σ, x, hcopy, hpushed | hbuffered⟩
    · exact ⟨σ, x, hcopy, Or.inl (Server.mem_pushed_step hpushed act)⟩
    · exact ⟨σ, x, hcopy, Or.inr (List.mem_append_left _ hbuffered)⟩

/-- The client waits for every owed packet that was not passed. -/
theorem Run.waits_or_passed
    (h : Run target clientEndpoint serverEndpoint Condition w) :
    ∀ k r, r ∈ w.owed k → w.Waits k r ∨ w.HasPassed k r := by
  apply h.invariant (P := fun w => ∀ k r, r ∈ w.owed k → w.Waits k r ∨ w.HasPassed k r)
  · rintro w rfl k r hr
    cases hr
  · rintro w (act | act) hrun hact ih k r hr
    · rcases mem_owed.mp hr with ⟨hpromised, hflag, happ⟩
      rcases List.mem_append.mp hpromised with hold | hnew
      · have howed := mem_owed.mpr ⟨hold, hflag, happ⟩
        rcases ih k r howed with hwaits | hpassed
        · exact (Run.waits_client hrun hact.2 howed hwaits).imp_right fun h => h.step _
        · exact Or.inr (hpassed.step _)
      · rcases newlyPromised_spec hnew with ⟨p, rfl, hsession, rfl⟩
        left
        change _ ∈ ((w.client.send target p).heap.object k).session.sentPackets
        simp only [Client.send, hsession, Client.call, SessionHeap.object_call_self]
        exact Session.mem_send_self hflag
    · exact (ih k r hr).imp_right fun h => h.step _

/-! ## No data is swallowed -/

/-- In every run whose steps meet the condition, a packet for the application that the client
sent reliably while it was connected, and no longer waits for, was passed by the server to
its event queue or to a reorder buffer. -/
theorem reconnection_swallows_nothing
    (h : Run target clientEndpoint serverEndpoint Condition w) {k : ℕ} {r : SentRecord}
    (hpromised : (k, r) ∈ w.promised) (hflag : r.packet.flag ≠ Flag.kUnreliable)
    (happ : ForApplication r.packet)
    (hgone : r.sequenceId ∉ (w.client.heap.object k).session.sentPackets) :
    ∃ σ x, x.emitter = Client.name k ∧ IsCopy x r ∧
      ((σ, x) ∈ w.server.pushed ∨ (σ, x) ∈ w.buffered) := by
  have howed := mem_owed.mpr ⟨hpromised, hflag, happ⟩
  rcases (h.waits_or_passed k r howed).resolve_left hgone with ⟨σ, x, hcopy, hpassed⟩
  exact ⟨σ, x, hcopy.1, hcopy.2, hpassed⟩

/-! ## Concrete runs -/

/-- A clock that stands still. -/
def stillClock : Stream' Time := Stream'.const 0

/-- Steps that do not depend on the state. -/
def steps (acts : List Act) : List (Connection → Act) :=
  acts.map fun act _ => act

/-- A datagram that a session of the client has emitted, by position, arrives at the server
and is worked through. -/
def toServer (k n : ℕ) : List (Connection → Act) :=
  [fun w => .server (.receive 7
    ((w.client.heap.object k).session.outbox.getD n ⟨0, []⟩) stillClock)] ++
    steps [.server .announce, .server .handle, .server .pushEvent]

/-- A datagram that the first session of the server has emitted arrives at the client and
is worked through. -/
def toClient (n : ℕ) : List (Connection → Act) :=
  [fun w => .client (.receive 1 ((w.server.heap.object 0).session.outbox.getD n ⟨0, []⟩))] ++
    steps [.client .handle, .client .pushEvent]

/-- The client connects. -/
def handshake : List (Connection → Act) :=
  steps [.client (.connect 1 0 stillClock)] ++ toServer 0 0 ++
    steps [.server .beginUpdate, .server .popEvent, .server .runTask, .server .popEvent,
      .server .runTask] ++
    toClient 0 ++ steps [.client .beginUpdate, .client .popEvent, .client .runTask]

/-- The client sends a reliable packet, and a packet of the server acknowledges it. -/
def exchange : List (Connection → Act) :=
  steps [.client (.send (Packet.new 200 Flag.kReliable))] ++ toServer 0 1 ++
    steps [.server (.send 0 (Packet.new 201))] ++ toClient 1 ++
    steps [.client .popEvent, .client .runTask]

/-- The state at the end of a run. -/
def play (choices : List (Connection → Act)) : Connection :=
  choices.foldl (fun w choice => step .x86 w (choice w)) new

theorem Run.play {choices : List (Connection → Act)}
    (h : AllowedRun (fun w choice => step .x86 w (choice w))
      (fun w choice => w.Authentic 7 1 (choice w) ∧ condition w (choice w)) new choices) :
    Run .x86 7 1 condition (play choices) :=
  Reachable.choose run_new h

/-- The acknowledged packet of the exchange was passed. -/
theorem exchange_swallows_nothing :
    ∃ σ x, x.emitter = Client.name 0 ∧ IsCopy x ⟨1, 1, 0, Packet.new 200 Flag.kReliable⟩ ∧
      ((σ, x) ∈ (play (handshake ++ exchange)).server.pushed ∨
        (σ, x) ∈ (play (handshake ++ exchange)).buffered) := by
  have hrun : Run .x86 7 1 Condition (play (handshake ++ exchange)) := by
    apply Run.play
    decide +kernel
  have hpromised : (0, (⟨1, 1, 0, Packet.new 200 Flag.kReliable⟩ : SentRecord)) ∈
      (play (handshake ++ exchange)).promised := by decide +kernel
  exact reconnection_swallows_nothing hrun hpromised (by decide) (by decide) (by decide +kernel)

/-- The client disconnects, which the server does not learn, and connects again.  The session
that the server still has answers. -/
def reconnect : List (Connection → Act) :=
  steps [.client .disconnect, .client (.connect 1 0 stillClock)] ++ toServer 1 0 ++ toClient 2 ++
    steps [.client .popEvent, .client .runTask, .client .popEvent, .client .runTask]

/-- The client sends a reliable packet on its new session, and a packet of the server
acknowledges its id. -/
def secondExchange : List (Connection → Act) :=
  steps [.client (.send (Packet.new 202 Flag.kReliable))] ++ toServer 1 1 ++
    steps [.server (.send 0 (Packet.new 203))] ++ toClient 3

/-- Without the condition a reconnection swallows data: the server refuses the packet as the
duplicate of the one that the first session of the client sent under the same id. -/
theorem reconnection_swallows :
    ¬ ∀ (target : LeftShift) (clientEndpoint serverEndpoint : UdpEndpoint) (w : Connection),
      Run target clientEndpoint serverEndpoint Unconditional w → ∀ k r, (k, r) ∈ w.promised →
        r.packet.flag ≠ Flag.kUnreliable → ForApplication r.packet →
          r.sequenceId ∉ (w.client.heap.object k).session.sentPackets →
            ∃ σ x, x.emitter = Client.name k ∧ IsCopy x r ∧
              ((σ, x) ∈ w.server.pushed ∨ (σ, x) ∈ w.buffered) := by
  intro h
  let w := play (handshake ++ exchange ++ reconnect ++ secondExchange)
  have hrun : Run .x86 7 1 Unconditional w := by
    apply Run.play
    decide +kernel
  have hpromised : (1, (⟨1, 1, 0, Packet.new 202 Flag.kReliable⟩ : SentRecord)) ∈ w.promised := by
    decide +kernel
  have hgone : (1 : UInt32) ∉ (w.client.heap.object 1).session.sentPackets := by
    decide +kernel
  have hfirst : ∀ entry ∈ w.server.pushed, entry.2.emitter ≠ Client.name 1 := by
    decide +kernel
  have hbuffered : w.buffered = [] := by
    decide +kernel
  rcases h .x86 7 1 w hrun 1 _ hpromised (by decide) (by decide) hgone with
    ⟨σ, x, hemitter, -, hpushed | hheld⟩
  · exact hfirst (σ, x) hpushed hemitter
  · rw [hbuffered] at hheld
    cases hheld

end Connection

end Rtype.Rtnt
