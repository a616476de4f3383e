import Rtype.Rtnt.Acknowledging
import Rtype.Rtnt.Passing
import Rtype.Rtnt.SessionCalls

/-!
# rtnt - A client and a server

One client and one server exchange datagrams between a fixed pair of endpoints, over a
network that loses, delays, reorders and duplicates them.  The client makes a fresh session
for every attempt to connect; the server keeps the session that it has for the endpoint.
Nothing in a datagram says for which session it is meant.

Two lists are not part of either program.  {lit}`promised` names the packets that the client
sent while it was connected, with their sessions, and {lit}`buffered` the packets that went
into a reorder buffer of the server.

Main results:

- Definitions {lit}`Connection.step` and {lit}`Connection.Run`: the runs of the two programs.
- Theorem {lit}`Connection.Run.accepted_origin`: what the server accepts was sent by the
  client session that the datagram names as its emitter.

Current gaps:

- None.
-/

namespace Rtype.Rtnt

open Transition

/-- A client, a server, and what was promised and buffered between them. -/
structure Connection where
  client : Client := .new
  server : Server := .new
  promised : List (ℕ × SentRecord) := []
  buffered : List (ℕ × Incoming) := []

namespace Connection

/-! ## Steps -/

/-- The steps of the two programs. -/
inductive Act where
  | client (act : Client.Act)
  | server (act : Server.Act)

/-- What a connected client sends on its session. -/
def newlyPromised (c : Client) : Client.Act → List (ℕ × SentRecord)
  | .send p =>
      match c.isConnected, c.serverSession with
      | true, some k => [(k, Endpoint.recordOf (c.heap.object k).session p)]
      | _, _ => []
  | _ => []

/-- The packet that a session of the server puts into a reorder buffer. -/
def newlyBuffered (target : LeftShift) (v : Server) : Server.Act → List (ℕ × Incoming)
  | .handle =>
      match v.io with
      | .handling k d =>
          let s := (v.heap.object k).session
          ((s.accepts d).toList.filter fun x =>
            decide ((s.handleIncoming target d).1.Holds x)).map fun x => (k, x)
      | _ => []
  | _ => []

/-- The effect of a step. -/
def step (target : LeftShift) (w : Connection) : Act → Connection
  | .client act =>
      { w with
        client := w.client.step target act
        promised := w.promised ++ newlyPromised w.client act }
  | .server act =>
      { w with
        server := w.server.step target act
        buffered := w.buffered ++ newlyBuffered target w.server act }

/-- Two programs that were just started. -/
def new : Connection := {}

/-! ## The network -/

/-- A session of the client has emitted the datagram. -/
def FromClient (w : Connection) (d : Datagram) : Prop :=
  ∃ k < w.client.heap.created, d ∈ (w.client.heap.object k).session.outbox

/-- A session of the server has emitted the datagram. -/
def FromServer (w : Connection) (d : Datagram) : Prop :=
  ∃ k < w.server.heap.created, d ∈ (w.server.heap.object k).session.outbox

instance (w : Connection) (d : Datagram) : Decidable (w.FromClient d) :=
  inferInstanceAs (Decidable (∃ k < _, _))

instance (w : Connection) (d : Datagram) : Decidable (w.FromServer d) :=
  inferInstanceAs (Decidable (∃ k < _, _))

/-- The client connects to the endpoint of the server, and whatever arrives at one of the two
endpoints was emitted at the other. -/
def Authentic (clientEndpoint serverEndpoint : UdpEndpoint) (w : Connection) : Act → Prop
  | .client (.connect endpoint _ _) => endpoint = serverEndpoint
  | .client (.receive sender d) => sender = serverEndpoint ∧ w.FromServer d
  | .server (.receive sender d _) => sender = clientEndpoint ∧ w.FromClient d
  | _ => True

instance (clientEndpoint serverEndpoint : UdpEndpoint) (w : Connection) (act : Act) :
    Decidable (w.Authentic clientEndpoint serverEndpoint act) := by
  unfold Authentic
  split <;> infer_instance

/-- The states of all runs between two endpoints whose steps meet a condition. -/
def Run (target : LeftShift) (clientEndpoint serverEndpoint : UdpEndpoint)
    (condition : Connection → Act → Prop) : Connection → Prop :=
  Reachable (fun w => w = new) (step target) fun w act =>
    w.Authentic clientEndpoint serverEndpoint act ∧ condition w act

/-- No condition on the steps. -/
def Unconditional (_ : Connection) (_ : Act) : Prop := True

instance (w : Connection) (act : Act) : Decidable (Unconditional w act) :=
  .isTrue trivial

variable {target : LeftShift} {clientEndpoint serverEndpoint : UdpEndpoint}
  {condition : Connection → Act → Prop} {w : Connection}

theorem run_new : Run target clientEndpoint serverEndpoint condition new :=
  .start rfl

/-! ## The sessions of a run -/

/-- Every session of the client is at the end of a run of its own. -/
theorem Run.clientRuns (h : Run target clientEndpoint serverEndpoint condition w) :
    w.client.heap.Runs target .free Client.name := by
  apply h.invariant (P := fun w => w.client.heap.Runs target .free Client.name)
  · rintro w rfl k hk
    cases hk
  · rintro w (act | act) - - ih
    · exact (Client.step_effects target w.client act).runs
        (fun _ e a _ => Endpoint.permits_free e a) ih
    · exact ih

/-- Every session of the server is at the end of a run of its own, under a guard that the
condition maintains. -/
theorem Run.serverRuns {guard : Endpoint.Guard}
    (h : Run target clientEndpoint serverEndpoint condition w)
    (hguard : ∀ w act, condition w (.server act) → ∀ k e a, w.server.Calls act k e a →
      Endpoint.Permits guard e a) : w.server.heap.Runs target guard Server.name := by
  apply h.invariant (P := fun w => w.server.heap.Runs target guard Server.name)
  · rintro w rfl k hk
    cases hk
  · rintro w (act | act) - hact ih
    · exact ih
    · exact (Server.step_effects target w.server act).runs (hguard w act hact.2) ih

/-- Every session of the server is at the end of a run of its own. -/
theorem Run.serverRuns_free (h : Run target clientEndpoint serverEndpoint condition w) :
    w.server.heap.Runs target .free Server.name :=
  h.serverRuns fun _ _ _ _ e a _ => Endpoint.permits_free e a

theorem Run.holdsCreated (h : Run target clientEndpoint serverEndpoint condition w) :
    w.client.HoldsCreated := by
  apply h.invariant (P := fun w => w.client.HoldsCreated)
  · rintro w rfl k hk
    cases hk
  · rintro w (act | act) - - ih
    · exact ih.step act
    · exact ih

theorem Run.handsOver (h : Run target clientEndpoint serverEndpoint condition w) :
    w.server.HandsOver := by
  apply h.invariant (P := fun w => w.server.HandsOver)
  · rintro w rfl k hk
    cases hk
  · rintro w (act | act) - - ih
    · exact ih
    · exact ih.step act

/-! ### Datagrams -/

/-- What was emitted stays emitted. -/
theorem Run.fromClient_step (h : Run target clientEndpoint serverEndpoint condition w)
    {d : Datagram} (hd : w.FromClient d) (act : Act) : (w.step target act).FromClient d := by
  rcases act with act | act
  · rcases hd with ⟨k, hk, hmem⟩
    have heffects := Client.step_effects target w.client act
    exact ⟨k, hk.trans_le heffects.created_le, (heffects.grows h.clientRuns hk).outbox d hmem⟩
  · exact hd

theorem Run.fromServer_step (h : Run target clientEndpoint serverEndpoint condition w)
    {d : Datagram} (hd : w.FromServer d) (act : Act) : (w.step target act).FromServer d := by
  rcases act with act | act
  · exact hd
  · rcases hd with ⟨k, hk, hmem⟩
    have heffects := Server.step_effects target w.server act
    exact ⟨k, hk.trans_le heffects.created_le, (heffects.grows h.serverRuns_free hk).outbox d hmem⟩

/-- What the I/O thread of the client has in its hands was emitted by the server. -/
theorem Run.inbound (h : Run target clientEndpoint serverEndpoint condition w) {k : ℕ}
    {d : Datagram} (hio : w.client.io = .handling k d) : w.FromServer d := by
  have hall : ∀ k d, w.client.io = .handling k d → w.FromServer d := by
    apply h.invariant (P := fun w => ∀ k d, w.client.io = .handling k d → w.FromServer d)
    · rintro w rfl k d hio
      cases hio
    · rintro w (act | act) hrun hact ih k d hio
      · apply Run.fromServer_step hrun
        rcases Client.handling_step hio with hbefore | ⟨sender, rfl⟩
        · exact ih k d hbefore
        · exact hact.1.2
      · exact Run.fromServer_step hrun (ih k d hio) _
  exact hall k d hio

/-- What the I/O thread of the server has in its hands was emitted by the client. -/
theorem Run.outbound (h : Run target clientEndpoint serverEndpoint condition w) {k : ℕ}
    {d : Datagram} (hio : w.server.Hears k d) : w.FromClient d := by
  have hall : ∀ k d, w.server.Hears k d → w.FromClient d := by
    apply h.invariant (P := fun w => ∀ k d, w.server.Hears k d → w.FromClient d)
    · rintro w rfl k d (hio | hio)
      · cases hio
      · cases hio
    · rintro w (act | act) hrun hact ih k d hio
      · exact Run.fromClient_step hrun (ih k d hio) _
      · apply Run.fromClient_step hrun
        rcases Server.hears_step hio with hbefore | ⟨sender, clock, rfl⟩
        · exact ih k d hbefore
        · exact hact.1.2
  exact hall k d hio

/-- What a session of the server has received was emitted by the client. -/
theorem Run.received_emitted (h : Run target clientEndpoint serverEndpoint condition w) :
    ∀ k < w.server.heap.created, ∀ d ∈ (w.server.heap.object k).received, w.FromClient d := by
  apply h.invariant (P := fun w => ∀ k < w.server.heap.created,
    ∀ d ∈ (w.server.heap.object k).received, w.FromClient d)
  · rintro w rfl k hk
    cases hk
  · rintro w (act | act) hrun - ih
    · intro k hk d hd
      exact Run.fromClient_step hrun (ih k hk d hd) _
    · apply (Server.step_effects target w.server act).preserves
        (P := fun _ e => ∀ d ∈ e.received, (w.step target (.server act)).FromClient d)
      · intro k clock d hd
        cases hd
      · intro k e a hcall he d hd
        cases a with
        | receive d' =>
            rcases List.mem_append.mp hd with hd | hd
            · exact he d hd
            · rw [List.mem_singleton.mp hd]
              exact Run.fromClient_step hrun (Run.outbound hrun (Or.inr hcall.2.1)) _
        | send p => exact he d hd
        | update => exact he d hd
        | disconnect => exact he d hd
      · intro k hk d hd
        exact Run.fromClient_step hrun (ih k hk d hd) _

/-! ### Accepted packets -/

/-- An accepted packet comes from the client session that emitted its datagram: it has an
id that the session has drawn, and is a copy of a sent packet or an acknowledgement packet
that the session made under an id of its own. -/
theorem Run.accepted_origin (h : Run target clientEndpoint serverEndpoint condition w) {σ k : ℕ}
    (hσ : σ < w.server.heap.created) {x : Incoming}
    (hx : x ∈ (w.server.heap.object σ).accepted) (hemitter : x.emitter = Client.name k) :
    k < w.client.heap.created ∧
      ((∃ r ∈ (w.client.heap.object k).sent, Endpoint.IsCopy x r) ∨
        ∃ index p, index < (w.client.heap.object k).session.issued ∧
          (∀ r ∈ (w.client.heap.object k).sent, r.index ≠ index) ∧
          Endpoint.IsAckCopy x p index) := by
  rcases (h.serverRuns_free σ hσ).acceptedReceived x hx with ⟨d, hd, hparse, hxd⟩
  rcases h.received_emitted σ hσ d hd with ⟨j, hj, hmem⟩
  have hrun := h.clientRuns j hj
  rcases hrun.sendInvariant.emitted d hmem with ⟨hname, hcarries⟩
  have hjk : j = k := by
    have hnames : Client.name j = Client.name k := by
      rw [← hrun.self_eq, ← hname, ← hemitter, hxd]
      rfl
    simp only [Client.name] at hnames
    omega
  subst hjk
  refine ⟨hj, ?_⟩
  rw [hxd]
  rcases hcarries with ⟨r, hr, hcarries⟩ | ⟨index, p, hlt, hfree, hp, hcarries⟩
  · exact Or.inl ⟨r, hr, Endpoint.isCopy_of_carries hparse hcarries⟩
  · exact Or.inr ⟨index, p, hlt, hfree, Endpoint.isAckCopy_of_carries hparse hp hcarries⟩

/-- The id of an accepted packet is one that its client session has drawn. -/
theorem Run.accepted_drawn (h : Run target clientEndpoint serverEndpoint condition w) {σ k : ℕ}
    (hσ : σ < w.server.heap.created) {x : Incoming}
    (hx : x ∈ (w.server.heap.object σ).accepted) (hemitter : x.emitter = Client.name k) :
    ∃ index < (w.client.heap.object k).session.issued,
      x.header.sequenceId = UInt32.ofNat index := by
  rcases h.accepted_origin hσ hx hemitter with ⟨hk, ⟨r, hr, hcopy⟩ | ⟨index, p, hlt, -, hack⟩⟩
  · rcases (h.clientRuns k hk).sendInvariant.numbered r hr with ⟨hlt, hid⟩
    exact ⟨r.index, hlt, hcopy.sequenceId_eq.trans hid⟩
  · exact ⟨index, hlt, hack.sequenceId_eq⟩

/-- A packet that was accepted from a client session under the id of a sent packet is a copy
of it. -/
theorem Run.isCopy_of_sequenceId (h : Run target clientEndpoint serverEndpoint condition w)
    {σ k : ℕ} (hσ : σ < w.server.heap.created) {x : Incoming}
    (hx : x ∈ (w.server.heap.object σ).accepted) (hemitter : x.emitter = Client.name k)
    (hissued : (w.client.heap.object k).session.issued ≤ 2 ^ 32) {r : SentRecord}
    (hr : r ∈ (w.client.heap.object k).sent) (hid : x.header.sequenceId = r.sequenceId) :
    Endpoint.IsCopy x r := by
  rcases h.accepted_origin hσ hx hemitter with ⟨hk, hcases⟩
  have hsend := (h.clientRuns k hk).sendInvariant
  rcases hcases with ⟨r', hr', hcopy⟩ | ⟨index, p, hlt, hfree, hack⟩
  · have hsame := hsend.eq_of_sequenceId hissued hr' hr (hcopy.sequenceId_eq.symm.trans hid)
    rwa [hsame] at hcopy
  · rcases hsend.numbered r hr with ⟨hrlt, hrid⟩
    have hindex : UInt32.ofNat r.index = UInt32.ofNat index := by
      rw [← hrid, ← hid]
      exact hack.sequenceId_eq
    exact absurd (Endpoint.ofNat_inj (by omega) (by omega) hindex) (hfree r hr)

end Connection

end Rtype.Rtnt
