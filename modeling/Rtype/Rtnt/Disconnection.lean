import Rtype.Rtnt.Replay
import Rtype.Rtnt.Server

/-!
# rtnt - Disconnection

When the server has reported a session as disconnected, the application forgets
it, and must not hear of it again.  The locked region of {lit}`update` does drop the
session from the map, but a packet of it may be in the queue at that moment, or
in the hands of the I/O thread.

Main results:

- Structure {lit}`Server.Invariant`: nothing is left of dropped sessions.
- Theorem {lit}`Server.silent_after_disconnect`: no packet of a reported session is
  dispatched, in every run that drops a session only when none is on its way.

Current gaps:

- None.
-/

namespace Rtype.Rtnt

open Std (TreeMap)
open Transition

/-! ## What a reception returns -/

namespace Session

/-- The state of the channels of a session. -/
def reorder (s : Session) :
    TreeMap UInt8 UInt32 × TreeMap UInt8 (TreeMap UInt32 Incoming) :=
  (s.nextExpectedOrderIds, s.reorderBuffers)

theorem reorder_sendAck (s : Session) : s.sendAck.reorder = s.reorder := by
  obtain ⟨_, _, _, _, _, _, _, hframe⟩ := Endpoint.sendAck_frame s
  rw [hframe]
  rfl

theorem reorder_accept (target : LeftShift) (s : Session) (id : UInt32) :
    (s.accept target id).reorder = s.reorder := by
  obtain ⟨has, head, bits, history, unsent, hupdate⟩ :=
    Endpoint.updateAcknowledgeInfo_eq target s id
  simp only [accept, hupdate]
  split_ifs
  · rw [reorder_sendAck]
    rfl
  · rfl

/-- The packets that a delivery returns depend on the channels only. -/
theorem deliver_returns_congr {s s' : Session} (h : s'.reorder = s.reorder) (header : Header)
    (d : Datagram) : (s'.deliver header d).2 = (s.deliver header d).2 := by
  simp only [reorder, Prod.mk.injEq] at h
  unfold deliver deliverOrdered
  simp only [h.1, h.2]
  split_ifs <;> rfl

/-- The packets that a reception returns depend on the receive window and on the
channels only. -/
theorem handleIncoming_returns_congr (target : LeftShift) {s s' : Session}
    (hwindow : s'.window = s.window) (hreorder : s'.reorder = s.reorder) (d : Datagram) :
    (s'.handleIncoming target d).2 = (s.handleIncoming target d).2 := by
  unfold handleIncoming
  cases Header.parse d.bytes with
  | error e => rfl
  | ok header =>
      have hdup := Endpoint.isDuplicate_acknowledge s header header.sequenceId
      have hdup' := Endpoint.isDuplicate_acknowledge s' header header.sequenceId
      obtain ⟨stored, hacked, -⟩ := Endpoint.acknowledge_eq (Endpoint.seen s) header
      obtain ⟨stored', hacked', -⟩ := Endpoint.acknowledge_eq (Endpoint.seen s') header
      rw [isDuplicate_eq_of_window hwindow] at hdup'
      rw [Endpoint.seen] at hdup hdup' hacked hacked'
      simp only [hdup, hdup']
      split_ifs
      · rfl
      · apply deliver_returns_congr
        rw [reorder_accept, reorder_accept, hacked, hacked']
        exact hreorder

theorem handleIncoming_returns_send (target : LeftShift) (s : Session) (p : Packet)
    (d : Datagram) : ((s.send p).handleIncoming target d).2 = (s.handleIncoming target d).2 := by
  apply handleIncoming_returns_congr
  · unfold send
    simp only
    split_ifs <;> rfl
  · unfold send
    simp only
    split_ifs <;> rfl

theorem handleIncoming_returns_disconnect (target : LeftShift) (s : Session) (d : Datagram) :
    (s.disconnect.handleIncoming target d).2 = (s.handleIncoming target d).2 := by
  apply handleIncoming_returns_congr
  · rfl
  · rfl

end Session

namespace Server

variable {target : LeftShift} {v : Server}

/-! ## Packets on their way -/

/-- The packets of a session that the running call of `onReceive` is about to queue. -/
def upcoming (target : LeftShift) (v : Server) (session : ℕ) : List Incoming :=
  match v.io with
  | .idle => []
  | .announcing s d =>
      if s = session then ((v.heap.object s).session.handleIncoming target d).2 else []
  | .handling s d =>
      if s = session then ((v.heap.object s).session.handleIncoming target d).2 else []
  | .pushing s packets => if s = session then packets else []

/-- A packet of the session is in the queue or about to be queued. -/
def OnItsWay (target : LeftShift) (v : Server) (session : ℕ) : Prop :=
  (∃ x, .packet session x ∈ v.eventQueue) ∨ v.upcoming target session ≠ []

theorem upcoming_congr {v v' : Server} {session : ℕ} (hio : v'.io = v.io)
    (hreturns : ∀ d, ((v'.heap.object session).session.handleIncoming target d).2 =
      ((v.heap.object session).session.handleIncoming target d).2) :
    v'.upcoming target session = v.upcoming target session := by
  unfold upcoming
  rw [hio]
  split
  · rfl
  · split_ifs with hs
    · subst hs
      exact hreturns _
    · rfl
  · split_ifs with hs
    · subst hs
      exact hreturns _
    · rfl
  · rfl

/-- The session was dropped from the map; it is reported, or will be in this `update`. -/
def Dropped (v : Server) (session : ℕ) : Prop :=
  .disconnected session ∈ v.log ∨ ∃ rest, v.main = .notifying rest ∧ session ∈ rest

/-- The second event does not dispatch a packet of the session that the first one
reports. -/
def Allows (first second : Event) : Prop :=
  ∀ session x, first = .disconnected session → second ≠ .dispatched session x

/-- After a session was reported, no packet of it is dispatched. -/
def Silent (log : List Event) : Prop :=
  log.Pairwise Allows

theorem Silent.append {log : List Event} (h : Silent log) {event : Event}
    (hevent : ∀ session x, event = .dispatched session x → .disconnected session ∉ log) :
    Silent (log ++ [event]) := by
  apply List.pairwise_append.mpr
  refine ⟨h, List.pairwise_singleton _ _, ?_⟩
  intro first hfirst second hsecond session x hdisconnected hdispatched
  rw [List.mem_singleton.mp hsecond] at hdispatched
  exact hevent session x hdispatched (hdisconnected ▸ hfirst)

/-- Nothing of the session is left in the server. -/
structure Quiet (target : LeftShift) (v : Server) (session : ℕ) : Prop where
  created : session < v.heap.created
  unmapped : ∀ endpoint : UdpEndpoint, v.sessions[endpoint]? ≠ some session
  unqueued : ∀ x, .packet session x ∉ v.eventQueue
  unpopped : ∀ x, v.main ≠ .running (.packet session x)
  nothing : v.upcoming target session = []

/-- The invariant: the map is one-to-one, and nothing is left of dropped sessions. -/
structure Invariant (target : LeftShift) (v : Server) : Prop where
  range : ∀ (endpoint : UdpEndpoint) (session : ℕ), v.sessions[endpoint]? = some session → session < v.heap.created
  injective : ∀ (endpoint endpoint' : UdpEndpoint) (session : ℕ), v.sessions[endpoint]? = some session →
    v.sessions[endpoint']? = some session → endpoint = endpoint'
  quiet : ∀ session, v.Dropped session → v.Quiet target session
  silent : Silent v.log

theorem invariant_new (target : LeftShift) : Invariant target new where
  range := by simp [new]
  injective := by simp [new]
  quiet := by
    rintro session (h | ⟨rest, h, -⟩)
    · simp [new] at h
    · cases h
  silent := List.Pairwise.nil

/-! ## The steps -/

/-- A call on an object that is not dropped leaves dropped sessions quiet. -/
theorem Quiet.call_of_ne {session k : ℕ} (h : v.Quiet target session) (hne : session ≠ k)
    (a : Action) : (v.call target k a).Quiet target session where
  created := h.created
  unmapped := h.unmapped
  unqueued := h.unqueued
  unpopped := h.unpopped
  nothing := by
    have hsame : (v.call target k a).upcoming target session = v.upcoming target session :=
      upcoming_congr rfl fun d => by rw [Server.call, SessionHeap.object_call_of_ne hne]
    rw [hsame]
    exact h.nothing

/-- Sending on a session and closing it change nothing of what it returns. -/
theorem Quiet.call {session k : ℕ} (h : v.Quiet target session) {a : Action}
    (ha : (∃ p, a = .send p) ∨ a = .disconnect) : (v.call target k a).Quiet target session := by
  by_cases hne : session = k
  · subst hne
    refine ⟨h.created, h.unmapped, h.unqueued, h.unpopped, ?_⟩
    have hreturns : ∀ d,
        (((v.call target session a).heap.object session).session.handleIncoming target d).2 =
          ((v.heap.object session).session.handleIncoming target d).2 := by
      intro d
      rw [Server.call, SessionHeap.object_call_self]
      rcases ha with ⟨p, rfl⟩ | rfl
      · exact Session.handleIncoming_returns_send target _ p d
      · exact Session.handleIncoming_returns_disconnect target _ d
    have hsame : (v.call target session a).upcoming target session = v.upcoming target session :=
      upcoming_congr rfl hreturns
    rw [hsame]
    exact h.nothing
  · exact h.call_of_ne hne a

theorem Invariant.call {k : ℕ} (h : Invariant target v) {a : Action}
    (ha : (∃ p, a = .send p) ∨ a = .disconnect) : Invariant target (v.call target k a) where
  range := h.range
  injective := h.injective
  quiet session hdropped := (h.quiet session hdropped).call ha
  silent := h.silent

theorem upcoming_of_idle (hidle : v.io = .idle) (session : ℕ) :
    v.upcoming target session = [] := by
  unfold upcoming
  rw [hidle]

/-- The I/O thread takes up a datagram of a session that is in the map, or of one that
enters it. -/
theorem Invariant.receive (h : Invariant target v) (sender : UdpEndpoint) (d : Datagram)
    (clock : Stream' Time) : Invariant target (v.receive target sender d clock) := by
  unfold Server.receive
  by_cases hidle : v.io = .idle
  · rw [if_pos hidle]
    cases hfound : v.sessions[sender]? with
    | some k =>
        simp only
        by_cases hconnect : isConnect d = true
        · rw [if_pos hconnect]
          exact h.call (Or.inl ⟨_, rfl⟩)
        · rw [if_neg hconnect]
          refine ⟨h.range, h.injective, fun session hdropped => ?_, h.silent⟩
          have hquiet := h.quiet session hdropped
          have hne : k ≠ session := by
            rintro rfl
            exact hquiet.unmapped sender hfound
          refine ⟨hquiet.created, hquiet.unmapped, hquiet.unqueued, hquiet.unpopped, ?_⟩
          simp only [upcoming, if_neg hne]
    | none =>
        simp only
        by_cases hconnect : isConnect d = true
        · rw [if_pos hconnect]
          have hget : ∀ (endpoint : UdpEndpoint) (session : ℕ),
              (v.sessions.insert sender v.heap.created)[endpoint]? = some session →
              endpoint = sender ∧ session = v.heap.created ∨
                v.sessions[endpoint]? = some session := by
            intro endpoint session hsession
            rw [TreeMap.getElem?_insert] at hsession
            split_ifs at hsession with hcompare
            · rw [Nat.compare_eq_eq] at hcompare
              exact Or.inl ⟨hcompare.symm, (Option.some.inj hsession).symm⟩
            · exact Or.inr hsession
          constructor
          case range =>
            intro endpoint session hsession
            rw [SessionHeap.created_create]
            rcases hget endpoint session hsession with ⟨-, rfl⟩ | hold
            · exact Nat.lt_succ_self _
            · exact (h.range endpoint session hold).trans (Nat.lt_succ_self _)
          case injective =>
            intro endpoint endpoint' session hsession hsession'
            rcases hget endpoint session hsession with ⟨rfl, rfl⟩ | hold
            · rcases hget endpoint' _ hsession' with ⟨rfl, -⟩ | hold'
              · rfl
              · exact absurd (h.range endpoint' _ hold') (lt_irrefl _)
            · rcases hget endpoint' _ hsession' with ⟨-, rfl⟩ | hold'
              · exact absurd (h.range endpoint _ hold) (lt_irrefl _)
              · exact h.injective endpoint endpoint' session hold hold'
          case quiet =>
            intro session hdropped
            have hquiet := h.quiet session hdropped
            have hne : v.heap.created ≠ session := hquiet.created.ne'
            refine ⟨hquiet.created.trans (Nat.lt_succ_self _), fun endpoint hsession => ?_,
              hquiet.unqueued, hquiet.unpopped, ?_⟩
            · rcases hget endpoint session hsession with ⟨-, heq⟩ | hold
              · exact hne heq.symm
              · exact hquiet.unmapped endpoint hold
            · simp only [upcoming, if_neg hne]
          case silent => exact h.silent
        · rw [if_neg hconnect]
          exact h
  · rw [if_neg hidle]
    exact h

theorem Invariant.announce (h : Invariant target v) : Invariant target v.announce := by
  cases hio : v.io with
  | announcing k d =>
      have hannounce : v.announce =
          { v with eventQueue := v.eventQueue ++ [.connected k], io := .handling k d } := by
        simp only [Server.announce, hio]
      rw [hannounce]
      refine ⟨h.range, h.injective, fun session hdropped => ?_, h.silent⟩
      have hquiet := h.quiet session hdropped
      refine ⟨hquiet.created, hquiet.unmapped, fun x hx => ?_, hquiet.unpopped, ?_⟩
      · rcases List.mem_append.mp hx with hx | hx
        · exact hquiet.unqueued x hx
        · cases List.mem_singleton.mp hx
      · have hnothing := hquiet.nothing
        simp only [upcoming, hio] at hnothing
        exact hnothing
  | _ =>
      have hannounce : v.announce = v := by
        simp only [Server.announce, hio]
      rwa [hannounce]

theorem upcoming_next {k session : ℕ} {packets : List Incoming}
    (hnone : k = session → packets = []) (heap : SessionHeap) :
    { v with heap := heap, io := IoThread.next k packets }.upcoming target session = [] := by
  cases packets with
  | nil => rfl
  | cons x rest =>
      have hne : k ≠ session := fun heq => by cases hnone heq
      simp only [upcoming, IoThread.next, if_neg hne]

/-- A session that returns nothing has nothing queued. -/
theorem Invariant.handle (h : Invariant target v) : Invariant target (v.handle target) := by
  cases hio : v.io with
  | handling k d =>
      let packets := ((v.heap.object k).session.handleIncoming target d).2
      have hhandle : v.handle target =
          { v.call target k (.receive d) with io := .next k packets } := by
        simp only [Server.handle, hio, packets]
      rw [hhandle]
      refine ⟨h.range, h.injective, fun session hdropped => ?_, h.silent⟩
      have hquiet := h.quiet session hdropped
      refine ⟨hquiet.created, hquiet.unmapped, hquiet.unqueued, hquiet.unpopped, ?_⟩
      refine upcoming_next (v := v) (fun heq => ?_) _
      have hnothing := hquiet.nothing
      simp only [upcoming, hio, if_pos heq] at hnothing
      exact hnothing
  | _ =>
      have hhandle : v.handle target = v := by
        simp only [Server.handle, hio]
      rwa [hhandle]

/-- A packet that is queued is not one of a dropped session. -/
theorem Invariant.pushEvent (h : Invariant target v) : Invariant target v.pushEvent := by
  unfold Server.pushEvent
  split
  next k x packets hio =>
    refine ⟨h.range, h.injective, fun session hdropped => ?_, h.silent⟩
    have hquiet := h.quiet session hdropped
    have hne : k ≠ session := by
      rintro rfl
      have hnothing := hquiet.nothing
      simp [upcoming, hio] at hnothing
    refine ⟨hquiet.created, hquiet.unmapped, fun y hy => ?_, hquiet.unpopped, ?_⟩
    · rcases List.mem_append.mp hy with hy | hy
      · exact hquiet.unqueued y hy
      · rw [List.mem_singleton, Task.packet.injEq] at hy
        exact hne hy.1.symm
    · cases packets with
      | nil => rfl
      | cons z rest => simp only [upcoming, IoThread.next, if_neg hne]
  next => exact h

/-- A change of the main thread that reports nothing keeps the invariant when the new
task is not a packet of a dropped session. -/
theorem Invariant.moveMain (h : Invariant target v) {main : MainThread} {queue : List Task}
    (hmain : ∀ rest, main = .notifying rest → v.main = .notifying rest)
    (hqueue : ∀ task ∈ queue, task ∈ v.eventQueue)
    (hrunning : ∀ task, main = .running task → task ∈ v.eventQueue) :
    Invariant target { v with eventQueue := queue, main := main } := by
  refine ⟨h.range, h.injective, fun session hdropped => ?_, h.silent⟩
  have hbefore : v.Dropped session := by
    rcases hdropped with hlog | ⟨rest, hrest, hmem⟩
    · exact Or.inl hlog
    · exact Or.inr ⟨rest, hmain rest hrest, hmem⟩
  have hquiet := h.quiet session hbefore
  refine ⟨hquiet.created, hquiet.unmapped, fun x hx => hquiet.unqueued x (hqueue _ hx),
    fun x hx => hquiet.unqueued x (hrunning _ hx), ?_⟩
  exact (upcoming_congr (v := v) rfl fun d => rfl).trans hquiet.nothing

theorem Invariant.beginUpdate (h : Invariant target v) : Invariant target v.beginUpdate := by
  unfold Server.beginUpdate
  split_ifs
  · exact h.moveMain (by simp) (fun _ htask => htask) (by simp)
  · exact h

theorem Invariant.popEvent (h : Invariant target v) : Invariant target v.popEvent := by
  unfold Server.popEvent
  by_cases hmain : v.main = .processing
  · rw [if_pos hmain]
    split
    next task rest hqueue =>
      refine h.moveMain (by simp) (fun t ht => ?_) fun t ht => ?_
      · rw [hqueue]
        exact List.mem_cons_of_mem _ ht
      · rw [MainThread.running.injEq] at ht
        rw [hqueue, ht]
        exact List.mem_cons_self
    next =>
      exact h.moveMain (by simp) (fun _ htask => htask) (by simp)
  · rw [if_neg hmain]
    exact h

theorem Invariant.dispatch (h : Invariant target v) (k : ℕ) (p : Packet) :
    Invariant target (v.dispatch target k p) := by
  unfold Server.dispatch
  split_ifs
  · exact h.call (Or.inl ⟨_, rfl⟩)
  · exact h.call (Or.inr rfl)
  · exact h

theorem dispatch_frame (target : LeftShift) (v : Server) (k : ℕ) (p : Packet) :
    ∃ heap, v.dispatch target k p = { v with heap := heap } := by
  unfold Server.dispatch
  split_ifs
  · exact ⟨_, rfl⟩
  · exact ⟨_, rfl⟩
  · exact ⟨_, rfl⟩

/-- A popped packet is not one of a reported session. -/
theorem Invariant.runTask (h : Invariant target v) : Invariant target (v.runTask target) := by
  cases hmain : v.main with
  | running task =>
      cases task with
      | connected k =>
          have hrun : v.runTask target = { v with main := .processing } := by
            simp only [Server.runTask, hmain]
          rw [hrun]
          exact h.moveMain (by simp) (fun _ htask => htask) (by simp)
      | packet k x =>
          obtain ⟨heap, hdispatch⟩ := dispatch_frame target v k x.packet
          have hrun : v.runTask target =
              { v.dispatch target k x.packet with
                main := .processing
                log := v.log ++ [.dispatched k x] } := by
            simp only [Server.runTask, hmain]
          have hquietAfter : Server.Invariant target
              { v.dispatch target k x.packet with main := .processing } :=
            (h.dispatch k x.packet).moveMain (by simp) (fun _ htask => htask) (by simp)
          rw [hrun]
          rw [hdispatch] at hquietAfter ⊢
          have hreported : ∀ session,
              Event.disconnected session ∈ v.log ++ [Event.dispatched k x] →
                Event.disconnected session ∈ v.log := by
            intro session hsession
            rcases List.mem_append.mp hsession with hsession | hsession
            · exact hsession
            · cases List.mem_singleton.mp hsession
          refine ⟨hquietAfter.range, hquietAfter.injective, fun session hdropped => ?_, ?_⟩
          · rcases hdropped with hlog | ⟨rest, hrest, -⟩
            · have hquiet := hquietAfter.quiet session (Or.inl (hreported session hlog))
              exact ⟨hquiet.1, hquiet.2, hquiet.3, hquiet.4, hquiet.5⟩
            · cases hrest
          · refine h.silent.append fun session y heq hlog => ?_
            rw [Event.dispatched.injEq] at heq
            rw [← heq.1] at hlog
            exact (h.quiet k (Or.inl hlog)).unpopped x hmain
  | _ =>
      have hrun : v.runTask target = v := by
        simp only [Server.runTask, hmain]
      rwa [hrun]

theorem Invariant.notify (h : Invariant target v) : Invariant target v.notify := by
  unfold Server.notify
  split
  next k rest hmain =>
    have hbefore : ∀ session,
        { v with
          main := .notifying rest
          log := v.log ++ [Event.disconnected k] }.Dropped session →
          v.Dropped session := by
      rintro session (hlog | ⟨rest', hrest, hmem⟩)
      · rcases List.mem_append.mp hlog with hlog | hlog
        · exact Or.inl hlog
        · rw [List.mem_singleton, Event.disconnected.injEq] at hlog
          exact Or.inr ⟨_, hmain, hlog ▸ List.mem_cons_self⟩
      · rw [MainThread.notifying.injEq] at hrest
        exact Or.inr ⟨_, hmain, List.mem_cons_of_mem _ (hrest ▸ hmem)⟩
    refine ⟨h.range, h.injective, fun session hdropped => ?_, ?_⟩
    · have hquiet := h.quiet session (hbefore session hdropped)
      exact ⟨hquiet.1, hquiet.2, hquiet.3, by simp, hquiet.5⟩
    · exact h.silent.append fun session x heq => by cases heq
  next => exact h.moveMain (by simp) (fun _ htask => htask) (by simp)
  next => exact h

/-- The entries of a one-to-one map name each session once. -/
theorem Invariant.nodup (h : Invariant target v) : (v.sessions.toList.map Prod.snd).Nodup := by
  rw [List.Nodup, List.pairwise_map]
  apply TreeMap.distinct_keys_toList.imp_of_mem
  rintro ⟨endpoint, session⟩ ⟨endpoint', session'⟩ hmem hmem' hne heq
  rw [TreeMap.mem_toList_iff_getElem?_eq_some] at hmem hmem'
  simp only at heq hne
  rw [← heq] at hmem'
  apply hne
  rw [Nat.compare_eq_eq]
  exact h.injective endpoint endpoint' session hmem hmem'

/-- The sessions dropped by the locked region are quiet if none of their packets was on
its way. -/
theorem Invariant.sweep (h : Invariant target v) {timeout : ℤ} {now : Time}
    (hquiet : v.main = .sweeping → ∀ (endpoint : UdpEndpoint) (session : ℕ),
      v.sessions[endpoint]? = some session → v.expired timeout now session = true →
        ¬ v.OnItsWay target session) : Invariant target (v.sweep target timeout now) := by
  unfold Server.sweep
  split_ifs with hmain
  · have hswept : Swept target timeout now v.sessions.toList v [] _ :=
      sweepLoop_swept v.sessions.toList v [] h.nodup
    generalize sweepLoop target timeout now v.sessions.toList v [] = r at hswept
    obtain ⟨w, disconnected⟩ := r
    simp only at hswept ⊢
    have hframe : w.eventQueue = v.eventQueue ∧ w.io = v.io ∧ w.log = v.log := by
      have hw : w = { v with heap := w.heap, sessions := w.sessions } := hswept.frame
      rw [hw]
      exact ⟨rfl, rfl, rfl⟩
    have hmem : ∀ (endpoint : UdpEndpoint) (session : ℕ),
        (endpoint, session) ∈ v.sessions.toList ↔ v.sessions[endpoint]? = some session :=
      fun _ _ => TreeMap.mem_toList_iff_getElem?_eq_some
    have hdisconnected : ∀ session, session ∈ disconnected →
        (∃ endpoint : UdpEndpoint, v.sessions[endpoint]? = some session) ∧
          v.expired timeout now session = true := by
      intro session hsession
      rcases (hswept.dropped session).mp hsession with hnil | ⟨⟨endpoint, hentry⟩, hexpired⟩
      · cases hnil
      · exact ⟨⟨endpoint, (hmem endpoint session).mp hentry⟩, hexpired⟩
    constructor
    case range =>
      intro endpoint session hsession
      rw [hswept.created]
      exact h.range endpoint session ((hswept.kept endpoint session).mp hsession).1
    case injective =>
      intro endpoint endpoint' session hsession hsession'
      exact h.injective endpoint endpoint' session ((hswept.kept endpoint session).mp hsession).1
        ((hswept.kept endpoint' session).mp hsession').1
    case silent =>
      rw [hframe.2.2]
      exact h.silent
    case quiet =>
      intro session hdropped
      -- a session dropped before is not in the map, one dropped now is expired
      have hcases : v.Dropped session ∨ session ∈ disconnected := by
        rcases hdropped with hlog | ⟨rest, hrest, hsession⟩
        · rw [hframe.2.2] at hlog
          exact Or.inl (Or.inl hlog)
        · rw [MainThread.notifying.injEq] at hrest
          exact Or.inr (hrest ▸ hsession)
      have hexpired : (∃ endpoint : UdpEndpoint, (endpoint, session) ∈ v.sessions.toList) →
          v.expired timeout now session = true := by
        rintro ⟨endpoint, hentry⟩
        rcases hcases with hold | hnew
        · exact absurd ((hmem endpoint session).mp hentry) ((h.quiet session hold).unmapped endpoint)
        · exact (hdisconnected session hnew).2
      have hstill : w.upcoming target session = v.upcoming target session :=
        upcoming_congr hframe.2.1 fun d => by rw [hswept.untouched session hexpired]
      have hclear : session < v.heap.created ∧ (∀ x, .packet session x ∉ v.eventQueue) ∧
          v.upcoming target session = [] := by
        rcases hcases with hold | hnew
        · have hbefore := h.quiet session hold
          exact ⟨hbefore.created, hbefore.unqueued, hbefore.nothing⟩
        · obtain ⟨⟨endpoint, hsession⟩, hgone⟩ := hdisconnected session hnew
          have hnone := hquiet hmain endpoint session hsession hgone
          rw [OnItsWay, not_or, not_exists, not_not] at hnone
          exact ⟨h.range endpoint session hsession, hnone.1, hnone.2⟩
      refine ⟨?_, fun endpoint hsession => ?_, ?_, by simp, ?_⟩
      · rw [hswept.created]
        exact hclear.1
      · obtain ⟨hbefore, hkept⟩ := (hswept.kept endpoint session).mp hsession
        have hentry := (hmem endpoint session).mpr hbefore
        have hnot := hkept session hentry
        rw [hexpired ⟨endpoint, hentry⟩] at hnot
        cases hnot
      · rw [hframe.1]
        exact hclear.2.1
      · have hsame : { w with main := .notifying disconnected }.upcoming target session =
            w.upcoming target session := rfl
        rw [hsame, hstill]
        exact hclear.2.2
  · exact h

/-! ## Runs -/

/-- The locked region of `update` drops a session only when no packet of it is in the
queue or about to be queued. -/
def DropsQuiet (target : LeftShift) (v : Server) : Act → Prop
  | .sweep timeout now => v.main = .sweeping → ∀ (endpoint : UdpEndpoint) (session : ℕ),
      v.sessions[endpoint]? = some session → v.expired timeout now session = true →
        ¬ v.OnItsWay target session
  | _ => True

theorem Invariant.step (h : Invariant target v) {a : Act} (ha : v.DropsQuiet target a) :
    Invariant target (v.step target a) := by
  cases a with
  | receive sender d clock => exact h.receive sender d clock
  | announce => exact h.announce
  | handle => exact h.handle
  | pushEvent => exact h.pushEvent
  | beginUpdate => exact h.beginUpdate
  | popEvent => exact h.popEvent
  | runTask => exact h.runTask
  | sweep timeout now => exact h.sweep ha
  | notify => exact h.notify
  | send session p =>
      simp only [Server.step]
      split_ifs
      · exact h.call (Or.inl ⟨p, rfl⟩)
      · exact h
  | disconnect session =>
      simp only [Server.step]
      split_ifs
      · exact h.call (Or.inr rfl)
      · exact h

/-- The states of all runs whose steps meet a condition. -/
def Run (target : LeftShift) (condition : Server → Act → Prop) : Server → Prop :=
  Reachable (fun v => v = new) (step target) condition

theorem run_new {condition : Server → Act → Prop} : Run target condition new :=
  .start rfl

/-- In every run that drops sessions only when none of their packets is on its way, no
packet of a session is dispatched after the session was reported as disconnected. -/
theorem silent_after_disconnect (h : Run target (DropsQuiet target) v) : Silent v.log := by
  have hinvariant : Invariant target v := by
    refine h.invariant ?_ fun v a _ ha hv => hv.step ha
    rintro v rfl
    exact invariant_new target
  exact hinvariant.silent

/-- The datagrams of a client session that sends CONNECT, a user packet and DISCONNECT. -/
def clientDatagram (k : ℕ) : Datagram :=
  ((((Session.new 0 (Stream'.const 0)).send connectPacket).send (Packet.new 200)).send
    disconnectPacket).outbox.getD k ⟨0, []⟩

/-- The I/O thread works through a datagram from endpoint 7 that returns one packet. -/
def arrival (d : Datagram) : List Act :=
  [.receive 7 d (Stream'.const 0), .handle, .pushEvent]

/-- A client connects and its packets are dispatched. -/
def connection : List Act :=
  [.receive 7 (clientDatagram 0) (Stream'.const 0), .announce, .handle, .pushEvent,
    .beginUpdate, .popEvent, .runTask, .popEvent, .runTask]

/-- Then it disconnects, and the main thread drains the queue. -/
def closing : List Act :=
  connection ++ arrival (clientDatagram 2) ++ [.popEvent, .runTask, .popEvent]

/-- The session is dropped and reported. -/
def farewell : List Act :=
  closing ++ [.sweep 1000 0, .notify]

/-- A session that leaves nothing behind is reported once all its packets were
dispatched. -/
theorem silent_after_farewell : Silent (farewell.foldl (step .x86) new).log := by
  have hempty : (closing.foldl (step .x86) new).eventQueue = [] ∧
      (closing.foldl (step .x86) new).io = .idle := by decide +kernel
  have hrun : Run .x86 (DropsQuiet .x86) (farewell.foldl (step .x86) new) := by
    refine Reachable.run run_new ?_
    refine ⟨trivial, trivial, trivial, trivial, trivial, trivial, trivial, trivial, trivial,
      trivial, trivial, trivial, trivial, trivial, trivial, ?_, trivial, trivial⟩
    intro _ endpoint session _ _
    rintro (⟨x, hx⟩ | hupcoming)
    · exact absurd (hempty.1 ▸ hx) List.not_mem_nil
    · exact hupcoming (upcoming_of_idle hempty.2 session)
  exact silent_after_disconnect hrun

/-- An event without its packet: whether it dispatches one, and the session. -/
def Event.summary : Event → Bool × ℕ
  | .dispatched session _ => (true, session)
  | .disconnected session => (false, session)

theorem Silent.summary {log : List Event} (h : Silent log) :
    (log.map Event.summary).Pairwise fun a b => ¬ (a.1 = false ∧ b = (true, a.2)) := by
  rw [List.pairwise_map]
  apply h.imp
  rintro (⟨s, x⟩ | s) (⟨t, y⟩ | t) hallows
  · simp [Event.summary]
  · simp [Event.summary]
  · rintro ⟨-, heq⟩
    rw [Event.summary, Event.summary, Prod.mk.injEq] at heq
    exact hallows s y rfl (heq.2 ▸ rfl)
  · simp [Event.summary]

/-- A packet that arrives after `update` has drained the queue, for a session that asked
to be closed, is dispatched after the session was reported. -/
def lateArrival : List Act :=
  closing ++ arrival (clientDatagram 1) ++
    [.sweep 1000 0, .notify, .notify, .beginUpdate, .popEvent, .runTask]

theorem dispatched_after_disconnect :
    ¬ ∀ (target : LeftShift) (v : Server), Run target (fun _ _ => True) v → Silent v.log := by
  intro h
  have hrun : Run .x86 (fun _ _ => True) (lateArrival.foldl (step .x86) new) :=
    Reachable.run run_new (allowedRun_of_forall (fun _ _ => trivial) new lateArrival)
  have hsummary := (h .x86 _ hrun).summary
  revert hsummary
  decide +kernel

end Server

end Rtype.Rtnt
