import Rtype.Rtnt.Disconnection

/-!
# rtnt - What the two programs do to their sessions

Client and server work on their sessions through creations and calls only, and most of their
steps leave the I/O thread alone.  This file says so once, step by step, for the properties
that follow the sessions through a run.

Main results:

- Theorems {lit}`Client.step_effects` and {lit}`Server.step_effects`: which calls a step
  makes.
- Theorem {lit}`Server.HandsOver.step`: what a session of the server returns goes to the
  event queue.
- Theorems {lit}`Client.handling_step` and {lit}`Server.hears_step`: an I/O thread gets its
  datagrams from the network.

Current gaps:

- None.
-/

namespace Rtype.Rtnt

open Std (TreeMap)

/-! ## What a step does to the sessions -/

namespace Client

variable {target : LeftShift} {c : Client}

/-- The calls of a step: a session receives the datagram that it is handling. -/
def Calls (c : Client) (act : Act) (k : ℕ) (_ : Endpoint) (a : Action) : Prop :=
  ∀ d, a = .receive d → act = .handle ∧ c.io = .handling k d

theorem attemptConnection_effects {act : Act} {c' : Client} (hheap : c'.heap = c.heap)
    (now : Time) (clock : Stream' Time) :
    SessionHeap.Effects target name (c.Calls act) c.heap
      (c'.attemptConnection target now clock).heap := by
  have hcreate : SessionHeap.Effect target name (c.Calls act) c.heap
      (c.heap.create (name c.heap.created) clock) := .create c.heap clock
  have hcall : SessionHeap.Effect target name (c.Calls act)
      (c.heap.create (name c.heap.created) clock)
      ((c.heap.create (name c.heap.created) clock).call target c.heap.created
        (.send connectPacket)) := by
    apply SessionHeap.Effect.call
    intro d hd
    cases hd
  simp only [attemptConnection, call, hheap]
  exact (Relation.ReflTransGen.single hcreate).tail hcall

theorem call_effects {act : Act} {k : ℕ} {a : Action}
    (h : ∀ d, a = .receive d → act = .handle ∧ c.io = .handling k d) :
    SessionHeap.Effects target name (c.Calls act) c.heap (c.call target k a).heap :=
  .single (.call c.heap k a h)

theorem disconnect_effects (target : LeftShift) (c : Client) (act : Act) :
    SessionHeap.Effects target name (c.Calls act) c.heap (c.disconnect target).heap := by
  unfold disconnect
  split
  · apply call_effects
    simp
  · exact .refl

theorem dispatch_effects (target : LeftShift) (c : Client) (act : Act) (k : ℕ) (p : Packet) :
    SessionHeap.Effects target name (c.Calls act) c.heap (c.dispatch target k p).heap := by
  unfold dispatch onConnectAck
  split_ifs
  · apply call_effects
    simp
  · apply call_effects
    simp
  · exact .refl
  · exact .refl
  · exact .refl

/-- Whatever a step does to the sessions is made of creations and calls. -/
theorem step_effects (target : LeftShift) (c : Client) (act : Act) :
    SessionHeap.Effects target name (c.Calls act) c.heap (c.step target act).heap := by
  cases act with
  | connect endpoint now clock =>
      simp only [step, connect]
      split_ifs
      · exact .refl
      · exact attemptConnection_effects rfl now clock
  | disconnect => exact disconnect_effects target c _
  | send p =>
      simp only [step, send]
      split
      · apply call_effects
        simp
      · exact .refl
  | beginUpdate =>
      simp only [step, beginUpdate]
      split_ifs <;> exact .refl
  | popEvent =>
      simp only [step, popEvent]
      split_ifs
      · split <;> exact .refl
      · exact .refl
  | runTask =>
      simp only [step, runTask]
      split
      · exact dispatch_effects target c _ _ _
      · exact .refl
      · exact .refl
  | maintain now clock =>
      change SessionHeap.Effects target name _ c.heap (c.maintain target now clock).heap
      unfold maintain
      by_cases hmain : c.main = .maintaining
      · rw [if_pos hmain]
        split
        · simp only
          split_ifs
          · exact attemptConnection_effects rfl now clock
          · exact .refl
          · exact .refl
        · exact .refl
      · rw [if_neg hmain]
  | finish timeout now =>
      simp only [step, finish]
      split
      · exact .refl
      · split_ifs
        · exact .refl
        · exact .refl
        · apply call_effects
          simp
      · exact .refl
  | leave =>
      simp only [step, leave]
      split_ifs
      · exact disconnect_effects target c _
      · exact .refl
  | receive sender d =>
      change SessionHeap.Effects target name _ c.heap (c.receive sender d).heap
      unfold receive
      by_cases hio : c.io = .idle
      · rw [if_pos hio]
        split
        · split_ifs <;> exact .refl
        · exact .refl
      · rw [if_neg hio]
  | handle =>
      simp only [step, handle]
      split
      next k d hio =>
        apply call_effects
        intro d' hd
        rw [← Action.receive.inj hd]
        exact ⟨rfl, hio⟩
      next => exact .refl
  | pushEvent =>
      simp only [step, pushEvent]
      split <;> exact .refl

end Client

namespace Server

variable {target : LeftShift} {v : Server}

/-- The calls of a step: a session receives the datagram that it is handling, and sends
what the application gives it, or the answer to a CONNECT. -/
def Calls (v : Server) (act : Act) (k : ℕ) (e : Endpoint) : Action → Prop
  | .receive d => act = .handle ∧ v.io = .handling k d ∧ e = v.heap.object k
  | .send p => p = connectAckPacket k ∨ act = .send k p ∧ e = v.heap.object k
  | .update => True
  | .disconnect => True

theorem call_effects {act : Act} {k : ℕ} {a : Action} (h : v.Calls act k (v.heap.object k) a) :
    SessionHeap.Effects target name (v.Calls act) v.heap (v.call target k a).heap :=
  .single (.call v.heap k a h)

theorem dispatch_effects (target : LeftShift) (v : Server) (act : Act) (k : ℕ) (p : Packet) :
    SessionHeap.Effects target name (v.Calls act) v.heap (v.dispatch target k p).heap := by
  unfold dispatch
  split_ifs
  · exact call_effects (Or.inl rfl)
  · exact call_effects trivial
  · exact .refl

/-- The loop over the sessions updates some of them. -/
theorem sweepLoop_effects {allowed : ℕ → Endpoint → Action → Prop}
    (hupdate : ∀ k e, allowed k e .update) (timeout : ℤ) (now : Time)
    (entries : List (UdpEndpoint × ℕ)) (v : Server) (disconnected : List ℕ) :
    SessionHeap.Effects target name allowed v.heap
      (sweepLoop target timeout now entries v disconnected).1.heap := by
  induction entries generalizing v disconnected with
  | nil => exact .refl
  | cons entry rest ih =>
      rcases entry with ⟨endpoint, k⟩
      unfold sweepLoop
      split_ifs
      · exact ih { v with sessions := v.sessions.erase endpoint } (disconnected ++ [k])
      · exact .head (.call v.heap k .update (hupdate k _))
          (ih (v.call target k .update) disconnected)

/-- The loop leaves the I/O thread alone. -/
theorem sweepLoop_frame (target : LeftShift) (timeout : ℤ) (now : Time)
    (entries : List (UdpEndpoint × ℕ)) (v : Server) (disconnected : List ℕ) :
    (sweepLoop target timeout now entries v disconnected).1.io = v.io ∧
      (sweepLoop target timeout now entries v disconnected).1.pushed = v.pushed := by
  induction entries generalizing v disconnected with
  | nil => exact ⟨rfl, rfl⟩
  | cons entry rest ih =>
      rcases entry with ⟨endpoint, k⟩
      unfold sweepLoop
      split_ifs
      · exact ih { v with sessions := v.sessions.erase endpoint } (disconnected ++ [k])
      · exact ih (v.call target k .update) disconnected

/-- Whatever a step does to the sessions is made of creations and calls. -/
theorem step_effects (target : LeftShift) (v : Server) (act : Act) :
    SessionHeap.Effects target name (v.Calls act) v.heap (v.step target act).heap := by
  cases act with
  | receive sender d clock =>
      change SessionHeap.Effects target name _ v.heap (v.receive target sender d clock).heap
      unfold receive
      by_cases hio : v.io = .idle
      · rw [if_pos hio]
        split
        · split_ifs
          · exact call_effects (Or.inl rfl)
          · exact .refl
        · split_ifs
          · exact .single (.create v.heap clock)
          · exact .refl
      · rw [if_neg hio]
  | announce =>
      simp only [step, announce]
      split <;> exact .refl
  | handle =>
      simp only [step, handle]
      split
      next k d hio => exact call_effects ⟨rfl, hio, rfl⟩
      next => exact .refl
  | pushEvent =>
      simp only [step, pushEvent]
      split <;> exact .refl
  | beginUpdate =>
      simp only [step, beginUpdate]
      split_ifs <;> exact .refl
  | popEvent =>
      change SessionHeap.Effects target name _ v.heap v.popEvent.heap
      unfold popEvent
      by_cases hmain : v.main = .processing
      · rw [if_pos hmain]
        split <;> exact .refl
      · rw [if_neg hmain]
  | runTask =>
      simp only [step, runTask]
      split
      · exact dispatch_effects target v _ _ _
      · exact .refl
      · exact .refl
  | sweep timeout now =>
      change SessionHeap.Effects target name _ v.heap (v.sweep target timeout now).heap
      unfold sweep
      by_cases hmain : v.main = .sweeping
      · rw [if_pos hmain]
        exact sweepLoop_effects (fun _ _ => trivial) timeout now v.sessions.toList v []
      · rw [if_neg hmain]
  | notify =>
      simp only [step, notify]
      split <;> exact .refl
  | send k p =>
      simp only [step]
      split_ifs
      · exact call_effects (Or.inr ⟨rfl, rfl⟩)
      · exact .refl
  | disconnect k =>
      simp only [step]
      split_ifs
      · exact call_effects trivial
      · exact .refl

/-! ### The I/O thread -/

/-- The I/O thread has the datagram in its hands for a session. -/
def Hears (v : Server) (k : ℕ) (d : Datagram) : Prop :=
  v.io = .announcing k d ∨ v.io = .handling k d

/-- The packet went to the event queue, or the running call of `onReceive` is about to
push it there. -/
def HandedOver (v : Server) (session : ℕ) (x : Incoming) : Prop :=
  (session, x) ∈ v.pushed ∨ ∃ packets, v.io = .pushing session packets ∧ x ∈ packets

/-- Whatever a session has returned was handed over. -/
def HandsOver (v : Server) : Prop :=
  ∀ k < v.heap.created, ∀ x ∈ (v.heap.object k).returned, v.HandedOver k x

/-- The rest of the loop over packets that are to be pushed. -/
theorem next_of_mem {session : ℕ} {packets : List Incoming} {x : Incoming} (h : x ∈ packets) :
    IoThread.next session packets = .pushing session packets := by
  cases packets with
  | nil => cases h
  | cons y packets => rfl

/-- The main thread and the application leave the I/O thread alone. -/
theorem step_frame (target : LeftShift) (v : Server) (act : Act) :
    ((v.step target act).io = v.io ∧ (v.step target act).pushed = v.pushed) ∨
      (∃ sender d clock, act = .receive sender d clock) ∨ act = .announce ∨ act = .handle ∨
        act = .pushEvent := by
  cases act with
  | receive sender d clock => exact Or.inr (Or.inl ⟨sender, d, clock, rfl⟩)
  | announce => exact Or.inr (Or.inr (Or.inl rfl))
  | handle => exact Or.inr (Or.inr (Or.inr (Or.inl rfl)))
  | pushEvent => exact Or.inr (Or.inr (Or.inr (Or.inr rfl)))
  | beginUpdate =>
      left
      simp only [step, beginUpdate]
      split_ifs <;> exact ⟨rfl, rfl⟩
  | popEvent =>
      left
      change v.popEvent.io = v.io ∧ v.popEvent.pushed = v.pushed
      unfold popEvent
      by_cases hmain : v.main = .processing
      · rw [if_pos hmain]
        split <;> exact ⟨rfl, rfl⟩
      · rw [if_neg hmain]
        exact ⟨rfl, rfl⟩
  | runTask =>
      left
      simp only [step, runTask]
      split
      next session y hmain =>
        rcases dispatch_frame target v session y.packet with ⟨heap, hdispatch⟩
        rw [hdispatch]
        exact ⟨rfl, rfl⟩
      next => exact ⟨rfl, rfl⟩
      next => exact ⟨rfl, rfl⟩
  | sweep timeout now =>
      left
      change (v.sweep target timeout now).io = v.io ∧ (v.sweep target timeout now).pushed = v.pushed
      unfold sweep
      by_cases hmain : v.main = .sweeping
      · rw [if_pos hmain]
        exact sweepLoop_frame target timeout now v.sessions.toList v []
      · rw [if_neg hmain]
        exact ⟨rfl, rfl⟩
  | notify =>
      left
      simp only [step, notify]
      split <;> exact ⟨rfl, rfl⟩
  | send session p =>
      left
      simp only [step]
      split_ifs <;> exact ⟨rfl, rfl⟩
  | disconnect session =>
      left
      simp only [step]
      split_ifs <;> exact ⟨rfl, rfl⟩

/-- The reception of a datagram pushes nothing. -/
theorem pushed_receive (target : LeftShift) (v : Server) (sender : UdpEndpoint) (d : Datagram)
    (clock : Stream' Time) : (v.receive target sender d clock).pushed = v.pushed := by
  unfold receive
  by_cases hidle : v.io = .idle
  · rw [if_pos hidle]
    split
    · split_ifs <;> rfl
    · split_ifs <;> rfl
  · rw [if_neg hidle]

/-- What was pushed stays recorded. -/
theorem mem_pushed_step {entry : ℕ × Incoming} (h : entry ∈ v.pushed) (act : Act) :
    entry ∈ (v.step target act).pushed := by
  rcases step_frame target v act with ⟨-, hpushed⟩ | ⟨sender, d, clock, rfl⟩ | rfl | rfl | rfl
  · rw [hpushed]
    exact h
  · change entry ∈ (v.receive target sender d clock).pushed
    rw [pushed_receive]
    exact h
  · change entry ∈ v.announce.pushed
    unfold announce
    split <;> exact h
  · change entry ∈ (v.handle target).pushed
    unfold handle
    split <;> exact h
  · change entry ∈ v.pushEvent.pushed
    unfold pushEvent
    split
    · exact List.mem_append_left _ h
    · exact h

/-- While packets are being pushed, only the I/O thread can go on. -/
theorem io_step_of_pushing {session : ℕ} {packets : List Incoming}
    (hio : v.io = .pushing session packets) {act : Act} (hact : act ≠ .pushEvent) :
    (v.step target act).io = .pushing session packets := by
  rcases step_frame target v act with ⟨hsame, -⟩ | ⟨sender, d, clock, rfl⟩ | rfl | rfl | rfl
  · rw [hsame]
    exact hio
  · change (v.receive target sender d clock).io = _
    simp only [receive, hio, reduceCtorEq, if_false]
  · change v.announce.io = _
    simp only [announce, hio]
  · change (v.handle target).io = _
    simp only [handle, hio]
  · exact absurd rfl hact

/-- A step leaves alone what was handed over. -/
theorem HandedOver.step {k : ℕ} {x : Incoming} (h : v.HandedOver k x) (act : Act) :
    (v.step target act).HandedOver k x := by
  rcases h with hpushed | ⟨packets, hio, hx⟩
  · exact Or.inl (mem_pushed_step hpushed act)
  · by_cases hact : act = .pushEvent
    · subst hact
      rcases packets with - | ⟨y, rest⟩
      · cases hx
      · change v.pushEvent.HandedOver k x
        simp only [pushEvent, hio]
        rcases List.mem_cons.mp hx with rfl | hx
        · exact Or.inl (List.mem_append_right _ (List.mem_singleton_self _))
        · exact Or.inr ⟨rest, next_of_mem hx, hx⟩
    · exact Or.inr ⟨packets, io_step_of_pushing hio hact, hx⟩

/-- What the sessions return is handed over. -/
theorem HandsOver.step (h : v.HandsOver) (act : Act) : (v.step target act).HandsOver := by
  apply (step_effects target v act).preserves
    (P := fun k e => ∀ x ∈ e.returned, (v.step target act).HandedOver k x)
  · intro k clock x hx
    cases hx
  · intro k e a hcall he x hx
    cases a with
    | receive d =>
        rcases hcall with ⟨rfl, hio, rfl⟩
        have hmem : x ∈ (v.heap.object k).returned ++
            ((v.heap.object k).session.handleIncoming target d).2 := hx
        rcases List.mem_append.mp hmem with hx | hx
        · exact he x hx
        · refine Or.inr ⟨_, ?_, hx⟩
          simp only [Server.step, handle, hio]
          exact next_of_mem hx
    | send p => exact he x hx
    | update => exact he x hx
    | disconnect => exact he x hx
  · intro k hk x hx
    exact (h k hk x hx).step act

/-- The I/O thread that has just let a session handle a datagram holds no other. -/
theorem not_hears_next {v : Server} {session k : ℕ} {packets : List Incoming} {d : Datagram}
    (hio : v.io = .next session packets) : ¬ v.Hears k d := by
  rw [Hears, hio]
  cases packets with
  | nil => simp [IoThread.next]
  | cons x packets => simp [IoThread.next]

/-- The I/O thread gets its datagrams from the network. -/
theorem hears_step {act : Act} {k : ℕ} {d : Datagram} (h : (v.step target act).Hears k d) :
    v.Hears k d ∨ ∃ sender clock, act = .receive sender d clock := by
  rcases step_frame target v act with ⟨hio, -⟩ | ⟨sender, d', clock, rfl⟩ | rfl | rfl | rfl
  · left
    rw [Hears, hio] at h
    exact h
  · change (v.receive target sender d' clock).Hears k d at h
    unfold receive at h
    by_cases hidle : v.io = .idle
    · rw [if_pos hidle] at h
      revert h
      split
      · split_ifs
        · exact Or.inl
        · rintro (h | h)
          · cases h
          · cases h
            exact Or.inr ⟨sender, clock, rfl⟩
      · split_ifs
        · rintro (h | h)
          · cases h
            exact Or.inr ⟨sender, clock, rfl⟩
          · cases h
        · exact Or.inl
    · rw [if_neg hidle] at h
      exact Or.inl h
  · change v.announce.Hears k d at h
    unfold announce at h
    revert h
    split
    next session d' hannouncing =>
      rintro (h | h)
      · cases h
      · cases h
        exact Or.inl (Or.inl hannouncing)
    next => exact Or.inl
  · change (v.handle target).Hears k d at h
    unfold handle at h
    revert h
    split
    next => exact fun h => absurd h (not_hears_next rfl)
    next => exact Or.inl
  · change v.pushEvent.Hears k d at h
    unfold pushEvent at h
    revert h
    split
    next => exact fun h => absurd h (not_hears_next rfl)
    next => exact Or.inl

end Server

namespace Client

variable {target : LeftShift} {c : Client}

/-! ### The I/O thread -/

theorem io_disconnect (target : LeftShift) (c : Client) : (c.disconnect target).io = c.io := by
  unfold disconnect
  split <;> rfl

theorem io_dispatch (target : LeftShift) (c : Client) (k : ℕ) (p : Packet) :
    (c.dispatch target k p).io = c.io := by
  unfold dispatch onConnectAck
  split_ifs <;> rfl

/-- The main thread and the application leave the I/O thread alone. -/
theorem step_io (target : LeftShift) (c : Client) (act : Act) :
    (c.step target act).io = c.io ∨ (∃ sender d, act = .receive sender d) ∨ act = .handle ∨
      act = .pushEvent := by
  cases act with
  | receive sender d => exact Or.inr (Or.inl ⟨sender, d, rfl⟩)
  | handle => exact Or.inr (Or.inr (Or.inl rfl))
  | pushEvent => exact Or.inr (Or.inr (Or.inr rfl))
  | connect endpoint now clock =>
      left
      simp only [step, connect]
      split_ifs <;> rfl
  | disconnect =>
      left
      exact io_disconnect target c
  | send p =>
      left
      simp only [step, send]
      split <;> rfl
  | beginUpdate =>
      left
      simp only [step, beginUpdate]
      split_ifs <;> rfl
  | popEvent =>
      left
      simp only [step, popEvent]
      split_ifs
      · split <;> rfl
      · rfl
  | runTask =>
      left
      simp only [step, runTask]
      split
      · exact io_dispatch target c _ _
      · rfl
      · rfl
  | maintain now clock =>
      left
      change (c.maintain target now clock).io = c.io
      unfold maintain
      by_cases hmain : c.main = .maintaining
      · rw [if_pos hmain]
        split
        · simp only
          split_ifs <;> rfl
        · rfl
      · rw [if_neg hmain]
  | finish timeout now =>
      left
      simp only [step, finish]
      split
      · rfl
      · split_ifs <;> rfl
      · rfl
  | leave =>
      left
      simp only [step, leave]
      split_ifs
      · exact io_disconnect target c
      · rfl

/-- The I/O thread gets its datagrams from the network. -/
theorem handling_step {act : Act} {k : ℕ} {d : Datagram}
    (h : (c.step target act).io = .handling k d) :
    c.io = .handling k d ∨ ∃ sender, act = .receive sender d := by
  have hnext : ∀ session packets, IoThread.next session packets ≠ .handling k d := by
    intro session packets
    cases packets with
    | nil => simp [IoThread.next]
    | cons x packets => simp [IoThread.next]
  rcases step_io target c act with hio | ⟨sender, d', rfl⟩ | rfl | rfl
  · exact Or.inl (hio ▸ h)
  · change (c.receive sender d').io = _ at h
    unfold receive at h
    by_cases hidle : c.io = .idle
    · rw [if_pos hidle] at h
      revert h
      split
      · split_ifs
        · exact Or.inl
        · intro h
          cases h
          exact Or.inr ⟨sender, rfl⟩
      · exact Or.inl
    · rw [if_neg hidle] at h
      exact Or.inl h
  · change (c.handle target).io = _ at h
    unfold handle at h
    revert h
    split
    next => exact fun h => absurd h (hnext _ _)
    next => exact Or.inl
  · change c.pushEvent.io = _ at h
    unfold pushEvent at h
    revert h
    split
    next => exact fun h => absurd h (hnext _ _)
    next => exact Or.inl

/-! ### The session that it holds -/

theorem serverSession_dispatch (target : LeftShift) (c : Client) (k : ℕ) (p : Packet) :
    (c.dispatch target k p).serverSession = c.serverSession := by
  unfold dispatch onConnectAck
  split_ifs <;> rfl

/-- A step leaves the held session alone, drops it, or takes a fresh one. -/
theorem serverSession_step (target : LeftShift) (c : Client) (act : Act) :
    (c.step target act).serverSession = c.serverSession ∨
      (c.step target act).serverSession = none ∨
      (c.step target act).serverSession = some c.heap.created ∧
        (c.step target act).heap.created = c.heap.created + 1 := by
  cases act with
  | connect endpoint now clock =>
      simp only [step, connect]
      split_ifs
      · exact Or.inl rfl
      · exact Or.inr (Or.inr ⟨rfl, rfl⟩)
  | disconnect => exact Or.inr (Or.inl rfl)
  | send p =>
      left
      simp only [step, send]
      split <;> rfl
  | beginUpdate =>
      left
      simp only [step, beginUpdate]
      split_ifs <;> rfl
  | popEvent =>
      left
      simp only [step, popEvent]
      split_ifs
      · split <;> rfl
      · rfl
  | runTask =>
      left
      simp only [step, runTask]
      split
      · exact serverSession_dispatch target c _ _
      · rfl
      · rfl
  | maintain now clock =>
      change (c.maintain target now clock).serverSession = c.serverSession ∨
        (c.maintain target now clock).serverSession = none ∨
        (c.maintain target now clock).serverSession = some c.heap.created ∧
          (c.maintain target now clock).heap.created = c.heap.created + 1
      unfold maintain
      by_cases hmain : c.main = .maintaining
      · rw [if_pos hmain]
        split
        · simp only
          split_ifs
          · exact Or.inr (Or.inr ⟨rfl, rfl⟩)
          · exact Or.inr (Or.inl rfl)
          · exact Or.inl rfl
        · exact Or.inl rfl
      · rw [if_neg hmain]
        exact Or.inl rfl
  | finish timeout now =>
      left
      simp only [step, finish]
      split
      · rfl
      · split_ifs <;> rfl
      · rfl
  | leave =>
      simp only [step, leave]
      split_ifs
      · exact Or.inr (Or.inl rfl)
      · exact Or.inl rfl
  | receive sender d =>
      left
      change (c.receive sender d).serverSession = c.serverSession
      unfold receive
      by_cases hidle : c.io = .idle
      · rw [if_pos hidle]
        split
        · split_ifs <;> rfl
        · rfl
      · rw [if_neg hidle]
  | handle =>
      left
      simp only [step, handle]
      split <;> rfl
  | pushEvent =>
      left
      simp only [step, pushEvent]
      split <;> rfl

/-- The session that a client holds is an object of its heap. -/
def HoldsCreated (c : Client) : Prop :=
  ∀ k, c.serverSession = some k → k < c.heap.created

theorem HoldsCreated.step (h : c.HoldsCreated) (act : Act) : (c.step target act).HoldsCreated := by
  intro k hk
  rcases serverSession_step target c act with hsame | hnone | ⟨hnew, hcreated⟩
  · rw [hsame] at hk
    exact (h k hk).trans_le (step_effects target c act).created_le
  · rw [hnone] at hk
    cases hk
  · rw [hnew, Option.some.injEq] at hk
    rw [hcreated, ← hk]
    exact Nat.lt_succ_self _

end Client

end Rtype.Rtnt
