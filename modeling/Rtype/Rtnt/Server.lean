import Rtype.Rtnt.Client

/-!
# rtnt - The server

The server keeps one session for each endpoint.  The I/O thread finds or creates
the session of a datagram under the mutex, and only then lets the session handle
the datagram and queues what comes out; the main thread drains the queue, drops
dead sessions under the mutex, and then reports them.  As for the client, every
region under the mutex, every call of a session and every push or pop of the
queue is one step.

The lists {lit}`pushed` and {lit}`log` are not fields of the class.  They record the
packets queued, and the packets dispatched and sessions reported, and no branch
reads them.

Main results:

- Definition {lit}`Server.step`: the steps of both threads.
- Theorem {lit}`Server.sweepLoop_swept`: what the loop over the sessions drops, and
  what it leaves alone.

Current gaps:

- The callbacks of the application appear as the calls they make, which may come
  at any time.
-/

namespace Rtype.Rtnt

open Std (TreeMap)
open Transition

/-! ## State -/

namespace Server

/-- The closures in the event queue. -/
inductive Task where
  /-- Calls `_onConnect`. -/
  | connected (session : ℕ)
  /-- Dispatches a packet that a session returned. -/
  | packet (session : ℕ) (x : Incoming)
deriving DecidableEq, Repr

/-- Where the main thread is in `update`. -/
inductive MainThread where
  | idle
  /-- In the loop over the event queue. -/
  | processing
  /-- A task was popped. -/
  | running (task : Task)
  /-- The queue was found empty. -/
  | sweeping
  /-- Past the locked region, with the dropped sessions that are still to be reported. -/
  | notifying (sessions : List ℕ)
deriving DecidableEq, Repr

/-- Where the I/O thread is in `onReceive`. -/
inductive IoThread where
  | idle
  /-- Past the locked region, with a session created in it. -/
  | announcing (session : ℕ) (d : Datagram)
  /-- About to let the session handle the datagram. -/
  | handling (session : ℕ) (d : Datagram)
  /-- The session returned packets that are still to be queued. -/
  | pushing (session : ℕ) (packets : List Incoming)
deriving DecidableEq, Repr

/-- What the main thread tells the application. -/
inductive Event where
  | dispatched (session : ℕ) (x : Incoming)
  | disconnected (session : ℕ)
deriving DecidableEq, Repr

end Server

/-- The state of a server and of its two threads. -/
structure Server where
  heap : SessionHeap := {}
  sessions : TreeMap UdpEndpoint ℕ := ∅
  eventQueue : List Server.Task := []
  main : Server.MainThread := .idle
  io : Server.IoThread := .idle
  pushed : List (ℕ × Incoming) := []
  log : List Server.Event := []

namespace Server

/-! ## The member functions -/

/-- The name of a session object of the server. -/
def name (k : ℕ) : ℕ := 2 * k + 1

/-- A call on a session object. -/
def call (target : LeftShift) (v : Server) (session : ℕ) (a : Action) : Server :=
  { v with heap := v.heap.call target session a }

/-- `packet::is<Connect>`. -/
def isConnect (d : Datagram) : Bool :=
  match Header.parse d.bytes with
  | .ok header => header.messageId == SystemMessageId.kConnect
  | .error _ => false

/-! ### The I/O thread -/

/-- The locked region of `onReceive`. -/
def receive (target : LeftShift) (v : Server) (sender : UdpEndpoint) (d : Datagram)
    (clock : Stream' Time) : Server :=
  if v.io = .idle then
    match v.sessions[sender]? with
    | some session =>
        if isConnect d then v.call target session (.send (connectAckPacket session))
        else { v with io := .handling session d }
    | none =>
        if isConnect d then
          let session := v.heap.created
          { v with
            heap := v.heap.create (name session) clock
            sessions := v.sessions.insert sender session
            io := .announcing session d }
        else v
  else v

/-- The push of the `_onConnect` closure. -/
def announce (v : Server) : Server :=
  match v.io with
  | .announcing session d =>
      { v with eventQueue := v.eventQueue ++ [.connected session], io := .handling session d }
  | _ => v

/-- The rest of `onReceive` after packets were queued. -/
def IoThread.next (session : ℕ) : List Incoming → IoThread
  | [] => .idle
  | x :: packets => .pushing session (x :: packets)

/-- The call of `handleIncoming`. -/
def handle (target : LeftShift) (v : Server) : Server :=
  match v.io with
  | .handling session d =>
      let packets := ((v.heap.object session).session.handleIncoming target d).2
      { v.call target session (.receive d) with io := .next session packets }
  | _ => v

/-- One push of a packet to the event queue. -/
def pushEvent (v : Server) : Server :=
  match v.io with
  | .pushing session (x :: packets) =>
      { v with
        eventQueue := v.eventQueue ++ [.packet session x]
        pushed := v.pushed ++ [(session, x)]
        io := .next session packets }
  | _ => v

/-! ### The main thread -/

/-- `Dispatcher::dispatch` with the handlers that the library binds.  Those of the
application do nothing to the server but call it. -/
def dispatch (target : LeftShift) (v : Server) (session : ℕ) (p : Packet) : Server :=
  if p.messageId == SystemMessageId.kConnect then
    v.call target session (.send (connectAckPacket session))
  else if p.messageId == SystemMessageId.kDisconnect then v.call target session .disconnect
  else v

def beginUpdate (v : Server) : Server :=
  if v.main = .idle then { v with main := .processing } else v

/-- One pop of the loop in `_processEvents`. -/
def popEvent (v : Server) : Server :=
  if v.main = .processing then
    match v.eventQueue with
    | task :: rest => { v with eventQueue := rest, main := .running task }
    | [] => { v with main := .sweeping }
  else v

/-- Runs the popped task. -/
def runTask (target : LeftShift) (v : Server) : Server :=
  match v.main with
  | .running (.packet session x) =>
      { v.dispatch target session x.packet with
        main := .processing
        log := v.log ++ [.dispatched session x] }
  | .running (.connected _) => { v with main := .processing }
  | _ => v

/-- The test that decides whether `update` drops a session. -/
def expired (v : Server) (timeout : ℤ) (now : Time) (session : ℕ) : Bool :=
  let s := (v.heap.object session).session
  decide (toMilliseconds (now - s.lastSeen) > timeout) || s.shouldClose

/-- The loop of `update` over the sessions.  Returns the dropped ones. -/
def sweepLoop (target : LeftShift) (timeout : ℤ) (now : Time) :
    List (UdpEndpoint × ℕ) → Server → List ℕ → Server × List ℕ
  | [], v, disconnected => (v, disconnected)
  | (endpoint, session) :: rest, v, disconnected =>
      if v.expired timeout now session then
        sweepLoop target timeout now rest { v with sessions := v.sessions.erase endpoint }
          (disconnected ++ [session])
      else sweepLoop target timeout now rest (v.call target session .update) disconnected

/-- The locked region of `update`. -/
def sweep (target : LeftShift) (v : Server) (timeout : ℤ) (now : Time) : Server :=
  if v.main = .sweeping then
    let (v, disconnected) := sweepLoop target timeout now v.sessions.toList v []
    { v with main := .notifying disconnected }
  else v

/-- One call of `_onDisconnect`, or the end of `update`. -/
def notify (v : Server) : Server :=
  match v.main with
  | .notifying (session :: rest) =>
      { v with main := .notifying rest, log := v.log ++ [.disconnected session] }
  | .notifying [] => { v with main := .idle }
  | _ => v

/-! ### Steps -/

/-- The steps of the two threads, and the calls of the application on a session that
it was given. -/
inductive Act where
  | receive (sender : UdpEndpoint) (d : Datagram) (clock : Stream' Time)
  | announce
  | handle
  | pushEvent
  | beginUpdate
  | popEvent
  | runTask
  | sweep (timeout : ℤ) (now : Time)
  | notify
  | send (session : ℕ) (packet : Packet)
  | disconnect (session : ℕ)

/-- The effect of a step.  A step that a thread is not ready for changes nothing. -/
def step (target : LeftShift) (v : Server) : Act → Server
  | .receive sender d clock => v.receive target sender d clock
  | .announce => v.announce
  | .handle => v.handle target
  | .pushEvent => v.pushEvent
  | .beginUpdate => v.beginUpdate
  | .popEvent => v.popEvent
  | .runTask => v.runTask target
  | .sweep timeout now => v.sweep target timeout now
  | .notify => v.notify
  | .send session packet =>
      if session < v.heap.created then v.call target session (.send packet) else v
  | .disconnect session =>
      if session < v.heap.created then v.call target session .disconnect else v

/-- A server that was just constructed. -/
def new : Server := {}

/-! ## The loop over the sessions -/

variable {target : LeftShift} {timeout : ℤ} {now : Time}

/-- What the loop does to the server, for entries that name each session once. -/
structure Swept (target : LeftShift) (timeout : ℤ) (now : Time) (entries : List (UdpEndpoint × ℕ))
    (v : Server) (disconnected : List ℕ) (r : Server × List ℕ) : Prop where
  frame : r.1 = { v with heap := r.1.heap, sessions := r.1.sessions }
  created : r.1.heap.created = v.heap.created
  dropped : ∀ session, session ∈ r.2 ↔ session ∈ disconnected ∨
    (∃ endpoint, (endpoint, session) ∈ entries) ∧ v.expired timeout now session = true
  kept : ∀ (endpoint : UdpEndpoint) (session : ℕ), r.1.sessions[endpoint]? = some session ↔
    v.sessions[endpoint]? = some session ∧
      ∀ s, (endpoint, s) ∈ entries → v.expired timeout now s = false
  untouched : ∀ session, ((∃ endpoint, (endpoint, session) ∈ entries) →
    v.expired timeout now session = true) → r.1.heap.object session = v.heap.object session

theorem expired_call_of_ne {v : Server} {session k : ℕ} (hne : session ≠ k) (a : Action) :
    (v.call target k a).expired timeout now session = v.expired timeout now session := by
  simp only [expired, call, SessionHeap.object_call_of_ne hne]

theorem sweepLoop_swept (entries : List (UdpEndpoint × ℕ)) (v : Server)
    (disconnected : List ℕ) (hnodup : (entries.map Prod.snd).Nodup) :
    Swept target timeout now entries v disconnected
      (sweepLoop target timeout now entries v disconnected) := by
  induction entries generalizing v disconnected with
  | nil => exact ⟨rfl, rfl, by simp [sweepLoop], by simp [sweepLoop], fun _ _ => rfl⟩
  | cons entry rest ih =>
      obtain ⟨endpoint, k⟩ := entry
      rw [List.map_cons, List.nodup_cons] at hnodup
      have hne : ∀ e session, (e, session) ∈ rest → session ≠ k := by
        rintro e session hmem rfl
        exact hnodup.1 (List.mem_map.mpr ⟨_, hmem, rfl⟩)
      unfold sweepLoop
      by_cases hexpired : v.expired timeout now k = true
      · rw [if_pos hexpired]
        have hrest := ih { v with sessions := v.sessions.erase endpoint } (disconnected ++ [k])
          hnodup.2
        have hsame : ∀ session,
            { v with sessions := v.sessions.erase endpoint }.expired timeout now session =
              v.expired timeout now session := fun _ => rfl
        refine ⟨hrest.frame, hrest.created, fun session => ?_, fun e session => ?_,
          fun session hs => ?_⟩
        · rw [hrest.dropped, hsame]
          simp only [List.mem_append, List.mem_cons, Prod.mk.injEq]
          grind
        · rw [hrest.kept]
          simp only [hsame, TreeMap.getElem?_erase, List.mem_cons, Prod.mk.injEq]
          by_cases he : e = endpoint
          · subst he
            simp [hexpired]
          · have hcompare : compare endpoint e ≠ .eq := by
              rw [ne_eq, Nat.compare_eq_eq]
              exact fun h => he h.symm
            simp [hcompare, he]
        · refine hrest.untouched session ?_
          rintro ⟨e, he⟩
          exact hs ⟨e, List.mem_cons_of_mem _ he⟩
      · rw [if_neg hexpired]
        have hrest := ih (v.call target k .update) disconnected hnodup.2
        have hsame : ∀ e session, (e, session) ∈ rest →
            (v.call target k .update).expired timeout now session =
              v.expired timeout now session :=
          fun e session hmem => expired_call_of_ne (hne e session hmem) _
        refine ⟨hrest.frame, hrest.created, fun session => ?_, fun e session => ?_,
          fun session hs => ?_⟩
        · rw [hrest.dropped]
          simp only [List.mem_cons, Prod.mk.injEq]
          grind
        · rw [hrest.kept]
          simp only [List.mem_cons, Prod.mk.injEq]
          have hsessions : (v.call target k .update).sessions = v.sessions := rfl
          rw [hsessions]
          grind
        · have hsession : session ≠ k := by
            rintro rfl
            exact hexpired (hs ⟨endpoint, List.mem_cons_self⟩)
          rw [hrest.untouched session]
          · simp only [call, SessionHeap.object_call_of_ne hsession]
          · rintro ⟨e, he⟩
            rw [hsame e session he]
            exact hs ⟨e, List.mem_cons_of_mem _ he⟩

end Server

end Rtype.Rtnt
