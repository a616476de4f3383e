import Rtype.Rtnt.SessionHeap

/-!
# rtnt - The client

The client wraps the session that points to the server.  Two threads work on it:
the I/O thread hands datagrams to the session and queues what comes out, the
main thread drains the queue, retries the handshake and gives up.  Every region
under the mutex, every call of a session and every push or pop of the queue is
one step; the threads interleave between steps.

The mark {lit}`connectedBy` is not a field of the class.  It names the session whose
CONNECT_ACK set {lit}`isConnected`, and no branch reads it.

Main results:

- Definition {lit}`Client.step`: the steps of both threads.
- Theorem {lit}`Client.coherent_iff`: the runs throughout which a connected client is
  connected through the session it holds.

Current gaps:

- The callbacks of the application appear as the calls they make, which may come
  at any time.
-/

namespace Rtype.Rtnt

open Transition

/-! ## Constants and internal packets -/

/-- Maximum number of times a client will attempt a connection to a remote server. -/
def MAX_RECONNECTION_ATTEMPTS : UInt8 := 3

/-- Amount of time between each reconnection attempt (2000 ms). -/
def RECONNECTION_TIMEOUT : Time := 2000000000

/-- The CONNECT packet. -/
def connectPacket : Packet :=
  Packet.new SystemMessageId.kConnect Flag.kUnreliable INTERNAL_CHANNEL_ID

/-- The DISCONNECT packet. -/
def disconnectPacket : Packet :=
  Packet.new SystemMessageId.kDisconnect Flag.kUnreliable INTERNAL_CHANNEL_ID

/-- The CONNECT_ACK packet, with the id of the session that answers. -/
def connectAckPacket (assignedSessionId : ℕ) : Packet :=
  (Packet.new SystemMessageId.kConnectAck Flag.kUnreliable INTERNAL_CHANNEL_ID).writeScalar (n := 4)
    (BitVec.ofNat 32 assignedSessionId)

/-- The serialized form of the CONNECT_ACK packet. -/
def connectAckShape : Shape := .struct [.scalar 4]

/-- Whether the CONNECT_ACK handler runs for a packet: its id is bound to that handler
and its payload can be read. -/
def isConnectAck (p : Packet) : Bool :=
  p.messageId == SystemMessageId.kConnectAck &&
    match Packet.read connectAckShape p with
    | .ok _ _ => true
    | .error _ _ => false

/-- A duration in whole milliseconds. -/
def toMilliseconds (t : Time) : ℤ :=
  t.tdiv 1000000

/-! ## State -/

namespace Client

/-- The closures in the event queue. -/
inductive Task where
  /-- Dispatches a packet that a session returned. -/
  | packet (session : ℕ) (x : Incoming)
  /-- Calls `_onDisconnect`. -/
  | disconnected
deriving DecidableEq, Repr

/-- Where the main thread is in `update`. -/
inductive MainThread where
  | idle
  /-- In the loop over the event queue. -/
  | processing
  /-- A task was popped. -/
  | running (task : Task)
  /-- The queue was found empty. -/
  | maintaining
  /-- Past the locked region, with the copies made in it. -/
  | finishing (session : Option ℕ) (isConnected : Bool)
  /-- About to call `disconnect`. -/
  | leaving
deriving DecidableEq, Repr

/-- Where the I/O thread is in `onReceive`. -/
inductive IoThread where
  | idle
  /-- Past the locked region, with the session found in it. -/
  | handling (session : ℕ) (d : Datagram)
  /-- The session returned packets that are still to be queued. -/
  | pushing (session : ℕ) (packets : List Incoming)
deriving DecidableEq, Repr

end Client

/-- The state of a client and of its two threads. -/
structure Client where
  heap : SessionHeap := {}
  serverEndpoint : UdpEndpoint := 0
  serverSession : Option ℕ := none
  eventQueue : List Client.Task := []
  isConnected : Bool := false
  connectedBy : Option ℕ := none
  reconnectionRetries : UInt8 := 0
  lastConnectionAttemptTime : Time := 0
  main : Client.MainThread := .idle
  io : Client.IoThread := .idle

namespace Client

/-! ## The member functions -/

/-- The name of a session object of the client. -/
def name (k : ℕ) : ℕ := 2 * k

/-- A call on a session object. -/
def call (target : LeftShift) (c : Client) (session : ℕ) (a : Action) : Client :=
  { c with heap := c.heap.call target session a }

/-- `_internal_attemptConnection`: a fresh session, which sends CONNECT. -/
def attemptConnection (target : LeftShift) (c : Client) (now : Time) (clock : Stream' Time) :
    Client :=
  let session := c.heap.created
  let c := { c with
    heap := c.heap.create (name session) clock
    serverSession := some session
    lastConnectionAttemptTime := now }
  c.call target session (.send connectPacket)

def connect (target : LeftShift) (c : Client) (endpoint : UdpEndpoint) (now : Time)
    (clock : Stream' Time) : Client :=
  if c.isConnected then c
  else
    { c with serverEndpoint := endpoint, reconnectionRetries := 0 }.attemptConnection target now
      clock

def disconnect (target : LeftShift) (c : Client) : Client :=
  let c :=
    match c.isConnected, c.serverSession with
    | true, some session => c.call target session (.send disconnectPacket)
    | _, _ => c
  { c with
    serverSession := none
    isConnected := false
    eventQueue := c.eventQueue ++ [.disconnected] }

/-- `_internal_send`: without a session, the packet is dropped. -/
def send (target : LeftShift) (c : Client) (packet : Packet) : Client :=
  match c.serverSession with
  | some session => c.call target session (.send packet)
  | none => c

/-- The handler of CONNECT_ACK. -/
def onConnectAck (c : Client) (session : ℕ) : Client :=
  if c.isConnected then c else { c with isConnected := true, connectedBy := some session }

/-- `Dispatcher::dispatch` with the handlers that the library binds.  Those of the
application do nothing to the client but call it. -/
def dispatch (target : LeftShift) (c : Client) (session : ℕ) (p : Packet) : Client :=
  if p.messageId == SystemMessageId.kConnect then
    c.call target session (.send (connectAckPacket session))
  else if p.messageId == SystemMessageId.kDisconnect then c.call target session .disconnect
  else if isConnectAck p then c.onConnectAck session
  else c

/-! ### The main thread -/

def beginUpdate (c : Client) : Client :=
  if c.main = .idle then { c with main := .processing } else c

/-- One pop of the loop in `_processEvents`. -/
def popEvent (c : Client) : Client :=
  if c.main = .processing then
    match c.eventQueue with
    | task :: rest => { c with eventQueue := rest, main := .running task }
    | [] => { c with main := .maintaining }
  else c

/-- Runs the popped task. -/
def runTask (target : LeftShift) (c : Client) : Client :=
  match c.main with
  | .running (.packet session x) =>
      { c.dispatch target session x.packet with main := .processing }
  | .running .disconnected => { c with main := .processing }
  | _ => c

/-- The locked region of `update`. -/
def maintain (target : LeftShift) (c : Client) (now : Time) (clock : Stream' Time) : Client :=
  if c.main = .maintaining then
    match c.serverSession, c.isConnected with
    | some session, false =>
        let timedOut := decide (now - c.lastConnectionAttemptTime > RECONNECTION_TIMEOUT)
        let sessionFailed := (c.heap.object session).session.shouldClose
        if timedOut || sessionFailed then
          if c.reconnectionRetries < MAX_RECONNECTION_ATTEMPTS then
            let c := { c with reconnectionRetries := c.reconnectionRetries + 1, main := .idle }
            c.attemptConnection target now clock
          else { c with serverSession := none, main := .finishing (some session) false }
        else { c with main := .finishing (some session) false }
    | session, isConnected => { c with main := .finishing session isConnected }
  else c

/-- The rest of `update`. -/
def finish (target : LeftShift) (c : Client) (timeout : ℤ) (now : Time) : Client :=
  match c.main with
  | .finishing none _ => { c with main := .idle }
  | .finishing (some session) isConnected =>
      let s := (c.heap.object session).session
      if s.shouldClose then { c with main := .leaving }
      else if isConnected && decide (toMilliseconds (now - s.lastSeen) > timeout) then
        { c with main := .leaving }
      else { c.call target session .update with main := .idle }
  | _ => c

/-- The call of `disconnect` at the end of `update`. -/
def leave (target : LeftShift) (c : Client) : Client :=
  if c.main = .leaving then { c.disconnect target with main := .idle } else c

/-! ### The I/O thread -/

/-- The locked region of `onReceive`, and the test of the sender. -/
def receive (c : Client) (sender : UdpEndpoint) (d : Datagram) : Client :=
  if c.io = .idle then
    match c.serverSession with
    | some session =>
        if sender ≠ c.serverEndpoint then c else { c with io := .handling session d }
    | none => c
  else c

/-- The rest of `onReceive` after packets were queued. -/
def IoThread.next (session : ℕ) : List Incoming → IoThread
  | [] => .idle
  | x :: packets => .pushing session (x :: packets)

/-- The call of `handleIncoming`. -/
def handle (target : LeftShift) (c : Client) : Client :=
  match c.io with
  | .handling session d =>
      let packets := ((c.heap.object session).session.handleIncoming target d).2
      { c.call target session (.receive d) with io := .next session packets }
  | _ => c

/-- One push to the event queue. -/
def pushEvent (c : Client) : Client :=
  match c.io with
  | .pushing session (x :: packets) =>
      { c with
        eventQueue := c.eventQueue ++ [.packet session x]
        io := .next session packets }
  | _ => c

/-! ### Steps -/

/-- The steps of the two threads, and the calls of the application. -/
inductive Act where
  | connect (endpoint : UdpEndpoint) (now : Time) (clock : Stream' Time)
  | disconnect
  | send (packet : Packet)
  | beginUpdate
  | popEvent
  | runTask
  | maintain (now : Time) (clock : Stream' Time)
  | finish (timeout : ℤ) (now : Time)
  | leave
  | receive (sender : UdpEndpoint) (d : Datagram)
  | handle
  | pushEvent

/-- The effect of a step.  A step that a thread is not ready for changes nothing. -/
def step (target : LeftShift) (c : Client) : Act → Client
  | .connect endpoint now clock => c.connect target endpoint now clock
  | .disconnect => c.disconnect target
  | .send packet => c.send target packet
  | .beginUpdate => c.beginUpdate
  | .popEvent => c.popEvent
  | .runTask => c.runTask target
  | .maintain now clock => c.maintain target now clock
  | .finish timeout now => c.finish target timeout now
  | .leave => c.leave target
  | .receive sender d => c.receive sender d
  | .handle => c.handle target
  | .pushEvent => c.pushEvent

/-- A client that was just constructed. -/
def new : Client := {}

/-! ## Coherence of the connection state -/

/-- A connected client holds the session whose CONNECT_ACK connected it. -/
def Coherent (c : Client) : Prop :=
  c.isConnected = true → ∃ session, c.serverSession = some session ∧ c.connectedBy = some session

/-- What coherence depends on. -/
def connection (c : Client) : Bool × Option ℕ × Option ℕ :=
  (c.isConnected, c.serverSession, c.connectedBy)

theorem coherent_congr {c c' : Client} (h : c'.connection = c.connection) :
    c'.Coherent ↔ c.Coherent := by
  simp only [connection, Prod.mk.injEq] at h
  rw [Coherent, Coherent, h.1, h.2.1, h.2.2]

theorem coherent_of_not_connected {c : Client} (h : c.isConnected = false) : c.Coherent := by
  intro hconnected
  rw [h] at hconnected
  cases hconnected

variable {target : LeftShift} {c : Client}

@[simp]
theorem isConnected_attemptConnection (target : LeftShift) (c : Client) (now : Time)
    (clock : Stream' Time) : (c.attemptConnection target now clock).isConnected = c.isConnected :=
  rfl

theorem connect_coherent (hc : c.Coherent) (endpoint : UdpEndpoint) (now : Time)
    (clock : Stream' Time) : (c.connect target endpoint now clock).Coherent := by
  unfold connect
  split_ifs with hconnected
  · exact hc
  · apply coherent_of_not_connected
    rw [isConnected_attemptConnection]
    simpa using hconnected

/-- The locked region of `update` drops the session of a client that is not connected
only. -/
theorem maintain_coherent (hc : c.Coherent) (now : Time) (clock : Stream' Time) :
    (c.maintain target now clock).Coherent := by
  unfold maintain
  by_cases hmain : c.main = .maintaining
  · rw [if_pos hmain]
    split
    next session _ hconnected =>
      simp only
      split_ifs
      · exact coherent_of_not_connected hconnected
      · exact coherent_of_not_connected hconnected
      · exact coherent_of_not_connected hconnected
    next => exact hc
  · rw [if_neg hmain]
    exact hc

theorem finish_coherent (hc : c.Coherent) (timeout : ℤ) (now : Time) :
    (c.finish target timeout now).Coherent := by
  unfold finish
  split
  · exact hc
  · simp only
    split_ifs
    · exact hc
    · exact hc
    · exact hc
  · exact hc

/-- The packet that the main thread is about to dispatch is a CONNECT_ACK of a session
other than the one the client holds, and the client is not connected. -/
def StaleConnectAck (c : Client) : Prop :=
  ∃ session x, c.main = .running (.packet session x) ∧ isConnectAck x.packet = true ∧
    c.isConnected = false ∧ c.serverSession ≠ some session

/-- The ids of the three handlers differ. -/
theorem messageId_of_isConnectAck {p : Packet} (h : isConnectAck p = true) :
    p.messageId = SystemMessageId.kConnectAck := by
  rw [isConnectAck, Bool.and_eq_true] at h
  simpa using h.1

theorem dispatch_connectAck {p : Packet} (h : isConnectAck p = true) (session : ℕ) :
    c.dispatch target session p = c.onConnectAck session := by
  have hid := messageId_of_isConnectAck h
  have hconnect : (p.messageId == SystemMessageId.kConnect) = false := by
    rw [hid]
    decide
  have hdisconnect : (p.messageId == SystemMessageId.kDisconnect) = false := by
    rw [hid]
    decide
  simp [dispatch, hconnect, hdisconnect, h]

theorem connection_dispatch_of_ne {p : Packet} (h : isConnectAck p = false) (session : ℕ) :
    (c.dispatch target session p).connection = c.connection := by
  unfold dispatch
  split_ifs with hconnect hdisconnect hack
  · rfl
  · rfl
  · rw [h] at hack
    cases hack
  · rfl

/-- Running a task keeps the connection state coherent unless the task is a stale
CONNECT_ACK. -/
theorem runTask_coherent_iff (hc : c.Coherent) :
    (c.runTask target).Coherent ↔ ¬ c.StaleConnectAck := by
  cases hmain : c.main with
  | running task =>
      cases task with
      | disconnected =>
          have hrun : c.runTask target = { c with main := .processing } := by
            simp only [runTask, hmain]
          rw [hrun]
          refine iff_of_true hc ?_
          rintro ⟨session, x, hrunning, -⟩
          simp [hmain] at hrunning
      | packet session x =>
          have hrun : c.runTask target =
              { c.dispatch target session x.packet with main := .processing } := by
            simp only [runTask, hmain]
          have hcongr : (c.runTask target).Coherent ↔ (c.dispatch target session x.packet).Coherent := by
            rw [hrun]
            exact coherent_congr rfl
          rw [hcongr]
          cases hack : isConnectAck x.packet with
          | false =>
              rw [coherent_congr (connection_dispatch_of_ne hack session)]
              refine iff_of_true hc ?_
              rintro ⟨session', x', hrunning, hack', -⟩
              rw [hmain, MainThread.running.injEq, Task.packet.injEq] at hrunning
              rw [← hrunning.2, hack] at hack'
              cases hack'
          | true =>
              rw [dispatch_connectAck hack, onConnectAck]
              split_ifs with hconnected
              · refine iff_of_true hc ?_
                rintro ⟨-, -, -, -, hnot, -⟩
                rw [hconnected] at hnot
                cases hnot
              · have hnot : c.isConnected = false := by simpa using hconnected
                constructor
                · rintro hcoherent ⟨session', x', hrunning, -, -, hother⟩
                  rw [hmain, MainThread.running.injEq, Task.packet.injEq] at hrunning
                  obtain ⟨session'', hheld, hby⟩ := hcoherent rfl
                  rw [← Option.some.inj hby, hrunning.1] at hheld
                  exact hother hheld
                · intro hfresh _
                  refine ⟨session, ?_, rfl⟩
                  by_contra hother
                  exact hfresh ⟨session, x, hmain, hack, hnot, hother⟩
  | _ =>
      have hrun : c.runTask target = c := by
        simp only [runTask, hmain]
      rw [hrun]
      refine iff_of_true hc ?_
      rintro ⟨session, x, hrunning, -⟩
      simp [hmain] at hrunning

/-- The step does not run a stale CONNECT_ACK. -/
def RunsNoStaleAck (c : Client) : Act → Prop
  | .runTask => ¬ c.StaleConnectAck
  | _ => True

/-- The steps that keep the connection state coherent. -/
theorem step_coherent_iff (target : LeftShift) (c : Client) (a : Act) (hc : c.Coherent) :
    (c.step target a).Coherent ↔ c.RunsNoStaleAck a := by
  cases a with
  | runTask => exact runTask_coherent_iff hc
  | connect endpoint now clock => exact iff_of_true (connect_coherent hc endpoint now clock) trivial
  | maintain now clock => exact iff_of_true (maintain_coherent hc now clock) trivial
  | finish timeout now => exact iff_of_true (finish_coherent hc timeout now) trivial
  | disconnect => exact iff_of_true (coherent_of_not_connected rfl) trivial
  | send packet =>
      refine iff_of_true ?_ trivial
      simp only [step, send]
      split
      · exact hc
      · exact hc
  | leave =>
      refine iff_of_true ?_ trivial
      simp only [step, leave]
      split_ifs
      · exact coherent_of_not_connected rfl
      · exact hc
  | beginUpdate =>
      refine iff_of_true ?_ trivial
      simp only [step, beginUpdate]
      split_ifs <;> exact hc
  | popEvent =>
      refine iff_of_true ?_ trivial
      simp only [step, popEvent]
      split_ifs
      · split <;> exact hc
      · exact hc
  | receive sender d =>
      refine iff_of_true ?_ trivial
      simp only [step, receive]
      by_cases hidle : c.io = .idle
      · rw [if_pos hidle]
        split
        · split_ifs <;> exact hc
        · exact hc
      · rw [if_neg hidle]
        exact hc
  | handle =>
      refine iff_of_true ?_ trivial
      simp only [step, handle]
      split
      · exact hc
      · exact hc
  | pushEvent =>
      refine iff_of_true ?_ trivial
      simp only [step, pushEvent]
      split
      · exact hc
      · exact hc

/-- The connection state of a client is coherent throughout a run exactly when the run
never dispatches a CONNECT_ACK of another session while the client is not connected. -/
theorem coherent_iff (target : LeftShift) (acts : List Act) :
    Throughout (step target) Coherent new acts ↔
      AllowedRun (step target) RunsNoStaleAck new acts :=
  throughout_iff (step_coherent_iff target) (coherent_of_not_connected rfl) acts

/-- The datagram of the first CONNECT_ACK of a server. -/
def connectAckDatagram : Datagram :=
  ((Session.new 1 (Stream'.const 0)).send (connectAckPacket 0)).outbox.headD ⟨0, []⟩

/-- A CONNECT_ACK is queued, the application disconnects, and the next `update` runs
the queued closure. -/
def earlyDisconnect : List Act :=
  [.connect 1 0 (Stream'.const 0), .receive 1 connectAckDatagram, .handle, .pushEvent,
    .disconnect, .beginUpdate, .popEvent, .runTask]

/-- At the end of that run the client is connected without a session. -/
theorem connected_without_session :
    ¬ ∀ (target : LeftShift) (acts : List Act), Throughout (step target) Coherent new acts := by
  intro h
  obtain ⟨-, -, -, -, -, -, -, -, hlast⟩ := h .x86 earlyDisconnect
  obtain ⟨session, hheld, -⟩ := hlast (by decide +kernel)
  have hnone : (earlyDisconnect.foldl (step .x86) new).serverSession = none := by
    decide +kernel
  rw [earlyDisconnect, List.foldl] at hnone
  cases hnone.symm.trans hheld

end Client

end Rtype.Rtnt
