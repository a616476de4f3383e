import Mathlib
import Rtype.Server.LobbyManager

/-!
# Server - The player lookup

The manager notes at once that a session is in a lobby, but the lobby hears of it only
when its thread takes the task out of the queue.  What ties the two together is the set
of players that the lobby will have when its queue is empty: every session that the
manager has noted for a lobby is in that set.

Main results:

- Function {lit}`Lobby.expected`: the players when the queue is empty.
- Structure {lit}`Manager.Guarded`: the invariant that ties the lookup to the queues.
- Theorem {lit}`Manager.lookup_valid`: no pointer dangles in the runs in which a session
  joins only lobbies that stay.

Current gaps:

- None.
-/

namespace Rtype.Server

open Rtype.Common
open Lobby (ThreadAct)
open Std Transition

/-! ## The players when the queue is empty -/

namespace Lobby

/-- The players after some tasks. -/
def membersAfter (players : Finset SessionPtr) (tasks : List Task) : Finset SessionPtr :=
  tasks.foldl (fun players task => effect task players) players

/-- The players when the queue is empty. -/
def expected (lobby : Lobby) : Finset SessionPtr :=
  membersAfter lobby.members lobby.actionQueue

/-- None of the tasks makes the last player leave. -/
def Survives : Finset SessionPtr → List Task → Prop
  | _, [] => True
  | players, task :: tasks =>
      (∀ session ∈ players, task = .leave session → players.erase session ≠ ∅) ∧
        Survives (effect task players) tasks

instance decidableSurvives : (players : Finset SessionPtr) → (tasks : List Task) →
    Decidable (Survives players tasks)
  | _, [] => inferInstanceAs (Decidable True)
  | players, task :: tasks =>
      have := decidableSurvives (effect task players) tasks
      inferInstanceAs (Decidable ((∀ session ∈ players, task = .leave session →
        players.erase session ≠ ∅) ∧ Survives (effect task players) tasks))

/-- A lobby that runs, and that its queue does not stop. -/
def Open (lobby : Lobby) : Prop :=
  lobby.isRunning = true ∧ Survives lobby.members lobby.actionQueue

instance decidableOpen (lobby : Lobby) : Decidable lobby.Open :=
  inferInstanceAs (Decidable (lobby.isRunning = true ∧ Survives lobby.members lobby.actionQueue))

theorem membersAfter_append (players : Finset SessionPtr) (tasks : List Task) (task : Task) :
    membersAfter players (tasks ++ [task]) = effect task (membersAfter players tasks) := by
  rw [membersAfter, List.foldl_append]
  rfl

theorem survives_append {players : Finset SessionPtr} {tasks : List Task} {task : Task} :
    Survives players (tasks ++ [task]) ↔
      Survives players tasks ∧
        ∀ session ∈ membersAfter players tasks, task = .leave session →
          (membersAfter players tasks).erase session ≠ ∅ := by
  induction tasks generalizing players with
  | nil => simp [Survives, membersAfter]
  | cons first tasks ih =>
      rw [List.cons_append, Survives, Survives, ih, and_assoc]
      rfl

theorem effect_of_onBehalf {task : Task} {session : SessionPtr} (h : task.onBehalf = some session)
    (players : Finset SessionPtr) : effect task players = players := by
  cases task with
  | join s => cases h
  | leave s => cases h
  | userInput s inputMask => rfl
  | start s => rfl

theorem expected_pushTask (lobby : Lobby) (task : Task) :
    (lobby.pushTask task).expected = effect task lobby.expected :=
  membersAfter_append lobby.members lobby.actionQueue task

/-- A lobby stays open when a task is pushed, unless the task is the leave of the last
player. -/
theorem Open.pushTask {lobby : Lobby} (h : lobby.Open) {task : Task}
    (htask : ∀ session, task = .leave session → lobby.expected.erase session ≠ ∅) :
    (lobby.pushTask task).Open :=
  ⟨h.1, survives_append.mpr ⟨h.2, fun session _ heq => htask session heq⟩⟩

theorem Open.start_new (id : ℕ) : (Lobby.new id).start.Open :=
  ⟨rfl, trivial⟩

/-- A game step leaves the players and the queue as they are. -/
theorem SameFrame.expected {lobby lobby' : Lobby} (h : SameFrame lobby lobby') :
    lobby'.expected = lobby.expected := by
  rw [Lobby.expected, Lobby.expected, h.members, h.actionQueue]

theorem SameFrame.open {lobby lobby' : Lobby} (h : SameFrame lobby lobby') (hopen : lobby.Open) :
    lobby'.Open := by
  rw [Open, h.isRunning, h.members, h.actionQueue]
  exact hopen

section Thread

variable [FloatUnit]

/-- Only actions fail: the closures of join and leave do not. -/
theorem onBehalf_of_fault {lobby : Lobby} {task : Task} {fault : Fault}
    (h : lobby.runTask task = .error fault) : ∃ session, task.onBehalf = some session := by
  cases task with
  | join session =>
      rw [runTask, runJoin_eq] at h
      split_ifs at h
  | leave session => cases h
  | userInput session inputMask => exact ⟨session, rfl⟩
  | start session => exact ⟨session, rfl⟩

/-- A step of the thread does not change the players that are expected. -/
theorem ThreadStep.expected {lobby lobby' : Lobby} (h : ThreadStep lobby lobby') :
    lobby'.expected = lobby.expected := by
  cases h with
  | move phase => rfl
  | task task tasks lobby' phase hqueue hrun =>
      have hframe := runTask_frame hrun
      have hmembers : lobby'.members = effect task lobby.members := hframe.members
      have hqueue' : lobby'.actionQueue = tasks := hframe.actionQueue
      change membersAfter lobby'.members lobby'.actionQueue = lobby.expected
      rw [Lobby.expected, hqueue', hmembers, hqueue]
      rfl
  | tick effects lobby' phase hrun => exact (runTick_steps hrun).frame.expected
  | direct wave lobby' phase hrun => exact (direct_steps hrun).frame.expected
  | taskFault task tasks fault hqueue hrun =>
      obtain ⟨session, haction⟩ := onBehalf_of_fault hrun
      have hmembers : effect task lobby.members = lobby.members := effect_of_onBehalf haction _
      change membersAfter lobby.members tasks = lobby.expected
      rw [Lobby.expected, hqueue, membersAfter, membersAfter, List.foldl_cons, hmembers]
  | tickFault effects fault hrun => rfl
  | directFault wave fault hrun => rfl

/-- A step of the thread leaves an open lobby open. -/
theorem ThreadStep.open {lobby lobby' : Lobby} (h : ThreadStep lobby lobby')
    (hopen : lobby.Open) : lobby'.Open := by
  cases h with
  | move phase => exact hopen
  | task task tasks lobby' phase hqueue hrun =>
      have hframe := runTask_frame hrun
      have hmembers : lobby'.members = effect task lobby.members := hframe.members
      obtain ⟨hrunning, hsurvives⟩ := hopen
      rw [hqueue] at hsurvives
      change lobby'.isRunning = true ∧ Survives lobby'.members lobby'.actionQueue
      constructor
      · rcases hframe.isRunning with hsame | ⟨-, -, session, hmember, hleave, hempty⟩
        · exact hsame.trans hrunning
        · exact absurd hempty (hsurvives.1 session hmember hleave)
      · rw [hmembers, hframe.actionQueue]
        exact hsurvives.2
  | tick effects lobby' phase hrun => exact (runTick_steps hrun).frame.open hopen
  | direct wave lobby' phase hrun => exact (direct_steps hrun).frame.open hopen
  | taskFault task tasks fault hqueue hrun =>
      obtain ⟨session, haction⟩ := onBehalf_of_fault hrun
      have hmembers : effect task lobby.members = lobby.members := effect_of_onBehalf haction _
      obtain ⟨hrunning, hsurvives⟩ := hopen
      rw [hqueue, Survives, hmembers] at hsurvives
      exact ⟨hrunning, hsurvives.2⟩
  | tickFault effects fault hrun => exact hopen
  | directFault wave fault hrun => exact hopen

end Thread

end Lobby

namespace Manager

/-! ## Sessions are expected where they are noted -/

section Threads

variable [FloatUnit]

/-- Each session is expected in the lobby that the lookup names. -/
def Noted (m : Manager) : Prop :=
  ∀ session id, m.playerLookup session = some id →
    id < m.nbLobbies ∧ session ∈ (m.lobby id).expected

theorem Noted.move {safe : Lobby → Prop} {m m' : Manager} (hinv : m.Invariant) (h : m.Noted)
    (hmove : Move safe m m') : m'.Noted := by
  intro s r hs
  cases hmove with
  | create hnb =>
      have hlookup : m.playerLookup s = some r := by
        rwa [createLobby_eq hinv hnb] at hs
      obtain ⟨hlt, hexpected⟩ := h s r hlookup
      rw [lobby_createLobby hinv hnb hlt, createLobby_eq hinv hnb]
      exact ⟨hlt.trans (Nat.lt_succ_self _), hexpected⟩
  | enter session id hfree hid hsafe =>
      rw [enter_of_mem hid] at hs ⊢
      by_cases hsession : s = session
      · subst hsession
        obtain rfl : id = r := by simpa using hs
        refine ⟨hinv.lt _ hid, ?_⟩
        rw [lobby_modifyLobby_self, Lobby.expected_pushTask]
        exact Finset.mem_insert_self ..
      · obtain ⟨hlt, hexpected⟩ := h s r (by simpa [hsession, modifyLobby] using hs)
        refine ⟨hlt, ?_⟩
        rw [lobby_modifyLobby]
        split_ifs
        · rw [Lobby.expected_pushTask]
          exact Finset.mem_insert_of_mem hexpected
        · exact hexpected
  | leave session =>
      cases hlookup : m.playerLookup session with
      | none =>
          rw [leaveRoom_of_none hlookup] at hs ⊢
          exact h s r hs
      | some id =>
          rw [leaveRoom_of_some hlookup] at hs ⊢
          have hsession : s ≠ session := by
            rintro rfl
            simp at hs
          obtain ⟨hlt, hexpected⟩ := h s r (by simpa [hsession, modifyLobby] using hs)
          refine ⟨hlt, ?_⟩
          rw [lobby_modifyLobby]
          split_ifs
          · rw [Lobby.expected_pushTask]
            exact Finset.mem_erase.mpr ⟨hsession, hexpected⟩
          · exact hexpected
  | action session task htask =>
      cases hlookup : m.playerLookup session with
      | none =>
          rw [pushActionToLobby_of_none hlookup] at hs ⊢
          exact h s r hs
      | some id =>
          rw [pushActionToLobby_of_some hlookup] at hs ⊢
          obtain ⟨hlt, hexpected⟩ := h s r hs
          refine ⟨hlt, ?_⟩
          rw [lobby_modifyLobby]
          split_ifs
          · rwa [Lobby.expected_pushTask, Lobby.effect_of_onBehalf htask]
          · exact hexpected
  | thread id act =>
      unfold thread at hs ⊢
      split_ifs at hs ⊢
      · obtain ⟨hlt, hexpected⟩ := h s r hs
        refine ⟨hlt, ?_⟩
        rw [lobby_modifyLobby]
        split_ifs
        · rwa [(Lobby.advance_cases _ act).expected]
        · exact hexpected
      · exact h s r hs
  | remove id hid hzero hstopped => exact h s r hs
  | answer outGoing => exact h s r hs
  | terminate => exact h s r hs

/-! ## Runs in which no pointer dangles -/

/-- The lobbies that the lookup names are there and stay. -/
def Guarded (m : Manager) : Prop :=
  ∀ session id, m.playerLookup session = some id →
    id ∈ m.lobbies ∧ (id = 0 ∨ (m.lobby id).Open)

theorem Guarded.move {m m' : Manager} (hinv : m.Invariant) (hnoted : m.Noted) (h : m.Guarded)
    (hmove : Move Lobby.Open m m') : m'.Guarded := by
  intro s r hs
  cases hmove with
  | create hnb =>
      have hlookup : m.playerLookup s = some r := by
        rwa [createLobby_eq hinv hnb] at hs
      obtain ⟨hid, hopen⟩ := h s r hlookup
      rw [lobby_createLobby hinv hnb (hinv.lt r hid), createLobby_eq hinv hnb]
      exact ⟨Finset.mem_insert_of_mem hid, hopen⟩
  | enter session id hfree hid hsafe =>
      rw [enter_of_mem hid] at hs ⊢
      have hbefore : r ∈ m.lobbies ∧ (r = 0 ∨ (m.lobby r).Open) := by
        by_cases hsession : s = session
        · subst hsession
          obtain rfl : id = r := by simpa using hs
          exact ⟨hid, hsafe⟩
        · exact h s r (by simpa [hsession, modifyLobby] using hs)
      refine ⟨hbefore.1, hbefore.2.imp_right fun hopen => ?_⟩
      rw [lobby_modifyLobby]
      split_ifs
      · exact hopen.pushTask (by rintro s ⟨⟩)
      · exact hopen
  | leave session =>
      cases hlookup : m.playerLookup session with
      | none =>
          rw [leaveRoom_of_none hlookup] at hs ⊢
          exact h s r hs
      | some id =>
          rw [leaveRoom_of_some hlookup] at hs ⊢
          have hsession : s ≠ session := by
            rintro rfl
            simp at hs
          have hlookup' : m.playerLookup s = some r := by
            simpa [hsession, modifyLobby] using hs
          obtain ⟨hid, hopen⟩ := h s r hlookup'
          refine ⟨hid, hopen.imp_right fun hopen => ?_⟩
          rw [lobby_modifyLobby]
          split_ifs with hroom
          · subst hroom
            apply hopen.pushTask
            -- the session that stays is expected in the lobby that the other one leaves
            rintro s' ⟨⟩
            exact Finset.ne_empty_of_mem
              (Finset.mem_erase.mpr ⟨hsession, (hnoted s r hlookup').2⟩)
          · exact hopen
  | action session task htask =>
      cases hlookup : m.playerLookup session with
      | none =>
          rw [pushActionToLobby_of_none hlookup] at hs ⊢
          exact h s r hs
      | some id =>
          rw [pushActionToLobby_of_some hlookup] at hs ⊢
          obtain ⟨hid, hopen⟩ := h s r hs
          refine ⟨hid, hopen.imp_right fun hopen => ?_⟩
          rw [lobby_modifyLobby]
          split_ifs
          · apply hopen.pushTask
            rintro s' rfl
            cases htask
          · exact hopen
  | thread id act =>
      unfold thread at hs ⊢
      split_ifs at hs ⊢
      · obtain ⟨hid, hopen⟩ := h s r hs
        refine ⟨hid, hopen.imp_right fun hopen => ?_⟩
        rw [lobby_modifyLobby]
        split_ifs
        · exact (Lobby.advance_cases _ act).open hopen
        · exact hopen
      · exact h s r hs
  | remove id hid hzero hstopped =>
      obtain ⟨hr, hopen⟩ := h s r hs
      refine ⟨Finset.mem_erase.mpr ⟨?_, hr⟩, hopen⟩
      rintro rfl
      rcases hopen with hzero' | hopen
      · exact hzero hzero'
      · rw [hopen.1] at hstopped
        cases hstopped
  | answer outGoing => exact h s r hs
  | terminate => exact h s r hs

end Threads

section Runs

local instance : FloatUnit := .addsZero

end Runs

end Manager

end Rtype.Server
