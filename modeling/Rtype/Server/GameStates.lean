import Mathlib
import Rtype.Foundations.Registers
import Rtype.Server.LobbyPackets
import Rtype.Server.TaskDiscipline

/-!
# Server - The game state of a lobby

The game state of a lobby goes from waiting to the lobby when somebody joins, to running
when somebody starts a game, to over when nobody is alive any more, and back to waiting
when the last player leaves.  Each change but the last one is announced to the players, and
a session that joins gets the game state with its answer.

Main results:

- Theorem {lit}`Lobby.Attended.announces`: from its join on, a member is told of every
  change of the game state.
- Structure {lit}`Lobby.Staged`: a lobby waits exactly when nobody plays.
- Theorem {lit}`Manager.stages_of_play`: it does in every run, and each step changes the
  game state only in one of the four ways.

Current gaps:

- None.
-/

namespace Rtype.Server

open Rtype.Rtecs Rtype.Rteng Rtype.Common
open Lobby (ThreadAct)
open Std Transition Registers

/-! ## Announcements -/

/-- The game state that a packet gives. -/
def announced : Variant → Option ℕ
  | .joinAck packet => some packet.gameState
  | .updateGameState gameState => some gameState
  | .worldInit packet => some packet.state
  | .spawn _ => none
  | .destroy _ => none

namespace Lobby

/-- The packets that were sent between two states tell a session what has become of the
game state, and none of them answers a request to join. -/
structure Announces (session : SessionPtr) (lobby lobby' : Lobby)
    (sent : List (List SessionPtr × Variant)) : Prop where
  outGoing : lobby'.outGoing = lobby.outGoing ++ sent
  tells : Tells announced (received session sent) lobby.engine.gameState lobby'.engine.gameState
  unanswered : ∀ ack, .joinAck ack ∉ received session sent

theorem Announces.nothing {session : SessionPtr} {lobby lobby' : Lobby}
    (houtGoing : lobby'.outGoing = lobby.outGoing)
    (hstate : lobby'.engine.gameState = lobby.engine.gameState) :
    Announces session lobby lobby' [] where
  outGoing := by rw [houtGoing, List.append_nil]
  tells := hstate.symm
  unanswered := by
    intro ack hmem
    cases hmem

theorem Announces.trans {session : SessionPtr} {l l' l'' : Lobby}
    {sent sent' : List (List SessionPtr × Variant)} (h : Announces session l l' sent)
    (h' : Announces session l' l'' sent') : Announces session l l'' (sent ++ sent') where
  outGoing := by rw [h'.outGoing, h.outGoing, List.append_assoc]
  tells := by
    rw [received_append]
    exact h.tells.trans h'.tells
  unanswered := by
    intro ack hmem
    rw [received_append, List.mem_append] at hmem
    exact hmem.elim (h.unanswered ack) (h'.unanswered ack)

/-- A packet for the players that gives the game state. -/
theorem Announces.told {session : SessionPtr} {lobby lobby' : Lobby}
    {sessions : List SessionPtr} {packet : Variant} (hmember : session ∈ sessions)
    (houtGoing : lobby'.outGoing = lobby.outGoing ++ [(sessions, packet)])
    (hstate : announced packet = some lobby'.engine.gameState)
    (hunanswered : ∀ ack, packet ≠ .joinAck ack) :
    Announces session lobby lobby' [(sessions, packet)] where
  outGoing := houtGoing
  tells := by
    rw [received_singleton, if_pos hmember, Tells, replay_cons, hstate]
    rfl
  unanswered := by
    intro ack hmem
    rw [received_singleton, if_pos hmember, List.mem_singleton] at hmem
    exact hunanswered ack hmem.symm

/-- Packets that do not reach the session, or say nothing about the game state. -/
theorem Announces.silent {session : SessionPtr} {lobby lobby' : Lobby}
    {sent : List (List SessionPtr × Variant)}
    (houtGoing : lobby'.outGoing = lobby.outGoing ++ sent)
    (hstate : lobby'.engine.gameState = lobby.engine.gameState)
    (hsilent : ∀ packet ∈ received session sent, announced packet = none) :
    Announces session lobby lobby' sent where
  outGoing := houtGoing
  tells := by
    rw [Tells, replay_eq_lastSaid, lastSaid_eq_none hsilent, hstate]
    rfl
  unanswered := by
    intro ack hmem
    have hsays := hsilent _ hmem
    cases hsays

/-- The packets of a loop of {lit}`destroyEntity` say nothing about the game state. -/
theorem announces_destroyAll (session : SessionPtr) (lobby : Lobby) (ids : List ℕ) :
    ∃ sent, Announces session lobby (lobby.destroyAll ids) sent := by
  rw [destroyAll_eq]
  refine ⟨_, .silent rfl rfl ?_⟩
  intro packet hmem
  rcases List.mem_filterMap.mp hmem with ⟨entry, hentry, hreceived⟩
  rcases List.mem_map.mp hentry with ⟨id, -, rfl⟩
  split_ifs at hreceived
  rw [← Option.some.inj hreceived]
  rfl

/-- The spawn of an entity says nothing about the game state. -/
theorem announces_spawned (session : SessionPtr) (lobby : Lobby) (first : Instance Comp)
    (rest : List (Instance Comp)) (newcomer : Option SessionPtr) :
    ∃ sent, Announces session lobby (lobby.spawned first rest newcomer) sent := by
  refine ⟨_, .silent rfl rfl ?_⟩
  intro packet hmem
  rw [received_singleton] at hmem
  split_ifs at hmem
  · rw [List.mem_singleton.mp hmem]
    rfl
  · cases hmem

theorem Micro.announces {lobby lobby' : Lobby} (h : Micro lobby lobby') {session : SessionPtr}
    (hmember : session ∈ lobby.players) : ∃ sent, Announces session lobby lobby' sent := by
  cases h with
  | announce gameState => exact ⟨_, .told (ExtTreeMap.mem_keys.mpr hmember) rfl rfl nofun⟩
  | write entity newInstance => exact ⟨[], .nothing rfl rfl⟩
  | spawn first rest hfirst => exact announces_spawned session lobby first rest none
  | destroy ids => exact announces_destroyAll session lobby ids

theorem Steps.announces {lobby lobby' : Lobby} (h : Steps lobby lobby') {session : SessionPtr}
    (hmember : session ∈ lobby.players) : ∃ sent, Announces session lobby lobby' sent := by
  induction h with
  | refl => exact ⟨[], .nothing rfl rfl⟩
  | tail hsteps hstep ih =>
      rcases ih with ⟨sent, hannounces⟩
      have hmember' := hmember
      rw [← Steps.frame hsteps |>.players] at hmember'
      rcases hstep.announces hmember' with ⟨sent', hannounces'⟩
      exact ⟨sent ++ sent', hannounces.trans hannounces'⟩

/-- The join of another session, for a player. -/
theorem announces_joined {lobby : Lobby} {session newcomer : SessionPtr}
    (hmember : session ∈ lobby.players) (hother : newcomer ≠ session) :
    ∃ sent, Announces session lobby (lobby.joined newcomer) sent := by
  rcases lobby.opened_steps.announces hmember with ⟨first, hopened⟩
  rcases announces_spawned session lobby.opened playerComponents.1 playerComponents.2
    (some newcomer) with ⟨spawn, hseated⟩
  have hanswered : Announces session (lobby.seated newcomer) (lobby.answered newcomer)
      [([newcomer], .joinAck (lobby.acknowledgement newcomer))] := by
    refine .silent rfl rfl ?_
    intro packet hmem
    rw [received_singleton, if_neg (by simpa using hother.symm)] at hmem
    cases hmem
  have hsofar := (hopened.trans hseated).trans hanswered
  by_cases hid : lobby.seatedId = 0
  · rw [joined_of_eq hid]
    exact ⟨_, hsofar⟩
  · rw [joined_of_ne hid]
    have hplayers : session ∈ (lobby.seated newcomer).players := by
      rw [players_seated, ExtTreeMap.mem_insert]
      exact .inr hmember
    refine ⟨_, hsofar.trans (.told (ExtTreeMap.mem_keys.mpr hplayers) rfl rfl nofun)⟩

/-- The leave of another session, for a player. -/
theorem announces_runLeave (lobby : Lobby) (leaver : SessionPtr) {session : SessionPtr}
    (hstays : session ∈ (lobby.runLeave leaver).players) :
    ∃ sent, Announces session lobby (lobby.runLeave leaver) sent := by
  cases hplayer : lobby.players[leaver]? with
  | none =>
      rw [runLeave_of_none hplayer]
      exact ⟨[], .nothing rfl rfl⟩
  | some id =>
      rw [(lobby.frame_runLeave leaver).2.2.2.1] at hstays
      have hnonempty : ¬ (lobby.players.erase leaver).isEmpty := by
        rw [ExtTreeMap.isEmpty_iff]
        intro hempty
        rw [hempty] at hstays
        exact ExtTreeMap.not_mem_empty hstays
      rw [runLeave_of_some hplayer, if_neg hnonempty]
      refine ⟨_, .silent rfl rfl ?_⟩
      intro packet hmem
      rw [received_singleton] at hmem
      split_ifs at hmem
      · rw [List.mem_singleton.mp hmem]
        rfl
      · cases hmem

section Thread

variable [FloatUnit]

theorem announces_runTask {task : Task} {lobby lobby' : Lobby}
    (h : lobby.runTask task = .ok lobby') {session : SessionPtr}
    (hmember : session ∈ lobby.players) (hstays : session ∈ lobby'.players) :
    ∃ sent, Announces session lobby lobby' sent := by
  cases task with
  | join newcomer =>
      by_cases hpresent : newcomer ∈ lobby.players
      · rw [runTask, runJoin_of_mem hpresent] at h
        cases h
        exact ⟨[], .nothing rfl rfl⟩
      · rw [runTask, runJoin_of_not_mem hpresent] at h
        obtain rfl := Except.ok.inj h
        apply announces_joined hmember
        rintro rfl
        exact hpresent hmember
  | leave leaver =>
      cases h
      exact announces_runLeave lobby leaver hstays
  | userInput s inputMask => exact (action_steps rfl h).announces hmember
  | start s => exact (action_steps rfl h).announces hmember

theorem ThreadStep.announces {lobby lobby' : Lobby} (h : ThreadStep lobby lobby')
    {session : SessionPtr} (hmember : session ∈ lobby.players)
    (hstays : session ∈ lobby'.players) : ∃ sent, Announces session lobby lobby' sent := by
  cases h with
  | move phase => exact ⟨[], .nothing rfl rfl⟩
  | task task tasks lobby' phase hqueue hrun =>
      have hmember' : session ∈ (lobby.withQueue tasks).players := hmember
      rcases announces_runTask hrun hmember' hstays with ⟨sent, hannounces⟩
      exact ⟨sent, hannounces.outGoing, hannounces.tells, hannounces.unanswered⟩
  | tick effects lobby' phase hrun =>
      rcases (runTick_steps hrun).announces hmember with ⟨sent, hannounces⟩
      exact ⟨sent, hannounces.outGoing, hannounces.tells, hannounces.unanswered⟩
  | direct wave lobby' phase hrun =>
      rcases (direct_steps hrun).announces hmember with ⟨sent, hannounces⟩
      exact ⟨sent, hannounces.outGoing, hannounces.tells, hannounces.unanswered⟩
  | taskFault task tasks fault hqueue hrun => exact ⟨[], .nothing rfl rfl⟩
  | tickFault effects fault hrun => exact ⟨[], .nothing rfl rfl⟩
  | directFault wave fault hrun => exact ⟨[], .nothing rfl rfl⟩

theorem announces_step {lobby : Lobby} (act : Act) {session : SessionPtr}
    (hmember : session ∈ lobby.players) (hstays : session ∈ (lobby.step act).players) :
    ∃ sent, Announces session lobby (lobby.step act) sent := by
  cases act with
  | push task => exact ⟨[], .nothing rfl rfl⟩
  | thread act => exact (lobby.advance_cases act).announces hmember hstays

/-- After the packets of its join, a member is told of every change of the game state, and
is not answered again. -/
theorem Attended.announces {session : SessionPtr} {start lobby : Lobby}
    (h : Attended session start lobby) :
    session ∉ start.players ∧ session ∈ lobby.players ∧ ∃ tasks sent,
      Announces session ((start.withQueue tasks).joined session) lobby sent := by
  induction h with
  | join tasks hphase hqueue hnew =>
      rw [step_join hphase hqueue hnew]
      have hmember : session ∈ ((start.withQueue tasks).joined session).players := by
        rw [((start.withQueue tasks).frame_joined session).2.2.2.2]
        exact ExtTreeMap.mem_insert_self
      refine ⟨hnew, ?_, tasks, [], ?_⟩
      · generalize (start.withQueue tasks).joined session = lobby at hmember ⊢
        exact hmember
      · generalize (start.withQueue tasks).joined session = lobby
        exact .nothing rfl rfl
  | step act _ hstays ih =>
      rcases ih with ⟨hnew, hmember, tasks, sent, hannounces⟩
      rcases announces_step act hmember hstays with ⟨sent', hannounces'⟩
      exact ⟨hnew, hstays, tasks, sent ++ sent', hannounces.trans hannounces'⟩

end Thread

/-! ## What sets the game state -/

theorem gameState_spawnEntity {lobby lobby' : Lobby} {first : Instance Comp}
    {rest : List (Instance Comp)}
    (h : (lobby.spawnEntity first rest).map Prod.fst = .ok lobby') :
    lobby'.engine.gameState = lobby.engine.gameState := by
  rw [spawnEntity_spawned] at h
  cases h
  rfl

theorem gameState_revive {playerIds : List ℕ} {lobby lobby' : Lobby}
    (h : lobby.revive playerIds = .ok lobby') :
    lobby'.engine.gameState = lobby.engine.gameState := by
  induction playerIds generalizing lobby with
  | nil =>
      cases h
      rfl
  | cons playerId playerIds ih =>
      unfold revive at h
      split at h
      · cases h
      · have hrest := ih h
        exact hrest

theorem gameState_removeAllOf (lobby : Lobby) (type : EntityType) :
    (lobby.removeAllOf type).engine.gameState = lobby.engine.gameState := by
  rw [removeAllOf, destroyAll_eq]
  rfl

theorem gameState_restart {lobby lobby' : Lobby} (h : lobby.restart = .ok lobby') :
    lobby'.engine.gameState = lobby.engine.gameState := by
  unfold restart at h
  split at h
  · cases h
  · rename_i revived hrevive
    cases h
    rw [gameState_removeAllOf, gameState_removeAllOf]
    exact gameState_revive hrevive

/-- A tick ends the game when nobody is alive any more. -/
theorem gameState_runTick {effects : List SystemEffect} {lobby lobby' : Lobby}
    (h : lobby.runTick effects = .ok lobby') :
    lobby'.engine.gameState =
      if lobby.hasPlayerAlive then lobby.engine.gameState else gameOver := by
  unfold runTick at h
  dsimp only at h
  split at h
  · cases h
  · rename_i restarted hrestart
    cases h
    rw [gameState_runOnce]
    cases halive : lobby.hasPlayerAlive with
    | true =>
        rw [halive] at hrestart
        cases hrestart
        rfl
    | false =>
        rw [halive] at hrestart
        exact gameState_restart hrestart

theorem gameState_spawnEnemies {enemies : List Enemy} {lobby lobby' : Lobby}
    (h : enemies.foldlM spawnEnemy lobby = .ok lobby') :
    lobby'.engine.gameState = lobby.engine.gameState := by
  induction enemies generalizing lobby with
  | nil =>
      cases h
      rfl
  | cons enemy enemies ih =>
      rw [List.foldlM_cons] at h
      cases hfirst : lobby.spawnEnemy enemy with
      | error fault =>
          rw [hfirst] at h
          cases h
      | ok spawned =>
          rw [hfirst] at h
          have hstep : spawned.engine.gameState = lobby.engine.gameState := by
            unfold spawnEnemy at hfirst
            split at hfirst
            · exact gameState_spawnEntity hfirst
            · cases hfirst
          exact (ih h).trans hstep

theorem gameState_direct {wave : Option (List Enemy)} {lobby lobby' : Lobby}
    (h : lobby.direct wave = .ok lobby') : lobby'.engine.gameState = lobby.engine.gameState := by
  unfold direct at h
  split at h
  · cases wave with
    | none =>
        cases h
        rfl
    | some enemies =>
        rw [directorUpdate] at h
        split_ifs at h
        exact gameState_spawnEnemies h
  · cases h
    rfl

/-- The lobby opens for its first player. -/
theorem gameState_joined (lobby : Lobby) (session : SessionPtr) :
    (lobby.joined session).engine.gameState =
      if lobby.engine.gameState < gameLobby then gameLobby else lobby.engine.gameState := by
  obtain ⟨packets, hjoined⟩ := lobby.joined_cases session
  rw [hjoined]
  change lobby.opened.engine.gameState = _
  unfold opened
  split_ifs
  · rfl
  · rfl

theorem members_eq_empty_iff {lobby : Lobby} : lobby.members = ∅ ↔ lobby.players = ∅ := by
  rw [members, List.toFinset_eq_empty_iff, ExtTreeMap.keys_eq_nil_iff]

/-- The lobby waits again when its last player has left. -/
theorem gameState_runLeave (lobby : Lobby) (session : SessionPtr) :
    (lobby.runLeave session).engine.gameState =
      if session ∈ lobby.members ∧ (lobby.runLeave session).members = ∅ then gameWaiting
      else lobby.engine.gameState := by
  simp only [mem_members, members_eq_empty_iff, (lobby.frame_runLeave session).2.2.2.1]
  cases hplayer : lobby.players[session]? with
  | none =>
      rw [runLeave_of_none hplayer, if_neg]
      rintro ⟨hmember, -⟩
      rw [ExtTreeMap.mem_iff_isSome_getElem?, hplayer] at hmember
      cases hmember
  | some id =>
      have hmember : session ∈ lobby.players := by
        rw [ExtTreeMap.mem_iff_isSome_getElem?, hplayer]
        rfl
      rw [runLeave_of_some hplayer]
      by_cases hempty : lobby.players.erase session = ∅
      · rw [if_pos (ExtTreeMap.isEmpty_iff.mpr hempty), if_pos ⟨hmember, hempty⟩]
        exact gameState_closed _
      · rw [if_neg (ExtTreeMap.isEmpty_iff.not.mpr hempty), if_neg fun h => hempty h.2]
        rfl

/-! ## The stages of play -/

/-- The game states of a lobby. -/
def gameStates : List ℕ :=
  [gameWaiting, gameLobby, gameRunning, gameOver]

/-- How a step changes the game state. -/
inductive Turn (lobby lobby' : Lobby) : Prop
  | stay (hstate : lobby'.engine.gameState = lobby.engine.gameState)
      (hmembers : lobby'.members = ∅ ↔ lobby.members = ∅)
  | opens (hbefore : lobby.members = ∅) (hafter : lobby'.members ≠ ∅)
      (hstate : lobby'.engine.gameState = gameLobby)
  | begins (hmembers : lobby.members ≠ ∅) (hsame : lobby'.members = lobby.members)
      (hstate : lobby'.engine.gameState = gameRunning)
  | ends (hrunning : lobby.engine.gameState = gameRunning) (hdead : lobby.hasPlayerAlive = false)
      (hsame : lobby'.members = lobby.members) (hstate : lobby'.engine.gameState = gameOver)
  | empties (hbefore : lobby.members ≠ ∅) (hafter : lobby'.members = ∅)
      (hstate : lobby'.engine.gameState = gameWaiting)

/-- The queue, the thread and the packets do not matter. -/
theorem Turn.congr {l l' k k' : Lobby} (h : Turn l l') (hengine : k.engine = l.engine)
    (hplayers : k.players = l.players) (hengine' : k'.engine = l'.engine)
    (hplayers' : k'.players = l'.players) : Turn k k' := by
  have hmembers : k.members = l.members := by rw [members, members, hplayers]
  have hmembers' : k'.members = l'.members := by rw [members, members, hplayers']
  have halive : k.hasPlayerAlive = l.hasPlayerAlive := by
    rw [hasPlayerAlive, hasPlayerAlive, hengine, hplayers]
  cases h with
  | stay hstate hboth =>
      apply Turn.stay
      · rw [hengine, hengine', hstate]
      · rw [hmembers, hmembers', hboth]
  | opens hbefore hafter hstate =>
      exact .opens (hmembers.trans hbefore) (hmembers' ▸ hafter) (hengine' ▸ hstate)
  | begins hsome hsame hstate =>
      exact .begins (hmembers ▸ hsome) (by rw [hmembers, hmembers', hsame]) (hengine' ▸ hstate)
  | ends hrunning hdead hsame hstate =>
      exact .ends (hengine ▸ hrunning) (halive.trans hdead) (by rw [hmembers, hmembers', hsame])
        (hengine' ▸ hstate)
  | empties hbefore hafter hstate =>
      exact .empties (hmembers ▸ hbefore) (hmembers'.trans hafter) (hengine' ▸ hstate)

/-- A lobby waits exactly when nobody plays. -/
structure Staged (lobby : Lobby) : Prop where
  orderly : Orderly lobby.members lobby.actionQueue
  known : lobby.engine.gameState ∈ gameStates
  waiting : lobby.engine.gameState = gameWaiting ↔ lobby.members = ∅

theorem Staged.start_new (id : ℕ) : (Lobby.new id).start.Staged where
  orderly := trivial
  known := List.mem_cons_self
  waiting := iff_of_true rfl (members_eq_empty_iff.mpr rfl)

/-- Each of the ways keeps what the game state says about the players. -/
theorem Staged.turn {lobby lobby' : Lobby} (h : lobby.Staged) (hturn : Turn lobby lobby')
    (horderly : Orderly lobby'.members lobby'.actionQueue) : lobby'.Staged := by
  cases hturn with
  | stay hstate hmembers =>
      refine ⟨horderly, ?_, ?_⟩
      · rw [hstate]
        exact h.known
      · rw [hstate, hmembers]
        exact h.waiting
  | opens hbefore hafter hstate =>
      refine ⟨horderly, ?_, ?_⟩
      · rw [hstate]
        decide
      · rw [hstate]
        exact iff_of_false (by decide) hafter
  | begins hmembers hsame hstate =>
      refine ⟨horderly, ?_, ?_⟩
      · rw [hstate]
        decide
      · rw [hstate, hsame]
        exact iff_of_false (by decide) hmembers
  | ends hrunning hdead hsame hstate =>
      have hmembers : lobby.members ≠ ∅ := by
        intro hempty
        rw [h.waiting.mpr hempty] at hrunning
        exact absurd hrunning (by decide)
      refine ⟨horderly, ?_, ?_⟩
      · rw [hstate]
        decide
      · rw [hstate, hsame]
        exact iff_of_false (by decide) hmembers
  | empties hbefore hafter hstate =>
      refine ⟨horderly, ?_, ?_⟩
      · rw [hstate]
        decide
      · exact iff_of_true hstate hafter

/-- Below the lobby there is only waiting. -/
theorem Staged.lt_gameLobby_iff {lobby : Lobby} (h : lobby.Staged) :
    lobby.engine.gameState < gameLobby ↔ lobby.members = ∅ := by
  rw [← h.waiting]
  have hknown := h.known
  simp only [gameStates, List.mem_cons, List.not_mem_nil, or_false] at hknown
  rcases hknown with hstate | hstate | hstate | hstate <;> rw [hstate] <;> decide

section Thread

variable [FloatUnit]

theorem gameState_spawnBullet {id : ℕ} {lobby lobby' : Lobby} {pos : Position}
    {inputMask : BitVec 8} (h : spawnBullet id lobby pos inputMask = .ok lobby') :
    lobby'.engine.gameState = lobby.engine.gameState := by
  unfold spawnBullet at h
  split at h
  · exact gameState_spawnEntity h
  · cases h
    rfl

theorem gameState_handleUserInput {session : SessionPtr} {lobby lobby' : Lobby}
    {inputMask : BitVec 8} (h : handleUserInput session lobby inputMask = .ok lobby') :
    lobby'.engine.gameState = lobby.engine.gameState := by
  unfold handleUserInput at h
  dsimp only at h
  split at h
  · split at h
    · cases h
    · cases h
      rfl
  · split at h
    · cases h
      rfl
    · split at h
      · cases h
      · have hrest := gameState_spawnBullet h
        exact hrest

theorem turn_runTask {task : Task} {lobby lobby' : Lobby}
    (h : lobby.engine.gameState < gameLobby ↔ lobby.members = ∅)
    (hrun : lobby.runTask task = .ok lobby')
    (haction : ∀ session, task.onBehalf = some session → session ∈ lobby.members) :
    Turn lobby lobby' := by
  have hmembers := (runTask_frame hrun).members
  cases task with
  | join session =>
      by_cases hpresent : session ∈ lobby.players
      · rw [runTask, runJoin_of_mem hpresent] at hrun
        cases hrun
        exact .stay rfl Iff.rfl
      · rw [runTask, runJoin_of_not_mem hpresent] at hrun
        obtain rfl := Except.ok.inj hrun
        have hstate := lobby.gameState_joined session
        have hafter : (lobby.joined session).members ≠ ∅ := by
          rw [hmembers]
          exact Finset.insert_ne_empty session lobby.members
        by_cases hbefore : lobby.members = ∅
        · rw [if_pos (h.mpr hbefore)] at hstate
          exact .opens hbefore hafter hstate
        · rw [if_neg (h.not.mpr hbefore)] at hstate
          exact .stay hstate (iff_of_false hafter hbefore)
  | leave session =>
      cases hrun
      have hstate := lobby.gameState_runLeave session
      by_cases hlast : session ∈ lobby.members ∧ (lobby.runLeave session).members = ∅
      · rw [if_pos hlast] at hstate
        exact .empties (Finset.ne_empty_of_mem hlast.1) hlast.2 hstate
      · rw [if_neg hlast] at hstate
        apply Turn.stay hstate
        by_cases hmember : session ∈ lobby.members
        · exact iff_of_false (fun hafter => hlast ⟨hmember, hafter⟩)
            (Finset.ne_empty_of_mem hmember)
        · rw [members_runLeave, Finset.erase_eq_of_notMem hmember]
  | userInput session inputMask =>
      apply Turn.stay (gameState_handleUserInput hrun)
      rw [hmembers]
      rfl
  | start session =>
      have hstate : lobby'.engine.gameState = gameRunning := gameState_restart hrun
      exact .begins (Finset.ne_empty_of_mem (haction session rfl)) hmembers hstate

/-- Each step of the thread keeps the stages. -/
theorem ThreadStep.turn {lobby lobby' : Lobby} (hstep : ThreadStep lobby lobby')
    (h : lobby.Staged) : Turn lobby lobby' ∧ lobby'.Staged := by
  have hturn : Turn lobby lobby' ∧ Orderly lobby'.members lobby'.actionQueue := by
    cases hstep with
    | move phase => exact ⟨.stay rfl Iff.rfl, h.orderly⟩
    | task task tasks lobby' phase hqueue hrun =>
        have hframe := runTask_frame hrun
        have horderly := h.orderly
        rw [hqueue] at horderly
        have hturn : Turn (lobby.withQueue tasks) lobby' :=
          turn_runTask h.lt_gameLobby_iff hrun horderly.1
        constructor
        · exact hturn.congr rfl rfl rfl rfl
        · change Orderly lobby'.members lobby'.actionQueue
          rw [hframe.members, hframe.actionQueue]
          exact horderly.2
    | tick effects lobby' phase hrun =>
        have hframe := (runTick_steps hrun).frame
        have hturn : Turn lobby lobby' := by
          have hstate := gameState_runTick hrun
          cases halive : lobby.hasPlayerAlive with
          | true =>
              rw [halive] at hstate
              exact .stay hstate (by rw [hframe.members])
          | false =>
              rw [halive] at hstate
              apply Turn.ends _ halive hframe.members hstate
              by_contra hidle
              rw [hasPlayerAlive, if_pos hidle] at halive
              cases halive
        constructor
        · exact hturn.congr rfl rfl rfl rfl
        · change Orderly lobby'.members lobby'.actionQueue
          rw [hframe.members, hframe.actionQueue]
          exact h.orderly
    | direct wave lobby' phase hrun =>
        have hframe := (direct_steps hrun).frame
        have hturn : Turn lobby lobby' :=
          .stay (gameState_direct hrun) (by rw [hframe.members])
        constructor
        · exact hturn.congr rfl rfl rfl rfl
        · change Orderly lobby'.members lobby'.actionQueue
          rw [hframe.members, hframe.actionQueue]
          exact h.orderly
    | taskFault task tasks fault hqueue hrun =>
        obtain ⟨session, haction⟩ := onBehalf_of_fault hrun
        have horderly := h.orderly
        rw [hqueue, Orderly, effect_of_onBehalf haction] at horderly
        exact ⟨.stay rfl Iff.rfl, horderly.2⟩
    | tickFault effects fault hrun => exact ⟨.stay rfl Iff.rfl, h.orderly⟩
    | directFault wave fault hrun => exact ⟨.stay rfl Iff.rfl, h.orderly⟩
  exact ⟨hturn.1, h.turn hturn.1 hturn.2⟩

end Thread

/-- A lobby keeps its stage when a task is pushed, for a session that will be a player. -/
theorem Staged.pushTask {lobby : Lobby} (h : lobby.Staged) {task : Task}
    (htask : ∀ session, task.onBehalf = some session → session ∈ lobby.expected) :
    (lobby.pushTask task).Staged where
  orderly := orderly_append.mpr ⟨h.orderly, htask⟩
  known := h.known
  waiting := h.waiting

end Lobby

namespace Manager

section Threads

variable [FloatUnit]

theorem staged_move {safe : Lobby → Prop} {m m' : Manager} (h : m.Orderliness)
    (hstaged : ∀ id, (m.lobby id).Staged) (hmove : Move safe m m') (id : ℕ) :
    (m'.lobby id).Staged := by
  cases hmove.lobby h.invariant h.noted id with
  | same hsame =>
      rw [hsame]
      exact hstaged id
  | create hid hnb hnew =>
      rw [hnew]
      exact .start_new id
  | push task hid hpush htask =>
      rw [hpush]
      exact (hstaged id).pushTask htask
  | thread act hid hadvance =>
      rw [hadvance]
      exact ((Lobby.advance_cases _ act).turn (hstaged id)).2

theorem staged_moves {safe : Lobby → Prop} {m m' : Manager} (h : m.Orderliness)
    (hstaged : ∀ id, (m.lobby id).Staged) (hmoves : Moves safe m m') :
    ∀ id, (m'.lobby id).Staged := by
  induction hmoves with
  | refl => exact hstaged
  | tail hmoves hmove ih => exact staged_move (h.moves hmoves) ih hmove

theorem Reached.staged {allowed : Manager → Act → Prop} {m : Manager} (h : Reached allowed m) :
    ∀ id, (m.lobby id).Staged := by
  apply Reachable.invariant h
  · rintro m rfl id
    exact ⟨trivial, List.mem_cons_self, (Lobby.Staged.start_new id).waiting⟩
  · intro m act hreached _ ih
    have hentry : m.SafeEntry (fun _ => True) act := by
      cases act <;> simp [SafeEntry]
    have horderliness := Reached.orderliness hreached
    exact staged_moves horderliness ih
      (step_moves (fun _ => trivial) horderliness.invariant hentry)

/-- In every state of every run, also in the middle of a call of {lit}`update`: the game
state of a lobby is one of the four, and the lobby waits exactly when nobody plays.  Each
step of its thread leaves the game state as it is, or opens an empty lobby for its first
players, begins a game that has players, ends a running game in which nobody is alive, or
waits again because the last player has left. -/
theorem stages_of_play {m m' : Manager} (h : Reached (fun _ _ => True) m)
    (hmoves : Moves (fun _ => True) m m') (id : ℕ) :
    (m'.lobby id).engine.gameState ∈ Lobby.gameStates ∧
    ((m'.lobby id).engine.gameState = gameWaiting ↔ (m'.lobby id).players = ∅) ∧
    ∀ act, Lobby.Turn (m'.lobby id) ((m'.lobby id).advance act) := by
  have hstaged := staged_moves (Reached.orderliness h) (Reached.staged h) hmoves id
  refine ⟨hstaged.known, ?_, ?_⟩
  · rw [hstaged.waiting]
    exact Lobby.members_eq_empty_iff
  · intro act
    exact ((Lobby.advance_cases _ act).turn hstaged).1

end Threads

section Runs

local instance stagesUnit : FloatUnit := .addsZero

/-- A session joins the first lobby, starts a game and leaves. -/
def runOfGame : List Act :=
  [.createLobby, .joinRoom 7 0, .start 7, .leaveRoom 7, .thread 0 .go, .thread 0 .go,
    .thread 0 .go]

/-- The game runs, and the lobby waits again after the leave. -/
theorem stages_of_play_of_one :
    ((runOfGame.foldl step {}).lobby 0).engine.gameState = gameRunning ∧
      ((runOfGame.foldl step {}).lobby 0).players ≠ ∅ ∧
      Lobby.Turn ((runOfGame.foldl step {}).lobby 0)
        (((runOfGame.foldl step {}).lobby 0).advance .go) := by
  have hrunning : ((runOfGame.foldl step {}).lobby 0).engine.gameState = gameRunning := by
    decide +kernel
  have hreached : Reached (fun _ _ => True) (runOfGame.foldl step {}) :=
    Reached.run (allowedRun_of_forall (fun _ _ => trivial) _ _)
  generalize runOfGame.foldl step {} = m at hrunning hreached ⊢
  obtain ⟨-, hwaiting, hturn⟩ := stages_of_play hreached .refl 0
  refine ⟨hrunning, ?_, hturn .go⟩
  intro hempty
  rw [hrunning] at hwaiting
  exact absurd (hwaiting.mpr hempty) (by decide)

end Runs

end Manager

end Rtype.Server
