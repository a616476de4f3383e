import Mathlib
import Rtype.Server.PlayerLookup

/-!
# Server - The discipline of the tasks

A task that a session has pushed runs later, on another thread, when the lobby may have
changed.  Still the session is a player by then, with an entity that has what the task
asks for, because a leave of the session can only be behind the task in the queue.

Main results:

- Structure {lit}`Lobby.Disciplined`: the joint invariant of the queue, the game state and
  the store of a lobby.
- Theorem {lit}`Manager.task_discipline`: it holds in every state of every run in which
  the entity of a player is destroyed only when the player leaves.

Current gaps:

- None.
-/

namespace Rtype.Server

open Rtype.Rtecs Rtype.Rteng Rtype.Common
open Lobby (ThreadAct)
open Std Transition

namespace Lobby

/-! ## The joint invariant -/

/-- The types that the code expects a player to have. -/
def expectedKinds : List Kind :=
  [.other .position, .other .velocity, .state]

/-- An entity that the code can take for a player. -/
structure Playable (ecs : ECS Comp) (id : ℕ) : Prop where
  live : id ∈ ecs.entities
  holds : ∀ c ∈ expectedKinds, ecs.hasComponent c id = true

/-- The store knows its types, and each player has an entity. -/
structure Fit (lobby : Lobby) : Prop where
  registered : ECS.Registered gameComponents lobby.engine.ecs
  playable : ∀ (session : SessionPtr) (id : ℕ), lobby.players[session]? = some id →
    Playable lobby.engine.ecs id

/-- A game runs only when there are players. -/
def Manned (lobby : Lobby) : Prop :=
  lobby.engine.gameState = gameRunning → lobby.members ≠ ∅

/-- Each action is on behalf of somebody who is a player when the tasks before it have
run. -/
def Orderly : Finset SessionPtr → List Task → Prop
  | _, [] => True
  | players, task :: tasks =>
      (∀ session, task.onBehalf = some session → session ∈ players) ∧
        Orderly (effect task players) tasks

/-- The joint invariant of a lobby. -/
structure Disciplined (lobby : Lobby) : Prop where
  fit : lobby.Fit
  manned : lobby.Manned
  orderly : Orderly lobby.members lobby.actionQueue
  found : lobby.fault ≠ some .badOptionalAccess
  nonempty : lobby.fault ≠ some .emptyBack

/-- Entities of players have been destroyed only because the players left. -/
def OnlyByLeave (lobby : Lobby) : Prop :=
  ∀ destruction ∈ lobby.destroyed, ∀ session : SessionPtr,
    destruction.players[session]? = some destruction.id → destruction.leaving = some session

theorem OnlyByLeave.of_log {lobby lobby' : Lobby} (h : lobby'.OnlyByLeave)
    (hlog : lobby.destroyed <+: lobby'.destroyed) : lobby.OnlyByLeave :=
  fun destruction hmem => h destruction (hlog.subset hmem)

/-- Fitness is about the store and the players only. -/
theorem Fit.congr {lobby lobby' : Lobby} (h : lobby.Fit)
    (hecs : lobby'.engine.ecs = lobby.engine.ecs) (hplayers : lobby'.players = lobby.players) :
    lobby'.Fit := by
  constructor
  · rw [hecs]
    exact h.registered
  · rw [hecs, hplayers]
    exact h.playable

theorem orderly_append {players : Finset SessionPtr} {tasks : List Task} {task : Task} :
    Orderly players (tasks ++ [task]) ↔
      Orderly players tasks ∧
        ∀ session, task.onBehalf = some session → session ∈ membersAfter players tasks := by
  induction tasks generalizing players with
  | nil => simp [Orderly, membersAfter]
  | cons first tasks ih =>
      rw [List.cons_append, Orderly, Orderly, ih, and_assoc]
      rfl

theorem Disciplined.pushTask {lobby : Lobby} (h : lobby.Disciplined) {task : Task}
    (htask : ∀ session, task.onBehalf = some session → session ∈ lobby.expected) :
    (lobby.pushTask task).Disciplined where
  fit := h.fit.congr rfl rfl
  manned := h.manned
  orderly := orderly_append.mpr ⟨h.orderly, htask⟩
  found := h.found
  nonempty := h.nonempty

theorem fit_new (id : ℕ) : (Lobby.new id).Fit := by
  refine ⟨registered_new id, ?_⟩
  intro session id hplayer
  have hnone : (∅ : ExtTreeMap SessionPtr ℕ)[session]? = some id := hplayer
  rw [ExtTreeMap.getElem?_empty] at hnone
  cases hnone

/-- A lobby that has just been constructed. -/
theorem Disciplined.new (id : ℕ) : (Lobby.new id).Disciplined := by
  have hstate : (Lobby.new id).engine.gameState = gameWaiting := rfl
  have hfault : (Lobby.new id).fault = none := rfl
  refine ⟨fit_new id, ?_, trivial, ?_, ?_⟩
  · rw [Manned, hstate]
    intro hrunning
    exact absurd hrunning (by decide)
  · rw [hfault]
    exact fun h => nomatch h
  · rw [hfault]
    exact fun h => nomatch h

theorem Disciplined.start {lobby : Lobby} (h : lobby.Disciplined) : lobby.start.Disciplined :=
  ⟨h.fit.congr rfl rfl, h.manned, h.orderly, h.found, h.nonempty⟩

/-! ## The entities of the players -/

theorem mem_gameComponents_of_expected {c : Kind} (hc : c ∈ expectedKinds) :
    c ∈ gameComponents := by
  simp only [expectedKinds, List.mem_cons, List.not_mem_nil, or_false] at hc
  rcases hc with rfl | rfl | rfl
  · exact position_mem
  · exact velocity_mem
  · exact state_mem

/-- An entity keeps what it has when another one is registered. -/
theorem Playable.registerEntity {ecs : ECS Comp} {id : ℕ} (h : Playable ecs id)
    (hregistered : ECS.Registered gameComponents ecs) {first : Instance Comp}
    (rest : List (Instance Comp)) (hfirst : first.1 ∈ gameComponents) :
    Playable (ecs.registerEntity first rest).1 id := by
  have hset := hregistered.isSome_set hfirst
  refine ⟨(ECS.mem_entities_registerEntity hregistered.settled hset).mpr (.inr h.live), ?_⟩
  intro c hc
  exact ECS.hasComponent_registerEntity hregistered.settled hset
    (hregistered.isSome_set (mem_gameComponents_of_expected hc)) (.inl (h.holds c hc))

/-- The entity of a new player is playable. -/
theorem playable_registered {ecs : ECS Comp} (hregistered : ECS.Registered gameComponents ecs)
    {first : Instance Comp} {rest : List (Instance Comp)} (hfirst : first.1 ∈ gameComponents)
    (hall : expectedKinds ⊆ (first :: rest).map Sigma.fst) :
    Playable (ecs.registerEntity first rest).1 (ecs.registerEntity first rest).2 := by
  have hset := hregistered.isSome_set hfirst
  rw [ECS.registerEntity_id hregistered.settled hset]
  refine ⟨(ECS.mem_entities_registerEntity hregistered.settled hset).mpr (.inl rfl), ?_⟩
  intro c hc
  exact ECS.hasComponent_registerEntity hregistered.settled hset
    (hregistered.isSome_set (mem_gameComponents_of_expected hc)) (.inr ⟨rfl, hall hc⟩)

theorem Playable.updateEntityComponent {ecs : ECS Comp} {id : ℕ} (h : Playable ecs id)
    (entity : ℕ) (newInstance : Instance Comp) :
    Playable (ecs.updateEntityComponent entity newInstance).1 id := by
  constructor
  · rw [ECS.entities_updateEntityComponent]
    exact h.live
  · intro c hc
    rw [ECS.hasComponent_updateEntityComponent]
    exact h.holds c hc

theorem Playable.destroyAll {ecs : ECS Comp} {id : ℕ} (h : Playable ecs id) {ids : List ℕ}
    (hid : id ∉ ids) : Playable (Rteng.destroyAll ecs ids) id := by
  constructor
  · exact mem_entities_destroyAll.mpr ⟨hid, h.live⟩
  · intro c hc
    rw [hasComponent_destroyAll hid]
    exact h.holds c hc

/-! ## The log of the destructions grows -/

theorem Micro.log {lobby lobby' : Lobby} (h : Micro lobby lobby') :
    lobby.destroyed <+: lobby'.destroyed := by
  cases h with
  | announce gameState => exact List.prefix_rfl
  | write entity newInstance => exact List.prefix_rfl
  | spawn first rest hfirst => exact List.prefix_rfl
  | destroy ids =>
      rw [destroyAll_eq]
      exact List.prefix_append ..

theorem Steps.log {lobby lobby' : Lobby} (h : Steps lobby lobby') :
    lobby.destroyed <+: lobby'.destroyed := by
  induction h with
  | refl => exact List.prefix_rfl
  | tail _ hstep ih => exact ih.trans hstep.log

/-! ## What keeps the players fit -/

theorem Micro.fit {lobby lobby' : Lobby} (h : Micro lobby lobby') (hfit : lobby.Fit)
    (honly : lobby'.OnlyByLeave) : lobby'.Fit := by
  cases h with
  | announce gameState => exact hfit.congr rfl rfl
  | write entity newInstance =>
      refine ⟨hfit.registered.updateEntityComponent entity newInstance, ?_⟩
      intro session id hplayer
      exact (hfit.playable session id hplayer).updateEntityComponent entity newInstance
  | spawn first rest hfirst =>
      refine ⟨hfit.registered.registerEntity first rest, ?_⟩
      intro session id hplayer
      exact (hfit.playable session id hplayer).registerEntity hfit.registered rest hfirst
  | destroy ids =>
      rw [destroyAll_eq] at honly ⊢
      refine ⟨hfit.registered.destroyAll ids, ?_⟩
      intro session id hplayer
      refine (hfit.playable session id hplayer).destroyAll ?_
      -- otherwise the log would have an entry for a player that was not leaving
      intro hid
      have hleaving := honly (Destruction.mk id lobby.players none)
        (List.mem_append_right _ (List.mem_map_of_mem hid)) session hplayer
      cases hleaving

theorem Steps.fit {lobby lobby' : Lobby} (h : Steps lobby lobby') (hfit : lobby.Fit)
    (honly : lobby'.OnlyByLeave) : lobby'.Fit := by
  induction h with
  | refl => exact hfit
  | tail _ hstep ih => exact hstep.fit (ih (honly.of_log hstep.log)) honly

/-- A new player gets an entity that it can play with. -/
theorem fit_joined {lobby : Lobby} {session : SessionPtr} (hfit : lobby.Fit) :
    (lobby.joined session).Fit := by
  have hopened : lobby.opened.Fit := by
    unfold opened
    split_ifs
    · exact hfit.congr rfl rfl
    · exact hfit
  obtain ⟨packets, hjoined⟩ := lobby.joined_cases session
  rw [hjoined]
  refine ⟨hopened.registered.registerEntity _ _, ?_⟩
  intro s id hplayer
  have hseated : (lobby.seated session).players[s]? = some id := hplayer
  rw [players_seated, ExtTreeMap.getElem?_insert] at hseated
  split_ifs at hseated with hsession
  · cases hseated
    exact playable_registered hopened.registered position_mem (by decide)
  · have hbefore : lobby.opened.players[s]? = some id := by
      rwa [lobby.opened_steps.frame.players]
    exact (hopened.playable s id hbefore).registerEntity hopened.registered _ position_mem

theorem log_joined (lobby : Lobby) (session : SessionPtr) :
    (lobby.joined session).destroyed = lobby.destroyed := by
  obtain ⟨packets, hjoined⟩ := lobby.joined_cases session
  rw [hjoined]
  change lobby.opened.destroyed = lobby.destroyed
  unfold opened
  split_ifs
  · rfl
  · rfl

theorem log_without (lobby : Lobby) (session : SessionPtr) (id : ℕ) :
    (lobby.without session id).destroyed =
      lobby.destroyed ++ [Destruction.mk id lobby.players (some session)] :=
  rfl

theorem log_closed (lobby : Lobby) : lobby.destroyed <+: lobby.closed.destroyed := by
  have hcleared : lobby.destroyed <+:
      (lobby.destroyAll (getAllEntities lobby.engine.ecs)).destroyed :=
    (Micro.destroy lobby _).log
  unfold closed
  dsimp only
  split_ifs
  · exact hcleared
  · exact hcleared

theorem log_runLeave (lobby : Lobby) (session : SessionPtr) :
    lobby.destroyed <+: (lobby.runLeave session).destroyed := by
  cases hplayer : lobby.players[session]? with
  | none =>
      rw [runLeave_of_none hplayer]
  | some id =>
      have hfirst : lobby.destroyed <+: (lobby.without session id).destroyed := by
        rw [log_without]
        exact List.prefix_append ..
      rw [runLeave_of_some hplayer]
      split_ifs
      · exact hfirst.trans (log_closed _)
      · exact hfirst

/-- The other players keep their entities when one leaves. -/
theorem fit_without {lobby : Lobby} {session : SessionPtr} {id : ℕ} (hfit : lobby.Fit)
    (honly : (lobby.without session id).OnlyByLeave) : (lobby.without session id).Fit := by
  refine ⟨hfit.registered.destroyEntity id, ?_⟩
  intro s other hplayer
  have herased : (lobby.players.erase session)[s]? = some other := hplayer
  rw [ExtTreeMap.getElem?_erase] at herased
  split_ifs at herased with hsession
  have hne : other ≠ id := by
    rintro rfl
    have hentry : Destruction.mk other lobby.players (some session) ∈
        (lobby.without session other).destroyed := by
      rw [log_without]
      exact List.mem_append_right _ (List.mem_singleton_self _)
    have hleaving := honly _ hentry s herased
    rw [Std.compare_eq_iff_eq] at hsession
    exact hsession (Option.some.inj hleaving)
  have hid : other ∉ [id] := by simpa using hne
  exact (hfit.playable s other herased).destroyAll hid

theorem players_closed (lobby : Lobby) : lobby.closed.players = lobby.players := by
  have hcleared := (Micro.destroy lobby (getAllEntities lobby.engine.ecs)).frame.players
  unfold closed
  dsimp only
  split_ifs
  · exact hcleared
  · exact hcleared

/-- A lobby that nobody plays in is fit when its store knows its types. -/
theorem fit_closed {lobby : Lobby} (hfit : lobby.Fit) (hempty : lobby.players.isEmpty) :
    lobby.closed.Fit := by
  have hregistered : ECS.Registered gameComponents lobby.closed.engine.ecs := by
    have hcleared := hfit.registered.destroyAll (getAllEntities lobby.engine.ecs)
    unfold closed
    rw [destroyAll_eq]
    dsimp only
    split_ifs
    · exact hcleared
    · exact hcleared
  refine ⟨hregistered, ?_⟩
  intro s id hplayer
  rw [players_closed, ExtTreeMap.isEmpty_iff.mp hempty, ExtTreeMap.getElem?_empty] at hplayer
  cases hplayer

theorem fit_runLeave {lobby : Lobby} {session : SessionPtr} (hfit : lobby.Fit)
    (honly : (lobby.runLeave session).OnlyByLeave) : (lobby.runLeave session).Fit := by
  cases hplayer : lobby.players[session]? with
  | none => rwa [runLeave_of_none hplayer]
  | some id =>
      rw [runLeave_of_some hplayer] at honly ⊢
      split_ifs at honly ⊢ with hempty
      · exact fit_closed (fit_without hfit (honly.of_log (log_closed _))) hempty
      · exact fit_without hfit honly

/-! ## What does not fail -/

/-- The component of a player that the code looks up. -/
theorem exists_playerComponent {lobby : Lobby} (hfit : lobby.Fit) {session : SessionPtr} {id : ℕ}
    (hplayer : lobby.players[session]? = some id) {c : Kind} (hc : c ∈ expectedKinds) :
    ∃ component, lobby.getPlayerComponent c session = some component := by
  have hholds := (hfit.playable session id hplayer).holds c hc
  rw [ECS.hasComponent_eq_isSome_get, ← ECS.getEntity_singleton] at hholds
  simp only [getPlayerComponent, hplayer]
  exact Option.isSome_iff_exists.mp hholds

theorem exists_revive {ids : List ℕ} {lobby : Lobby}
    (h : ∀ id ∈ ids, lobby.engine.ecs.hasComponent .state id = true) :
    ∃ lobby', lobby.revive ids = .ok lobby' := by
  induction ids generalizing lobby with
  | nil => exact ⟨lobby, rfl⟩
  | cons id ids ih =>
      rw [revive_cons (h id List.mem_cons_self)]
      apply ih
      intro other hother
      change (lobby.engine.ecs.updateEntityComponent id _).1.hasComponent .state other = true
      rw [ECS.hasComponent_updateEntityComponent]
      exact h other (List.mem_cons_of_mem id hother)

theorem exists_restart {lobby : Lobby} (hfit : lobby.Fit) :
    ∃ lobby', lobby.restart = .ok lobby' := by
  have hstates : ∀ id ∈ lobby.players.toList.map Prod.snd,
      lobby.engine.ecs.hasComponent .state id = true := by
    intro id hid
    obtain ⟨⟨session, id'⟩, hmem, rfl⟩ := List.mem_map.mp hid
    have hplayer := ExtTreeMap.mem_toList_iff_getElem?_eq_some.mp hmem
    exact (hfit.playable session id' hplayer).holds .state (by decide)
  obtain ⟨revived, hrevive⟩ := exists_revive hstates
  unfold restart
  rw [hrevive]
  exact ⟨_, rfl⟩

theorem fault_spawnEnemies {enemies : List Enemy} {lobby : Lobby} {fault : Fault}
    (h : enemies.foldlM spawnEnemy lobby = .error fault) : fault = .outOfRange := by
  induction enemies generalizing lobby with
  | nil => cases h
  | cons enemy enemies ih =>
      rw [List.foldlM_cons] at h
      cases hfirst : lobby.spawnEnemy enemy with
      | error fault' =>
          rw [hfirst] at h
          cases h
          unfold spawnEnemy at hfirst
          split at hfirst
          · rw [spawnEntity_spawned] at hfirst
            cases hfirst
          · cases hfirst
            rfl
      | ok spawned =>
          rw [hfirst] at h
          exact ih h

/-- The first half of a tick never fails. -/
theorem exists_runTick {lobby : Lobby} (hfit : lobby.Fit) (effects : List SystemEffect) :
    ∃ lobby', lobby.runTick effects = .ok lobby' := by
  have hannounced : (lobby.changeGameState gameOver).Fit := hfit.congr rfl rfl
  unfold runTick
  dsimp only
  split_ifs
  · obtain ⟨restarted, hrestart⟩ := exists_restart hannounced
    rw [hrestart]
    exact ⟨_, rfl⟩
  · exact ⟨_, rfl⟩

/-- When there are players, the second half of a tick can only fail because of the
configuration. -/
theorem fault_direct {lobby : Lobby} (hfit : lobby.Fit) (hmanned : lobby.Manned)
    {wave : Option (List Enemy)} {fault : Fault} (h : lobby.direct wave = .error fault) :
    fault = .outOfRange := by
  unfold direct at h
  split_ifs at h with hrunning
  cases wave with
  | none => cases h
  | some enemies =>
      obtain ⟨session, hmember⟩ := Finset.nonempty_iff_ne_empty.mpr (hmanned hrunning)
      rw [mem_members] at hmember
      have hplayer := ExtTreeMap.mem_iff_isSome_getElem?.mp hmember
      obtain ⟨id, hid⟩ := Option.isSome_iff_exists.mp hplayer
      obtain ⟨position, hposition⟩ :=
        exists_playerComponent hfit hid (c := .other .position) (by decide)
      have hpositions : position ∈ lobby.getPlayerPositions :=
        List.mem_filterMap.mpr ⟨session, ExtTreeMap.mem_keys.mpr hmember, hposition⟩
      have hnonempty : lobby.getPlayerPositions.isEmpty = false :=
        List.isEmpty_eq_false_iff_exists_mem.mpr ⟨position, hpositions⟩
      rw [directorUpdate, hnonempty] at h
      exact fault_spawnEnemies h

/-! ## A game runs only when there are players -/

theorem Manned.of_members {lobby : Lobby} (h : lobby.members ≠ ∅) : lobby.Manned :=
  fun _ => h

/-- The game steps of a lobby that has players leave it manned. -/
theorem Steps.manned {lobby lobby' : Lobby} (h : Steps lobby lobby') (hmembers : lobby.members ≠ ∅) :
    lobby'.Manned := by
  apply Manned.of_members
  rwa [h.frame.members]

theorem gameState_closed (lobby : Lobby) : lobby.closed.engine.gameState = gameWaiting := by
  unfold closed
  dsimp only
  split_ifs
  · rfl
  · rfl

theorem manned_runLeave {lobby : Lobby} (h : lobby.Manned) (session : SessionPtr) :
    (lobby.runLeave session).Manned := by
  cases hplayer : lobby.players[session]? with
  | none => rwa [runLeave_of_none hplayer]
  | some id =>
      rw [runLeave_of_some hplayer]
      split_ifs with hempty
      · rw [Manned, gameState_closed]
        intro hrunning
        exact absurd hrunning (by decide)
      · apply Manned.of_members
        change (lobby.players.erase session).keys.toFinset ≠ ∅
        intro hnone
        apply hempty
        rwa [List.toFinset_eq_empty_iff, ExtTreeMap.keys_eq_nil_iff,
          ← ExtTreeMap.isEmpty_iff] at hnone

theorem gameState_runOnce (effects : List SystemEffect) (lobby : Lobby) :
    (lobby.runOnce effects).engine.gameState = lobby.engine.gameState := by
  induction effects generalizing lobby with
  | nil => rfl
  | cons effect effects ih =>
      change ((lobby.applyEffect effect).runOnce effects).engine.gameState = _
      rw [ih]
      cases effect with
      | write entity newInstance => rfl
      | kill entity => rfl

theorem manned_runTick {effects : List SystemEffect} {lobby lobby' : Lobby}
    (hrun : lobby.runTick effects = .ok lobby') (h : lobby.Manned) : lobby'.Manned := by
  by_cases hmembers : lobby.members = ∅
  · -- the game does not run, so the tick only runs the systems
    have hidle : lobby.engine.gameState ≠ gameRunning := fun hrunning => h hrunning hmembers
    have halive : lobby.hasPlayerAlive = true := by
      rw [hasPlayerAlive, if_pos hidle]
    unfold runTick at hrun
    rw [halive] at hrun
    cases hrun
    rw [Manned, gameState_runOnce]
    exact fun hrunning => absurd hrunning hidle
  · exact (runTick_steps hrun).manned hmembers

theorem manned_direct {wave : Option (List Enemy)} {lobby lobby' : Lobby}
    (hrun : lobby.direct wave = .ok lobby') (h : lobby.Manned) : lobby'.Manned := by
  by_cases hmembers : lobby.members = ∅
  · have hidle : lobby.engine.gameState ≠ gameRunning := fun hrunning => h hrunning hmembers
    rw [direct, if_neg hidle] at hrun
    cases hrun
    exact h
  · exact (direct_steps hrun).manned hmembers

/-- The steps of a game, which leave the queue and the faults alone. -/
theorem Disciplined.steps {lobby lobby' : Lobby} (h : lobby.Disciplined) (hsteps : Steps lobby lobby')
    (hmanned : lobby'.Manned) (honly : lobby'.OnlyByLeave) (phase : Phase) :
    (lobby'.withPhase phase).Disciplined where
  fit := (hsteps.fit h.fit honly).congr rfl rfl
  manned := hmanned
  orderly := by
    change Orderly lobby'.members lobby'.actionQueue
    rw [hsteps.frame.members, hsteps.frame.actionQueue]
    exact h.orderly
  found := by
    change lobby'.fault ≠ _
    rw [hsteps.frame.fault]
    exact h.found
  nonempty := by
    change lobby'.fault ≠ _
    rw [hsteps.frame.fault]
    exact h.nonempty

section Thread

variable [FloatUnit]

theorem log_runTask {task : Task} {lobby lobby' : Lobby} (h : lobby.runTask task = .ok lobby') :
    lobby.destroyed <+: lobby'.destroyed := by
  cases task with
  | join session =>
      by_cases hmember : session ∈ lobby.players
      · rw [runTask, runJoin_of_mem hmember] at h
        cases h
        exact List.prefix_rfl
      · rw [runTask, runJoin_of_not_mem hmember] at h
        obtain rfl := Except.ok.inj h
        rw [log_joined]
  | leave session =>
      cases h
      exact lobby.log_runLeave session
  | userInput session inputMask => exact (action_steps rfl h).log
  | start session => exact (action_steps rfl h).log

theorem fit_runTask {task : Task} {lobby lobby' : Lobby} (h : lobby.runTask task = .ok lobby')
    (hfit : lobby.Fit) (honly : lobby'.OnlyByLeave) : lobby'.Fit := by
  cases task with
  | join session =>
      by_cases hmember : session ∈ lobby.players
      · rw [runTask, runJoin_of_mem hmember] at h
        cases h
        exact hfit
      · rw [runTask, runJoin_of_not_mem hmember] at h
        obtain rfl := Except.ok.inj h
        exact fit_joined hfit
  | leave session =>
      cases h
      exact fit_runLeave hfit honly
  | userInput session inputMask => exact (action_steps rfl h).fit hfit honly
  | start session => exact (action_steps rfl h).fit hfit honly

/-! ## Actions of players do not fail -/

theorem exists_spawnBullet (id : ℕ) (lobby : Lobby) (pos : Position) (inputMask : BitVec 8) :
    ∃ lobby', spawnBullet id lobby pos inputMask = .ok lobby' := by
  unfold spawnBullet
  split_ifs
  · rw [spawnEntity_spawned]
    exact ⟨_, rfl⟩
  · exact ⟨lobby, rfl⟩

theorem exists_handleUserInput {lobby : Lobby} (hfit : lobby.Fit) {session : SessionPtr} {id : ℕ}
    (hplayer : lobby.players[session]? = some id) (inputMask : BitVec 8) :
    ∃ lobby', handleUserInput session lobby inputMask = .ok lobby' := by
  obtain ⟨position, hposition⟩ :=
    exists_playerComponent hfit hplayer (c := .other .position) (by decide)
  obtain ⟨velocity, hvelocity⟩ :=
    exists_playerComponent hfit hplayer (c := .other .velocity) (by decide)
  have hid : lobby.getPlayerId session = some id := hplayer
  unfold handleUserInput
  simp only [hvelocity, hid, getPlayerPosition, hposition]
  exact exists_spawnBullet id _ position inputMask

/-- The action of a player succeeds. -/
theorem exists_action {lobby : Lobby} (hfit : lobby.Fit) {task : Task} {session : SessionPtr}
    (haction : task.onBehalf = some session) (hmember : session ∈ lobby.members) :
    ∃ lobby', lobby.runTask task = .ok lobby' := by
  rw [mem_members, ExtTreeMap.mem_iff_isSome_getElem?, Option.isSome_iff_exists] at hmember
  obtain ⟨id, hplayer⟩ := hmember
  cases task with
  | join s => cases haction
  | leave s => cases haction
  | userInput s inputMask =>
      cases haction
      exact exists_handleUserInput hfit hplayer inputMask
  | start s =>
      have hannounced : (lobby.changeGameState gameRunning).Fit := hfit.congr rfl rfl
      exact exists_restart hannounced

/-! ## A step of the thread keeps the discipline -/

theorem manned_runTask {task : Task} {lobby lobby' : Lobby} (hrun : lobby.runTask task = .ok lobby')
    (h : lobby.Manned) (haction : ∀ session, task.onBehalf = some session →
      session ∈ lobby.members) : lobby'.Manned := by
  cases task with
  | join session =>
      apply Manned.of_members
      rw [(runTask_frame hrun).members]
      exact Finset.insert_ne_empty session lobby.members
  | leave session =>
      cases hrun
      exact manned_runLeave h session
  | userInput session inputMask =>
      exact (action_steps rfl hrun).manned (Finset.ne_empty_of_mem (haction session rfl))
  | start session =>
      exact (action_steps rfl hrun).manned (Finset.ne_empty_of_mem (haction session rfl))

theorem ThreadStep.log {lobby lobby' : Lobby} (h : ThreadStep lobby lobby') :
    lobby.destroyed <+: lobby'.destroyed := by
  cases h with
  | move phase => exact List.prefix_rfl
  | task task tasks lobby' phase hqueue hrun =>
      have hlog := log_runTask hrun
      exact hlog
  | tick effects lobby' phase hrun =>
      have hlog := (runTick_steps hrun).log
      exact hlog
  | direct wave lobby' phase hrun =>
      have hlog := (direct_steps hrun).log
      exact hlog
  | taskFault task tasks fault hqueue hrun => exact List.prefix_rfl
  | tickFault effects fault hrun => exact List.prefix_rfl
  | directFault wave fault hrun => exact List.prefix_rfl

theorem ThreadStep.disciplined {lobby lobby' : Lobby} (h : ThreadStep lobby lobby')
    (hlobby : lobby.Disciplined) (honly : lobby'.OnlyByLeave) : lobby'.Disciplined := by
  cases h with
  | move phase =>
      exact ⟨hlobby.fit.congr rfl rfl, hlobby.manned, hlobby.orderly, hlobby.found,
        hlobby.nonempty⟩
  | task task tasks lobby' phase hqueue hrun =>
      have hframe := runTask_frame hrun
      obtain ⟨hfit, hmanned, horderly, hfound, hnonempty⟩ := hlobby
      rw [hqueue] at horderly
      have honly' : lobby'.OnlyByLeave := honly
      have hfit' : lobby'.Fit := fit_runTask hrun (hfit.congr rfl rfl) honly'
      have hmembers : lobby'.members = effect task lobby.members := hframe.members
      have hfault : lobby'.fault = lobby.fault := hframe.fault
      have hqueue' : lobby'.actionQueue = tasks := hframe.actionQueue
      have hmanned' : lobby'.Manned := manned_runTask hrun hmanned horderly.1
      refine ⟨hfit'.congr rfl rfl, hmanned', ?_, ?_, ?_⟩
      · change Orderly lobby'.members lobby'.actionQueue
        rw [hmembers, hqueue']
        exact horderly.2
      · change lobby'.fault ≠ _
        rwa [hfault]
      · change lobby'.fault ≠ _
        rwa [hfault]
  | tick effects lobby' phase hrun =>
      exact hlobby.steps (runTick_steps hrun) (manned_runTick hrun hlobby.manned) honly phase
  | direct wave lobby' phase hrun =>
      exact hlobby.steps (direct_steps hrun) (manned_direct hrun hlobby.manned) honly phase
  | taskFault task tasks fault hqueue hrun =>
      -- the session of the action is a player, so the action succeeds
      obtain ⟨session, haction⟩ := onBehalf_of_fault hrun
      obtain ⟨hfit, hmanned, horderly, hfound, hnonempty⟩ := hlobby
      rw [hqueue] at horderly
      have hfit' : (lobby.withQueue tasks).Fit := hfit.congr rfl rfl
      obtain ⟨lobby', hok⟩ := exists_action hfit' haction (horderly.1 session haction)
      rw [hok] at hrun
      cases hrun
  | tickFault effects fault hrun =>
      obtain ⟨lobby', hok⟩ := exists_runTick hlobby.fit effects
      rw [hok] at hrun
      cases hrun
  | directFault wave fault hrun =>
      obtain rfl := fault_direct hlobby.fit hlobby.manned hrun
      exact ⟨hlobby.fit.congr rfl rfl, hlobby.manned, hlobby.orderly, by rintro ⟨⟩,
        by rintro ⟨⟩⟩

end Thread

end Lobby

namespace Manager

/-! ## Every state of every run -/

section Threads

variable [FloatUnit]

/-- A lobby that has not been created has its first state. -/
def Untouched (m : Manager) : Prop :=
  ∀ id, m.nbLobbies ≤ id → m.lobby id = Lobby.new id

/-- What a change does to one of the lobbies. -/
inductive LobbyMove (m m' : Manager) (id : ℕ) : Prop
  | same (h : m'.lobby id = m.lobby id)
  | create (hid : id = m.nbLobbies) (hnb : m'.nbLobbies = m.nbLobbies + 1)
      (h : m'.lobby id = (Lobby.new id).start)
  | push (task : Task) (hid : id < m.nbLobbies) (h : m'.lobby id = (m.lobby id).pushTask task)
      (htask : ∀ session, task.onBehalf = some session → session ∈ (m.lobby id).expected)
  | thread (act : ThreadAct) (hid : id < m.nbLobbies) (h : m'.lobby id = (m.lobby id).advance act)

theorem LobbyMove.of_push {m m' : Manager} {room : ℕ} {task : Task}
    (hlobby : m'.lobby = (m.modifyLobby room fun lobby => lobby.pushTask task).lobby)
    (hroom : room < m.nbLobbies)
    (htask : ∀ session, task.onBehalf = some session → session ∈ (m.lobby room).expected)
    (id : ℕ) : LobbyMove m m' id := by
  by_cases hid : id = room
  · subst hid
    refine .push task hroom ?_ htask
    rw [hlobby, lobby_modifyLobby_self]
  · apply LobbyMove.same
    rw [hlobby, lobby_modifyLobby_of_ne m hid]

/-- The lobbies after a change, one by one. -/
theorem Move.lobby {safe : Lobby → Prop} {m m' : Manager} (hinv : m.Invariant) (hnoted : m.Noted)
    (hmove : Move safe m m') (id : ℕ) : LobbyMove m m' id := by
  cases hmove with
  | create hnb =>
      rw [createLobby_eq hinv hnb]
      by_cases hid : id = m.nbLobbies
      · subst hid
        exact .create rfl rfl (Function.update_self ..)
      · exact .same (Function.update_of_ne hid ..)
  | enter session room hfree hroom hsafe =>
      have hlobby : (m.enter session room).lobby =
          (m.modifyLobby room fun lobby => lobby.pushTask (.join session)).lobby := by
        rw [enter_of_mem hroom]
      refine .of_push hlobby (hinv.lt _ hroom) ?_ id
      rintro s ⟨⟩
  | leave session =>
      cases hlookup : m.playerLookup session with
      | none =>
          rw [leaveRoom_of_none hlookup]
          exact .same rfl
      | some room =>
          have hlobby : (m.leaveRoom session).lobby =
              (m.modifyLobby room fun lobby => lobby.pushTask (.leave session)).lobby := by
            rw [leaveRoom_of_some hlookup]
          refine .of_push hlobby (hnoted _ _ hlookup).1 ?_ id
          rintro s ⟨⟩
  | action session task htask =>
      cases hlookup : m.playerLookup session with
      | none =>
          rw [pushActionToLobby_of_none hlookup]
          exact .same rfl
      | some room =>
          rw [pushActionToLobby_of_some hlookup]
          obtain ⟨hlt, hexpected⟩ := hnoted _ _ hlookup
          refine .of_push rfl hlt ?_ id
          intro s hs
          rw [htask] at hs
          cases hs
          exact hexpected
  | thread room act =>
      unfold Manager.thread
      split_ifs with hlt
      · by_cases hid : id = room
        · subst hid
          exact .thread act hlt (lobby_modifyLobby_self ..)
        · exact .same (lobby_modifyLobby_of_ne m hid _)
      · exact .same rfl
  | remove room hroom hzero hstopped => exact .same rfl
  | answer outGoing => exact .same rfl
  | terminate => exact .same rfl

theorem Untouched.move {safe : Lobby → Prop} {m m' : Manager} (hinv : m.Invariant)
    (hnoted : m.Noted) (h : m.Untouched) (hmove : Move safe m m') : m'.Untouched := by
  have hcounter : m.nbLobbies ≤ m'.nbLobbies := by
    obtain ⟨hnb, -⟩ | ⟨hnb, rfl⟩ | ⟨hnb, -⟩ := hmove.keys
    · exact hnb.ge
    · rw [createLobby_eq hinv hnb]
      exact Nat.le_succ _
    · exact hnb.ge
  intro id hid
  cases hmove.lobby hinv hnoted id with
  | same hsame => exact hsame.trans (h id (hcounter.trans hid))
  | create hnew hnb => omega
  | push task hlt => omega
  | thread act hlt => omega

/-- What holds of the lobbies between the changes. -/
structure Orderliness (m : Manager) : Prop where
  invariant : m.Invariant
  noted : m.Noted
  untouched : m.Untouched
  disciplined : (∀ id, (m.lobby id).OnlyByLeave) → ∀ id, (m.lobby id).Disciplined

/-- The logs only grow. -/
theorem Orderliness.log {safe : Lobby → Prop} {m m' : Manager} (h : m.Orderliness)
    (hmove : Move safe m m') (id : ℕ) : (m.lobby id).destroyed <+: (m'.lobby id).destroyed := by
  cases hmove.lobby h.invariant h.noted id with
  | same hsame => rw [hsame]
  | create hid hnb hnew =>
      rw [hid, h.untouched _ le_rfl]
      exact List.nil_prefix
  | push task hid hpush =>
      rw [hpush]
      exact List.prefix_rfl
  | thread act hid hadvance =>
      rw [hadvance]
      exact (Lobby.advance_cases _ act).log

theorem Orderliness.move {safe : Lobby → Prop} {m m' : Manager} (h : m.Orderliness)
    (hmove : Move safe m m') : m'.Orderliness where
  invariant := h.invariant.move hmove
  noted := h.noted.move h.invariant hmove
  untouched := h.untouched.move h.invariant h.noted hmove
  disciplined := by
    intro honly id
    have hdisciplined := h.disciplined fun other => (honly other).of_log (h.log hmove other)
    cases hmove.lobby h.invariant h.noted id with
    | same hsame =>
        rw [hsame]
        exact hdisciplined id
    | create _ _ hnew =>
        rw [hnew]
        exact (Lobby.Disciplined.new id).start
    | push task hlt hpush htask =>
        rw [hpush]
        exact (hdisciplined id).pushTask htask
    | thread act hlt hadvance =>
        have honly' := honly id
        rw [hadvance] at honly' ⊢
        exact (Lobby.advance_cases _ act).disciplined (hdisciplined id) honly'

theorem Orderliness.moves {safe : Lobby → Prop} {m m' : Manager} (h : m.Orderliness)
    (hmoves : Moves safe m m') : m'.Orderliness := by
  induction hmoves with
  | refl => exact h
  | tail _ hmove ih => exact ih.move hmove

theorem Reached.orderliness {allowed : Manager → Act → Prop} {m : Manager}
    (h : Reached allowed m) : m.Orderliness := by
  apply Reachable.invariant h
  · rintro m rfl
    refine ⟨Reached.invariant (Reachable.start rfl : Reached allowed {}), ?_, ?_, ?_⟩
    · intro session id hlookup
      cases hlookup
    · intro id _
      rfl
    · intro _ id
      exact .new id
  · intro m act hreached _ ih
    have hentry : m.SafeEntry (fun _ => True) act := by
      cases act <;> simp [SafeEntry]
    exact ih.moves (step_moves (fun _ => trivial) ih.invariant hentry)

/-- In every state of a run, also in the middle of a call of {lit}`update`, in which the
entities of players have been destroyed only by leaves: when the next task of a lobby is
an action on behalf of a session, that session is a player, and its entity is live and
has a position, a velocity and a state.  A running game has players.  No thread has failed
for lack of a component or of a position. -/
theorem task_discipline {m m' : Manager} (h : Reached (fun _ _ => True) m)
    (hmoves : Moves (fun _ => True) m m') (honly : ∀ id, (m'.lobby id).OnlyByLeave) (id : ℕ) :
    (∀ task tasks session, (m'.lobby id).actionQueue = task :: tasks →
      task.onBehalf = some session →
      ∃ player, (m'.lobby id).players[session]? = some player ∧
        player ∈ (m'.lobby id).engine.ecs.entities ∧
        (m'.lobby id).engine.ecs.hasComponent (.other .position) player = true ∧
        (m'.lobby id).engine.ecs.hasComponent (.other .velocity) player = true ∧
        (m'.lobby id).engine.ecs.hasComponent .state player = true) ∧
    ((m'.lobby id).engine.gameState = gameRunning → (m'.lobby id).players ≠ ∅) ∧
    (m'.lobby id).fault ≠ some .badOptionalAccess ∧ (m'.lobby id).fault ≠ some .emptyBack := by
  have hdisciplined := ((Reached.orderliness h).moves hmoves).disciplined honly id
  refine ⟨?_, ?_, hdisciplined.found, hdisciplined.nonempty⟩
  · intro task tasks session hqueue haction
    have horderly := hdisciplined.orderly
    rw [hqueue] at horderly
    have hmember := horderly.1 session haction
    rw [Lobby.mem_members, ExtTreeMap.mem_iff_isSome_getElem?, Option.isSome_iff_exists] at hmember
    obtain ⟨player, hplayer⟩ := hmember
    have hplayable := hdisciplined.fit.playable session player hplayer
    exact ⟨player, hplayer, hplayable.live, hplayable.holds _ (by decide),
      hplayable.holds _ (by decide), hplayable.holds _ (by decide)⟩
  · intro hrunning hempty
    obtain ⟨session, hmember⟩ :=
      Finset.nonempty_iff_ne_empty.mpr (hdisciplined.manned hrunning)
    rw [Lobby.mem_members, hempty] at hmember
    exact ExtTreeMap.not_mem_empty hmember

end Threads

section Runs

local instance : FloatUnit := .addsZero

/-- A player that moves to the right once its lobby has started. -/
def runOfOne : List Act :=
  [.createLobby, .joinRoom 7 0, .start 7, .userInput 7 kRight,
    .thread 0 .go, .thread 0 .go, .thread 0 .go]

theorem task_discipline_of_one :
    ((runOfOne.foldl step {}).lobby 0).actionQueue = [.userInput 7 kRight] ∧
      ((runOfOne.foldl step {}).lobby 0).engine.gameState = gameRunning ∧
      ∃ player, ((runOfOne.foldl step {}).lobby 0).players[7]? = some player ∧
        player ∈ ((runOfOne.foldl step {}).lobby 0).engine.ecs.entities := by
  have hqueue : ((runOfOne.foldl step {}).lobby 0).actionQueue = [.userInput 7 kRight] := by
    decide +kernel
  have hrunning : ((runOfOne.foldl step {}).lobby 0).engine.gameState = gameRunning := by
    decide +kernel
  have hlog : ((runOfOne.foldl step {}).lobby 0).destroyed.length = 0 := by decide +kernel
  have hnb : (runOfOne.foldl step {}).nbLobbies = 1 := by decide +kernel
  have hreached : Reached (fun _ _ => True) (runOfOne.foldl step {}) :=
    Reached.run (allowedRun_of_forall (fun _ _ => trivial) _ _)
  generalize runOfOne.foldl step {} = m at hqueue hrunning hlog hnb hreached ⊢
  have honly : ∀ id, (m.lobby id).OnlyByLeave := by
    intro id
    have hnone : (m.lobby id).destroyed = [] := by
      by_cases hid : id = 0
      · subst hid
        exact List.length_eq_zero_iff.mp hlog
      · rw [(Reached.orderliness hreached).untouched id (by omega)]
        rfl
    rw [Lobby.OnlyByLeave, hnone]
    intro destruction hmem
    cases hmem
  obtain ⟨player, hplayer, hlive, -⟩ :=
    (task_discipline hreached .refl honly 0).1 _ _ 7 hqueue rfl
  exact ⟨hqueue, hrunning, player, hplayer, hlive⟩

end Runs

end Manager

end Rtype.Server
