import Mathlib
import Rtype.Server.Lobby

/-!
# Server - What a lobby does in one step

The closures and the ticks of a lobby are made of few kinds of changes: the game state
is announced, an instance is written, an entity is spawned, or some entities are
destroyed.  Only the closures of join and leave do more, to the map of the players.

Main results:

- Inductive type {lit}`Lobby.Micro`: the changes that leave the players alone.
- Theorems {lit}`Lobby.runTick_steps` and {lit}`Lobby.runTask_frame`: what a tick and a
  task do.
- Theorem {lit}`Lobby.advance_cases`: what a step of the thread does.

Current gaps:

- None.
-/

namespace Rtype.Server

open Rtype.Rtecs Rtype.Rteng Rtype.Common
open Std

namespace Lobby

/-! ## The store of a new lobby -/

theorem registered_new (id : ℕ) : ECS.Registered gameComponents (Lobby.new id).engine.ecs := by
  have hregistered : ECS.Registered gameComponents
      (@GameEngine.new _ Comp _ gameComponents (.other .behaviour)).ecs :=
    (GameEngine.new_reached gameComponents _).registered nodup_gameComponents
  exact hregistered

theorem entities_new (id : ℕ) : (Lobby.new id).engine.ecs.entities = ∅ := by
  have hempty : (@GameEngine.new _ Comp _ gameComponents
      (.other .behaviour)).ecs.entities.isEmpty = true := by decide +kernel
  exact ExtTreeMap.isEmpty_iff.mp hempty

/-! ## Changes that leave the players alone -/

/-- An entity is spawned, for a session if there is one. -/
def spawned (lobby : Lobby) (first : Instance Comp) (rest : List (Instance Comp))
    (session : Option SessionPtr) : Lobby :=
  let registered := lobby.engine.ecs.registerEntity first rest
  { lobby.setEcs registered.1 with
    players := seat lobby.players registered.2 session
    outGoing := lobby.outGoing ++ [((seat lobby.players registered.2 session).keys,
      .spawn (describe registered.1 registered.2))] }

theorem spawnEntity_spawned (lobby : Lobby) (first : Instance Comp) (rest : List (Instance Comp))
    (session : Option SessionPtr) :
    lobby.spawnEntity first rest session =
      .ok (lobby.spawned first rest session, (lobby.engine.ecs.registerEntity first rest).2) :=
  lobby.spawnEntity_eq first rest session

/-- The changes that leave the players alone. -/
inductive Micro : Lobby → Lobby → Prop
  | announce (lobby : Lobby) (gameState : ℕ) : Micro lobby (lobby.changeGameState gameState)
  | write (lobby : Lobby) (entity : ℕ) (newInstance : Instance Comp) :
      Micro lobby (lobby.setEcs (lobby.engine.ecs.updateEntityComponent entity newInstance).1)
  | spawn (lobby : Lobby) (first : Instance Comp) (rest : List (Instance Comp))
      (hfirst : first.1 ∈ gameComponents) : Micro lobby (lobby.spawned first rest none)
  | destroy (lobby : Lobby) (ids : List ℕ) : Micro lobby (lobby.destroyAll ids)

/-- Several such changes. -/
abbrev Steps : Lobby → Lobby → Prop :=
  Relation.ReflTransGen Micro

theorem Micro.steps {lobby lobby' : Lobby} (h : Micro lobby lobby') : Steps lobby lobby' :=
  .single h

theorem spawnEntity_steps {lobby lobby' : Lobby} {first : Instance Comp}
    {rest : List (Instance Comp)} (hfirst : first.1 ∈ gameComponents)
    (h : (lobby.spawnEntity first rest).map Prod.fst = .ok lobby') : Steps lobby lobby' := by
  rw [spawnEntity_spawned] at h
  cases h
  exact (Micro.spawn lobby first rest hfirst).steps

/-- The loop goes on after a player that has a state. -/
theorem revive_cons {playerId : ℕ} {playerIds : List ℕ} {lobby : Lobby}
    (h : lobby.engine.ecs.hasComponent .state playerId = true) :
    lobby.revive (playerId :: playerIds) =
      (lobby.setEcs (lobby.engine.ecs.updateEntityComponent playerId
        ⟨.state, State.mk entityAlive⟩).1).revive playerIds := by
  rw [ECS.hasComponent_eq_isSome_get, ← ECS.getEntity_singleton] at h
  rcases Option.isSome_iff_exists.mp h with ⟨state, hstate⟩
  rw [revive, hstate]

theorem revive_steps {playerIds : List ℕ} {lobby lobby' : Lobby}
    (h : lobby.revive playerIds = .ok lobby') : Steps lobby lobby' := by
  induction playerIds generalizing lobby with
  | nil =>
      cases h
      exact .refl
  | cons playerId playerIds ih =>
      unfold revive at h
      split at h
      · cases h
      · exact (Micro.write lobby playerId _).steps.trans (ih h)

theorem restart_steps {lobby lobby' : Lobby} (h : lobby.restart = .ok lobby') :
    Steps lobby lobby' := by
  unfold restart at h
  split at h
  · cases h
  · rename_i revived hrevive
    cases h
    exact (revive_steps hrevive).trans
      ((Micro.destroy revived _).steps.trans (Micro.destroy (revived.removeAllOf .kEnemy) _).steps)

theorem spawnEnemies_steps {enemies : List Enemy} {lobby lobby' : Lobby}
    (h : enemies.foldlM spawnEnemy lobby = .ok lobby') : Steps lobby lobby' := by
  induction enemies generalizing lobby with
  | nil =>
      cases h
      exact .refl
  | cons enemy enemies ih =>
      rw [List.foldlM_cons] at h
      cases hfirst : lobby.spawnEnemy enemy with
      | error fault =>
          rw [hfirst] at h
          cases h
      | ok spawned =>
          rw [hfirst] at h
          have hstep : Steps lobby spawned := by
            unfold spawnEnemy at hfirst
            split at hfirst
            · exact spawnEntity_steps position_mem hfirst
            · cases hfirst
          exact hstep.trans (ih h)

theorem directorUpdate_steps {wave : Option (List Enemy)} {lobby lobby' : Lobby}
    (h : lobby.directorUpdate wave = .ok lobby') : Steps lobby lobby' := by
  cases wave with
  | none =>
      cases h
      exact .refl
  | some enemies =>
      rw [directorUpdate] at h
      split_ifs at h
      exact spawnEnemies_steps h

theorem runOnce_steps (effects : List SystemEffect) (lobby : Lobby) :
    Steps lobby (lobby.runOnce effects) := by
  induction effects generalizing lobby with
  | nil => exact .refl
  | cons effect effects ih =>
      have hfirst : Micro lobby (lobby.applyEffect effect) := by
        cases effect with
        | write entity newInstance => exact .write lobby entity newInstance
        | kill entity => exact .destroy lobby [entity]
      exact hfirst.steps.trans (ih _)

/-- What a tick does, up to the systems. -/
theorem runTick_steps {effects : List SystemEffect} {lobby lobby' : Lobby}
    (h : lobby.runTick effects = .ok lobby') : Steps lobby lobby' := by
  unfold runTick at h
  dsimp only at h
  split at h
  · cases h
  · rename_i restarted hrestart
    cases h
    have hfirst : Steps lobby restarted := by
      split at hrestart
      · exact (Micro.announce lobby gameOver).steps.trans (restart_steps hrestart)
      · cases hrestart
        exact .refl
    exact hfirst.trans (runOnce_steps effects restarted)

/-- What the end of a tick does. -/
theorem direct_steps {wave : Option (List Enemy)} {lobby lobby' : Lobby}
    (h : lobby.direct wave = .ok lobby') : Steps lobby lobby' := by
  unfold direct at h
  split at h
  · exact directorUpdate_steps h
  · cases h
    exact .refl

section Actions

variable [FloatUnit]

theorem spawnBullet_steps {id : ℕ} {lobby lobby' : Lobby} {pos : Position} {inputMask : BitVec 8}
    (h : spawnBullet id lobby pos inputMask = .ok lobby') : Steps lobby lobby' := by
  unfold spawnBullet at h
  split at h
  · exact spawnEntity_steps type_mem h
  · cases h
    exact .refl

theorem handleUserInput_steps {session : SessionPtr} {lobby lobby' : Lobby}
    {inputMask : BitVec 8} (h : handleUserInput session lobby inputMask = .ok lobby') :
    Steps lobby lobby' := by
  unfold handleUserInput at h
  dsimp only at h
  split at h
  · split at h
    · cases h
    · cases h
      exact .refl
  · split at h
    · cases h
      exact .refl
    · split at h
      · cases h
      · exact (Micro.write lobby _ _).steps.trans (spawnBullet_steps h)

/-- What an action on behalf of a session does. -/
theorem action_steps {task : Task} {session : SessionPtr} (haction : task.onBehalf = some session)
    {lobby lobby' : Lobby} (h : lobby.runTask task = .ok lobby') : Steps lobby lobby' := by
  cases task with
  | join s => cases haction
  | leave s => cases haction
  | userInput s inputMask => exact handleUserInput_steps h
  | start s => exact (Micro.announce lobby gameRunning).steps.trans (restart_steps h)

end Actions

/-! ## Joining and leaving -/

/-- The lobby that a new player finds: it is open. -/
def opened (lobby : Lobby) : Lobby :=
  if lobby.engine.gameState < gameLobby then lobby.changeGameState gameLobby else lobby

theorem opened_steps (lobby : Lobby) : Steps lobby lobby.opened := by
  unfold opened
  split_ifs
  · exact (Micro.announce lobby gameLobby).steps
  · exact .refl

/-- The lobby when the entity of a new player has been spawned. -/
def seated (lobby : Lobby) (session : SessionPtr) : Lobby :=
  lobby.opened.spawned playerComponents.1 playerComponents.2 (some session)

/-- The id of the entity of a new player. -/
def seatedId (lobby : Lobby) : ℕ :=
  (lobby.opened.engine.ecs.registerEntity playerComponents.1 playerComponents.2).2

/-- The packet that answers the request to join. -/
def acknowledgement (lobby : Lobby) (session : SessionPtr) : JoinAck where
  id := lobby.seatedId
  roomId := (lobby.seated session).roomId
  gameState := (lobby.seated session).engine.gameState
  status := true

/-- The snapshot of all entities. -/
def snapshot (lobby : Lobby) : WorldInit where
  state := lobby.engine.gameState
  bitsets := (getAllEntities lobby.engine.ecs).map fun id => (infos lobby.engine.ecs id).1
  ids := getAllEntities lobby.engine.ecs
  entities := (getAllEntities lobby.engine.ecs).map fun id => (infos lobby.engine.ecs id).2

theorem players_seated (lobby : Lobby) (session : SessionPtr) :
    (lobby.seated session).players = lobby.players.insert session lobby.seatedId := by
  have hplayers : lobby.opened.players = lobby.players := by
    unfold opened
    split_ifs <;> rfl
  change lobby.opened.players.insert session _ = _
  rw [hplayers]
  rfl

/-- The closure of a join never fails: a new player gets an entity, an answer, and a
snapshot unless the entity is the first one. -/
theorem runJoin_eq (lobby : Lobby) (session : SessionPtr) :
    lobby.runJoin session =
      if session ∈ lobby.players then .ok lobby
      else
        let answered := (lobby.seated session).send session
          (.joinAck (lobby.acknowledgement session))
        .ok (if lobby.seatedId ≠ 0 then answered.broadcast (.worldInit answered.snapshot)
          else answered) := by
  unfold runJoin
  by_cases hmember : session ∈ lobby.players
  · rw [if_pos hmember, if_pos hmember]
  · rw [if_neg hmember, if_neg hmember]
    have hseat : (lobby.seated session).players[session]? = some lobby.seatedId := by
      rw [players_seated]
      exact ExtTreeMap.getElem?_insert_self
    have hspawn : (if lobby.engine.gameState < gameLobby then lobby.changeGameState gameLobby
        else lobby).spawnEntity playerComponents.1 playerComponents.2 (some session) =
          .ok (lobby.seated session, lobby.seatedId) :=
      lobby.opened.spawnEntity_spawned playerComponents.1 playerComponents.2 (some session)
    simp only [hspawn, hseat]
    by_cases hid : lobby.seatedId ≠ 0
    · rw [if_pos hid, if_pos hid, fillWorldInit_eq]
      rfl
    · rw [if_neg hid, if_neg hid]
      rfl

/-- The lobby when the entity of a leaving player has been destroyed. -/
def without (lobby : Lobby) (session : SessionPtr) (id : ℕ) : Lobby :=
  { (lobby.destroyEntity id (some session)).broadcast
      (.destroy { id := id, earnedPoints := 0 }) with
    players := lobby.players.erase session }

/-- An empty lobby is cleared, and stops unless it is the first one. -/
def closed (lobby : Lobby) : Lobby :=
  let cleared := (lobby.destroyAll (getAllEntities lobby.engine.ecs)).setGameState gameWaiting
  if cleared.roomId ≠ 0 then { cleared with isRunning := false } else cleared

theorem runLeave_of_none {lobby : Lobby} {session : SessionPtr}
    (h : lobby.players[session]? = none) : lobby.runLeave session = lobby := by
  simp only [runLeave, h]

theorem runLeave_of_some {lobby : Lobby} {session : SessionPtr} {id : ℕ}
    (h : lobby.players[session]? = some id) :
    lobby.runLeave session =
      if (lobby.players.erase session).isEmpty then (lobby.without session id).closed
      else lobby.without session id := by
  simp only [runLeave, h]
  rfl

/-! ## What stays -/

/-- The parts of a lobby that the changes of the game leave alone. -/
structure SameFrame (lobby lobby' : Lobby) : Prop where
  roomId : lobby'.roomId = lobby.roomId
  actionQueue : lobby'.actionQueue = lobby.actionQueue
  players : lobby'.players = lobby.players
  isRunning : lobby'.isRunning = lobby.isRunning
  fault : lobby'.fault = lobby.fault

theorem SameFrame.refl (lobby : Lobby) : SameFrame lobby lobby :=
  ⟨rfl, rfl, rfl, rfl, rfl⟩

theorem SameFrame.trans {l l' l'' : Lobby} (h : SameFrame l l') (h' : SameFrame l' l'') :
    SameFrame l l'' where
  roomId := h'.roomId.trans h.roomId
  actionQueue := h'.actionQueue.trans h.actionQueue
  players := h'.players.trans h.players
  isRunning := h'.isRunning.trans h.isRunning
  fault := h'.fault.trans h.fault

/-- A loop of broadcasts appends its packets. -/
theorem foldl_broadcast (lobby : Lobby) (ids : List ℕ) :
    ids.foldl (fun lobby id => lobby.broadcast (.destroy { id := id, earnedPoints := 0 })) lobby =
      { lobby with
        outGoing := lobby.outGoing ++ ids.map fun id =>
          (lobby.players.keys, .destroy { id := id, earnedPoints := 0 }) } := by
  induction ids generalizing lobby with
  | nil => simp
  | cons id ids ih =>
      rw [List.foldl_cons, ih, broadcast, getAllSessions]
      simp

theorem destroyAll_eq (lobby : Lobby) (ids : List ℕ) :
    lobby.destroyAll ids =
      { lobby.setEcs (Rteng.destroyAll lobby.engine.ecs ids) with
        destroyed := lobby.destroyed ++ ids.map fun id => Destruction.mk id lobby.players none
        outGoing := lobby.outGoing ++ ids.map fun id =>
          (lobby.players.keys, .destroy { id := id, earnedPoints := 0 }) } :=
  foldl_broadcast _ ids

theorem Micro.frame {lobby lobby' : Lobby} (h : Micro lobby lobby') : SameFrame lobby lobby' := by
  cases h with
  | announce gameState => exact ⟨rfl, rfl, rfl, rfl, rfl⟩
  | write entity newInstance => exact ⟨rfl, rfl, rfl, rfl, rfl⟩
  | spawn first rest hfirst => exact ⟨rfl, rfl, rfl, rfl, rfl⟩
  | destroy ids =>
      rw [destroyAll_eq]
      exact ⟨rfl, rfl, rfl, rfl, rfl⟩

theorem Steps.frame {lobby lobby' : Lobby} (h : Steps lobby lobby') : SameFrame lobby lobby' := by
  induction h with
  | refl => exact .refl lobby
  | tail _ hstep ih => exact ih.trans hstep.frame

/-- The frame of a lobby that seats a new player. -/
theorem frame_seated (lobby : Lobby) (session : SessionPtr) :
    (lobby.seated session).roomId = lobby.roomId ∧
      (lobby.seated session).actionQueue = lobby.actionQueue ∧
      (lobby.seated session).isRunning = lobby.isRunning ∧
      (lobby.seated session).fault = lobby.fault := by
  have hopened := lobby.opened_steps.frame
  simp only [seated, spawned, setEcs]
  exact ⟨hopened.roomId, hopened.actionQueue, hopened.isRunning, hopened.fault⟩

/-- The lobby after the closure of a join, for a session that is not a player yet. -/
def joined (lobby : Lobby) (session : SessionPtr) : Lobby :=
  let answered := (lobby.seated session).send session (.joinAck (lobby.acknowledgement session))
  if lobby.seatedId ≠ 0 then answered.broadcast (.worldInit answered.snapshot) else answered

theorem runJoin_of_mem {lobby : Lobby} {session : SessionPtr} (h : session ∈ lobby.players) :
    lobby.runJoin session = .ok lobby := by
  rw [runJoin_eq, if_pos h]

theorem runJoin_of_not_mem {lobby : Lobby} {session : SessionPtr} (h : session ∉ lobby.players) :
    lobby.runJoin session = .ok (lobby.joined session) := by
  rw [runJoin_eq, if_neg h]
  rfl

theorem joined_cases (lobby : Lobby) (session : SessionPtr) :
    ∃ packets, lobby.joined session =
      { lobby.seated session with outGoing := (lobby.seated session).outGoing ++ packets } := by
  unfold joined
  split_ifs
  · let answered := (lobby.seated session).send session
      (.joinAck (lobby.acknowledgement session))
    refine ⟨[([session], .joinAck (lobby.acknowledgement session)),
      (answered.getAllSessions, .worldInit answered.snapshot)], ?_⟩
    simp only [answered, broadcast, send, List.append_assoc, List.singleton_append]
  · exact ⟨[([session], .joinAck (lobby.acknowledgement session))], rfl⟩

/-- The frame of a lobby that somebody joined. -/
theorem frame_joined (lobby : Lobby) (session : SessionPtr) :
    (lobby.joined session).roomId = lobby.roomId ∧
      (lobby.joined session).actionQueue = lobby.actionQueue ∧
      (lobby.joined session).isRunning = lobby.isRunning ∧
      (lobby.joined session).fault = lobby.fault ∧
      (lobby.joined session).players = lobby.players.insert session lobby.seatedId := by
  obtain ⟨packets, hjoined⟩ := lobby.joined_cases session
  obtain ⟨hroom, hqueue, hrunning, hfault⟩ := lobby.frame_seated session
  rw [hjoined]
  exact ⟨hroom, hqueue, hrunning, hfault, lobby.players_seated session⟩

theorem frame_runJoin {lobby lobby' : Lobby} {session : SessionPtr}
    (h : lobby.runJoin session = .ok lobby') :
    lobby'.roomId = lobby.roomId ∧ lobby'.actionQueue = lobby.actionQueue ∧
      lobby'.isRunning = lobby.isRunning ∧ lobby'.fault = lobby.fault ∧
      ∀ s, s ∈ lobby'.players ↔ s ∈ lobby.players ∨ s = session := by
  by_cases hmember : session ∈ lobby.players
  · rw [runJoin_of_mem hmember] at h
    cases h
    refine ⟨rfl, rfl, rfl, rfl, fun s => ⟨Or.inl, ?_⟩⟩
    rintro (hs | rfl)
    · exact hs
    · exact hmember
  · rw [runJoin_of_not_mem hmember] at h
    obtain rfl := Except.ok.inj h
    obtain ⟨hroom, hqueue, hrunning, hfault, hplayers⟩ := lobby.frame_joined session
    refine ⟨hroom, hqueue, hrunning, hfault, fun s => ?_⟩
    rw [hplayers, ExtTreeMap.mem_insert, Std.compare_eq_iff_eq, or_comm, eq_comm]

/-- The frame of a lobby that somebody left: it stops when nobody is left, unless it is
the first one. -/
theorem frame_runLeave (lobby : Lobby) (session : SessionPtr) :
    (lobby.runLeave session).roomId = lobby.roomId ∧
      (lobby.runLeave session).actionQueue = lobby.actionQueue ∧
      (lobby.runLeave session).fault = lobby.fault ∧
      (lobby.runLeave session).players = lobby.players.erase session ∧
      ((lobby.runLeave session).isRunning = lobby.isRunning ∨
        (lobby.runLeave session).isRunning = false ∧ lobby.roomId ≠ 0 ∧
          session ∈ lobby.players ∧ (lobby.players.erase session).isEmpty) := by
  cases hplayer : lobby.players[session]? with
  | none =>
      rw [runLeave_of_none hplayer]
      refine ⟨rfl, rfl, rfl, ?_, Or.inl rfl⟩
      apply ExtTreeMap.ext_getElem?
      intro s
      rw [ExtTreeMap.getElem?_erase]
      split_ifs with hs
      · rw [Std.compare_eq_iff_eq] at hs
        rw [← hs, hplayer]
      · rfl
  | some id =>
      have hmember : session ∈ lobby.players := by
        simp [ExtTreeMap.mem_iff_isSome_getElem?, hplayer]
      rw [runLeave_of_some hplayer]
      by_cases hempty : (lobby.players.erase session).isEmpty = true
      · rw [if_pos hempty]
        have hclosed : (lobby.without session id).closed =
            if lobby.roomId ≠ 0 then
              { ((lobby.without session id).destroyAll
                (getAllEntities (lobby.without session id).engine.ecs)).setGameState
                  gameWaiting with isRunning := false }
            else ((lobby.without session id).destroyAll
              (getAllEntities (lobby.without session id).engine.ecs)).setGameState gameWaiting := by
          simp only [closed, destroyAll_eq]
          rfl
        rw [hclosed, destroyAll_eq]
        split_ifs with hroom
        · exact ⟨rfl, rfl, rfl, rfl, Or.inr ⟨rfl, hroom, hmember, hempty⟩⟩
        · exact ⟨rfl, rfl, rfl, rfl, Or.inl rfl⟩
      · rw [if_neg hempty]
        exact ⟨rfl, rfl, rfl, rfl, Or.inl rfl⟩

/-! ## The players -/

/-- The sessions in the map of the players. -/
def members (lobby : Lobby) : Finset SessionPtr :=
  lobby.players.keys.toFinset

theorem mem_members {lobby : Lobby} {session : SessionPtr} :
    session ∈ lobby.members ↔ session ∈ lobby.players := by
  rw [members, List.mem_toFinset, ExtTreeMap.mem_keys]

/-- What a task does to the set of the players. -/
def effect (task : Task) (players : Finset SessionPtr) : Finset SessionPtr :=
  match task with
  | .join session => insert session players
  | .leave session => players.erase session
  | _ => players

/-- What a task does to the parts of the lobby that are not the game. -/
structure TaskFrame (task : Task) (lobby lobby' : Lobby) : Prop where
  roomId : lobby'.roomId = lobby.roomId
  actionQueue : lobby'.actionQueue = lobby.actionQueue
  fault : lobby'.fault = lobby.fault
  members : lobby'.members = effect task lobby.members
  isRunning : lobby'.isRunning = lobby.isRunning ∨
    lobby'.isRunning = false ∧ lobby.roomId ≠ 0 ∧
      ∃ session ∈ lobby.members, task = .leave session ∧ lobby.members.erase session = ∅

theorem SameFrame.members {lobby lobby' : Lobby} (h : SameFrame lobby lobby') :
    lobby'.members = lobby.members := by
  rw [Lobby.members, Lobby.members, h.players]

theorem Steps.taskFrame {task : Task} {session : SessionPtr}
    (haction : task.onBehalf = some session) {lobby lobby' : Lobby} (h : Steps lobby lobby') :
    TaskFrame task lobby lobby' where
  roomId := h.frame.roomId
  actionQueue := h.frame.actionQueue
  fault := h.frame.fault
  members := by
    rw [h.frame.members]
    cases task with
    | join session => cases haction
    | leave session => cases haction
    | userInput session inputMask => rfl
    | start session => rfl
  isRunning := .inl h.frame.isRunning

theorem members_runLeave (lobby : Lobby) (session : SessionPtr) :
    (lobby.runLeave session).members = lobby.members.erase session := by
  ext s
  rw [mem_members, (lobby.frame_runLeave session).2.2.2.1, ExtTreeMap.mem_erase,
    Finset.mem_erase, mem_members, ne_eq, Std.compare_eq_iff_eq, eq_comm]

theorem taskFrame_runLeave (lobby : Lobby) (session : SessionPtr) :
    TaskFrame (.leave session) lobby (lobby.runLeave session) := by
  obtain ⟨hroom, hqueue, hfault, hplayers, hrunning⟩ := lobby.frame_runLeave session
  refine ⟨hroom, hqueue, hfault, lobby.members_runLeave session, hrunning.imp id ?_⟩
  rintro ⟨hstopped, hzero, hmember, hempty⟩
  refine ⟨hstopped, hzero, session, mem_members.mpr hmember, rfl, ?_⟩
  rw [← lobby.members_runLeave session, members, hplayers]
  have hkeys : (lobby.players.erase session).keys = [] := by
    simpa using hempty
  rw [hkeys, List.toFinset_nil]

theorem taskFrame_runJoin {lobby lobby' : Lobby} {session : SessionPtr}
    (h : lobby.runJoin session = .ok lobby') : TaskFrame (.join session) lobby lobby' := by
  obtain ⟨hroom, hqueue, hrunning, hfault, hplayers⟩ := frame_runJoin h
  refine ⟨hroom, hqueue, hfault, ?_, .inl hrunning⟩
  ext s
  rw [mem_members, hplayers, effect, Finset.mem_insert, mem_members, or_comm]

/-- What a task does, whatever it is. -/
theorem runTask_frame [FloatUnit] {task : Task} {lobby lobby' : Lobby}
    (h : lobby.runTask task = .ok lobby') : TaskFrame task lobby lobby' := by
  cases task with
  | join session => exact taskFrame_runJoin h
  | leave session =>
      cases h
      exact taskFrame_runLeave lobby session
  | userInput session inputMask => exact (action_steps rfl h).taskFrame rfl
  | start session => exact (action_steps rfl h).taskFrame rfl

/-! ## Steps of the thread -/

/-- The lobby whose thread has come to another place. -/
def withPhase (lobby : Lobby) (phase : Phase) : Lobby :=
  { lobby with phase := phase }

/-- The lobby whose thread has failed. -/
def failed (lobby : Lobby) (fault : Fault) : Lobby :=
  { lobby with phase := .returned, fault := some fault }

/-- A step of the lobby thread: it goes on in its loops, runs the next task, runs one half
of a tick, or fails. -/
inductive ThreadStep [FloatUnit] (lobby : Lobby) : Lobby → Prop
  | move (phase : Phase) : ThreadStep lobby (lobby.withPhase phase)
  | task (task : Task) (tasks : List Task) (lobby' : Lobby) (phase : Phase)
      (hqueue : lobby.actionQueue = task :: tasks)
      (hrun : (lobby.withQueue tasks).runTask task = .ok lobby') :
      ThreadStep lobby (lobby'.withPhase phase)
  | tick (effects : List SystemEffect) (lobby' : Lobby) (phase : Phase)
      (hrun : lobby.runTick effects = .ok lobby') : ThreadStep lobby (lobby'.withPhase phase)
  | direct (wave : Option (List Enemy)) (lobby' : Lobby) (phase : Phase)
      (hrun : lobby.direct wave = .ok lobby') : ThreadStep lobby (lobby'.withPhase phase)
  | taskFault (task : Task) (tasks : List Task) (fault : Fault)
      (hqueue : lobby.actionQueue = task :: tasks)
      (hrun : (lobby.withQueue tasks).runTask task = .error fault) :
      ThreadStep lobby ((lobby.withQueue tasks).failed fault)
  | tickFault (effects : List SystemEffect) (fault : Fault)
      (hrun : lobby.runTick effects = .error fault) : ThreadStep lobby (lobby.failed fault)
  | directFault (wave : Option (List Enemy)) (fault : Fault)
      (hrun : lobby.direct wave = .error fault) : ThreadStep lobby (lobby.failed fault)

variable [FloatUnit]

theorem ThreadStep.refl (lobby : Lobby) : ThreadStep lobby lobby :=
  .move lobby.phase

theorem popTask_cases (lobby : Lobby) : ThreadStep lobby lobby.popTask := by
  unfold popTask
  split
  · exact .move .ticking
  · rename_i task tasks hqueue
    cases hrun : (lobby.withQueue tasks).runTask task with
    | ok lobby' => exact .task task tasks lobby' .draining hqueue hrun
    | error fault => exact .taskFault task tasks fault hqueue hrun

/-- What a step of the thread does. -/
theorem advance_cases (lobby : Lobby) (act : ThreadAct) : ThreadStep lobby (lobby.advance act) := by
  cases act with
  | go =>
      unfold advance
      dsimp only
      split
      · exact .move _
      · exact popTask_cases lobby
      · exact .move .test
      · exact .refl lobby
      · exact .refl lobby
  | tick effects =>
      unfold advance
      dsimp only
      split
      · cases hrun : lobby.runTick effects with
        | ok lobby' => exact .tick effects lobby' .directing hrun
        | error fault => exact .tickFault effects fault hrun
      · exact .refl lobby
  | direct wave =>
      unfold advance
      dsimp only
      split
      · cases hrun : lobby.direct wave with
        | ok lobby' => exact .direct wave lobby' .ticking hrun
        | error fault => exact .directFault wave fault hrun
      · exact .refl lobby

/-- A lobby that has stopped stays stopped. -/
theorem ThreadStep.isRunning {lobby lobby' : Lobby} (hstep : ThreadStep lobby lobby')
    (h : lobby'.isRunning = true) : lobby.isRunning = true := by
  cases hstep with
  | move phase => exact h
  | task task tasks lobby' phase hqueue hrun =>
      have hrunning : lobby'.isRunning = true := h
      rcases (runTask_frame hrun).isRunning with hsame | hstopped
      · rwa [hsame] at hrunning
      · rw [hstopped.1] at hrunning
        cases hrunning
  | tick effects lobby' phase hrun =>
      have hrunning : lobby'.isRunning = true := h
      rwa [(runTick_steps hrun).frame.isRunning] at hrunning
  | direct wave lobby' phase hrun =>
      have hrunning : lobby'.isRunning = true := h
      rwa [(direct_steps hrun).frame.isRunning] at hrunning
  | taskFault task tasks fault hqueue hrun => exact h
  | tickFault effects fault hrun => exact h
  | directFault wave fault hrun => exact h

end Lobby

end Rtype.Server
