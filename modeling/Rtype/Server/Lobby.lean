import Mathlib
import Rtype.Common.Components
import Rtype.Rteng.GameEngine

/-!
# Server - The lobby

A lobby runs one game on a thread of its own.  Other threads only push tasks to its
queue; the lobby thread takes them out in order, then runs as many ticks as are due, and
goes round while the lobby is running.

Main results:

- Structure {lit}`Lobby` and its functions, under the names of the source.
- Function {lit}`Lobby.advance`: one step of the lobby thread.
- Theorems {lit}`Lobby.spawnEntity_eq` and {lit}`Lobby.fillWorldInit_eq`: describing an
  entity never fails.

Current gaps:

- What the systems write, and what the director spawns, is given from outside: both
  depend on floating point numbers and on random numbers.
- The broadcasts of movements are in {lit}`Server.UpdatedMovements`.
-/

namespace Rtype.Server

open Rtype.Rtecs Rtype.Rteng Rtype.Common
open Std

/-- A session, by the number of its object. -/
abbrev SessionPtr := ℕ

/-! ## Constants -/

/-- {lit}`game::state`. -/
def gameMenu : ℕ := 1
def gameWaiting : ℕ := 2
def gameLobby : ℕ := 3
def gameRunning : ℕ := 4
def gameOver : ℕ := 6

/-- {lit}`entity::state`. -/
def playerWaiting : ℕ := 1
def entityAlive : ℕ := 3

/-- {lit}`game::Input`. -/
def kUp : BitVec 8 := 1
def kDown : BitVec 8 := 2
def kLeft : BitVec 8 := 4
def kRight : BitVec 8 := 8
def kShoot : BitVec 8 := 16

namespace Literal

/-! The floating point literals of the lobby code. -/

def f10 : CFloat := 0x41200000
def fMinus10 : CFloat := 0xC1200000
def f15 : CFloat := 0x41700000
def f20 : CFloat := 0x41A00000
def f35 : CFloat := 0x420C0000
def f75 : CFloat := 0x42960000
def f100 : CFloat := 0x42C80000
def f150 : CFloat := 0x43160000
def f200 : CFloat := 0x43480000
def f300 : CFloat := 0x43960000

end Literal

open Literal

/-! ## Packets -/

/-- {lit}`packet::JoinAck`. -/
structure JoinAck where
  id : ℕ
  roomId : ℕ
  gameState : ℕ
  status : Bool

/-- {lit}`packet::Spawn`. -/
structure Spawn where
  id : ℕ
  bitmask : List ℕ
  content : List UInt8

/-- {lit}`packet::WorldInit`. -/
structure WorldInit where
  state : ℕ
  bitsets : List (List ℕ) := []
  ids : List ℕ := []
  entities : List (List UInt8) := []

/-- The packets of {lit}`packet::server::Variant` that a lobby sends. -/
inductive Variant
  | destroy (packet : Destroy)
  | joinAck (packet : JoinAck)
  | spawn (packet : Spawn)
  | updateGameState (gameState : ℕ)
  | worldInit (packet : WorldInit)

/-! ## Tasks and ticks -/

/-- The closures that are pushed to a lobby. -/
inductive Task
  | join (session : SessionPtr)
  | leave (session : SessionPtr)
  | userInput (session : SessionPtr) (inputMask : BitVec 8)
  | start (session : SessionPtr)
  deriving DecidableEq

/-- The session on whose behalf {lit}`pushActionToLobby` pushed the task. -/
def Task.onBehalf : Task → Option SessionPtr
  | .userInput session _ => some session
  | .start session => some session
  | _ => none

/-- An enemy that the director spawns. -/
structure Enemy where
  x : CFloat
  y : CFloat
  type : EntityType
  patternName : String

/-- What the systems do to the store in one tick: they write to instances that are
there, and {lit}`BroadcastDeadEntities` kills. -/
inductive SystemEffect
  | write (entity : ℕ) (newInstance : Instance Comp)
  | kill (entity : ℕ)

/-- How the code of a lobby thread can fail. -/
inductive Fault
  /-- {lit}`std::bad_optional_access` -/
  | badOptionalAccess
  /-- {lit}`back()` of an empty vector -/
  | emptyBack
  /-- {lit}`std::out_of_range` -/
  | outOfRange
  /-- an exception of the serialization -/
  | serialization (what : String)
  deriving DecidableEq

/-- Where the lobby thread is in {lit}`Lobby::run`. -/
inductive Phase
  /-- at the condition of the outer loop -/
  | test
  /-- in the loop that empties the queue -/
  | draining
  /-- in the loop of the ticks -/
  | ticking
  /-- in a tick, after the systems have run -/
  | directing
  /-- returned -/
  | returned
  deriving DecidableEq

/-- A call of {lit}`destroyEntity`: who played at that time, and who was leaving when the
call is the one of {lit}`Lobby::leave`. -/
structure Destruction where
  id : ℕ
  players : ExtTreeMap SessionPtr ℕ
  leaving : Option SessionPtr := none

/-- {lit}`Lobby`, with its thread.  The packets are the ones it pushed to the outgoing
queue, each with the sessions it is for; {lit}`destroyed` records the calls of
{lit}`destroyEntity`. -/
structure Lobby where
  roomId : ℕ
  actionQueue : List Task := []
  outGoing : List (List SessionPtr × Variant) := []
  engine : GameEngine Comp
  players : ExtTreeMap SessionPtr ℕ := ∅
  isRunning : Bool := false
  phase : Phase := .test
  fault : Option Fault := none
  destroyed : List Destruction := []

namespace Lobby

/-! ## The functions of the lobby -/

/-- The constructor of {lit}`Lobby`. -/
def new (id : ℕ) : Lobby where
  roomId := id
  engine := { GameEngine.new gameComponents (.other .behaviour) with gameState := gameWaiting }

/-- {lit}`Lobby::start`.  The thread sets the game state once more before its loop, which
changes nothing: no task has run by then. -/
def start (lobby : Lobby) : Lobby :=
  { lobby with isRunning := true }

/-- {lit}`Lobby::stop`. -/
def stop (lobby : Lobby) : Lobby :=
  if !lobby.isRunning then lobby else { lobby with isRunning := false }

/-- {lit}`Lobby::pushTask`. -/
def pushTask (lobby : Lobby) (action : Task) : Lobby :=
  { lobby with actionQueue := lobby.actionQueue ++ [action] }

/-- {lit}`Lobby::getAllSessions`. -/
def getAllSessions (lobby : Lobby) : List SessionPtr :=
  lobby.players.keys

/-- {lit}`Lobby::send`. -/
def send (lobby : Lobby) (session : SessionPtr) (packet : Variant) : Lobby :=
  { lobby with outGoing := lobby.outGoing ++ [([session], packet)] }

/-- {lit}`Lobby::broadcast`. -/
def broadcast (lobby : Lobby) (packet : Variant) : Lobby :=
  { lobby with outGoing := lobby.outGoing ++ [(lobby.getAllSessions, packet)] }

/-- The store of the engine is replaced. -/
def setEcs (lobby : Lobby) (ecs : ECS Comp) : Lobby :=
  { lobby with engine := { lobby.engine with ecs := ecs } }

/-- {lit}`GameEngine::setGameState`. -/
def setGameState (lobby : Lobby) (gameState : ℕ) : Lobby :=
  { lobby with engine := { lobby.engine with gameState := gameState } }

/-- {lit}`GameEngine::destroyEntity`. -/
def destroyEntity (lobby : Lobby) (id : ℕ) (leaving : Option SessionPtr := none) : Lobby :=
  { lobby.setEcs (lobby.engine.ecs.destroyEntity id) with
    destroyed := lobby.destroyed ++ [Destruction.mk id lobby.players leaving] }

/-- A loop of {lit}`destroyEntity`, and the broadcasts for the entities that it returns. -/
def destroyAll (lobby : Lobby) (ids : List ℕ) : Lobby :=
  let lobby :=
    { lobby.setEcs (Rteng.destroyAll lobby.engine.ecs ids) with
      destroyed := lobby.destroyed ++ ids.map fun id => Destruction.mk id lobby.players none }
  ids.foldl (fun lobby id => lobby.broadcast (.destroy { id := id, earnedPoints := 0 })) lobby

/-- {lit}`Lobby::getPlayerId`. -/
def getPlayerId (lobby : Lobby) (session : SessionPtr) : Option ℕ :=
  lobby.players[session]?

/-- {lit}`Lobby::getPlayerComponent`. -/
def getPlayerComponent (lobby : Lobby) (c : Kind) (session : SessionPtr) : Option (Comp c) :=
  match lobby.players[session]? with
  | none => none
  | some id => lobby.engine.ecs.getEntity [c] c id

/-- {lit}`Lobby::getPlayerPosition`. -/
def getPlayerPosition (lobby : Lobby) (session : SessionPtr) : Option Position :=
  lobby.getPlayerComponent (.other .position) session

/-- {lit}`Lobby::getPlayerPositions`. -/
def getPlayerPositions (lobby : Lobby) : List Position :=
  lobby.getAllSessions.filterMap lobby.getPlayerPosition

/-- {lit}`_players[session] = id`, when there is a session. -/
def seat (players : ExtTreeMap SessionPtr ℕ) (id : ℕ) : Option SessionPtr →
    ExtTreeMap SessionPtr ℕ
  | none => players
  | some session => players.insert session id

/-- {lit}`Lobby::spawnEntity`. -/
def spawnEntity (lobby : Lobby) (first : Instance Comp) (rest : List (Instance Comp))
    (session : Option SessionPtr := none) : Except Fault (Lobby × ℕ) :=
  let (ecs, id) := lobby.engine.ecs.registerEntity first rest
  let players := seat lobby.players id session
  match getEntityInfos schema ecs gameComponents id with
  | .error what => .error (.serialization what)
  | .ok (bitset, content) =>
      .ok (({ lobby.setEcs ecs with players := players }).broadcast
        (.spawn { id := id, bitmask := bitset, content := content }), id)

/-- {lit}`Lobby::killEntity`. -/
def killEntity (lobby : Lobby) (id : ℕ) (session : Option SessionPtr := none) : Lobby :=
  let lobby := lobby.destroyEntity id
  let lobby :=
    match session with
    | none => lobby
    | some session => { lobby with players := lobby.players.erase session }
  lobby.broadcast (.destroy { id := id, earnedPoints := 0 })

/-- {lit}`Lobby::changeGameState`. -/
def changeGameState (lobby : Lobby) (gameState : ℕ) : Lobby :=
  (lobby.setGameState gameState).broadcast (.updateGameState gameState)

/-- {lit}`Lobby::hasPlayerAlive`. -/
def hasPlayerAlive (lobby : Lobby) : Bool :=
  if lobby.engine.gameState ≠ gameRunning then
    true
  else
    lobby.players.toList.any fun player =>
      match lobby.engine.ecs.getEntity [.state] .state player.2 with
      | none => false
      | some (stateOpt : State) => decide (stateOpt.state = entityAlive)

/-- The first loop of {lit}`Lobby::restart`, over the entities of the players. -/
def revive (lobby : Lobby) : List ℕ → Except Fault Lobby
  | [] => .ok lobby
  | playerId :: playerIds =>
      match lobby.engine.ecs.getEntity [.state] .state playerId with
      | none => .error .badOptionalAccess
      | some _ =>
          let ecs := (lobby.engine.ecs.updateEntityComponent playerId
            ⟨.state, State.mk entityAlive⟩).1
          (lobby.setEcs ecs).revive playerIds

/-- {lit}`GameEngine::removeAllOf` for a type, and the broadcasts of {lit}`Lobby::restart`. -/
def removeAllOf (lobby : Lobby) (type : EntityType) : Lobby :=
  lobby.destroyAll (toDestroy lobby.engine.ecs .type
    fun component : TypeComponent => decide (component.type = type))

/-- {lit}`Lobby::restart`. -/
def restart (lobby : Lobby) : Except Fault Lobby :=
  match lobby.revive (lobby.players.toList.map Prod.snd) with
  | .error fault => .error fault
  | .ok lobby => .ok ((lobby.removeAllOf .kEnemy).removeAllOf .kBullet)

/-! ## The closures of join and leave -/

/-- The components of a player. -/
def playerComponents : Instance Comp × List (Instance Comp) :=
  (⟨.other .position, ({ x := f200, y := f300 } : Position)⟩,
    [⟨.other .velocity, ({ maxVx := f10, maxVy := f10 } : Velocity)⟩,
      ⟨.other .health, ({ hp := 100, maxHp := 100 } : Health)⟩,
      ⟨.type, TypeComponent.mk .kPlayer⟩,
      ⟨.other .hitbox, ({ shown := true, width := f150, height := f75 } : Hitbox)⟩,
      ⟨.other .score, Score.mk 0⟩,
      ⟨.other .collision, ({} : Collision)⟩,
      ⟨.state, State.mk playerWaiting⟩])

/-- The loop over all entities that fills a {lit}`WorldInit`. -/
def fillWorldInit (ecs : ECS Comp) (w : WorldInit) : List ℕ → Except Fault WorldInit
  | [] => .ok w
  | entity :: entities =>
      match getEntityInfos schema ecs gameComponents entity with
      | .error what => .error (.serialization what)
      | .ok (bitset, content) =>
          fillWorldInit ecs
            { w with
              bitsets := w.bitsets ++ [bitset]
              entities := w.entities ++ [content]
              ids := w.ids ++ [entity] } entities

/-- The closure of {lit}`Lobby::join`. -/
def runJoin (lobby : Lobby) (session : SessionPtr) : Except Fault Lobby :=
  if session ∈ lobby.players then
    .ok lobby
  else
    let lobby :=
      if lobby.engine.gameState < gameLobby then lobby.changeGameState gameLobby else lobby
    match lobby.spawnEntity playerComponents.1 playerComponents.2 (some session) with
    | .error fault => .error fault
    | .ok (lobby, id) =>
        match lobby.players[session]? with
        | none => .error .outOfRange
        | some player =>
            let lobby := lobby.send session (.joinAck
              { id := player, roomId := lobby.roomId, gameState := lobby.engine.gameState,
                status := true })
            if id ≠ 0 then
              match fillWorldInit lobby.engine.ecs { state := lobby.engine.gameState }
                  (getAllEntities lobby.engine.ecs) with
              | .error fault => .error fault
              | .ok w => .ok (lobby.broadcast (.worldInit w))
            else
              .ok lobby

/-- The closure of {lit}`Lobby::leave`. -/
def runLeave (lobby : Lobby) (session : SessionPtr) : Lobby :=
  match lobby.players[session]? with
  | none => lobby
  | some id =>
      let lobby := lobby.destroyEntity id (some session)
      let lobby := lobby.broadcast (.destroy { id := id, earnedPoints := 0 })
      let lobby := { lobby with players := lobby.players.erase session }
      if lobby.players.isEmpty then
        let lobby := lobby.destroyAll (getAllEntities lobby.engine.ecs)
        let lobby := lobby.setGameState gameWaiting
        if lobby.roomId ≠ 0 then { lobby with isRunning := false } else lobby
      else
        lobby

/-! ## The actions of the players -/

section Actions

variable [FloatUnit]

/-- The function {lit}`spawnBullet`. -/
def spawnBullet (id : ℕ) (lobby : Lobby) (pos : Position) (inputMask : BitVec 8) :
    Except Fault Lobby :=
  if inputMask &&& kShoot ≠ 0 then
    (lobby.spawnEntity ⟨.type, TypeComponent.mk .kBullet⟩
      [⟨.other .position,
          ({ x := FloatUnit.add pos.x f100, y := FloatUnit.add pos.y f20 } : Position)⟩,
        ⟨.other .owner, Owner.mk id⟩,
        ⟨.other .velocity, ({ vx := f20, maxVx := f20 } : Velocity)⟩,
        ⟨.other .hitbox, ({ shown := true, width := f75, height := f35 } : Hitbox)⟩,
        ⟨.other .collision, ({} : Collision)⟩,
        ⟨.state, State.mk entityAlive⟩]).map Prod.fst
  else
    .ok lobby

/-- The velocity that {lit}`handleUserInput` writes. -/
def steer (velocity : Velocity) (inputMask : BitVec 8) : Velocity :=
  { velocity with
    vx := FloatUnit.add (if inputMask &&& kRight ≠ 0 then f10 else 0)
      (if inputMask &&& kLeft ≠ 0 then fMinus10 else 0)
    vy := FloatUnit.add (if inputMask &&& kDown ≠ 0 then f10 else 0)
      (if inputMask &&& kUp ≠ 0 then fMinus10 else 0) }

/-- {lit}`handleUserInput`.  When there is no velocity, the text of the warning takes the
value of the player's id. -/
def handleUserInput (session : SessionPtr) (lobby : Lobby) (inputMask : BitVec 8) :
    Except Fault Lobby :=
  let position := lobby.getPlayerPosition session
  match lobby.getPlayerComponent (.other .velocity) session with
  | none =>
      match lobby.getPlayerId session with
      | none => .error .badOptionalAccess
      | some _ => .ok lobby
  | some (velocity : Velocity) =>
      match lobby.getPlayerId session with
      | none => .ok lobby
      | some id =>
          let lobby := lobby.setEcs (lobby.engine.ecs.updateEntityComponent id
            ⟨.other .velocity, steer velocity inputMask⟩).1
          match position with
          | none => .error .badOptionalAccess
          | some pos => spawnBullet id lobby pos inputMask

/-- A closure is called. -/
def runTask (lobby : Lobby) : Task → Except Fault Lobby
  | .join session => lobby.runJoin session
  | .leave session => .ok (lobby.runLeave session)
  | .userInput session inputMask => handleUserInput session lobby inputMask
  | .start _ => (lobby.changeGameState gameRunning).restart

end Actions

/-! ## Ticks -/

/-- {lit}`typeToHitbox`. -/
def typeToHitbox : EntityType → Option Hitbox
  | .kEnemy => some { shown := true, width := f150, height := f75 }
  | _ => none

/-- {lit}`typeToVelocity`. -/
def typeToVelocity : EntityType → Option Velocity
  | .kEnemy => some { maxVx := f15, maxVy := f15 }
  | _ => none

/-- {lit}`typeToValue`. -/
def typeToValue : EntityType → Option Value
  | .kEnemy => some { value := 15 }
  | _ => none

/-- {lit}`nameToMoveSet`. -/
def nameToMoveSet (name : String) : Option (BitVec 8) :=
  if name = "straight_slow" then some 0
  else if name = "zigzag" then some 1
  else if name = "hover" then some 2
  else if name = "wave" then some 3
  else none

/-- The call of {lit}`spawnEntity` in {lit}`Director::update`. -/
def spawnEnemy (lobby : Lobby) (enemy : Enemy) : Except Fault Lobby :=
  match typeToHitbox enemy.type, typeToVelocity enemy.type, typeToValue enemy.type,
      nameToMoveSet enemy.patternName with
  | some hitbox, some velocity, some value, some set =>
      (lobby.spawnEntity ⟨.other .position, ({ x := enemy.x, y := enemy.y } : Position)⟩
        [⟨.type, TypeComponent.mk enemy.type⟩,
          ⟨.other .hitbox, hitbox⟩,
          ⟨.other .velocity, velocity⟩,
          ⟨.other .collision, ({} : Collision)⟩,
          ⟨.other .value, value⟩,
          ⟨.state, State.mk entityAlive⟩,
          ⟨.other .moveSet, MoveSet.mk set⟩]).map Prod.fst
  | _, _, _, _ => .error .outOfRange

/-- {lit}`Director::update`: when there is an active wave, the last of the positions of
the players is looked up before anything is spawned. -/
def directorUpdate (lobby : Lobby) : Option (List Enemy) → Except Fault Lobby
  | none => .ok lobby
  | some enemies =>
      if lobby.getPlayerPositions.isEmpty then
        .error .emptyBack
      else
        enemies.foldlM spawnEnemy lobby

/-- What a system does. -/
def applyEffect (lobby : Lobby) : SystemEffect → Lobby
  | .write entity newInstance =>
      lobby.setEcs (lobby.engine.ecs.updateEntityComponent entity newInstance).1
  | .kill entity => lobby.killEntity entity

/-- {lit}`GameEngine::runOnce`. -/
def runOnce (lobby : Lobby) (effects : List SystemEffect) : Lobby :=
  effects.foldl applyEffect lobby

/-- A tick, up to the systems. -/
def runTick (lobby : Lobby) (effects : List SystemEffect) : Except Fault Lobby :=
  let restarted :=
    if !lobby.hasPlayerAlive then (lobby.changeGameState gameOver).restart else .ok lobby
  match restarted with
  | .error fault => .error fault
  | .ok lobby => .ok (lobby.runOnce effects)

/-- The end of a tick. -/
def direct (lobby : Lobby) (wave : Option (List Enemy)) : Except Fault Lobby :=
  if lobby.engine.gameState = gameRunning then lobby.directorUpdate wave else .ok lobby

/-! ## The thread -/

/-- The lobby whose next task has been taken out of the queue. -/
def withQueue (lobby : Lobby) (tasks : List Task) : Lobby :=
  { lobby with actionQueue := tasks }

/-- The thread goes on after a step of its code, and ends when the code fails. -/
def resume (lobby : Lobby) (phase : Phase) : Except Fault Lobby → Lobby
  | .ok lobby => { lobby with phase := phase }
  | .error fault => { lobby with phase := .returned, fault := some fault }

/-- The inner loop that takes the tasks out of the queue. -/
def popTask [FloatUnit] (lobby : Lobby) : Lobby :=
  match lobby.actionQueue with
  | [] => { lobby with phase := .ticking }
  | task :: tasks =>
      (lobby.withQueue tasks).resume .draining ((lobby.withQueue tasks).runTask task)

/-- A step of the lobby thread: the test of the outer loop, a task, a tick with what the
systems do, the end of the tick with the enemies of the active wave if there is one, or
the end of one of the inner loops.  How many ticks are due depends on the clock. -/
inductive ThreadAct
  | go
  | tick (effects : List SystemEffect)
  | direct (wave : Option (List Enemy))

/-- One step of {lit}`Lobby::run`. -/
def advance [FloatUnit] (lobby : Lobby) : ThreadAct → Lobby
  | .go =>
      match lobby.phase with
      | .test => { lobby with phase := if lobby.isRunning then .draining else .returned }
      | .draining => lobby.popTask
      | .ticking => { lobby with phase := .test }
      | .directing => lobby
      | .returned => lobby
  | .tick effects =>
      match lobby.phase with
      | .ticking => lobby.resume .directing (lobby.runTick effects)
      | _ => lobby
  | .direct wave =>
      match lobby.phase with
      | .directing => lobby.resume .ticking (lobby.direct wave)
      | _ => lobby

/-! ## Describing entities never fails -/

/-- The infos that a lobby sends for an entity. -/
def infos (ecs : ECS Comp) (id : ℕ) : List ℕ × List UInt8 :=
  ((ecs.getEntityMask id).serialize, contentOf schema (ecs.getEntityComponent id) gameComponents)

/-- The packet that describes an entity. -/
def describe (ecs : ECS Comp) (id : ℕ) : Spawn where
  id := id
  bitmask := (infos ecs id).1
  content := (infos ecs id).2

theorem getEntityInfos_eq_infos (ecs : ECS Comp) (id : ℕ) :
    getEntityInfos schema ecs gameComponents id = .ok (infos ecs id) :=
  getEntityInfos_eq fun c _ component _ => roundTrips c component

/-- Spawning an entity never fails. -/
theorem spawnEntity_eq (lobby : Lobby) (first : Instance Comp) (rest : List (Instance Comp))
    (session : Option SessionPtr) :
    lobby.spawnEntity first rest session =
      .ok (({ lobby.setEcs (lobby.engine.ecs.registerEntity first rest).1 with
          players := seat lobby.players (lobby.engine.ecs.registerEntity first rest).2
            session }).broadcast (.spawn (describe (lobby.engine.ecs.registerEntity first rest).1
              (lobby.engine.ecs.registerEntity first rest).2)),
        (lobby.engine.ecs.registerEntity first rest).2) := by
  simp only [spawnEntity, getEntityInfos_eq_infos]
  rfl

/-- The snapshot of some entities. -/
theorem fillWorldInit_eq (ecs : ECS Comp) (w : WorldInit) (entities : List ℕ) :
    fillWorldInit ecs w entities =
      .ok { w with
        bitsets := w.bitsets ++ entities.map fun id => (infos ecs id).1,
        ids := w.ids ++ entities,
        entities := w.entities ++ entities.map fun id => (infos ecs id).2 } := by
  induction entities generalizing w with
  | nil => simp [fillWorldInit]
  | cons entity entities ih =>
      rw [fillWorldInit, getEntityInfos_eq_infos]
      simp only [ih, List.map_cons, List.append_assoc, List.singleton_append]

end Lobby

end Rtype.Server
