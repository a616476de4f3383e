import Mathlib
import Rtype.Server.LobbyPackets

/-!
# Client - The packet handlers

The client keeps its own store.  A map binds the ids of the server to the ids of the
entities that stand for them here.  Packets are handled one after another on the main
thread; nothing catches what a handler throws.

Main results:

- Structure {lit}`HandlerToolbox` and the handlers, under the names of the source.
- Theorem {lit}`handleSpawn_cases`: what a handled {lit}`Spawn` does to the client.
- Theorems {lit}`handleJoinAck_of_none` and {lit}`handleJoinAck_of_some`: the acknowledgement
  of a player needs the binding of the entity.

Current gaps:

- The handler of positions is in {lit}`Client.Interpolation`, and those of healths and states
  are left out.  They write to instances of the store, which {lit}`HandlerToolbox.Reached`
  allows at any time.
-/

namespace Rtype.Client

open Rtype.Rtecs Rtype.Rteng Rtype.Common Rtype.Server
open Std

/-! ## The toolbox -/

/-- {lit}`menu::state`. -/
def menuHome : ℕ := 1
def menuLobby : ℕ := 4

/-- How a handler can fail. -/
inductive Fault
  /-- {lit}`std::out_of_range` -/
  | outOfRange
  /-- an access past the end of a vector -/
  | undefined
  /-- an exception of the serialization -/
  | serialization (what : String)
  deriving DecidableEq

/-- {lit}`client::HandlerToolbox`. -/
structure HandlerToolbox where
  componentFactory : Factory Kind
  engine : GameEngine Comp
  serverToClient : ExtTreeMap ℕ ℕ := ∅

/-- The types that {lit}`App::registerAllComponents` adds. -/
def graphicalComponents : List Kind :=
  [.other .animation, .other .me, .other .sound, .other .sprite, .other .targetPos,
    .other .zIndex]

/-- The types of the client, in the order of their registration. -/
def clientComponents : List Kind :=
  gameComponents ++ .other .behaviour :: graphicalComponents

theorem nodup_clientComponents : clientComponents.Nodup := by
  decide

namespace HandlerToolbox

/-- The store is replaced. -/
def setEcs (toolbox : HandlerToolbox) (ecs : ECS Comp) : HandlerToolbox :=
  { toolbox with engine := { toolbox.engine with ecs := ecs } }

/-- {lit}`GameEngine::setGameState`. -/
def setGameState (toolbox : HandlerToolbox) (gameState : ℕ) : HandlerToolbox :=
  { toolbox with engine := { toolbox.engine with gameState := gameState } }

/-- {lit}`GameEngine::setMenuState`. -/
def setMenuState (toolbox : HandlerToolbox) (menuState : ℕ) : HandlerToolbox :=
  { toolbox with engine := { toolbox.engine with menuState := menuState } }

/-- {lit}`ECS::addEntityComponents` on the store of the engine. -/
def add (toolbox : HandlerToolbox) (id : ℕ) (instances : List (Instance Comp)) :
    HandlerToolbox :=
  toolbox.setEcs (toolbox.engine.ecs.addEntityComponents id instances)

/-- The toolbox that {lit}`App` constructs, when {lit}`App::run` starts. -/
def new : HandlerToolbox :=
  let toolbox : HandlerToolbox :=
    { componentFactory := { creators := gameComponents }
      engine := GameEngine.new gameComponents (.other .behaviour) }
  let toolbox := toolbox.setEcs (toolbox.engine.ecs.registerComponents graphicalComponents)
  (toolbox.setGameState gameMenu).setMenuState menuHome

end HandlerToolbox

/-! ## Handlers -/

/-- {lit}`gui::AnimationConfig`. -/
structure AnimationConfig where
  frameCount : ℕ
  frameTime : CFloat
  frameWidth : ℕ
  frameHeight : ℕ
  loop : Bool

/-- {lit}`gui::typeToAnimation`; a frame takes {lit}`0.15f`. -/
def typeToAnimation : EntityType → AnimationConfig
  | .kPlayer => ⟨5, 0x3E19999A, 33, 15, true⟩
  | .kEnemy => ⟨8, 0x3E19999A, 32, 32, true⟩
  | .kBullet => ⟨3, 0x3E19999A, 18, 14, false⟩
  | _ => ⟨1, 0, 0, 0, false⟩

/-- The first part of {lit}`addGraphicalComponents`. -/
def addSprite (id : ℕ) (toolbox : HandlerToolbox) : HandlerToolbox :=
  match toolbox.engine.ecs.getEntity [.type] .type id with
  | none => toolbox
  | some (component : TypeComponent) =>
      let toolbox := toolbox.add id [⟨.other .sprite, Sprite.mk component.type⟩]
      let config := typeToAnimation component.type
      if config.frameCount > 1 then
        toolbox.add id [⟨.other .animation,
          Animation.mk config.frameCount 0 config.frameTime 0 config.frameWidth
            config.frameHeight config.loop⟩]
      else
        toolbox

/-- The second part of {lit}`addGraphicalComponents`. -/
def addTargetPos (id : ℕ) (toolbox : HandlerToolbox) : HandlerToolbox :=
  match toolbox.engine.ecs.getEntity [.other .position] (.other .position) id with
  | none => toolbox
  | some (pos : Position) => toolbox.add id [⟨.other .targetPos, TargetPos.mk pos.x pos.y⟩]

/-- {lit}`addGraphicalComponents`. -/
def addGraphicalComponents (id : ℕ) (toolbox : HandlerToolbox) : HandlerToolbox :=
  addTargetPos id (addSprite id toolbox)

/-- {lit}`handleSpawn`. -/
def handleSpawn (packet : Spawn) (toolbox : HandlerToolbox) : Except Fault HandlerToolbox :=
  if packet.id ∈ toolbox.serverToClient then
    .ok toolbox
  else
    let (ecs, real) := toolbox.engine.ecs.preRegisterEntity
    let bound : HandlerToolbox :=
      { toolbox.setEcs ecs with
        serverToClient := toolbox.serverToClient.insert packet.id real }
    match DynamicBitSet.deserialize packet.bitmask with
    | none => .error .undefined
    | some bitmask =>
        match toolbox.componentFactory.apply schema ecs real bitmask packet.content with
        | .error what => .error (.serialization what)
        | .ok (ecs, _) => .ok (addGraphicalComponents real (bound.setEcs ecs))

/-- {lit}`handleDestroy`. -/
def handleDestroy (packet : Destroy) (toolbox : HandlerToolbox) : HandlerToolbox :=
  match toolbox.serverToClient[packet.id]? with
  | none => toolbox
  | some real =>
      { toolbox.setEcs (toolbox.engine.ecs.destroyEntity real) with
        serverToClient := toolbox.serverToClient.erase packet.id }

/-- The loop of {lit}`handleWorldInit`, over the bitsets that are left. -/
def spawnAll (toolbox : HandlerToolbox) :
    List (List ℕ) → List ℕ → List (List UInt8) → Except Fault HandlerToolbox
  | [], _, _ => .ok toolbox
  | _ :: _, [], _ => .error .undefined
  | bitset :: bitsets, id :: ids, entities =>
      if id ∈ toolbox.serverToClient then
        spawnAll toolbox bitsets ids entities.tail
      else
        match entities with
        | [] => .error .undefined
        | content :: entities =>
            match handleSpawn { id := id, bitmask := bitset, content := content } toolbox with
            | .error fault => .error fault
            | .ok toolbox => spawnAll toolbox bitsets ids entities

/-- {lit}`handleWorldInit`. -/
def handleWorldInit (packet : WorldInit) (toolbox : HandlerToolbox) :
    Except Fault HandlerToolbox :=
  spawnAll (toolbox.setGameState packet.state) packet.bitsets packet.ids packet.entities

/-- {lit}`handleJoinAck`: {lit}`at` comes before the test. -/
def handleJoinAck (packet : JoinAck) (toolbox : HandlerToolbox) : Except Fault HandlerToolbox :=
  match toolbox.serverToClient[packet.id]? with
  | none => .error .outOfRange
  | some real =>
      let toolbox := (toolbox.setGameState packet.gameState).setMenuState menuLobby
      if packet.id ∉ toolbox.serverToClient then
        .ok toolbox
      else
        .ok (toolbox.add real [⟨.other .me, Me.mk⟩])

/-- The handler of a packet. -/
def handle (toolbox : HandlerToolbox) : Variant → Except Fault HandlerToolbox
  | .spawn packet => handleSpawn packet toolbox
  | .destroy packet => .ok (handleDestroy packet toolbox)
  | .joinAck packet => handleJoinAck packet toolbox
  | .worldInit packet => handleWorldInit packet toolbox
  | .updateGameState gameState => .ok (toolbox.setGameState gameState)

/-- Packets are handled in the order in which they come. -/
def handleAll (packets : List Variant) (toolbox : HandlerToolbox) : Except Fault HandlerToolbox :=
  packets.foldlM handle toolbox

/-- How many entities a packet describes. -/
def described : Variant → ℕ
  | .spawn _ => 1
  | .worldInit packet => packet.bitsets.length
  | _ => 0

namespace HandlerToolbox

/-- The states of the client, each with the number of entities that were described to it:
packets are handled, whatever they contain, and other code writes to instances. -/
inductive Reached : ℕ → HandlerToolbox → Prop
  | new : Reached 0 new
  | handle {n : ℕ} {toolbox toolbox' : HandlerToolbox} (packet : Variant)
      (h : Reached n toolbox) (hok : Client.handle toolbox packet = .ok toolbox') :
      Reached (n + described packet) toolbox'
  | write {n : ℕ} {toolbox : HandlerToolbox} (entity : ℕ) (newInstance : Instance Comp)
      (h : Reached n toolbox) :
      Reached n (toolbox.setEcs (toolbox.engine.ecs.updateEntityComponent entity newInstance).1)

end HandlerToolbox

/-! ## What the handlers do -/

section

variable {toolbox toolbox' : HandlerToolbox}

theorem HandlerToolbox.add_add (toolbox : HandlerToolbox) (id : ℕ)
    (instances instances' : List (Instance Comp)) :
    (toolbox.add id instances).add id instances' = toolbox.add id (instances ++ instances') := by
  unfold HandlerToolbox.add ECS.addEntityComponents
  rw [List.foldl_append]
  rfl

/-- The graphics of an entity are components that are added to it. -/
theorem exists_addSprite (id : ℕ) (toolbox : HandlerToolbox) :
    ∃ instances, addSprite id toolbox = toolbox.add id instances := by
  unfold addSprite
  split
  · exact ⟨[], rfl⟩
  · dsimp only
    split_ifs
    · rw [HandlerToolbox.add_add]
      exact ⟨_, rfl⟩
    · exact ⟨_, rfl⟩

theorem exists_addTargetPos (id : ℕ) (toolbox : HandlerToolbox) :
    ∃ instances, addTargetPos id toolbox = toolbox.add id instances := by
  unfold addTargetPos
  split
  · exact ⟨[], rfl⟩
  · exact ⟨_, rfl⟩

theorem exists_addGraphicalComponents (id : ℕ) (toolbox : HandlerToolbox) :
    ∃ instances, addGraphicalComponents id toolbox = toolbox.add id instances := by
  obtain ⟨instances, hsprite⟩ := exists_addSprite id toolbox
  obtain ⟨instances', htarget⟩ := exists_addTargetPos id (addSprite id toolbox)
  refine ⟨instances ++ instances', ?_⟩
  rw [addGraphicalComponents, htarget, hsprite, HandlerToolbox.add_add]

/-- The client after the entity has been prepared, and bound to the id of the server. -/
def bound (toolbox : HandlerToolbox) (id : ℕ) : HandlerToolbox :=
  { toolbox.setEcs toolbox.engine.ecs.preRegisterEntity.1 with
    serverToClient := toolbox.serverToClient.insert id toolbox.engine.ecs.preRegisterEntity.2 }

/-- A {lit}`Spawn` of a known entity is ignored.  Any other one binds a new entity, and adds
components to it. -/
theorem handleSpawn_cases {packet : Spawn} (hok : handleSpawn packet toolbox = .ok toolbox') :
    packet.id ∈ toolbox.serverToClient ∧ toolbox' = toolbox ∨
      packet.id ∉ toolbox.serverToClient ∧ ∃ instances, toolbox' =
        (bound toolbox packet.id).add toolbox.engine.ecs.preRegisterEntity.2 instances := by
  unfold handleSpawn at hok
  split_ifs at hok with hknown
  · exact .inl ⟨hknown, (Except.ok.inj hok).symm⟩
  · right
    refine ⟨hknown, ?_⟩
    dsimp only at hok
    split at hok
    · cases hok
    · split at hok
      · cases hok
      · rename_i ecs reader hread
        obtain ⟨instances, hadds⟩ := Factory.adds_of_apply hread
        obtain ⟨instances', hgraphics⟩ := exists_addGraphicalComponents
          toolbox.engine.ecs.preRegisterEntity.2 ((bound toolbox packet.id).setEcs ecs)
        refine ⟨instances ++ instances', ?_⟩
        rw [← HandlerToolbox.add_add, ← Except.ok.inj hok]
        subst hadds
        exact hgraphics

/-- The acknowledgement of a player whose entity is not known. -/
theorem handleJoinAck_of_none {packet : JoinAck}
    (hbound : toolbox.serverToClient[packet.id]? = none) :
    handleJoinAck packet toolbox = .error .outOfRange := by
  unfold handleJoinAck
  rw [hbound]

/-- The entity of the player becomes the one of the user. -/
theorem handleJoinAck_of_some {packet : JoinAck} {real : ℕ}
    (hbound : toolbox.serverToClient[packet.id]? = some real) :
    handleJoinAck packet toolbox =
      .ok (((toolbox.setGameState packet.gameState).setMenuState menuLobby).add real
        [⟨.other .me, Me.mk⟩]) := by
  have hmem : packet.id ∈ toolbox.serverToClient := by
    rw [ExtTreeMap.mem_iff_isSome_getElem?, hbound]
    rfl
  unfold handleJoinAck
  rw [hbound]
  exact if_neg (not_not.mpr hmem)

/-- A {lit}`Destroy` takes one binding away. -/
theorem mem_handleDestroy (packet : Destroy) {id : ℕ} :
    id ∈ (handleDestroy packet toolbox).serverToClient ↔
      id ≠ packet.id ∧ id ∈ toolbox.serverToClient := by
  unfold handleDestroy
  split
  · rename_i hunbound
    refine ⟨fun hid => ⟨?_, hid⟩, And.right⟩
    rintro rfl
    rw [ExtTreeMap.mem_iff_isSome_getElem?, hunbound] at hid
    cases hid
  · change id ∈ toolbox.serverToClient.erase packet.id ↔ _
    rw [ExtTreeMap.mem_erase, ne_eq, Std.compare_eq_iff_eq, eq_comm]

end

end Rtype.Client
