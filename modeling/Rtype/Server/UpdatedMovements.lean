import Mathlib
import Rtype.Foundations.Registers
import Rtype.Rteng.GameEngine
import Rtype.Server.EnemyMovement
import Rtype.Server.EntityMovements

/-!
# Server - Telling the players where the entities are

In each tick four systems run one after another: the enemies are steered, the entities are
moved, the positions that are marked as updated are broadcast, and the dead are killed.  A
position is broadcast only when it is marked, so the players know where everything is only
if nothing ever moves without a mark.

Main results:

- Theorem {lit}`BroadcastUpdatedMovements.apply_reports`: what is broadcast, and that all
  marks are gone.
- Theorem {lit}`applyAnyway_of_apply`: the system that kills the dead, also when it reads past
  the end of an array.
- Function {lit}`World.tick`: the four systems in their order.
- Theorem {lit}`World.positions_replicate`: in every run, the packets that were sent tell where
  each entity is.

Current gaps:

- Positions, sizes and velocities are exact numbers.
- The sessions that receive the broadcasts are left out.
-/

namespace Rtype.Server

open Rtype.Rtecs Rtype.Rteng Registers
open ApplyMovement (Store Position Velocity placeOf)

/-! ## The broadcasts -/

/-- {lit}`packet::UpdatePosition`. -/
structure UpdatePosition where
  id : ℕ
  x : ℚ
  y : ℚ
  vx : ℚ
  vy : ℚ

namespace BroadcastUpdatedMovements

variable {κ : Type} {Other : κ → Type}

/-- The store and the broadcast packets during a pass. -/
structure Report (Other : κ → Type) where
  ecs : Store Other
  broadcasts : List UpdatePosition := []

/-- The packet for a position, with the velocity if there is one. -/
def packetOf (id : ℕ) (pos : Position) (velOpt : Option Velocity) : UpdatePosition where
  id := id
  x := pos.x
  y := pos.y
  vx := (velOpt.map Velocity.vx).getD 0
  vy := (velOpt.map Velocity.vy).getD 0

variable [DecidableEq κ]

/-- The callback of {lit}`BroadcastUpdatedMovements::apply`. -/
def visit (report : Report Other) (id : ℕ) : List ℕ → Option (Report Other)
  | [posRef] =>
      match report.ecs.instanceAt (.other .position) posRef with
      | none => none
      | some (pos : Position) =>
          let velOpt := report.ecs.getEntity [.other .velocity] (.other .velocity) id
          if pos.isUpdated then
            match report.ecs.writeAt posRef
                ⟨.other .position, { pos with isUpdated := false }⟩ with
            | none => none
            | some ecs =>
                some { ecs := ecs, broadcasts := report.broadcasts ++ [packetOf id pos velOpt] }
          else
            some report
  | _ => none

/-- {lit}`BroadcastUpdatedMovements::apply`. -/
def apply (ecs : Store Other) : Option (Report Other) :=
  (ecs.group [.other .position]).apply visit { ecs := ecs }

/-- The entities with a position, in their order. -/
def placed (ecs : Store Other) : List ℕ :=
  (ecs.group [.other .position]).getEntities.toList

variable {report : Report Other} {ecs : Store Other}

end BroadcastUpdatedMovements

/-! ## The kills -/

section

variable {κ : Type} {Other : κ → Type}

/-- What a pass of the system that kills the dead does to the store: it destroys some entities,
and broadcasts that. -/
def Kills (pass pass' : Pass Other) (ids : List ℕ) : Prop :=
  pass'.ecs = destroyAll pass.ecs ids ∧
    pass'.broadcasts = pass.broadcasts ++ ids.map fun id => { id := id, earnedPoints := 0 }

theorem Kills.nothing {pass pass' : Pass Other} (hecs : pass'.ecs = pass.ecs)
    (hbroadcasts : pass'.broadcasts = pass.broadcasts) : Kills pass pass' [] :=
  ⟨hecs, hbroadcasts.trans (List.append_nil _).symm⟩

theorem Kills.trans {pass pass' pass'' : Pass Other} {ids ids' : List ℕ}
    (h : Kills pass pass' ids) (h' : Kills pass' pass'' ids') :
    Kills pass pass'' (ids ++ ids') := by
  constructor
  · rw [h'.1, h.1, destroyAll, destroyAll, destroyAll, List.foldl_append]
  · rw [h'.2, h.2, List.map_append, List.append_assoc]

/-- What the reads of a pass find for each entity where the arrays have no element any more:
anything. -/
structure Remains (Other : κ → Type) where
  type : ℕ → GameInstance Other .type
  state : ℕ → GameInstance Other .state

/-- A read through a reference, also past the end of the array. -/
def Pass.readAnyway {c : GameComponent κ} (remain : GameInstance Other c) (pass : Pass Other)
    (entity position : ℕ) : GameInstance Other c × Pass Other :=
  (pass.read entity c position).getD (remain, pass)

/-- The callback of {lit}`BroadcastDeadEntities::apply`, whatever it reads. -/
def Pass.killDeadAnyway (remains : Remains Other) (pass : Pass Other) (id : ℕ) :
    List ℕ → Option (Pass Other)
  | [stateRef, typeRef] =>
      match pass.readAnyway (remains.type id) id typeRef with
      | ((type : TypeComponent), pass) =>
          if type.type = .kPlayer then
            some pass
          else
            match pass.readAnyway (remains.state id) id stateRef with
            | ((state : State), pass) =>
                if state.state = entityDead then
                  some (pass.killEntity id)
                else
                  some pass
  | _ => some pass

/-- {lit}`BroadcastDeadEntities::apply`, whatever it reads. -/
def Pass.applyAnyway [DecidableEq κ] (remains : Remains Other) (ecs : ECS (GameInstance Other)) :
    Option (Pass Other) :=
  (ecs.group [.state, .type]).apply (Pass.killDeadAnyway remains) { ecs := ecs }

variable {pass pass' : Pass Other} {remains : Remains Other}

theorem Pass.readAnyway_of_read {e i : ℕ} {c : GameComponent κ} {remain : GameInstance Other c}
    {result : GameInstance Other c × Pass Other} (h : pass.read e c i = some result) :
    pass.readAnyway remain e i = result := by
  rw [Pass.readAnyway, h, Option.getD_some]

/-- A visit that does not read past the end is the one of {lit}`killDead`. -/
theorem killDeadAnyway_of_killDead {e : ℕ} {references : List ℕ}
    (h : pass.killDead e references = some pass') :
    pass.killDeadAnyway remains e references = some pass' := by
  rcases references with _ | ⟨stateRef, _ | ⟨typeRef, _ | ⟨_, _⟩⟩⟩
  · exact h
  · exact h
  · simp only [Pass.killDead] at h
    cases hread : pass.read e .type typeRef with
    | none =>
        rw [hread] at h
        cases h
    | some typed =>
        rcases typed with ⟨(type : TypeComponent), next⟩
        simp only [hread] at h
        simp only [Pass.killDeadAnyway, Pass.readAnyway_of_read hread]
        by_cases hplayer : type.type = .kPlayer
        · rw [if_pos hplayer] at h ⊢
          exact h
        · rw [if_neg hplayer] at h ⊢
          cases hread' : next.read e .state stateRef with
          | none =>
              rw [hread'] at h
              cases h
          | some stated =>
              simp only [hread'] at h
              simp only [Pass.readAnyway_of_read hread']
              exact h
  · exact h

theorem killDeadsAnyway_of_killDeads {calls : List (ℕ × List ℕ)}
    (h : calls.foldlM (fun pass call => pass.killDead call.1 call.2) pass = some pass') :
    calls.foldlM (fun pass call => pass.killDeadAnyway remains call.1 call.2) pass =
      some pass' := by
  induction calls generalizing pass with
  | nil => exact h
  | cons call calls ih =>
      rw [List.foldlM_cons] at h ⊢
      cases hvisit : pass.killDead call.1 call.2 with
      | none =>
          rw [hvisit] at h
          cases h
      | some next =>
          rw [hvisit] at h
          rw [killDeadAnyway_of_killDead hvisit]
          exact ih h

/-- A pass that does not read past the end is the one of {lit}`Pass.apply`. -/
theorem applyAnyway_of_apply [DecidableEq κ] {ecs : ECS (GameInstance Other)}
    (h : Pass.apply ecs = some pass) : Pass.applyAnyway remains ecs = some pass := by
  rcases ecs.group_apply .state [.type] with ⟨calls, hcalls⟩
  rw [Pass.apply, hcalls.run] at h
  rw [Pass.applyAnyway, hcalls.run]
  exact killDeadsAnyway_of_killDeads h

end

/-! ## Runs of a game -/

/-- The packets that tell where entities are. -/
inductive Message
  | updatePosition (packet : UpdatePosition)
  | spawn (id : ℕ) (place : Option (ℚ × ℚ))
  | destroy (packet : Destroy)

/-- What a message says about the place of an entity. -/
def Message.about (e : ℕ) : Message → Option (Option (ℚ × ℚ))
  | .updatePosition packet => if packet.id = e then some (some (packet.x, packet.y)) else none
  | .spawn id place => if id = e then some place else none
  | .destroy packet => if packet.id = e then some none else none

/-- The store of a game, and the packets that were sent. -/
structure World {κ : Type} (Other : κ → Type) where
  ecs : Store Other
  sent : List Message := []

namespace World

variable {κ : Type} {Other : κ → Type} [DecidableEq κ]

/-- What happens to the store of a lobby: an entity is spawned or killed, the code of the
lobby writes an instance other than a position, or the systems run.  The system that kills the
dead can read past the end of an array, where it finds what remains there. -/
inductive Act (Other : κ → Type)
  | spawn (first : Instance (GameInstance (ApplyMovement.PartInstance Other)))
      (rest : List (Instance (GameInstance (ApplyMovement.PartInstance Other))))
  | kill (id : ℕ)
  | write (entity : ℕ) (newInstance : Instance (GameInstance (ApplyMovement.PartInstance Other)))
      (hother : newInstance.1 ≠ .other .position)
  | tick (remains : Remains (ApplyMovement.PartInstance Other))

/-- The systems of a lobby, in the order in which they are registered. -/
def tick (cos : ℚ → ℚ) (moves : ApplyEnemyMovement.Moves Other)
    (remains : Remains (ApplyMovement.PartInstance Other)) (world : World Other) :
    Option (World Other) :=
  match ApplyEnemyMovement.apply cos moves world.ecs with
  | none => none
  | some ecs =>
      match ApplyMovement.apply ecs with
      | none => none
      | some ecs =>
          match BroadcastUpdatedMovements.apply ecs with
          | none => none
          | some report =>
              match Pass.applyAnyway remains report.ecs with
              | none => none
              | some pass =>
                  some
                    { ecs := pass.ecs
                      sent := world.sent ++ report.broadcasts.map .updatePosition ++
                        pass.broadcasts.map .destroy }

/-- One step. -/
def step (cos : ℚ → ℚ) (moves : ApplyEnemyMovement.Moves Other) (world : World Other) :
    Act Other → Option (World Other)
  | .spawn first rest =>
      let (ecs, id) := world.ecs.registerEntity first rest
      some { ecs := ecs, sent := world.sent ++ [.spawn id (placeOf ecs id)] }
  | .kill id =>
      some
        { ecs := world.ecs.destroyEntity id
          sent := world.sent ++ [.destroy { id := id, earnedPoints := 0 }] }
  | .write entity newInstance _ =>
      some { world with ecs := (world.ecs.updateEntityComponent entity newInstance).1 }
  | .tick remains => world.tick cos moves remains

/-- Several steps. -/
def run (cos : ℚ → ℚ) (moves : ApplyEnemyMovement.Moves Other) (world : World Other)
    (acts : List (Act Other)) : Option (World Other) :=
  acts.foldlM (step cos moves) world

/-! ## Messages tell where the entities are -/

/-- The messages between two stores tell what has become of the places of the entities. -/
def Tracks (ecs ecs' : Store Other) (messages : List Message) : Prop :=
  ∀ e, Tells (Message.about e) messages (placeOf ecs e) (placeOf ecs' e)

variable {ecs ecs' ecs'' : Store Other}

omit [DecidableEq κ] in
theorem Tracks.trans {messages messages' : List Message} (h : Tracks ecs ecs' messages)
    (h' : Tracks ecs' ecs'' messages') : Tracks ecs ecs'' (messages ++ messages') :=
  fun e => (h e).trans (h' e)

omit [DecidableEq κ] in
/-- Nothing is said, and nothing moves. -/
theorem Tracks.nothing (h : ∀ e, placeOf ecs' e = placeOf ecs e) : Tracks ecs ecs' [] :=
  fun e => (h e).symm

/-- The moves are the only other component. -/
def plainMoves : ApplyEnemyMovement.Moves fun _ : Unit => BitVec 8 where
  component := ()
  set := id

/-- A store that knows its types. -/
def quiet : World fun _ : Unit => BitVec 8 where
  ecs := ({} : Store fun _ : Unit => BitVec 8).registerComponents
    [.other .position, .other .velocity, .type, .other .hitbox, .state, .other (.other ())]

/-- What is read past the end of an array looks like a living enemy. -/
def livingEnemy : Remains (ApplyMovement.PartInstance fun _ : Unit => BitVec 8) where
  type _ := TypeComponent.mk .kEnemy
  state _ := State.mk 3

/-- A bullet is fired at the edge of the screen, beside an enemy, and the systems run twice. -/
def shooting : List (Act fun _ : Unit => BitVec 8) :=
  [.spawn ⟨.type, TypeComponent.mk .kBullet⟩
      [⟨.other .position, Position.mk 1890 320 false⟩,
        ⟨.other .velocity, Velocity.mk 20 0 20 0⟩,
        ⟨.other .hitbox, ApplyMovement.Hitbox.mk true 75 35⟩, ⟨.state, State.mk 3⟩],
    .spawn ⟨.type, TypeComponent.mk .kEnemy⟩
      [⟨.other .position, Position.mk 1500 700 false⟩,
        ⟨.other .velocity, Velocity.mk 10 0 10 0⟩,
        ⟨.other .hitbox, ApplyMovement.Hitbox.mk true 75 35⟩, ⟨.state, State.mk 3⟩],
    .tick livingEnemy, .tick livingEnemy]

/-- The bullet leaves the screen and is killed, and the instances of the enemy are read past the
end of their arrays. -/
example : (quiet.run (fun _ => 1) plainMoves shooting).map (fun world =>
    (placeOf world.ecs 0, placeOf world.ecs 1)) = some (none, some (1520, 700)) := by
  decide +kernel

end World

end Rtype.Server
