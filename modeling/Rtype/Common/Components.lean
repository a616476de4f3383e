import Mathlib
import Rtype.Rteng.EntityInfos
import Rtype.Server.BroadcastDeadEntities

/-!
# Common - The components of the game

The component types that server and client share, the ones that the client adds for
its graphics, and what the {lit}`serialize` function of each type lists.

Main results:

- Definition {lit}`gameComponents`: the list that both engines register first.
- Definition {lit}`schema`: the serialized fields of each type.
- Theorem {lit}`roundTrips`: every component of the list survives the way through a
  buffer.

Current gaps:

- A {lit}`float` is its 32 bits, and its arithmetic is a parameter.
-/

namespace Rtype.Common

open Rtype.Rtnt (Shape)
open Rtype.Rteng
open Rtype.Server (EntityType State TypeComponent GameComponent GameInstance)

/-- A {lit}`float`, by its bits. -/
abbrev CFloat := BitVec 32

/-- The arithmetic of the machine. -/
class FloatUnit where
  add : CFloat → CFloat → CFloat

/-- The arithmetic of a run that adds nothing but zero. -/
abbrev FloatUnit.addsZero : FloatUnit where
  add x _ := x

/-! ## Shared components -/

structure Collision where
  isTriggered : Bool := false

structure Damage where
  damage : BitVec 32

structure Health where
  hp : BitVec 32 := 100
  maxHp : BitVec 32 := 100

structure Hitbox where
  shown : Bool := false
  width : CFloat := 0
  height : CFloat := 0

structure Invulnerability where
  duration : CFloat := 0

structure MoveSet where
  set : BitVec 8

structure Owner where
  id : ℕ

structure Position where
  x : CFloat := 0
  y : CFloat := 0
  isUpdated : Bool := false

structure Score where
  playerScore : BitVec 32

structure Transform where
  x : CFloat := 0
  y : CFloat := 0

structure Value where
  value : BitVec 32

structure Velocity where
  vx : CFloat := 0
  vy : CFloat := 0
  maxVx : CFloat := 0
  maxVy : CFloat := 0

/-- {lit}`components::Behaviour`; no entity of the game has an instance. -/
structure Behaviour where
  started : Bool := false
  deriving Inhabited

/-! ## Components of the client -/

structure Animation where
  frameCount : ℕ
  currentFrame : ℕ
  frameTime : CFloat
  elapsedTime : CFloat
  frameWidth : ℕ
  frameHeight : ℕ
  loop : Bool
  deriving Inhabited

structure Me where
  deriving Inhabited

structure Sound where
  soundId : ℕ
  playOnce : Bool
  deriving Inhabited

structure Sprite where
  type : EntityType

structure TargetPos where
  x : CFloat
  y : CFloat
  deriving Inhabited

structure ZIndex where
  layer : ℕ
  deriving Inhabited

instance : Inhabited Sprite := ⟨{ type := .kPlayer }⟩

/-! ## The component types -/

/-- The component types besides {lit}`State` and {lit}`Type`. -/
inductive OtherComponent
  | collision
  | damage
  | health
  | hitbox
  | invulnerability
  | moveSet
  | owner
  | position
  | score
  | transform
  | value
  | velocity
  | behaviour
  | animation
  | me
  | sound
  | sprite
  | targetPos
  | zIndex
  deriving DecidableEq

/-- The instances of these types. -/
def OtherInstance : OtherComponent → Type
  | .collision => Collision
  | .damage => Damage
  | .health => Health
  | .hitbox => Hitbox
  | .invulnerability => Invulnerability
  | .moveSet => MoveSet
  | .owner => Owner
  | .position => Position
  | .score => Score
  | .transform => Transform
  | .value => Value
  | .velocity => Velocity
  | .behaviour => Behaviour
  | .animation => Animation
  | .me => Me
  | .sound => Sound
  | .sprite => Sprite
  | .targetPos => TargetPos
  | .zIndex => ZIndex

/-- All component types of the game. -/
abbrev Kind := GameComponent OtherComponent

/-- Their instances. -/
abbrev Comp : Kind → Type := GameInstance OtherInstance

/-- {lit}`components::GameComponents`. -/
def gameComponents : List Kind :=
  [.other .collision, .other .damage, .other .health, .other .hitbox, .other .invulnerability,
    .other .moveSet, .other .owner, .other .position, .other .score, .state, .other .transform,
    .type, .other .value, .other .velocity]

theorem nodup_gameComponents : gameComponents.Nodup := by
  decide

theorem position_mem : (.other .position : Kind) ∈ gameComponents := by
  decide

theorem velocity_mem : (.other .velocity : Kind) ∈ gameComponents := by
  decide

theorem state_mem : (.state : Kind) ∈ gameComponents := by
  decide

theorem type_mem : (.type : Kind) ∈ gameComponents := by
  decide

/-! ## Serialized fields -/

/-- A type without a {lit}`serialize` function that lists a field. -/
def unlisted (T : Type) [Inhabited T] : Schema T where
  shape := .struct []
  save _ := ()
  load _ := default
  save_load _ := rfl

/-- What the {lit}`serialize` functions list. -/
def schema : (c : Kind) → Schema (Comp c)
  | .state =>
      { shape := .struct [.scalar 8]
        save := fun (c : State) => (BitVec.ofNat 64 c.state, ())
        load := fun (data : BitVec 64 × Unit) => State.mk data.1.toNat
        save_load := fun (c : State) => by rw [BitVec.ofNat_toNat, BitVec.setWidth_eq] }
  | .type =>
      { shape := .struct [.scalar 4]
        save := fun (c : TypeComponent) => (c.type.value, ())
        load := fun (data : BitVec 32 × Unit) => TypeComponent.mk (EntityType.mk data.1)
        save_load := fun _ => rfl }
  | .other .collision =>
      { shape := .struct [.bool]
        save := fun (c : Collision) => (c.isTriggered, ())
        load := fun (data : Bool × Unit) => Collision.mk data.1
        save_load := fun _ => rfl }
  | .other .damage =>
      { shape := .struct [.scalar 4]
        save := fun (c : Damage) => (c.damage, ())
        load := fun (data : BitVec 32 × Unit) => Damage.mk data.1
        save_load := fun _ => rfl }
  | .other .health =>
      { shape := .struct [.scalar 4, .scalar 4]
        save := fun (c : Health) => (c.hp, c.maxHp, ())
        load := fun (data : BitVec 32 × BitVec 32 × Unit) => Health.mk data.1 data.2.1
        save_load := fun _ => rfl }
  | .other .hitbox =>
      { shape := .struct [.bool, .scalar 4, .scalar 4]
        save := fun (c : Hitbox) => (c.shown, c.width, c.height, ())
        load := fun (data : Bool × CFloat × CFloat × Unit) => Hitbox.mk data.1 data.2.1 data.2.2.1
        save_load := fun _ => rfl }
  | .other .invulnerability =>
      { shape := .struct [.scalar 4]
        save := fun (c : Invulnerability) => (c.duration, ())
        load := fun (data : CFloat × Unit) => Invulnerability.mk data.1
        save_load := fun _ => rfl }
  | .other .moveSet =>
      { shape := .struct [.scalar 1]
        save := fun (c : MoveSet) => (c.set, ())
        load := fun (data : BitVec 8 × Unit) => MoveSet.mk data.1
        save_load := fun _ => rfl }
  | .other .owner =>
      { shape := .struct [.scalar 8]
        save := fun (c : Owner) => (BitVec.ofNat 64 c.id, ())
        load := fun (data : BitVec 64 × Unit) => Owner.mk data.1.toNat
        save_load := fun (c : Owner) => by rw [BitVec.ofNat_toNat, BitVec.setWidth_eq] }
  | .other .position =>
      { shape := .struct [.scalar 4, .scalar 4]
        save := fun (c : Position) => (c.x, c.y, ())
        load := fun (data : CFloat × CFloat × Unit) => { x := data.1, y := data.2.1 : Position }
        save_load := fun _ => rfl }
  | .other .score =>
      { shape := .struct [.scalar 4]
        save := fun (c : Score) => (c.playerScore, ())
        load := fun (data : BitVec 32 × Unit) => Score.mk data.1
        save_load := fun _ => rfl }
  | .other .transform =>
      { shape := .struct [.scalar 4, .scalar 4]
        save := fun (c : Transform) => (c.x, c.y, ())
        load := fun (data : CFloat × CFloat × Unit) => Transform.mk data.1 data.2.1
        save_load := fun _ => rfl }
  | .other .value =>
      { shape := .struct [.scalar 4]
        save := fun (c : Value) => (c.value, ())
        load := fun (data : BitVec 32 × Unit) => Value.mk data.1
        save_load := fun _ => rfl }
  | .other .velocity =>
      { shape := .struct [.scalar 4, .scalar 4, .scalar 4, .scalar 4]
        save := fun (c : Velocity) => (c.vx, c.vy, c.maxVx, c.maxVy, ())
        load := fun (data : CFloat × CFloat × CFloat × CFloat × Unit) =>
          Velocity.mk data.1 data.2.1 data.2.2.1 data.2.2.2.1
        save_load := fun _ => rfl }
  | .other .behaviour => unlisted Behaviour
  | .other .animation => unlisted Animation
  | .other .me => unlisted Me
  | .other .sound => unlisted Sound
  | .other .sprite => unlisted Sprite
  | .other .targetPos => unlisted TargetPos
  | .other .zIndex => unlisted ZIndex

/-- Every component consists of numbers and truth values, which always fit. -/
theorem roundTrips (c : Kind) (component : Comp c) : RoundTrips (schema c) component := by
  match c with
  | .state => exact ⟨⟨trivial, trivial⟩, trivial, trivial⟩
  | .type => exact ⟨⟨trivial, trivial⟩, trivial, trivial⟩
  | .other c =>
      cases c <;> simp [RoundTrips, schema, unlisted, Writable, WritableFields, Shape.Fits,
        Shape.FitsFields]

end Rtype.Common
