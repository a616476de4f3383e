import Mathlib
import Rtype.Foundations.Boxes
import Rtype.Rtecs.Writing
import Rtype.Server.BroadcastDeadEntities

/-!
# Server - The system that moves the entities

The system walks over the group of the entities that can move.  A player goes first along the
horizontal axis and then along the vertical one, and stops at the first other player that it
would run into.  Everything else goes in one step, and dies with what it hits.

Main results:

- Theorem {lit}`findCollider_spec`: what a search through the group of the colliders finds.
- Theorem {lit}`apply_refines`: what the system does to the boxes of the players.

Current gaps:

- Positions, sizes and velocities are exact numbers.
-/

namespace Rtype.Server.ApplyMovement

open Rtype.Rtecs
open Boxes (Box Move)

/-! ## The components -/

/-- {lit}`components::Velocity`. -/
structure Velocity where
  vx : ℚ := 0
  vy : ℚ := 0
  maxVx : ℚ := 0
  maxVy : ℚ := 0

/-- {lit}`components::Position`. -/
structure Position where
  x : ℚ := 0
  y : ℚ := 0
  isUpdated : Bool := false

/-- {lit}`components::Hitbox`. -/
structure Hitbox where
  shown : Bool := false
  width : ℚ := 0
  height : ℚ := 0

/-- The component types besides state and type: those that the system uses, and all the
others. -/
inductive Part (κ : Type)
  | velocity
  | position
  | hitbox
  | other (c : κ)
  deriving DecidableEq

/-- The instances of these component types. -/
def PartInstance {κ : Type} (Other : κ → Type) : Part κ → Type
  | .velocity => Velocity
  | .position => Position
  | .hitbox => Hitbox
  | .other c => Other c

variable {κ : Type} {Other : κ → Type}

/-- The stores that the system works on. -/
abbrev Store (Other : κ → Type) :=
  ECS (GameInstance (PartInstance Other))

/-! ## Colliders -/

/-- {lit}`ApplyMovement::Collider`: the references. -/
structure Collider where
  pos : ℕ
  box : ℕ
  state : ℕ
  type : ℕ

/-- {lit}`ApplyMovement::collide`. -/
def collide (refPos : Position) (refBox : Hitbox) (otherPos : Position) (otherBox : Hitbox) :
    Bool :=
  decide (refPos.x < otherPos.x + otherBox.width) &&
    decide (refPos.x + refBox.width > otherPos.x) &&
    decide (refPos.y < otherPos.y + otherBox.height) &&
    decide (refPos.y + refBox.height > otherPos.y)

/-- The callback of {lit}`ApplyMovement::findCollider`.  A collision has been detected when
there is a collider. -/
def testCollider (ecs : Store Other) (id : ℕ) (pos : Position) (box : Hitbox)
    (expectedColliderType : EntityType) (collider : Option Collider) (colliderId : ℕ) :
    List ℕ → Option (Option Collider)
  | [posRef, boxRef, stateRef, typeRef] =>
      match ecs.instanceAt .type typeRef with
      | none => none
      | some (colliderType : TypeComponent) =>
          if colliderType.type ≠ expectedColliderType ∨ colliderId = id ∨ collider.isSome then
            some collider
          else
            match ecs.instanceAt (.other .position) posRef,
                ecs.instanceAt (.other .hitbox) boxRef with
            | some (colliderPos : Position), some (colliderBox : Hitbox) =>
                if collide pos box colliderPos colliderBox then
                  some (some { pos := posRef, box := boxRef, state := stateRef, type := typeRef })
                else
                  some collider
            | _, _ => none
  | _ => none

/-- {lit}`ApplyMovement::findCollider`. -/
def findCollider (ecs : Store Other) (id : ℕ) (pos : Position) (box : Hitbox)
    (colliders : SparseGroup (GameComponent (Part κ))) (expectedColliderType : EntityType) :
    Option (Option Collider) :=
  colliders.apply (testCollider ecs id pos box expectedColliderType) none

/-- The position and the hitbox behind the references of a collider. -/
def readCollider (ecs : Store Other) : Option Collider → Option (Option (Position × Hitbox))
  | none => some none
  | some collider =>
      match ecs.instanceAt (.other .position) collider.pos,
          ecs.instanceAt (.other .hitbox) collider.box with
      | some (colliderPos : Position), some (colliderBox : Hitbox) =>
          some (some (colliderPos, colliderBox))
      | _, _ => none

/-! ## Movements -/

/-- The coordinate of a player after its movement along an axis, with the interval of the
collider on this axis. -/
def handlePlayerMovement (start velocity size : ℚ) : Option (ℚ × ℚ) → ℚ
  | some (colliderStart, colliderSize) =>
      if velocity > 0 then colliderStart - size
      else if velocity < 0 then colliderStart + colliderSize
      else start
  | none => start + velocity

/-- {lit}`ApplyMovement::handlePlayerHorizontalMovement`. -/
def handlePlayerHorizontalMovement (pos : Position) (vel : Velocity) (box : Hitbox)
    (collider : Option (Position × Hitbox)) : Position × Velocity :=
  ({ pos with
      x := handlePlayerMovement pos.x vel.vx box.width
        (collider.map fun other => (other.1.x, other.2.width)) },
    { vel with vx := 0 })

/-- {lit}`ApplyMovement::handlePlayerVerticalMovement`. -/
def handlePlayerVerticalMovement (pos : Position) (vel : Velocity) (box : Hitbox)
    (collider : Option (Position × Hitbox)) : Position × Velocity :=
  ({ pos with
      y := handlePlayerMovement pos.y vel.vy box.height
        (collider.map fun other => (other.1.y, other.2.height)) },
    { vel with vy := 0 })

/-- What the visit of a moving entity has at hand: its id, its references, and its hitbox. -/
structure Mover where
  id : ℕ
  velRef : ℕ
  posRef : ℕ
  stateRef : ℕ
  box : Hitbox

variable [DecidableEq κ]

/-- The position and the velocity of a moving entity are written. -/
def Mover.write (mover : Mover) (ecs : Store Other) (pos : Position) (vel : Velocity) :
    Option (Store Other) :=
  match ecs.writeAt mover.posRef ⟨.other .position, pos⟩ with
  | none => none
  | some ecs => ecs.writeAt mover.velRef ⟨.other .velocity, vel⟩

/-- A half of the movement of a player: to where, and how it ends. -/
def halfMove (colliders : SparseGroup (GameComponent (Part κ))) (mover : Mover)
    (next : Position → Velocity → Position)
    (handle : Position → Velocity → Hitbox → Option (Position × Hitbox) → Position × Velocity)
    (ecs : Store Other) (pos : Position) (vel : Velocity) :
    Option (Store Other × Position × Velocity) :=
  match findCollider ecs mover.id (next pos vel) mover.box colliders .kPlayer with
  | none => none
  | some collider =>
      match readCollider ecs collider with
      | none => none
      | some other =>
          let (pos, vel) := handle pos vel mover.box other
          match mover.write ecs pos vel with
          | none => none
          | some ecs => some (ecs, pos, vel)

/-- {lit}`nextHorizontalPos`. -/
def nextHorizontalPos (pos : Position) (vel : Velocity) : Position :=
  { x := pos.x + vel.vx, y := pos.y }

/-- {lit}`nextVerticalPos`. -/
def nextVerticalPos (pos : Position) (vel : Velocity) : Position :=
  { x := pos.x, y := pos.y + vel.vy }

/-- The branch of {lit}`ApplyMovement::apply` for players. -/
def movePlayer (colliders : SparseGroup (GameComponent (Part κ))) (mover : Mover)
    (ecs : Store Other) (pos : Position) (vel : Velocity) : Option (Store Other) :=
  match halfMove colliders mover nextHorizontalPos handlePlayerHorizontalMovement ecs pos vel with
  | none => none
  | some (ecs, pos, vel) =>
      (halfMove colliders mover nextVerticalPos handlePlayerVerticalMovement ecs pos vel).map
        Prod.fst

/-- {lit}`ApplyMovement::handleEntityMovement`. -/
def handleEntityMovement (mover : Mover) (ecs : Store Other) (pos : Position) (vel : Velocity) :
    Option Collider → Option (Store Other × Position)
  | some collider =>
      match mover.write ecs pos { vel with vx := 0, vy := 0 } with
      | none => none
      | some ecs =>
          match ecs.writeAt collider.state ⟨.state, State.mk entityDead⟩ with
          | none => none
          | some ecs =>
              (ecs.writeAt mover.stateRef ⟨.state, State.mk entityDead⟩).map fun ecs => (ecs, pos)
  | none =>
      let pos := { pos with x := pos.x + vel.vx, y := pos.y + vel.vy }
      (mover.write ecs pos vel).map fun ecs => (ecs, pos)

/-- The branch of {lit}`ApplyMovement::apply` for all other entities. -/
def moveEntity (colliders : SparseGroup (GameComponent (Part κ))) (mover : Mover)
    (type : EntityType) (ecs : Store Other) (pos : Position) (vel : Velocity) :
    Option (Store Other) :=
  let nextPos : Position := { x := pos.x + vel.vx, y := pos.y + vel.vy }
  let expectedType := if type = .kBullet then EntityType.kEnemy else EntityType.kPlayer
  match findCollider ecs mover.id nextPos mover.box colliders expectedType with
  | none => none
  | some collider =>
      match handleEntityMovement mover ecs pos vel collider with
      | none => none
      | some (ecs, pos) =>
          if type = .kBullet ∧ (pos.x - mover.box.width < 0 ∨ pos.x > 1920 ∨
              pos.y - mover.box.height < 0 ∨ pos.y > 1080) then
            ecs.writeAt mover.stateRef ⟨.state, State.mk entityDead⟩
          else
            some ecs

/-- The callback of {lit}`ApplyMovement::apply`. -/
def visit (colliders : SparseGroup (GameComponent (Part κ))) (ecs : Store Other) (id : ℕ) :
    List ℕ → Option (Store Other)
  | [typeRef, velRef, posRef, boxRef, stateRef] =>
      match ecs.instanceAt .type typeRef, ecs.instanceAt (.other .velocity) velRef,
          ecs.instanceAt (.other .position) posRef, ecs.instanceAt (.other .hitbox) boxRef with
      | some (type : TypeComponent), some (vel : Velocity), some (pos : Position),
          some (box : Hitbox) =>
          let pos := { pos with isUpdated := decide (vel.vx ≠ 0 ∨ vel.vy ≠ 0) }
          let mover : Mover :=
            { id := id, velRef := velRef, posRef := posRef, stateRef := stateRef, box := box }
          match mover.write ecs pos vel with
          | none => none
          | some ecs =>
              if type.type = .kPlayer then
                movePlayer colliders mover ecs pos vel
              else
                moveEntity colliders mover type.type ecs pos vel
      | _, _, _, _ => none
  | _ => none

/-- The pack of the entities that can move, after its first type. -/
def movableRest : List (GameComponent (Part κ)) :=
  [.other .velocity, .other .position, .other .hitbox, .state]

/-- The pack of the colliders, after its first type. -/
def colliderRest : List (GameComponent (Part κ)) :=
  [.other .hitbox, .state, .type]

/-- {lit}`ApplyMovement::apply`. -/
def apply (ecs : Store Other) : Option (Store Other) :=
  let movable := ecs.group (.type :: movableRest)
  let colliders := ecs.group (.other .position :: colliderRest)
  movable.apply (visit colliders) ecs

/-! ## The boxes of the players -/

/-- The two axes. -/
inductive Axis
  | horizontal
  | vertical
  deriving DecidableEq

instance : Fintype Axis where
  elems := {.horizontal, .vertical}
  complete axis := by cases axis <;> decide

/-- The box of a position and a hitbox. -/
def boxOf (pos : Position) (box : Hitbox) : Box Axis ℚ
  | .horizontal => { start := pos.x, size := box.width }
  | .vertical => { start := pos.y, size := box.height }

/-- The velocity along an axis. -/
def speed (vel : Velocity) : Axis → ℚ
  | .horizontal => vel.vx
  | .vertical => vel.vy

/-- The position and the hitbox of an entity of a type. -/
def bodyOf (ecs : Store Other) (type : EntityType) (e : ℕ) : Option (Position × Hitbox) :=
  match ecs.getEntityComponent e .type, ecs.getEntityComponent e (.other .position),
      ecs.getEntityComponent e (.other .hitbox) with
  | some (component : TypeComponent), some (pos : Position), some (box : Hitbox) =>
      if component.type = type then some (pos, box) else none
  | _, _, _ => none

/-- The boxes of the players. -/
def players (ecs : Store Other) (e : ℕ) : Option (Box Axis ℚ) :=
  (bodyOf ecs .kPlayer e).map fun body => boxOf body.1 body.2

/-- The entities among which collisions are looked for, in their order. -/
def colliders (ecs : Store Other) : List ℕ :=
  (ecs.group (.other .position :: colliderRest)).getEntities.toList

/-- The entities that can move, in their order. -/
def movable (ecs : Store Other) : List ℕ :=
  (ecs.group (.type :: movableRest)).getEntities.toList

/-- The two moves of a player. -/
def movesOf (ecs : Store Other) (e : ℕ) : List (Move ℕ Axis ℚ) :=
  match ecs.getEntityComponent e .type, ecs.getEntityComponent e (.other .velocity) with
  | some (component : TypeComponent), some (vel : Velocity) =>
      if component.type = .kPlayer then
        [{ who := e, axis := .horizontal, distance := vel.vx },
          { who := e, axis := .vertical, distance := vel.vy }]
      else
        []
  | _, _ => []

/-- The moves of all players, in their order. -/
def moves (ecs : Store Other) : List (Move ℕ Axis ℚ) :=
  (movable ecs).flatMap (movesOf ecs)

theorem collide_eq (pos other : Position) (box otherBox : Hitbox) :
    collide pos box other otherBox =
      decide (Boxes.Overlap (boxOf pos box) (boxOf other otherBox)) := by
  rw [Bool.eq_iff_iff, decide_eq_true_eq]
  constructor
  · intro h
    simp only [collide, Bool.and_eq_true, decide_eq_true_eq] at h
    rintro (_ | _)
    · exact ⟨h.1.1.1, h.1.1.2⟩
    · exact ⟨h.1.2, h.2⟩
  · intro h
    rcases h .horizontal with ⟨hleft, hright⟩
    rcases h .vertical with ⟨habove, hbelow⟩
    simp only [collide, Bool.and_eq_true, decide_eq_true_eq]
    exact ⟨⟨⟨hleft, hright⟩, habove⟩, hbelow⟩

/-! ## References -/

omit [DecidableEq κ] in
/-- The references of a collider lead to its components. -/
theorem colliderRest_references {ecs : Store Other} {e : ℕ} {references : List ℕ}
    (h : ecs.OwnReferences (.other .position :: colliderRest) e references) :
    ∃ (collider : Collider) (pos : Position) (box : Hitbox) (type : TypeComponent),
      references = [collider.pos, collider.box, collider.state, collider.type] ∧
        ecs.instanceAt (.other .position) collider.pos = some pos ∧
        ecs.instanceAt (.other .hitbox) collider.box = some box ∧
        ecs.position .state e = some collider.state ∧
        ecs.instanceAt .type collider.type = some type ∧
        ∀ expected, bodyOf ecs expected e =
          if type.type = expected then some (pos, box) else none := by
  unfold ECS.OwnReferences colliderRest at h
  rcases h with _ | ⟨hpos, _ | ⟨hbox, _ | ⟨hstate, _ | ⟨htype, _ | _⟩⟩⟩⟩
  rcases ECS.exists_instanceAt hpos with ⟨(pos : Position), hpos, hpos'⟩
  rcases ECS.exists_instanceAt hbox with ⟨(box : Hitbox), hbox, hbox'⟩
  rcases ECS.exists_instanceAt htype with ⟨(type : TypeComponent), htype, htype'⟩
  refine ⟨⟨_, _, _, _⟩, pos, box, type, rfl, hpos, hbox, hstate, htype, ?_⟩
  intro expected
  simp only [bodyOf, hpos', hbox', htype']

/-! ## Searches -/

variable {ecs : Store Other} {id : ℕ} {pos : Position} {box : Hitbox} {type : EntityType}

/-- What a search returns stands for an entity, or there is none. -/
inductive Finds (ecs : Store Other) : Option ℕ → Option Collider → Prop
  | nothing : Finds ecs none none
  | collider (e : ℕ) (collider : Collider)
      (own : ecs.OwnReferences (.other .position :: colliderRest) e
        [collider.pos, collider.box, collider.state, collider.type]) :
      Finds ecs (some e) (some collider)

/-- The entity is what the search looks for. -/
def isCollider (ecs : Store Other) (id : ℕ) (pos : Position) (box : Hitbox) (type : EntityType)
    (e : ℕ) : Bool :=
  decide (e ≠ id) && (bodyOf ecs type e).any fun body => collide pos box body.1 body.2

omit [DecidableEq κ] in
/-- One call of the search. -/
theorem testCollider_own {e : ℕ} {references : List ℕ}
    (h : ecs.OwnReferences (.other .position :: colliderRest) e references) :
    ∃ own : Collider, references = [own.pos, own.box, own.state, own.type] ∧
      (∀ found, testCollider ecs id pos box type (some found) e references = some (some found)) ∧
      testCollider ecs id pos box type none e references =
        some (if isCollider ecs id pos box type e then some own else none) := by
  rcases colliderRest_references h with
    ⟨own, pos', box', type', rfl, hpos, hbox, -, htype, hbody⟩
  refine ⟨own, rfl, ?_, ?_⟩
  · intro found
    simp only [testCollider, htype, Option.isSome_some, or_true, if_true]
  · simp only [testCollider, htype, hpos, hbox, isCollider, hbody, Option.isSome_none,
      Bool.false_eq_true, or_false]
    by_cases hexpected : type'.type = type
    · by_cases hself : e = id
      · simp [hself]
      · by_cases hcollide : collide pos box pos' box' = true
        · simp [hexpected, hself, hcollide]
        · simp [hexpected, hself, hcollide]
    · simp [hexpected]

omit [DecidableEq κ] in
/-- All calls of the search. -/
theorem foldlM_testCollider {calls : List (ℕ × List ℕ)}
    (hown : ∀ call ∈ calls, ecs.OwnReferences (.other .position :: colliderRest) call.1 call.2) :
    (∀ collider, calls.foldlM
        (fun found call => testCollider ecs id pos box type found call.1 call.2)
          (some collider) = some (some collider)) ∧
      ∃ found, calls.foldlM
          (fun found call => testCollider ecs id pos box type found call.1 call.2) none =
            some found ∧
        Finds ecs ((calls.map Prod.fst).find? (isCollider ecs id pos box type)) found := by
  induction calls with
  | nil => exact ⟨fun _ => rfl, none, rfl, .nothing⟩
  | cons call calls ih =>
      rcases call with ⟨e, references⟩
      rw [List.forall_mem_cons] at hown
      rcases ih hown.2 with ⟨hsome, found, hfold, hfinds⟩
      rcases @testCollider_own _ _ ecs id pos box type e references hown.1 with
        ⟨own, rfl, hkeep, hstep⟩
      simp only [List.foldlM_cons, List.map_cons, List.find?_cons, hkeep, hstep]
      refine ⟨hsome, ?_⟩
      cases isCollider ecs id pos box type e with
      | false => exact ⟨found, hfold, hfinds⟩
      | true => exact ⟨some own, hsome own, .collider e own hown.1⟩

/-- A search through the group of the colliders finds the first one in the order of the
group. -/
theorem findCollider_spec {start : Store Other} (honly : ECS.WritesOnly start ecs) :
    ∃ found, findCollider ecs id pos box (start.group (.other .position :: colliderRest)) type =
        some found ∧
      Finds ecs ((colliders start).find? (isCollider ecs id pos box type)) found := by
  rcases start.group_apply (.other .position) colliderRest with ⟨calls, hcalls⟩
  have hown : ∀ call ∈ calls, ecs.OwnReferences (.other .position :: colliderRest) call.1 call.2 :=
    fun call hcall => honly.ownReferences (hcalls.own call hcall)
  rw [colliders, ← hcalls.entities, findCollider, hcalls.run]
  exact (foldlM_testCollider hown).2

omit [DecidableEq κ] in
/-- The place of what was found can be read. -/
theorem Finds.readCollider {found : Option ℕ} {collider : Option Collider}
    (h : Finds ecs found collider) (htype : ∀ e, found = some e → (bodyOf ecs type e).isSome) :
    ApplyMovement.readCollider ecs collider = some (found.bind (bodyOf ecs type)) := by
  cases h with
  | nothing => rfl
  | collider e collider own =>
      rcases colliderRest_references own with
        ⟨own', pos', box', type', heq, hpos, hbox, -, -, hbody⟩
      have hsome := htype e rfl
      rw [hbody] at hsome
      simp only [List.cons.injEq, and_true] at heq
      rcases heq with ⟨hpos', hbox', -, -⟩
      rw [Option.bind_some, hbody]
      split_ifs at hsome ⊢ with hexpected
      · simp only [ApplyMovement.readCollider, hpos', hbox', hpos, hbox]
      · cases hsome

/-! ## Writes -/

/-- A visit writes the position and the velocity of its entity, and states. -/
structure Visits (ecs ecs' : Store Other) (id : ℕ) : Prop where
  only : ECS.WritesOnly ecs ecs'
  others : ∀ e c, c ≠ .state → ¬ (e = id ∧ (c = .other .position ∨ c = .other .velocity)) →
    ecs'.getEntityComponent e c = ecs.getEntityComponent e c

variable {ecs' ecs'' : Store Other}

omit [DecidableEq κ] in
theorem Visits.trans (h : Visits ecs ecs' id) (h' : Visits ecs' ecs'' id) :
    Visits ecs ecs'' id where
  only := h.only.trans h'.only
  others e c hstate hother := (h'.others e c hstate hother).trans (h.others e c hstate hother)

theorem visits_writeState {e reference : ℕ} (h : ecs.position .state e = some reference)
    (value : State) (id : ℕ) :
    ∃ ecs', ecs.writeAt reference ⟨.state, value⟩ = some ecs' ∧ Visits ecs ecs' id := by
  rcases ECS.gives_writeAt h value with ⟨ecs', hwrite, hgives⟩
  exact ⟨ecs', hwrite, hgives.only, fun e c hstate _ => hgives.others e c hstate⟩

/-- The references of a moving entity are its own. -/
structure Mover.Own (mover : Mover) (ecs : Store Other) : Prop where
  vel : ecs.position (.other .velocity) mover.id = some mover.velRef
  pos : ecs.position (.other .position) mover.id = some mover.posRef
  state : ecs.position .state mover.id = some mover.stateRef

omit [DecidableEq κ] in
theorem Mover.Own.keep {mover : Mover} (h : mover.Own ecs) (honly : ECS.WritesOnly ecs ecs') :
    mover.Own ecs' where
  vel := (honly.position ..).trans h.vel
  pos := (honly.position ..).trans h.pos
  state := (honly.position ..).trans h.state

theorem Mover.Own.write {mover : Mover} (h : mover.Own ecs) (pos : Position) (vel : Velocity) :
    ∃ ecs', mover.write ecs pos vel = some ecs' ∧ Visits ecs ecs' mover.id ∧
      ecs'.getEntityComponent mover.id (.other .position) = some pos ∧
      ecs'.getEntityComponent mover.id (.other .velocity) = some vel := by
  rcases ECS.gives_writeAt h.pos pos with ⟨ecs₁, hfirst, hpos⟩
  rcases ECS.gives_writeAt (h.keep hpos.only).vel vel with ⟨ecs₂, hsecond, hvel⟩
  refine ⟨ecs₂, ?_, ⟨hpos.only.trans hvel.only, ?_⟩, ?_, hvel.given _ rfl⟩
  · simp only [Mover.write, hfirst, hsecond]
  · intro e c _ hother
    rw [hvel.elsewhere fun hboth => hother ⟨hboth.1, .inr hboth.2⟩,
      hpos.elsewhere fun hboth => hother ⟨hboth.1, .inl hboth.2⟩]
  · rw [hvel.others _ _ (by simp)]
    exact hpos.given _ rfl

omit [DecidableEq κ] in
/-- A visit leaves the body of another entity. -/
theorem Visits.bodyOf (h : Visits ecs ecs' id) {e : ℕ} (hne : e ≠ id) (type : EntityType) :
    ApplyMovement.bodyOf ecs' type e = ApplyMovement.bodyOf ecs type e := by
  have hsame : ∀ c, c ≠ .state → ecs'.getEntityComponent e c = ecs.getEntityComponent e c :=
    fun c hc => h.others e c hc fun hboth => hne hboth.1
  simp only [ApplyMovement.bodyOf, hsame .type nofun, hsame (.other .position) nofun,
    hsame (.other .hitbox) nofun]

/-- A player at a place, with a velocity. -/
structure Stands (mover : Mover) (ecs : Store Other) (pos : Position) (vel : Velocity) : Prop where
  own : mover.Own ecs
  type : ecs.getEntityComponent mover.id .type = some (TypeComponent.mk .kPlayer)
  hitbox : ecs.getEntityComponent mover.id (.other .hitbox) = some mover.box
  pos : ecs.getEntityComponent mover.id (.other .position) = some pos
  vel : ecs.getEntityComponent mover.id (.other .velocity) = some vel

omit [DecidableEq κ] in
theorem Stands.players {mover : Mover} {vel : Velocity} (h : Stands mover ecs pos vel) :
    ApplyMovement.players ecs mover.id = some (boxOf pos mover.box) := by
  simp only [ApplyMovement.players, ApplyMovement.bodyOf, h.type, h.hitbox, h.pos, if_true,
    Option.map_some]

theorem Stands.write {mover : Mover} {vel : Velocity} (h : Stands mover ecs pos vel)
    (pos' : Position) (vel' : Velocity) :
    ∃ ecs', mover.write ecs pos' vel' = some ecs' ∧ Visits ecs ecs' mover.id ∧
      Stands mover ecs' pos' vel' ∧
      ApplyMovement.players ecs' =
        Function.update (ApplyMovement.players ecs) mover.id (some (boxOf pos' mover.box)) := by
  rcases h.own.write pos' vel' with ⟨ecs', hwrite, hvisits, hpos, hvel⟩
  have hstands : Stands mover ecs' pos' vel' := by
    refine ⟨h.own.keep hvisits.only, ?_, ?_, hpos, hvel⟩
    · exact (hvisits.others mover.id .type nofun (by simp)).trans h.type
    · exact (hvisits.others mover.id (.other .hitbox) nofun (by simp)).trans h.hitbox
  refine ⟨ecs', hwrite, hvisits, hstands, ?_⟩
  ext1 e
  by_cases he : e = mover.id
  · subst he
    rw [hstands.players, Function.update_self]
  · rw [Function.update_of_ne he, ApplyMovement.players, hvisits.bodyOf he, ApplyMovement.players]

/-! ## Halves of a movement -/

/-- The functions for a half of a movement belong to an axis. -/
structure Along (axis : Axis) (next : Position → Velocity → Position)
    (handle : Position → Velocity → Hitbox → Option (Position × Hitbox) → Position × Velocity) :
    Prop where
  goesTo : ∀ pos vel box, boxOf (next pos vel) box =
    (boxOf pos box).at axis ((boxOf pos box axis).start + speed vel axis)
  endsAt : ∀ pos vel box other, boxOf (handle pos vel box other).1 box =
    (boxOf pos box).at axis (Boxes.stop (boxOf pos box axis) (speed vel axis)
      (other.map fun body => boxOf body.1 body.2 axis))
  keeps : ∀ pos vel box other i, i ≠ axis → speed (handle pos vel box other).2 i = speed vel i

theorem along_horizontal :
    Along .horizontal nextHorizontalPos handlePlayerHorizontalMovement where
  goesTo pos vel box := by
    ext1 i
    cases i with
    | horizontal => rfl
    | vertical => rfl
  endsAt pos vel box other := by
    ext1 i
    cases i with
    | horizontal =>
        cases other with
        | none => rfl
        | some body => rfl
    | vertical => rfl
  keeps pos vel box other i hi := by
    cases i with
    | horizontal => exact absurd rfl hi
    | vertical => rfl

theorem along_vertical : Along .vertical nextVerticalPos handlePlayerVerticalMovement where
  goesTo pos vel box := by
    ext1 i
    cases i with
    | horizontal => rfl
    | vertical => rfl
  endsAt pos vel box other := by
    ext1 i
    cases i with
    | horizontal => rfl
    | vertical =>
        cases other with
        | none => rfl
        | some body => rfl
  keeps pos vel box other i hi := by
    cases i with
    | horizontal => rfl
    | vertical => exact absurd rfl hi

omit [DecidableEq κ] in
/-- The search of the system is the search among the boxes of the players. -/
theorem firstHit_eq (ecs : Store Other) (entities : List ℕ) (id : ℕ) (pos : Position)
    (box : Hitbox) :
    Boxes.firstHit entities (players ecs) id (boxOf pos box) =
      entities.find? (isCollider ecs id pos box .kPlayer) := by
  rw [Boxes.firstHit]
  congr 1
  ext1 e
  rw [isCollider, players, Option.any_map]
  simp only [collide_eq]

/-- A half of a movement is a move of the box of the player. -/
theorem halfMove_spec {start : Store Other} (honly : ECS.WritesOnly start ecs) {axis : Axis}
    {next : Position → Velocity → Position}
    {handle : Position → Velocity → Hitbox → Option (Position × Hitbox) → Position × Velocity}
    (halong : Along axis next handle) {mover : Mover} {vel : Velocity}
    (hstands : Stands mover ecs pos vel) :
    ∃ ecs' pos' vel', halfMove (start.group (.other .position :: colliderRest)) mover next handle
        ecs pos vel = some (ecs', pos', vel') ∧
      Visits ecs ecs' mover.id ∧ Stands mover ecs' pos' vel' ∧
      (∀ i, i ≠ axis → speed vel' i = speed vel i) ∧
      players ecs' = Boxes.makeMove (colliders start) (players ecs)
        { who := mover.id, axis := axis, distance := speed vel axis } := by
  rcases @findCollider_spec _ _ _ ecs mover.id (next pos vel) mover.box .kPlayer start honly with
    ⟨found, hfind, hfinds⟩
  let first := (colliders start).find? (isCollider ecs mover.id (next pos vel) mover.box .kPlayer)
  let other := first.bind (bodyOf ecs .kPlayer)
  have hread : readCollider ecs found = some other := by
    apply hfinds.readCollider
    intro e he
    have hcollider := List.find?_some he
    rw [isCollider, Bool.and_eq_true] at hcollider
    exact Option.isSome_of_any hcollider.2
  let moved := handle pos vel mover.box other
  rcases hstands.write moved.1 moved.2 with ⟨ecs', hwrite, hvisits, hstands', hplayers⟩
  refine ⟨ecs', moved.1, moved.2, ?_, hvisits, hstands', ?_, ?_⟩
  · simp only [halfMove, hfind, hread]
    change (match mover.write ecs moved.1 moved.2 with
      | none => none
      | some ecs => some (ecs, moved.1, moved.2)) = _
    rw [hwrite]
  · intro i hi
    exact halong.keeps pos vel mover.box other i hi
  · rw [hplayers, Boxes.makeMove_of_some hstands.players]
    congr 2
    have hhit : Boxes.hit (colliders start) (players ecs)
        { who := mover.id, axis := axis, distance := speed vel axis } (boxOf pos mover.box) =
          other.map fun body => boxOf body.1 body.2 := by
      rw [Boxes.hit, ← halong.goesTo, firstHit_eq]
      exact Option.map_bind.symm
    rw [halong.endsAt, Boxes.landing, hhit, Option.map_map]
    rfl

/-- A player makes its two moves. -/
theorem movePlayer_spec {start : Store Other} (honly : ECS.WritesOnly start ecs) {mover : Mover}
    {vel : Velocity} (hstands : Stands mover ecs pos vel) :
    ∃ ecs', movePlayer (start.group (.other .position :: colliderRest)) mover ecs pos vel =
        some ecs' ∧
      Visits ecs ecs' mover.id ∧
      players ecs' = Boxes.makeMove (colliders start)
        (Boxes.makeMove (colliders start) (players ecs)
          { who := mover.id, axis := .horizontal, distance := vel.vx })
        { who := mover.id, axis := .vertical, distance := vel.vy } := by
  rcases halfMove_spec honly along_horizontal hstands with
    ⟨ecs₁, pos₁, vel₁, hfirst, hvisits₁, hstands₁, hkeeps, hplayers₁⟩
  rcases halfMove_spec (honly.trans hvisits₁.only) along_vertical hstands₁ with
    ⟨ecs₂, pos₂, vel₂, hsecond, hvisits₂, -, -, hplayers₂⟩
  refine ⟨ecs₂, ?_, hvisits₁.trans hvisits₂, ?_⟩
  · simp only [movePlayer, hfirst, hsecond, Option.map_some]
  · have hvy : speed vel₁ .vertical = vel.vy := hkeeps .vertical nofun
    rw [hplayers₂, hplayers₁, hvy]
    rfl

/-! ## The other entities -/

omit [DecidableEq κ] in
/-- The state of what was found can be written. -/
theorem Finds.state {found : Option ℕ} {collider : Collider} (h : Finds ecs found (some collider)) :
    ∃ e, ecs.position .state e = some collider.state := by
  cases h with
  | collider e collider own =>
      rcases colliderRest_references own with ⟨own', -, -, -, heq, -, -, hstate, -, -⟩
      simp only [List.cons.injEq, and_true] at heq
      exact ⟨e, heq.2.2.1 ▸ hstate⟩

theorem handleEntityMovement_spec {mover : Mover} (hown : mover.Own ecs) {found : Option ℕ}
    {collider : Option Collider} (hfinds : Finds ecs found collider) (pos : Position)
    (vel : Velocity) :
    ∃ ecs' pos', handleEntityMovement mover ecs pos vel collider = some (ecs', pos') ∧
      Visits ecs ecs' mover.id := by
  cases collider with
  | none =>
      rcases hown.write { pos with x := pos.x + vel.vx, y := pos.y + vel.vy } vel with
        ⟨ecs', hwrite, hvisits, -, -⟩
      refine ⟨ecs', { pos with x := pos.x + vel.vx, y := pos.y + vel.vy }, ?_, hvisits⟩
      simp only [handleEntityMovement, hwrite, Option.map_some]
  | some collider =>
      rcases hfinds.state with ⟨e, hstate⟩
      rcases hown.write pos { vel with vx := 0, vy := 0 } with ⟨ecs₁, hwrite, hvisits₁, -, -⟩
      have hstate₁ : ecs₁.position .state e = some collider.state :=
        (hvisits₁.only.position ..).trans hstate
      rcases visits_writeState hstate₁ (State.mk entityDead) mover.id with ⟨ecs₂, hkill, hvisits₂⟩
      have hown₂ := (hown.keep hvisits₁.only).keep hvisits₂.only
      rcases visits_writeState hown₂.state (State.mk entityDead) mover.id with
        ⟨ecs₃, hdie, hvisits₃⟩
      refine ⟨ecs₃, pos, ?_, (hvisits₁.trans hvisits₂).trans hvisits₃⟩
      simp only [handleEntityMovement, hwrite, hkill, hdie, Option.map_some]

theorem moveEntity_spec {start : Store Other} (honly : ECS.WritesOnly start ecs) {mover : Mover}
    (hown : mover.Own ecs) (type : EntityType) (pos : Position) (vel : Velocity) :
    ∃ ecs', moveEntity (start.group (.other .position :: colliderRest)) mover type ecs pos vel =
        some ecs' ∧
      Visits ecs ecs' mover.id := by
  rcases @findCollider_spec _ _ _ ecs mover.id { x := pos.x + vel.vx, y := pos.y + vel.vy }
    mover.box (if type = .kBullet then EntityType.kEnemy else EntityType.kPlayer) start honly with
    ⟨found, hfind, hfinds⟩
  rcases handleEntityMovement_spec hown hfinds pos vel with ⟨ecs₁, pos₁, hmoved, hvisits₁⟩
  simp only [moveEntity, hfind, hmoved]
  split_ifs
  · rcases visits_writeState (hown.keep hvisits₁.only).state (State.mk entityDead) mover.id with
      ⟨ecs₂, hdie, hvisits₂⟩
    exact ⟨ecs₂, hdie, hvisits₁.trans hvisits₂⟩
  · exact ⟨ecs₁, rfl, hvisits₁⟩

omit [DecidableEq κ] in
/-- An entity of another type has no box among those of the players. -/
theorem players_of_other {component : TypeComponent}
    (htype : ecs.getEntityComponent id .type = some component)
    (hother : component.type ≠ .kPlayer) : players ecs id = none := by
  unfold players bodyOf
  rw [htype]
  cases ecs.getEntityComponent id (.other .position) with
  | none => rfl
  | some pos =>
      cases ecs.getEntityComponent id (.other .hitbox) with
      | none => rfl
      | some box => simp only [if_neg hother, Option.map_none]

omit [DecidableEq κ] in
/-- A visit of an entity that is no player leaves the boxes of the players. -/
theorem Visits.players (h : Visits ecs ecs' id) {component : TypeComponent}
    (htype : ecs.getEntityComponent id .type = some component)
    (hother : component.type ≠ .kPlayer) :
    ApplyMovement.players ecs' = ApplyMovement.players ecs := by
  have htype' : ecs'.getEntityComponent id .type = some component :=
    (h.others id .type nofun (by simp)).trans htype
  ext1 e
  by_cases he : e = id
  · subst he
    rw [players_of_other htype' hother, players_of_other htype hother]
  · rw [ApplyMovement.players, h.bodyOf he, ApplyMovement.players]

/-! ## The pass -/

omit [DecidableEq κ] in
/-- The references of an entity that can move lead to its components. -/
theorem movableRest_references {references : List ℕ}
    (h : ecs.OwnReferences (.type :: movableRest) id references) :
    ∃ (mover : Mover) (typeRef boxRef : ℕ) (type : TypeComponent) (vel : Velocity)
      (pos : Position),
      references = [typeRef, mover.velRef, mover.posRef, boxRef, mover.stateRef] ∧
        mover.id = id ∧ mover.Own ecs ∧
        (ecs.instanceAt .type typeRef = some type ∧
          ecs.instanceAt (.other .velocity) mover.velRef = some vel ∧
          ecs.instanceAt (.other .position) mover.posRef = some pos ∧
          ecs.instanceAt (.other .hitbox) boxRef = some mover.box) ∧
        ecs.getEntityComponent id .type = some type ∧
        ecs.getEntityComponent id (.other .velocity) = some vel ∧
        ecs.getEntityComponent id (.other .position) = some pos ∧
        ecs.getEntityComponent id (.other .hitbox) = some mover.box := by
  unfold ECS.OwnReferences movableRest at h
  rcases h with
    _ | ⟨htype, _ | ⟨hvel, _ | ⟨hpos, _ | ⟨hbox, _ | ⟨hstate, _ | _⟩⟩⟩⟩⟩
  rcases ECS.exists_instanceAt htype with ⟨(type : TypeComponent), htype, htype'⟩
  rcases ECS.exists_instanceAt hvel with ⟨(vel : Velocity), hvelAt, hvel'⟩
  rcases ECS.exists_instanceAt hpos with ⟨(pos : Position), hposAt, hpos'⟩
  rcases ECS.exists_instanceAt hbox with ⟨(box : Hitbox), hbox, hbox'⟩
  exact ⟨⟨id, _, _, _, box⟩, _, _, type, vel, pos, rfl, rfl, ⟨hvel, hpos, hstate⟩,
    ⟨htype, hvelAt, hposAt, hbox⟩, htype', hvel', hpos', hbox'⟩

/-- A visit makes the moves of its entity. -/
theorem visit_spec {start : Store Other} (honly : ECS.WritesOnly start ecs) {references : List ℕ}
    (hown : ecs.OwnReferences (.type :: movableRest) id references) :
    ∃ ecs', visit (start.group (.other .position :: colliderRest)) ecs id references =
        some ecs' ∧
      Visits ecs ecs' id ∧
      players ecs' =
        (movesOf ecs id).foldl (Boxes.makeMove (colliders start)) (players ecs) := by
  rcases movableRest_references hown with ⟨mover, typeRef, boxRef, type, vel, pos, rfl, rfl, hmover,
    ⟨htypeAt, hvelAt, hposAt, hboxAt⟩, htype, hvel, hpos, hbox⟩
  let marked : Position := { pos with isUpdated := decide (vel.vx ≠ 0 ∨ vel.vy ≠ 0) }
  rcases type with ⟨type⟩
  by_cases hplayer : type = .kPlayer
  · subst hplayer
    have hstands : Stands mover ecs pos vel := ⟨hmover, htype, hbox, hpos, hvel⟩
    rcases hstands.write marked vel with ⟨ecs₁, hwrite, hvisits₁, hstands₁, hplayers₁⟩
    have hsame : players ecs₁ = players ecs := by
      rw [hplayers₁]
      exact Function.update_eq_self_iff.mpr hstands.players.symm
    rcases movePlayer_spec (honly.trans hvisits₁.only) hstands₁ with
      ⟨ecs₂, hmove, hvisits₂, hplayers₂⟩
    refine ⟨ecs₂, ?_, hvisits₁.trans hvisits₂, ?_⟩
    · simp only [visit, htypeAt, hvelAt, hposAt, hboxAt]
      change (match mover.write ecs marked vel with
        | none => none
        | some ecs => movePlayer _ mover ecs marked vel) = _
      rw [hwrite]
      exact hmove
    · rw [hplayers₂, hsame]
      simp only [movesOf, htype, hvel, if_true, List.foldl_cons, List.foldl_nil]
  · rcases hmover.write marked vel with ⟨ecs₁, hwrite, hvisits₁, -, -⟩
    rcases moveEntity_spec (honly.trans hvisits₁.only) (hmover.keep hvisits₁.only) type marked vel
      with ⟨ecs₂, hmove, hvisits₂⟩
    have hvisits := hvisits₁.trans hvisits₂
    refine ⟨ecs₂, ?_, hvisits, ?_⟩
    · simp only [visit, htypeAt, hvelAt, hposAt, hboxAt, if_neg hplayer]
      change (match mover.write ecs marked vel with
        | none => none
        | some ecs => moveEntity _ mover type ecs marked vel) = _
      rw [hwrite]
      exact hmove
    · rw [hvisits.players htype hplayer]
      simp only [movesOf, htype, hvel, if_neg hplayer, List.foldl_nil]

omit [DecidableEq κ] in
/-- A visit leaves the moves of the other entities. -/
theorem Visits.movesOf (h : Visits ecs ecs' id) {e : ℕ} (hne : e ≠ id) :
    ApplyMovement.movesOf ecs' e = ApplyMovement.movesOf ecs e := by
  have hsame : ∀ c, c ≠ .state → ecs'.getEntityComponent e c = ecs.getEntityComponent e c :=
    fun c hc => h.others e c hc fun hboth => hne hboth.1
  simp only [ApplyMovement.movesOf, hsame .type nofun, hsame (.other .velocity) nofun]

/-- Visits one after another make the moves of their entities, and leave everything but the
states, and the positions and the velocities of these entities. -/
theorem visits_spec {start : Store Other} (honly : ECS.WritesOnly start ecs)
    {calls : List (ℕ × List ℕ)} (hnodup : (calls.map Prod.fst).Nodup)
    (hown : ∀ call ∈ calls, ecs.OwnReferences (.type :: movableRest) call.1 call.2) :
    ∃ ecs', calls.foldlM (fun ecs call =>
        visit (start.group (.other .position :: colliderRest)) ecs call.1 call.2) ecs =
          some ecs' ∧
      ECS.WritesOnly ecs ecs' ∧
      (∀ e c, c ≠ .state →
        ¬ (e ∈ calls.map Prod.fst ∧ (c = .other .position ∨ c = .other .velocity)) →
          ecs'.getEntityComponent e c = ecs.getEntityComponent e c) ∧
      players ecs' = ((calls.map Prod.fst).flatMap (movesOf ecs)).foldl
        (Boxes.makeMove (colliders start)) (players ecs) := by
  induction calls generalizing ecs with
  | nil => exact ⟨ecs, rfl, .refl ecs, fun _ _ _ _ => rfl, rfl⟩
  | cons call calls ih =>
      rcases call with ⟨e, references⟩
      rw [List.map_cons, List.nodup_cons] at hnodup
      rw [List.forall_mem_cons] at hown
      rcases visit_spec honly hown.1 with ⟨ecs₁, hvisit, hvisits, hplayers₁⟩
      rcases ih (honly.trans hvisits.only) hnodup.2
        (fun call hcall => hvisits.only.ownReferences (hown.2 call hcall)) with
        ⟨ecs₂, hfold, honly₂, hothers₂, hplayers₂⟩
      have hmoves : (calls.map Prod.fst).flatMap (movesOf ecs₁) =
          (calls.map Prod.fst).flatMap (movesOf ecs) := by
        apply List.flatMap_congr
        intro other hother
        exact hvisits.movesOf fun heq => hnodup.1 (heq ▸ hother)
      refine ⟨ecs₂, ?_, hvisits.only.trans honly₂, ?_, ?_⟩
      · rw [List.foldlM_cons, hvisit]
        exact hfold
      · intro other c hstate hspared
        rw [List.map_cons, List.mem_cons] at hspared
        rw [hothers₂ other c hstate fun hboth => hspared ⟨.inr hboth.1, hboth.2⟩]
        exact hvisits.others other c hstate fun hboth => hspared ⟨.inl hboth.1, hboth.2⟩
      · rw [hplayers₂, hmoves, hplayers₁, List.map_cons, List.flatMap_cons, List.foldl_append]

/-- The system always comes to its end, and makes the moves of all players. -/
theorem apply_refines (ecs : Store Other) :
    ∃ ecs', apply ecs = some ecs' ∧ ECS.WritesOnly ecs ecs' ∧
      (∀ e c, c ≠ .state → ¬ (e ∈ movable ecs ∧ (c = .other .position ∨ c = .other .velocity)) →
        ecs'.getEntityComponent e c = ecs.getEntityComponent e c) ∧
      players ecs' = (moves ecs).foldl (Boxes.makeMove (colliders ecs)) (players ecs) := by
  rcases ecs.group_apply .type movableRest with ⟨calls, hcalls⟩
  have hnodup : (calls.map Prod.fst).Nodup := by
    rw [hcalls.entities]
    exact ecs.nodup_getEntities_group .type movableRest
  rcases visits_spec (.refl ecs) hnodup hcalls.own with ⟨ecs', hfold, honly, hothers, hplayers⟩
  rw [hcalls.entities] at hothers hplayers
  refine ⟨ecs', ?_, honly, hothers, hplayers⟩
  rw [apply, hcalls.run]
  exact hfold

end Rtype.Server.ApplyMovement
