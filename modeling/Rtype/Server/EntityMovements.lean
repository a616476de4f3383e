import Mathlib
import Rtype.Server.ApplyMovement

/-!
# Server - What the movement of the entities does to one of them

A pass of {lit}`ApplyMovement` visits each entity that can move once.  The visit marks the
position as updated when the entity has a velocity.  A player then makes its two moves.  Any
other entity goes where its velocity says, or stops and dies with what it hits.  The visits
of the others do not touch its position and its velocity, and no visit brings it to life.

Main results:

- Inductive type {lit}`Outcome`: what a visit does to the components of its entity.
- Theorem {lit}`apply_outcome`: what a pass does to them.
- Theorem {lit}`place_of_not_updated`: an entity that is not marked has not moved.
- Theorem {lit}`alive_in_flight`: a bullet or an enemy that is alive after several passes has
  gone in a straight line, and the bullet is on the screen.

Current gaps:

- Positions, sizes and velocities are exact numbers.
-/

namespace Rtype.Server.ApplyMovement

open Rtype.Rtecs

variable {κ : Type} {Other : κ → Type}

/-- The mark that a visit sets. -/
def inMotion (vel : Velocity) : Bool :=
  decide (vel.vx ≠ 0 ∨ vel.vy ≠ 0)

/-- Outside of the screen, for a bullet. -/
def Outside (pos : Position) (box : Hitbox) : Prop :=
  pos.x - box.width < 0 ∨ pos.x > 1920 ∨ pos.y - box.height < 0 ∨ pos.y > 1080

/-- What a visit does to the components of its entity: a player stays on the axes along which
it has no velocity; another entity goes where its velocity says, and a bullet that leaves the
screen dies; or it hits something, stops and dies. -/
inductive Outcome (type : EntityType) (box : Hitbox) (pos : Position) (vel : Velocity) (id : ℕ)
    (ecs' : Store Other) : Prop
  | player (pos' : Position) (vel' : Velocity) (htype : type = .kPlayer)
      (hpos : ecs'.getEntityComponent id (.other .position) = some pos')
      (hvel : ecs'.getEntityComponent id (.other .velocity) = some vel')
      (hmark : pos'.isUpdated = inMotion vel) (hx : vel.vx = 0 → pos'.x = pos.x)
      (hy : vel.vy = 0 → pos'.y = pos.y)
  | free (pos' : Position) (htype : type ≠ .kPlayer)
      (hpos : ecs'.getEntityComponent id (.other .position) = some pos')
      (hvel : ecs'.getEntityComponent id (.other .velocity) = some vel)
      (hplace : pos' = { x := pos.x + vel.vx, y := pos.y + vel.vy, isUpdated := inMotion vel })
      (hinside : type = .kBullet → Outside pos' box →
        ecs'.getEntityComponent id .state = some (State.mk entityDead))
  | hit (htype : type ≠ .kPlayer)
      (hpos : ecs'.getEntityComponent id (.other .position) =
        some ({ pos with isUpdated := inMotion vel } : Position))
      (hvel : ecs'.getEntityComponent id (.other .velocity) =
        some ({ vel with vx := 0, vy := 0 } : Velocity))
      (hdead : ecs'.getEntityComponent id .state = some (State.mk entityDead))

/-- States change only to dead. -/
def Mortal (ecs ecs' : Store Other) : Prop :=
  ∀ e, ecs'.getEntityComponent e .state = ecs.getEntityComponent e .state ∨
    ecs'.getEntityComponent e .state = some (State.mk entityDead)

section

variable {ecs ecs' ecs'' : Store Other} {id : ℕ} {pos : Position} {vel : Velocity} {box : Hitbox}

theorem Mortal.refl (ecs : Store Other) : Mortal ecs ecs :=
  fun _ => .inl rfl

theorem Mortal.trans (h : Mortal ecs ecs') (h' : Mortal ecs' ecs'') : Mortal ecs ecs'' := by
  intro e
  rcases h' e with hsame | hdead
  · rw [hsame]
    exact h e
  · exact .inr hdead

/-- What is alive has not been dead before. -/
theorem Mortal.dead (h : Mortal ecs ecs') {e : ℕ}
    (hdead : ecs.getEntityComponent e .state = some (State.mk entityDead)) :
    ecs'.getEntityComponent e .state = some (State.mk entityDead) := by
  rcases h e with hsame | hdead'
  · exact hsame.trans hdead
  · exact hdead'

variable [DecidableEq κ]

theorem Mover.Own.write_state {mover : Mover} (h : mover.Own ecs)
    (hwrite : mover.write ecs pos vel = some ecs') (e : ℕ) :
    ecs'.getEntityComponent e .state = ecs.getEntityComponent e .state := by
  rcases ECS.gives_writeAt h.pos pos with ⟨ecs₁, hfirst, hpos⟩
  rcases ECS.gives_writeAt (h.keep hpos.only).vel vel with ⟨ecs₂, hsecond, hvel⟩
  simp only [Mover.write, hfirst, hsecond, Option.some.injEq] at hwrite
  subst hwrite
  rw [hvel.others e .state (by simp), hpos.others e .state (by simp)]

/-- The state of an entity is set to dead. -/
theorem kill_spec {e reference : ℕ} (h : ecs.position .state e = some reference) (id : ℕ) :
    ∃ ecs', ecs.writeAt reference ⟨.state, State.mk entityDead⟩ = some ecs' ∧
      Visits ecs ecs' id ∧ Mortal ecs ecs' ∧
      (∀ e c, c ≠ .state → ecs'.getEntityComponent e c = ecs.getEntityComponent e c) ∧
      ecs'.getEntityComponent e .state = some (State.mk entityDead) := by
  rcases ECS.gives_writeAt h (State.mk entityDead) with ⟨ecs', hwrite, hgives⟩
  refine ⟨ecs', hwrite, ⟨hgives.only, fun e c hstate _ => hgives.others e c hstate⟩, ?_,
    hgives.others, hgives.given e rfl⟩
  intro other
  by_cases hother : other = e
  · exact .inr (hgives.given other hother)
  · exact .inl (hgives.spared other hother)

/-! ## Players -/

/-- A half of a movement ends as its handler says. -/
theorem halfMove_handle {colliders : SparseGroup (GameComponent (Part κ))} {mover : Mover}
    {next : Position → Velocity → Position}
    {handle : Position → Velocity → Hitbox → Option (Position × Hitbox) → Position × Velocity}
    {pos' : Position} {vel' : Velocity}
    (h : halfMove colliders mover next handle ecs pos vel = some (ecs', pos', vel')) :
    ∃ other, handle pos vel mover.box other = (pos', vel') ∧
      mover.write ecs pos' vel' = some ecs' := by
  unfold halfMove at h
  split at h
  · cases h
  · split at h
    · cases h
    · rename_i other _
      dsimp only at h
      split at h
      · cases h
      · rename_i written hwrite
        simp only [Option.some.injEq, Prod.mk.injEq] at h
        rcases h with ⟨rfl, rfl, rfl⟩
        exact ⟨other, rfl, hwrite⟩

theorem handlePlayerMovement_zero (start size : ℚ) (collider : Option (ℚ × ℚ)) :
    handlePlayerMovement start 0 size collider = start := by
  cases collider with
  | none => exact add_zero start
  | some other =>
      rw [handlePlayerMovement, if_neg (lt_irrefl 0), if_neg (lt_irrefl 0)]

/-- A player stays on the axes along which it has no velocity. -/
theorem movePlayer_outcome {start : Store Other} (honly : ECS.WritesOnly start ecs) {mover : Mover}
    (hstands : Stands mover ecs pos vel) :
    ∃ ecs' pos' vel', movePlayer (start.group (.other .position :: colliderRest)) mover ecs pos
        vel = some ecs' ∧
      Visits ecs ecs' mover.id ∧
      (∀ e, ecs'.getEntityComponent e .state = ecs.getEntityComponent e .state) ∧
      ecs'.getEntityComponent mover.id (.other .position) = some pos' ∧
      ecs'.getEntityComponent mover.id (.other .velocity) = some vel' ∧
      pos'.isUpdated = pos.isUpdated ∧ (vel.vx = 0 → pos'.x = pos.x) ∧
      (vel.vy = 0 → pos'.y = pos.y) := by
  rcases halfMove_spec honly along_horizontal hstands with
    ⟨ecs₁, pos₁, vel₁, hfirst, hvisits₁, hstands₁, -, -⟩
  rcases halfMove_spec (honly.trans hvisits₁.only) along_vertical hstands₁ with
    ⟨ecs₂, pos₂, vel₂, hsecond, hvisits₂, hstands₂, -, -⟩
  rcases halfMove_handle hfirst with ⟨other, hhandle, hwrite⟩
  rcases halfMove_handle hsecond with ⟨other', hhandle', hwrite'⟩
  simp only [handlePlayerHorizontalMovement, Prod.mk.injEq] at hhandle
  simp only [handlePlayerVerticalMovement, Prod.mk.injEq] at hhandle'
  rcases hhandle with ⟨rfl, rfl⟩
  rcases hhandle' with ⟨rfl, rfl⟩
  refine ⟨ecs₂, _, _, ?_, hvisits₁.trans hvisits₂, ?_, hstands₂.pos, hstands₂.vel, rfl, ?_, ?_⟩
  · simp only [movePlayer, hfirst, hsecond, Option.map_some]
  · intro e
    rw [hstands₁.own.write_state hwrite', hstands.own.write_state hwrite]
  · intro hvx
    simp only [hvx, handlePlayerMovement_zero]
  · intro hvy
    simp only [hvy, handlePlayerMovement_zero]

/-! ## The other entities -/

/-- Another entity goes where its velocity says, or stops and dies. -/
theorem handleEntityMovement_outcome {mover : Mover} (hown : mover.Own ecs) {found : Option ℕ}
    {collider : Option Collider} (hfinds : Finds ecs found collider) (pos : Position)
    (vel : Velocity) :
    ∃ ecs' pos' vel', handleEntityMovement mover ecs pos vel collider = some (ecs', pos') ∧
      Visits ecs ecs' mover.id ∧ Mortal ecs ecs' ∧
      ecs'.getEntityComponent mover.id (.other .position) = some pos' ∧
      ecs'.getEntityComponent mover.id (.other .velocity) = some vel' ∧
      (pos' = { pos with x := pos.x + vel.vx, y := pos.y + vel.vy } ∧ vel' = vel ∨
        pos' = pos ∧ vel' = { vel with vx := 0, vy := 0 } ∧
          ecs'.getEntityComponent mover.id .state = some (State.mk entityDead)) := by
  cases collider with
  | none =>
      rcases hown.write { pos with x := pos.x + vel.vx, y := pos.y + vel.vy } vel with
        ⟨ecs', hwrite, hvisits, hpos, hvel⟩
      refine ⟨ecs', _, vel, ?_, hvisits, ?_, hpos, hvel, .inl ⟨rfl, rfl⟩⟩
      · simp only [handleEntityMovement, hwrite, Option.map_some]
      · exact fun e => .inl (hown.write_state hwrite e)
  | some collider =>
      rcases hfinds.state with ⟨e, hstate⟩
      rcases hown.write pos { vel with vx := 0, vy := 0 } with
        ⟨ecs₁, hwrite, hvisits₁, hpos, hvel⟩
      have hstate₁ : ecs₁.position .state e = some collider.state :=
        (hvisits₁.only.position ..).trans hstate
      rcases kill_spec hstate₁ mover.id with ⟨ecs₂, hkill, hvisits₂, hmortal₂, hothers₂, -⟩
      have hown₂ := (hown.keep hvisits₁.only).keep hvisits₂.only
      rcases kill_spec hown₂.state mover.id with
        ⟨ecs₃, hdie, hvisits₃, hmortal₃, hothers₃, hdead⟩
      have hmortal₁ : Mortal ecs ecs₁ := fun e => .inl (hown.write_state hwrite e)
      refine ⟨ecs₃, pos, _, ?_, (hvisits₁.trans hvisits₂).trans hvisits₃,
        (hmortal₁.trans hmortal₂).trans hmortal₃, ?_, ?_, .inr ⟨rfl, rfl, hdead⟩⟩
      · simp only [handleEntityMovement, hwrite, hkill, hdie, Option.map_some]
      · exact (hothers₃ mover.id (.other .position) (by simp)).trans
          ((hothers₂ mover.id (.other .position) (by simp)).trans hpos)
      · exact (hothers₃ mover.id (.other .velocity) (by simp)).trans
          ((hothers₂ mover.id (.other .velocity) (by simp)).trans hvel)

/-- What the branch for the other entities does. -/
theorem moveEntity_outcome {start : Store Other} (honly : ECS.WritesOnly start ecs) {mover : Mover}
    (hown : mover.Own ecs) {type : EntityType} (htype : type ≠ .kPlayer) (pos : Position)
    (vel : Velocity) :
    ∃ ecs', moveEntity (start.group (.other .position :: colliderRest)) mover type ecs
        { pos with isUpdated := inMotion vel } vel = some ecs' ∧
      Visits ecs ecs' mover.id ∧ Mortal ecs ecs' ∧
      Outcome type mover.box pos vel mover.id ecs' := by
  let marked : Position := { pos with isUpdated := inMotion vel }
  rcases @findCollider_spec _ _ _ ecs mover.id { x := pos.x + vel.vx, y := pos.y + vel.vy }
    mover.box (if type = .kBullet then EntityType.kEnemy else EntityType.kPlayer) start honly with
    ⟨found, hfind, hfinds⟩
  rcases handleEntityMovement_outcome hown hfinds marked vel with
    ⟨ecs₁, pos₁, vel₁, hmoved, hvisits₁, hmortal₁, hpos₁, hvel₁, hcases⟩
  rcases kill_spec (hown.keep hvisits₁.only).state mover.id with
    ⟨ecs₂, hdie, hvisits₂, hmortal₂, hothers₂, hdead⟩
  have hpos₂ : ecs₂.getEntityComponent mover.id (.other .position) = some pos₁ :=
    (hothers₂ mover.id (.other .position) nofun).trans hpos₁
  have hvel₂ : ecs₂.getEntityComponent mover.id (.other .velocity) = some vel₁ :=
    (hothers₂ mover.id (.other .velocity) nofun).trans hvel₁
  simp only [moveEntity, hfind, marked, hmoved]
  by_cases hleaves : type = .kBullet ∧ (pos₁.x - mover.box.width < 0 ∨ pos₁.x > 1920 ∨
      pos₁.y - mover.box.height < 0 ∨ pos₁.y > 1080)
  · rw [if_pos hleaves]
    refine ⟨ecs₂, hdie, hvisits₁.trans hvisits₂, hmortal₁.trans hmortal₂, ?_⟩
    rcases hcases with ⟨rfl, rfl⟩ | ⟨rfl, rfl, -⟩
    · exact .free _ htype hpos₂ hvel₂ rfl fun _ _ => hdead
    · exact .hit htype hpos₂ hvel₂ hdead
  · rw [if_neg hleaves]
    refine ⟨ecs₁, rfl, hvisits₁, hmortal₁, ?_⟩
    rcases hcases with ⟨rfl, rfl⟩ | ⟨rfl, rfl, hdead₁⟩
    · exact .free _ htype hpos₁ hvel₁ rfl fun hbullet hout => absurd ⟨hbullet, hout⟩ hleaves
    · exact .hit htype hpos₁ hvel₁ hdead₁

/-! ## A pass -/

/-- The components that a visit of an entity reads. -/
structure Body (ecs : Store Other) (id : ℕ) (type : EntityType) (box : Hitbox) (pos : Position)
    (vel : Velocity) : Prop where
  type : ecs.getEntityComponent id .type = some (TypeComponent.mk type)
  hitbox : ecs.getEntityComponent id (.other .hitbox) = some box
  pos : ecs.getEntityComponent id (.other .position) = some pos
  vel : ecs.getEntityComponent id (.other .velocity) = some vel

/-- What a visit does. -/
theorem visit_outcome {start : Store Other} (honly : ECS.WritesOnly start ecs)
    {references : List ℕ} (hown : ecs.OwnReferences (.type :: movableRest) id references) :
    ∃ ecs' type box pos vel, visit (start.group (.other .position :: colliderRest)) ecs id
        references = some ecs' ∧
      Visits ecs ecs' id ∧ Mortal ecs ecs' ∧ Body ecs id type box pos vel ∧
      Outcome type box pos vel id ecs' := by
  rcases movableRest_references hown with ⟨mover, typeRef, boxRef, ⟨type⟩, vel, pos, rfl, rfl,
    hmover, ⟨htypeAt, hvelAt, hposAt, hboxAt⟩, htype, hvel, hpos, hbox⟩
  let marked : Position := { pos with isUpdated := inMotion vel }
  rcases hmover.write marked vel with ⟨ecs₁, hwrite, hvisits₁, hpos₁, hvel₁⟩
  have hmortal₁ : Mortal ecs ecs₁ := fun e => .inl (hmover.write_state hwrite e)
  have hbody : Body ecs mover.id type mover.box pos vel := ⟨htype, hbox, hpos, hvel⟩
  have hvisit : visit (start.group (.other .position :: colliderRest)) ecs mover.id
      [typeRef, mover.velRef, mover.posRef, boxRef, mover.stateRef] =
        if type = .kPlayer then
          movePlayer (start.group (.other .position :: colliderRest)) mover ecs₁ marked vel
        else
          moveEntity (start.group (.other .position :: colliderRest)) mover type ecs₁ marked
            vel := by
    have hmarked : mover.write ecs { pos with isUpdated := decide (vel.vx ≠ 0 ∨ vel.vy ≠ 0) } vel =
        some ecs₁ := hwrite
    simp only [visit, htypeAt, hvelAt, hposAt, hboxAt, hmarked]
    rfl
  rw [hvisit]
  by_cases hplayer : type = .kPlayer
  · subst hplayer
    have hstands : Stands mover ecs pos vel := ⟨hmover, htype, hbox, hpos, hvel⟩
    have hstands₁ : Stands mover ecs₁ marked vel := by
      refine ⟨hmover.keep hvisits₁.only, ?_, ?_, hpos₁, hvel₁⟩
      · exact (hvisits₁.others mover.id .type (by simp) (by simp)).trans htype
      · exact (hvisits₁.others mover.id (.other .hitbox) (by simp) (by simp)).trans hbox
    rcases movePlayer_outcome (honly.trans hvisits₁.only) hstands₁ with
      ⟨ecs₂, pos₂, vel₂, hmove, hvisits₂, hstates, hpos₂, hvel₂, hmark, hx, hy⟩
    rw [if_pos rfl]
    exact ⟨ecs₂, _, _, _, _, hmove, hvisits₁.trans hvisits₂,
      hmortal₁.trans fun e => .inl (hstates e), hbody,
      .player pos₂ vel₂ rfl hpos₂ hvel₂ hmark hx hy⟩
  · rw [if_neg hplayer]
    rcases moveEntity_outcome (honly.trans hvisits₁.only) (hmover.keep hvisits₁.only) hplayer pos
      vel with ⟨ecs₂, hmove, hvisits₂, hmortal₂, houtcome⟩
    exact ⟨ecs₂, _, _, _, _, hmove, hvisits₁.trans hvisits₂, hmortal₁.trans hmortal₂, hbody,
      houtcome⟩

omit [DecidableEq κ] in
/-- What comes after the visit of an entity leaves its outcome. -/
theorem Outcome.later {type : EntityType} (h : Outcome type box pos vel id ecs)
    (hpos : ecs'.getEntityComponent id (.other .position) =
      ecs.getEntityComponent id (.other .position))
    (hvel : ecs'.getEntityComponent id (.other .velocity) =
      ecs.getEntityComponent id (.other .velocity))
    (hmortal : Mortal ecs ecs') : Outcome type box pos vel id ecs' := by
  cases h with
  | player pos' vel' htype hpos' hvel' hmark hx hy =>
      exact .player pos' vel' htype (hpos.trans hpos') (hvel.trans hvel') hmark hx hy
  | free pos' htype hpos' hvel' hplace hinside =>
      exact .free pos' htype (hpos.trans hpos') (hvel.trans hvel') hplace
        fun hbullet hout => hmortal.dead (hinside hbullet hout)
  | hit htype hpos' hvel' hdead =>
      exact .hit htype (hpos.trans hpos') (hvel.trans hvel') (hmortal.dead hdead)

/-- What the visits of several entities do to each of them. -/
theorem visits_outcome {start : Store Other} (honly : ECS.WritesOnly start ecs)
    {calls : List (ℕ × List ℕ)} (hnodup : (calls.map Prod.fst).Nodup)
    (hown : ∀ call ∈ calls, ecs.OwnReferences (.type :: movableRest) call.1 call.2) :
    ∃ ecs', calls.foldlM (fun ecs call =>
        visit (start.group (.other .position :: colliderRest)) ecs call.1 call.2) ecs =
          some ecs' ∧
      Mortal ecs ecs' ∧
      (∀ e c, c ≠ .state →
        ¬ (e ∈ calls.map Prod.fst ∧ (c = .other .position ∨ c = .other .velocity)) →
          ecs'.getEntityComponent e c = ecs.getEntityComponent e c) ∧
      ∀ e ∈ calls.map Prod.fst, ∃ type box pos vel, Body ecs e type box pos vel ∧
        Outcome type box pos vel e ecs' := by
  induction calls generalizing ecs with
  | nil =>
      refine ⟨ecs, rfl, .refl ecs, fun _ _ _ _ => rfl, ?_⟩
      intro e he
      cases he
  | cons call calls ih =>
      rcases call with ⟨e, references⟩
      rw [List.map_cons, List.nodup_cons] at hnodup
      rw [List.forall_mem_cons] at hown
      rcases visit_outcome honly hown.1 with
        ⟨ecs₁, type, box, pos, vel, hvisit, hvisits, hmortal₁, hbody, houtcome⟩
      rcases ih (honly.trans hvisits.only) hnodup.2
        (fun call hcall => hvisits.only.ownReferences (hown.2 call hcall)) with
        ⟨ecs₂, hfold, hmortal₂, hothers₂, houtcomes₂⟩
      refine ⟨ecs₂, ?_, hmortal₁.trans hmortal₂, ?_, ?_⟩
      · rw [List.foldlM_cons, hvisit]
        exact hfold
      · intro other c hstate hspared
        rw [List.map_cons, List.mem_cons] at hspared
        rw [hothers₂ other c hstate fun hboth => hspared ⟨.inr hboth.1, hboth.2⟩]
        exact hvisits.others other c hstate fun hboth => hspared ⟨.inl hboth.1, hboth.2⟩
      · intro other hother
        rw [List.map_cons, List.mem_cons] at hother
        rcases hother with rfl | hother
        · refine ⟨type, box, pos, vel, hbody, houtcome.later ?_ ?_ hmortal₂⟩
          · exact hothers₂ other (.other .position) nofun fun hboth => hnodup.1 hboth.1
          · exact hothers₂ other (.other .velocity) nofun fun hboth => hnodup.1 hboth.1
        · have hne : other ≠ e := fun heq => hnodup.1 (heq ▸ hother)
          rcases houtcomes₂ other hother with ⟨type', box', pos', vel', hbody', houtcome'⟩
          have hbefore : ∀ c, c ≠ .state →
              ecs₁.getEntityComponent other c = ecs.getEntityComponent other c :=
            fun c hc => hvisits.others other c hc fun hboth => hne hboth.1
          refine ⟨type', box', pos', vel', ⟨?_, ?_, ?_, ?_⟩, houtcome'⟩
          · exact (hbefore .type nofun).symm.trans hbody'.type
          · exact (hbefore (.other .hitbox) nofun).symm.trans hbody'.hitbox
          · exact (hbefore (.other .position) nofun).symm.trans hbody'.pos
          · exact (hbefore (.other .velocity) nofun).symm.trans hbody'.vel

/-- What a pass of the system does to each entity. -/
theorem apply_outcome (ecs : Store Other) :
    ∃ ecs', apply ecs = some ecs' ∧ ECS.WritesOnly ecs ecs' ∧ Mortal ecs ecs' ∧
      (∀ e c, c ≠ .state → ¬ (e ∈ movable ecs ∧ (c = .other .position ∨ c = .other .velocity)) →
        ecs'.getEntityComponent e c = ecs.getEntityComponent e c) ∧
      ∀ e ∈ movable ecs, ∃ type box pos vel, Body ecs e type box pos vel ∧
        Outcome type box pos vel e ecs' := by
  rcases ecs.group_apply .type movableRest with ⟨calls, hcalls⟩
  have hnodup : (calls.map Prod.fst).Nodup := by
    rw [hcalls.entities]
    exact ecs.nodup_getEntities_group .type movableRest
  rcases visits_outcome (.refl ecs) hnodup hcalls.own with
    ⟨ecs', hfold, hmortal, hothers, houtcomes⟩
  rcases apply_refines ecs with ⟨final, hfinal, honly, -, -⟩
  have hrun : apply ecs = some ecs' := by
    rw [apply, hcalls.run]
    exact hfold
  obtain rfl : final = ecs' := Option.some.inj (hfinal.symm.trans hrun)
  rw [hcalls.entities] at hothers houtcomes
  exact ⟨final, hfinal, honly, hmortal, hothers, houtcomes⟩

/-! ## Marks -/

/-- The place of an entity. -/
def placeOf (ecs : Store Other) (e : ℕ) : Option (ℚ × ℚ) :=
  (ecs.getEntityComponent e (.other .position)).map fun pos : Position => (pos.x, pos.y)

omit [DecidableEq κ] in
theorem placeOf_of_some {e : ℕ} (h : ecs.getEntityComponent e (.other .position) = some pos) :
    placeOf ecs e = some (pos.x, pos.y) := by
  rw [placeOf, h]
  rfl

/-- What the rest of the program leaves of an entity between two passes: it does not steer
or move it, and does not bring it back to life. -/
structure Spares (e : ℕ) (ecs ecs' : Store Other) : Prop where
  type : ecs'.getEntityComponent e .type = ecs.getEntityComponent e .type
  hitbox : ecs'.getEntityComponent e (.other .hitbox) = ecs.getEntityComponent e (.other .hitbox)
  vel : ecs'.getEntityComponent e (.other .velocity) =
    ecs.getEntityComponent e (.other .velocity)
  place : placeOf ecs' e = placeOf ecs e
  state : (ecs.getEntityComponent e .state).isSome → (ecs'.getEntityComponent e .state).isSome
  dead : ecs.getEntityComponent e .state = some (State.mk entityDead) →
    ecs'.getEntityComponent e .state = some (State.mk entityDead)

/-- Several passes, and what happens to an entity between them. -/
inductive Passes (e : ℕ) (start : Store Other) : ℕ → Store Other → Prop
  | start : Passes e start 0 start
  | pass {n : ℕ} {ecs ecs' ecs'' : Store Other} (h : Passes e start n ecs)
      (hpass : apply ecs = some ecs') (hrest : Spares e ecs' ecs'') : Passes e start (n + 1) ecs''

/-- Where an entity is after so many steps in a straight line. -/
def along (pos : Position) (vel : Velocity) (n : ℕ) : Position where
  x := pos.x + n * vel.vx
  y := pos.y + n * vel.vy

/-- An entity in flight: it has come so many steps in a straight line, and a bullet was on the
screen after each of them. -/
structure Flies (ecs : Store Other) (e : ℕ) (type : EntityType) (box : Hitbox) (pos : Position)
    (vel : Velocity) (n : ℕ) : Prop where
  hasType : ecs.getEntityComponent e .type = some (TypeComponent.mk type)
  hasHitbox : ecs.getEntityComponent e (.other .hitbox) = some box
  hasVelocity : ecs.getEntityComponent e (.other .velocity) = some vel
  place : placeOf ecs e = some ((along pos vel n).x, (along pos vel n).y)
  inside : type = .kBullet → ∀ k, 0 < k → k ≤ n → ¬ Outside (along pos vel k) box

/-- The entity can move. -/
theorem mem_movable {e : ℕ} (htype : (ecs.getEntityComponent e .type).isSome)
    (hvel : (ecs.getEntityComponent e (.other .velocity)).isSome)
    (hpos : (ecs.getEntityComponent e (.other .position)).isSome)
    (hbox : (ecs.getEntityComponent e (.other .hitbox)).isSome)
    (hstate : (ecs.getEntityComponent e .state).isSome) : e ∈ movable ecs := by
  rw [movable, Array.mem_toList_iff, ECS.mem_getEntities_group]
  simp only [movableRest, List.forall_mem_cons]
  exact ⟨htype, hvel, hpos, hbox, hstate, fun _ hmem => (List.not_mem_nil hmem).elim⟩

/-- A pass takes a living entity one step further, or kills it. -/
theorem Flies.pass {e n : ℕ} {type : EntityType} (htype : type ≠ .kPlayer)
    (h : Flies ecs e type box pos vel n)
    (hstate : (ecs.getEntityComponent e .state).isSome) (hpass : apply ecs = some ecs')
    (hrest : Spares e ecs' ecs'')
    (halive : ecs''.getEntityComponent e .state ≠ some (State.mk entityDead)) :
    Flies ecs'' e type box pos vel (n + 1) := by
  rcases apply_outcome ecs with ⟨final, hfinal, -, -, hothers, houtcomes⟩
  obtain rfl : final = ecs' := Option.some.inj (hfinal.symm.trans hpass)
  rcases Option.map_eq_some_iff.mp h.place with ⟨(here : Position), hhere, hplace⟩
  have hmovable : e ∈ movable ecs := by
    apply mem_movable
    · exact h.hasType ▸ rfl
    · exact h.hasVelocity ▸ rfl
    · exact hhere ▸ rfl
    · exact h.hasHitbox ▸ rfl
    · exact hstate
  rcases houtcomes e hmovable with ⟨type', box', here', vel', hbody, houtcome⟩
  obtain rfl : type = type' :=
    congrArg TypeComponent.type (Option.some.inj (h.hasType.symm.trans hbody.type))
  obtain rfl : box = box' := Option.some.inj (h.hasHitbox.symm.trans hbody.hitbox)
  obtain rfl : here = here' := Option.some.inj (hhere.symm.trans hbody.pos)
  obtain rfl : vel = vel' := Option.some.inj (h.hasVelocity.symm.trans hbody.vel)
  obtain ⟨hx, hy⟩ := Prod.mk.inj hplace
  cases houtcome with
  | player pos' vel' hplayer => exact absurd hplayer htype
  | hit _ hpos' hvel' hdead => exact absurd (hrest.dead hdead) halive
  | free pos' _ hpos' hvel' hgoes hinside =>
      have hnext : pos'.x = (along pos vel (n + 1)).x ∧ pos'.y = (along pos vel (n + 1)).y := by
        rw [hgoes]
        simp only [hx, hy, along]
        push_cast
        constructor <;> ring
      refine ⟨?_, ?_, hrest.vel.trans hvel', ?_, ?_⟩
      · exact hrest.type.trans ((hothers e .type nofun (by simp)).trans h.hasType)
      · exact hrest.hitbox.trans ((hothers e (.other .hitbox) nofun (by simp)).trans h.hasHitbox)
      · rw [hrest.place, placeOf_of_some hpos', hnext.1, hnext.2]
      · intro hbullet k hpositive hle
        rcases Nat.le_succ_iff.mp hle with hle | rfl
        · exact h.inside hbullet k hpositive hle
        · intro hout
          apply halive
          apply hrest.dead
          apply hinside hbullet
          rw [Outside, hnext.1, hnext.2]
          exact hout

/-- A bullet or an enemy that is alive after several passes has been so after each of them,
and has gone in a straight line. -/
theorem alive_in_flight {start : Store Other} {e n : ℕ} {type : EntityType}
    (htype : type ≠ .kPlayer) (hbody : Body start e type box pos vel)
    (hstate : (start.getEntityComponent e .state).isSome) (hpasses : Passes e start n ecs) :
    (ecs.getEntityComponent e .state).isSome ∧
      (ecs.getEntityComponent e .state ≠ some (State.mk entityDead) →
        Flies ecs e type box pos vel n) := by
  induction hpasses with
  | start =>
      refine ⟨hstate, fun _ => ⟨hbody.type, hbody.hitbox, hbody.vel, ?_, ?_⟩⟩
      · rw [placeOf_of_some hbody.pos]
        simp only [along, Nat.cast_zero, zero_mul, add_zero]
      · intro _ k hpositive hle
        exact absurd hle (Nat.not_le.mpr hpositive)
  | @pass n ecs ecs' ecs'' h hpass hrest ih =>
      rcases apply_outcome ecs with ⟨final, hfinal, honly, hmortal, -, -⟩
      obtain rfl : final = ecs' := Option.some.inj (hfinal.symm.trans hpass)
      constructor
      · apply hrest.state
        rw [← ECS.hasComponent_eq_isSome_get, honly.hasComponent, ECS.hasComponent_eq_isSome_get]
        exact ih.1
      · intro halive
        apply (ih.2 _).pass htype ih.1 hpass hrest halive
        intro hdead
        exact halive (hrest.dead (hmortal.dead hdead))

/-- However a game goes on, a bullet that is alive after some passes is on the straight line
on which it was fired, and was on the screen after each of them; so its speed bounds the number
of passes that it can be alive for. -/
theorem bullet_flight {start : Store Other} {e n : ℕ} (hbody : Body start e .kBullet box pos vel)
    (hstate : (start.getEntityComponent e .state).isSome)
    (hpasses : Passes e start (n + 1) ecs)
    (halive : ecs.getEntityComponent e .state ≠ some (State.mk entityDead)) :
    placeOf ecs e = some (pos.x + (n + 1) * vel.vx, pos.y + (n + 1) * vel.vy) ∧
      (∀ k, 0 < k → k ≤ n + 1 → ¬ Outside (along pos vel k) box) ∧
      n * |vel.vx| ≤ 1920 - box.width ∧ n * |vel.vy| ≤ 1080 - box.height := by
  have hbullet : EntityType.kBullet ≠ .kPlayer := nofun
  have hflies := (alive_in_flight hbullet hbody hstate hpasses).2 halive
  have hfirst := hflies.inside rfl 1 Nat.one_pos (Nat.succ_le_succ (Nat.zero_le n))
  have hlast := hflies.inside rfl (n + 1) (Nat.succ_pos n) le_rfl
  have hplace := hflies.place
  simp only [Outside, along, not_or, not_lt, Nat.cast_add, Nat.cast_one, one_mul] at hfirst hlast
  simp only [along, Nat.cast_add, Nat.cast_one] at hplace
  obtain ⟨hleft, hright, habove, hbelow⟩ := hfirst
  obtain ⟨hleft', hright', habove', hbelow'⟩ := hlast
  have hpositive : (0 : ℚ) ≤ n := Nat.cast_nonneg n
  refine ⟨hplace, hflies.inside rfl, ?_, ?_⟩
  · rw [← abs_of_nonneg hpositive, ← abs_mul, abs_le]
    constructor <;> linarith
  · rw [← abs_of_nonneg hpositive, ← abs_mul, abs_le]
    constructor <;> linarith

end

/-! ## A shot -/

/-- The bullet of a player. -/
def shot : Store fun _ : Empty => Unit :=
  ((({} : Store fun _ : Empty => Unit).registerComponents
    [.other .position, .other .velocity, .type, .other .hitbox, .state]).registerEntity
      ⟨.type, TypeComponent.mk .kBullet⟩
      [⟨.other .position, Position.mk 300 320 false⟩, ⟨.other .velocity, Velocity.mk 20 0 20 0⟩,
        ⟨.other .hitbox, Hitbox.mk true 75 35⟩, ⟨.state, State.mk 3⟩]).1

theorem body_shot : ∃ box pos vel, Body shot 0 .kBullet box pos vel ∧
    (pos.x, pos.y) = (300, 320) ∧ (vel.vx, vel.vy) = (20, 0) := by
  have htype : (shot.getEntityComponent 0 .type).map TypeComponent.type = some .kBullet := by
    decide +kernel
  have hbox : (shot.getEntityComponent 0 (.other .hitbox)).isSome = true := by decide +kernel
  have hpos : (shot.getEntityComponent 0 (.other .position)).map
      (fun pos : Position => (pos.x, pos.y)) = some (300, 320) := by decide +kernel
  have hvel : (shot.getEntityComponent 0 (.other .velocity)).map
      (fun vel : Velocity => (vel.vx, vel.vy)) = some (20, 0) := by decide +kernel
  rcases Option.map_eq_some_iff.mp htype with ⟨⟨_⟩, htype, rfl⟩
  rcases Option.isSome_iff_exists.mp hbox with ⟨box, hbox⟩
  rcases Option.map_eq_some_iff.mp hpos with ⟨pos, hpos, hplace⟩
  rcases Option.map_eq_some_iff.mp hvel with ⟨vel, hvel, hspeed⟩
  exact ⟨box, pos, vel, ⟨htype, hbox, hpos, hvel⟩, hplace, hspeed⟩

/-- The store after some passes. -/
def passes : ℕ → Option (Store fun _ : Empty => Unit)
  | 0 => some shot
  | n + 1 => (passes n).bind apply

/-- Nothing happens to the bullet between its passes. -/
theorem passes_of_eq {n : ℕ} {ecs : Store fun _ : Empty => Unit} (h : passes n = some ecs) :
    Passes 0 shot n ecs := by
  induction n generalizing ecs with
  | zero =>
      obtain rfl := Option.some.inj h
      exact .start
  | succ n ih =>
      rcases Option.bind_eq_some_iff.mp h with ⟨before, hbefore, hpass⟩
      exact .pass (ih hbefore) hpass ⟨rfl, rfl, rfl, rfl, id, id⟩

/-- Three passes take the bullet three steps further. -/
theorem bullet_flight_of_shot :
    ∃ ecs box pos vel, passes 3 = some ecs ∧ Body shot 0 .kBullet box pos vel ∧
      placeOf ecs 0 = some (360, 320) ∧
      (∀ k, 0 < k → k ≤ 3 → ¬ Outside (along pos vel k) box) ∧
      2 * |vel.vx| ≤ 1920 - box.width := by
  have hstate : (shot.getEntityComponent 0 .state).isSome = true := by decide +kernel
  have hfinal : (passes 3).bind (fun ecs => (ecs.getEntityComponent 0 .state).map State.state) =
      some 3 := by decide +kernel
  rcases Option.bind_eq_some_iff.mp hfinal with ⟨ecs, hpasses, hlives⟩
  rcases body_shot with ⟨box, pos, vel, hbody, hplace, hspeed⟩
  have halive : ecs.getEntityComponent 0 .state ≠ some (State.mk entityDead) := by
    intro hdead
    rw [hdead] at hlives
    cases hlives
  obtain ⟨hx, hy⟩ := Prod.mk.inj hplace
  obtain ⟨hvx, hvy⟩ := Prod.mk.inj hspeed
  rcases bullet_flight hbody hstate (passes_of_eq hpasses) halive with ⟨hwhere, hinside, hfar, -⟩
  refine ⟨ecs, box, pos, vel, hpasses, hbody, ?_, hinside, ?_⟩
  · rw [hwhere, hx, hy, hvx, hvy]
    norm_num
  · exact_mod_cast hfar

end Rtype.Server.ApplyMovement
