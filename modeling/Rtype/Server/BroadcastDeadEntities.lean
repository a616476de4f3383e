import Mathlib
import Rtype.Rtecs.SparseGroup
import Rtype.Rtecs.StoreInvariant

/-!
# Server - The system that kills the dead entities

The system walks over the group of the entities with a state and a type and
destroys those that are dead and no players.  The group holds references into the
dense arrays, and each destruction swaps the last element of every array into the
free place.

Main results:

- Theorem {lit}`killsExactlyTheDead_iff`: the system kills exactly the dead, and
  reads only the instances of the visited entity, when and only when no destruction
  moves an instance that is still to be read.
- Theorem {lit}`last_instance_lost`: two entities are enough for it to fail.

Current gaps:

- The sessions that receive the broadcast are left out.
-/

namespace Rtype.Server

open Rtype.Rtecs

/-! ## The components -/

/-- {lit}`entity::Type`, an enumeration over {lit}`int`.  Values without a name come from
packets. -/
structure EntityType where
  value : BitVec 32
  deriving DecidableEq

@[match_pattern]
def EntityType.kPlayer : EntityType := ⟨0⟩

@[match_pattern]
def EntityType.kEnemy : EntityType := ⟨1⟩

@[match_pattern]
def EntityType.kBullet : EntityType := ⟨2⟩

/-- {lit}`components::State`. -/
structure State where
  state : ℕ

/-- {lit}`components::Type`. -/
structure TypeComponent where
  type : EntityType

/-- {lit}`entity::state::EntityDead`. -/
def entityDead : ℕ := 4

/-- The component types: the two that the system reads, and all the others. -/
inductive GameComponent (κ : Type)
  | state
  | type
  | other (c : κ)
  deriving DecidableEq

/-- The instances of the component types. -/
def GameInstance {κ : Type} (Other : κ → Type) : GameComponent κ → Type
  | .state => State
  | .type => TypeComponent
  | .other c => Other c

/-- {lit}`packet::Destroy`. -/
structure Destroy where
  id : ℕ
  earnedPoints : ℕ

/-! ## The pass over the group -/

/-- A read through a reference: which entity was visited, and whose instance was at the
position by then. -/
structure Read (κ : Type) where
  entity : ℕ
  component : GameComponent κ
  owner : ℕ

/-- The store and the broadcast packets during a pass, with the reads made so far. -/
structure Pass {κ : Type} (Other : κ → Type) where
  ecs : ECS (GameInstance Other)
  broadcasts : List Destroy := []
  reads : List (Read κ) := []

namespace Pass

variable {κ : Type} {Other : κ → Type}

/-- {lit}`Lobby::killEntity`, without a session. -/
def killEntity (pass : Pass Other) (id : ℕ) : Pass Other :=
  { pass with
    ecs := pass.ecs.destroyEntity id
    broadcasts := pass.broadcasts ++ [{ id := id, earnedPoints := 0 }] }

/-- The pass after a read. -/
def note (pass : Pass Other) (entity : ℕ) (c : GameComponent κ) (owner : ℕ) : Pass Other :=
  { pass with reads := pass.reads ++ [{ entity := entity, component := c, owner := owner }] }

/-- A read through a reference.  A position that the array has no more is undefined
behaviour. -/
def read (pass : Pass Other) (entity : ℕ) (c : GameComponent κ) (position : ℕ) :
    Option (GameInstance Other c × Pass Other) :=
  match pass.ecs.components c with
  | none => none
  | some set =>
      match set.getEntities[position]?, set.1.getAll[position]? with
      | some owner, some value => some (value, pass.note entity c owner)
      | _, _ => none

/-- The callback of {lit}`BroadcastDeadEntities::apply`: the type is read first, and the
state of a player is not read. -/
def killDead (pass : Pass Other) (id : ℕ) : List ℕ → Option (Pass Other)
  | [stateRef, typeRef] =>
      match pass.read id .type typeRef with
      | none => none
      | some ((type : TypeComponent), pass) =>
          if type.type = .kPlayer then
            some pass
          else
            match pass.read id .state stateRef with
            | none => none
            | some ((state : State), pass) =>
                if state.state = entityDead then
                  some (pass.killEntity id)
                else
                  some pass
  | _ => some pass

variable [DecidableEq κ]

/-- {lit}`BroadcastDeadEntities::apply`. -/
def apply (ecs : ECS (GameInstance Other)) : Option (Pass Other) :=
  (ecs.group [.state, .type]).apply killDead { ecs := ecs }

end Pass

/-! ## The dead -/

section

variable {κ : Type} {Other : κ → Type}

/-- The entity has the type of a player. -/
def isPlayer (ecs : ECS (GameInstance Other)) (entity : ℕ) : Bool :=
  match ecs.getEntityComponent entity .type with
  | none => false
  | some (type : TypeComponent) => decide (type.type = .kPlayer)

/-- The entity has a state and a type, is dead, and is no player. -/
def isDoomed (ecs : ECS (GameInstance Other)) (entity : ℕ) : Bool :=
  match ecs.getEntityComponent entity .state, ecs.getEntityComponent entity .type with
  | some (state : State), some (type : TypeComponent) =>
      decide (type.type ≠ .kPlayer ∧ state.state = entityDead)
  | _, _ => false

/-- A run is in order when every read finds the instance of the visited entity. -/
def Pass.InOrder (pass : Pass Other) : Prop :=
  ∀ read ∈ pass.reads, read.owner = read.entity

variable [DecidableEq κ]

/-- The system does what it is for: it destroys the doomed entities, leaves every other
one as it is, and each callback reads the instances of its own entity. -/
def KillsExactlyTheDead (ecs : ECS (GameInstance Other)) : Prop :=
  ∃ pass, Pass.apply ecs = some pass ∧ pass.InOrder ∧
    (∀ e, isDoomed ecs e = true →
      pass.ecs.entities[e]? = none ∧ ∀ c, pass.ecs.getEntityComponent e c = none) ∧
    ∀ e, isDoomed ecs e = false →
      pass.ecs.entities[e]? = ecs.entities[e]? ∧
        ∀ c, pass.ecs.getEntityComponent e c = ecs.getEntityComponent e c

omit [DecidableEq κ] in
/-- No destruction moves an instance that is still to be read.  The entities are
visited in the order of the list; when a doomed one is destroyed, the last type
instance is of an entity that is not visited any more, and so is the last state
instance, unless it is of a player. -/
def Undisturbed (ecs : ECS (GameInstance Other)) : List ℕ → Prop
  | [] => True
  | e :: rest =>
      if isDoomed ecs e then
        (∀ last, ecs.lastEntity .type = some last → last ∉ rest) ∧
          (∀ last, ecs.lastEntity .state = some last →
            last ∉ rest ∨ isPlayer ecs last = true) ∧
          Undisturbed (ecs.destroyEntity e) rest
      else
        Undisturbed ecs rest

end

/-! ## One visit -/

section

variable {κ : Type} {Other : κ → Type} {ecs : ECS (GameInstance Other)}
  {pass pass' : Pass Other} {stateRef typeRef : ℕ → ℕ} {e : ℕ}

/-- A reference that is the position of the visited entity reads its own instance. -/
theorem Pass.read_own {c : GameComponent κ} {i : ℕ} (h : pass.ecs.position c e = some i) :
    ∃ value, pass.ecs.getEntityComponent e c = some value ∧
      pass.read e c i = some (value, pass.note e c e) := by
  unfold ECS.position at h
  unfold ECS.getEntityComponent Pass.read
  cases hset : pass.ecs.components c with
  | none => simp [hset] at h
  | some set =>
      simp only [hset] at h
      have howner := ComponentSet.position_eq_some_iff.mp h
      have hvalue := ComponentSet.getAll_at h
      have hsome : (set.get e).isSome := by
        rw [← ComponentSet.has_eq, ComponentSet.has_eq_isSome_position, h, Option.isSome_some]
      obtain ⟨value, hget⟩ := Option.isSome_iff_exists.mp hsome
      refine ⟨value, hget, ?_⟩
      simp only [howner, hvalue, hget]

/-- A read that finds the instance of the visited entity goes to its position. -/
theorem Pass.position_of_read {c : GameComponent κ} {i : ℕ} {value : GameInstance Other c}
    (h : pass.read e c i = some (value, pass')) :
    ∃ owner, pass' = pass.note e c owner ∧
      (owner = e → pass.ecs.position c e = some i) := by
  unfold Pass.read at h
  unfold ECS.position
  cases hset : pass.ecs.components c with
  | none => simp [hset] at h
  | some set =>
      simp only [hset] at h
      cases howner : set.getEntities[i]? with
      | none => simp [howner] at h
      | some owner =>
          cases hvalue : set.1.getAll[i]? with
          | none => simp [howner, hvalue] at h
          | some value' =>
              simp only [howner, hvalue, Option.some.injEq, Prod.mk.injEq] at h
              refine ⟨owner, h.2.symm, ?_⟩
              rintro rfl
              exact ComponentSet.position_eq_some_iff.mpr howner

/-- The references of an entity are its positions; the one to the state of a player
does not matter. -/
def InPlace (stateRef typeRef : ℕ → ℕ) (ecs : ECS (GameInstance Other)) (e : ℕ) : Prop :=
  ecs.position .type e = some (typeRef e) ∧
    (isPlayer ecs e = false → ecs.position .state e = some (stateRef e))

/-- The store after a visit in order. -/
def next (ecs : ECS (GameInstance Other)) (e : ℕ) : ECS (GameInstance Other) :=
  if isDoomed ecs e then ecs.destroyEntity e else ecs

theorem Pass.inOrder_note {c : GameComponent κ} {owner : ℕ} :
    (pass.note e c owner).InOrder ↔ pass.InOrder ∧ owner = e := by
  simp [Pass.InOrder, Pass.note, or_imp, forall_and]

/-- A visit with its references in place is in order. -/
theorem Pass.killDead_of_inPlace (h : InPlace stateRef typeRef pass.ecs e) :
    ∃ pass', pass.killDead e [stateRef e, typeRef e] = some pass' ∧
      pass'.ecs = next pass.ecs e ∧ (pass.InOrder → pass'.InOrder) := by
  obtain ⟨htype, hstate⟩ := h
  obtain ⟨(type : TypeComponent), hgettype, hreadtype⟩ := Pass.read_own htype
  unfold Pass.killDead next isDoomed
  simp only [hreadtype, hgettype]
  by_cases hplayer : type.type = .kPlayer
  · rw [if_pos hplayer]
    refine ⟨_, rfl, ?_, fun horder => Pass.inOrder_note.mpr ⟨horder, rfl⟩⟩
    cases pass.ecs.getEntityComponent e .state with
    | none => rfl
    | some state => simp [hplayer, Pass.note]
  · rw [if_neg hplayer]
    have hnot : isPlayer pass.ecs e = false := by simp [isPlayer, hgettype, hplayer]
    have hstate' : (pass.note e .type e).ecs.position .state e = some (stateRef e) := hstate hnot
    obtain ⟨(state : State), hgetstate, hreadstate⟩ := Pass.read_own hstate'
    have hgetstate' : pass.ecs.getEntityComponent e .state = some state := hgetstate
    have horder' : pass.InOrder → ((pass.note e .type e).note e .state e).InOrder := fun horder =>
      Pass.inOrder_note.mpr ⟨Pass.inOrder_note.mpr ⟨horder, rfl⟩, rfl⟩
    simp only [hreadstate, hgetstate']
    by_cases hdead : state.state = entityDead
    · rw [if_pos hdead]
      refine ⟨_, rfl, ?_, horder'⟩
      simp [hplayer, hdead, Pass.killEntity, Pass.note]
    · rw [if_neg hdead]
      refine ⟨_, rfl, ?_, horder'⟩
      simp [hdead, Pass.note]

/-- A visit that is in order has its references in place. -/
theorem Pass.inPlace_of_killDead (h : pass.killDead e [stateRef e, typeRef e] = some pass')
    (horder : pass'.InOrder) : pass.InOrder ∧ InPlace stateRef typeRef pass.ecs e := by
  unfold Pass.killDead at h
  cases hreadtype : pass.read e .type (typeRef e) with
  | none => simp [hreadtype] at h
  | some result =>
      obtain ⟨(type : TypeComponent), pass₁⟩ := result
      obtain ⟨owner, rfl, htype⟩ := Pass.position_of_read hreadtype
      simp only [hreadtype] at h
      -- the run after the first read keeps what the read has noted
      have hfirst : (pass.note e .type owner).InOrder → pass.InOrder ∧
          pass.ecs.position .type e = some (typeRef e) ∧
            isPlayer pass.ecs e = decide (type.type = .kPlayer) := by
        intro hnote
        obtain ⟨hpass, howner⟩ := Pass.inOrder_note.mp hnote
        refine ⟨hpass, htype howner, ?_⟩
        obtain ⟨value, hget, hread⟩ := Pass.read_own (htype howner)
        have hvalue : value = type :=
          congrArg Prod.fst (Option.some.inj (hread.symm.trans hreadtype))
        simp [isPlayer, hget, hvalue]
      by_cases hplayer : type.type = .kPlayer
      · rw [if_pos hplayer, Option.some.injEq] at h
        subst h
        obtain ⟨hpass, hposition, hisplayer⟩ := hfirst horder
        exact ⟨hpass, hposition, fun hnot => by simp [hisplayer, hplayer] at hnot⟩
      · rw [if_neg hplayer] at h
        cases hreadstate : (pass.note e .type owner).read e .state (stateRef e) with
        | none => simp [hreadstate] at h
        | some result =>
            obtain ⟨(state : State), pass₂⟩ := result
            obtain ⟨owner', rfl, hstate⟩ := Pass.position_of_read hreadstate
            simp only [hreadstate] at h
            have hnote : ((pass.note e .type owner).note e .state owner').InOrder := by
              split_ifs at h <;> cases h <;> exact horder
            obtain ⟨hnote₁, howner'⟩ := Pass.inOrder_note.mp hnote
            obtain ⟨hpass, hposition, -⟩ := hfirst hnote₁
            exact ⟨hpass, hposition, fun _ => hstate howner'⟩

/-! ## The whole pass -/

/-- All the visits of a pass have their references in place. -/
def AllInPlace (stateRef typeRef : ℕ → ℕ) (ecs : ECS (GameInstance Other)) : List ℕ → Prop
  | [] => True
  | e :: rest => InPlace stateRef typeRef ecs e ∧ AllInPlace stateRef typeRef (next ecs e) rest

/-- The visits of the entities of a list, each with its references. -/
def Pass.visitAll (stateRef typeRef : ℕ → ℕ) (pass : Pass Other) (entities : List ℕ) :
    Option (Pass Other) :=
  entities.foldlM (fun pass e => pass.killDead e [stateRef e, typeRef e]) pass

theorem Pass.visitAll_of_allInPlace {entities : List ℕ}
    (h : AllInPlace stateRef typeRef pass.ecs entities) (horder : pass.InOrder) :
    ∃ final, pass.visitAll stateRef typeRef entities = some final ∧ final.InOrder ∧
      final.ecs = entities.foldl next pass.ecs := by
  induction entities generalizing pass with
  | nil => exact ⟨pass, rfl, horder, rfl⟩
  | cons e entities ih =>
      obtain ⟨pass₁, hvisit, hecs, horder₁⟩ := Pass.killDead_of_inPlace h.1
      have hrest : AllInPlace stateRef typeRef pass₁.ecs entities := hecs ▸ h.2
      obtain ⟨final, hfinal, hfinalorder, hfinalecs⟩ := ih hrest (horder₁ horder)
      refine ⟨final, ?_, hfinalorder, ?_⟩
      · simp only [Pass.visitAll, List.foldlM_cons, hvisit]
        exact hfinal
      · rw [hfinalecs, hecs, List.foldl_cons]

theorem Pass.allInPlace_of_visitAll {entities : List ℕ} {final : Pass Other}
    (h : pass.visitAll stateRef typeRef entities = some final) (horder : final.InOrder) :
    pass.InOrder ∧ AllInPlace stateRef typeRef pass.ecs entities := by
  induction entities generalizing pass with
  | nil =>
      obtain rfl : pass = final := Option.some.inj h
      exact ⟨horder, trivial⟩
  | cons e entities ih =>
      simp only [Pass.visitAll, List.foldlM_cons] at h
      cases hvisit : pass.killDead e [stateRef e, typeRef e] with
      | none => simp [hvisit] at h
      | some pass₁ =>
          rw [hvisit] at h
          obtain ⟨horder₁, hrest⟩ := ih h
          obtain ⟨hpass, hplace⟩ := Pass.inPlace_of_killDead hvisit horder₁
          obtain ⟨pass₁', hvisit', hecs, -⟩ := Pass.killDead_of_inPlace hplace
          obtain rfl : pass₁ = pass₁' := Option.some.inj (hvisit.symm.trans hvisit')
          exact ⟨hpass, hplace, hecs ▸ hrest⟩

/-! ## Destructions -/

theorem isPlayer_destroyEntity {d : ℕ} (hne : e ≠ d) :
    isPlayer (ecs.destroyEntity d) e = isPlayer ecs e := by
  unfold isPlayer
  rw [ECS.getEntityComponent_destroyEntity, if_neg hne]

theorem isDoomed_destroyEntity {d : ℕ} (hne : e ≠ d) :
    isDoomed (ecs.destroyEntity d) e = isDoomed ecs e := by
  unfold isDoomed
  rw [ECS.getEntityComponent_destroyEntity, ECS.getEntityComponent_destroyEntity, if_neg hne,
    if_neg hne]

theorem isPlayer_next {d : ℕ} (hne : e ≠ d) : isPlayer (next ecs d) e = isPlayer ecs e := by
  unfold next
  split_ifs
  · exact isPlayer_destroyEntity hne
  · rfl

/-- A doomed entity has a state and a type. -/
theorem hasComponent_of_isDoomed (h : isDoomed ecs e = true) :
    ecs.hasComponent .state e = true ∧ ecs.hasComponent .type e = true := by
  rw [ECS.hasComponent_eq_isSome_get, ECS.hasComponent_eq_isSome_get]
  unfold isDoomed at h
  cases hstate : ecs.getEntityComponent e .state with
  | none => simp [hstate] at h
  | some state =>
      cases htype : ecs.getEntityComponent e .type with
      | none => simp [hstate, htype] at h
      | some type => simp

theorem sizeOf_next_le (ecs : ECS (GameInstance Other)) (c : GameComponent κ) (d : ℕ) :
    (next ecs d).sizeOf c ≤ ecs.sizeOf c := by
  unfold next
  split_ifs
  · rw [ECS.sizeOf_destroyEntity]
    split_ifs <;> omega
  · exact le_rfl

/-- The references that a pass in order still has to use lie inside the arrays. -/
theorem AllInPlace.typeRef_lt {entities : List ℕ}
    (h : AllInPlace stateRef typeRef ecs entities) (he : e ∈ entities) :
    typeRef e < ecs.sizeOf .type := by
  induction entities generalizing ecs with
  | nil => cases he
  | cons d entities ih =>
      rcases List.mem_cons.mp he with rfl | he
      · exact ECS.position_lt_sizeOf h.1.1
      · exact (ih h.2 he).trans_le (sizeOf_next_le ecs .type d)

theorem AllInPlace.stateRef_lt {entities : List ℕ}
    (h : AllInPlace stateRef typeRef ecs entities) (hnodup : entities.Nodup) (he : e ∈ entities)
    (hplayer : isPlayer ecs e = false) : stateRef e < ecs.sizeOf .state := by
  induction entities generalizing ecs with
  | nil => cases he
  | cons d entities ih =>
      obtain ⟨hd, hrest⟩ := List.nodup_cons.mp hnodup
      rcases List.mem_cons.mp he with rfl | he
      · exact ECS.position_lt_sizeOf (h.1.2 hplayer)
      · have hne : e ≠ d := fun heq => hd (heq ▸ he)
        have hlt := ih h.2 hrest he ((isPlayer_next hne).trans hplayer)
        exact hlt.trans_le (sizeOf_next_le ecs .state d)

/-- The last element may be moved when it is not needed any more: then the references
of the rest stay in place. -/
theorem inPlace_destroyEntity {d : ℕ} (h : InPlace stateRef typeRef ecs e) (hne : e ≠ d)
    (htype : ecs.lastEntity .type ≠ some e)
    (hstate : isPlayer ecs e = false → ecs.lastEntity .state ≠ some e) :
    InPlace stateRef typeRef (ecs.destroyEntity d) e := by
  refine ⟨(ECS.position_destroyEntity hne htype).trans h.1, fun hplayer => ?_⟩
  rw [isPlayer_destroyEntity hne] at hplayer
  exact (ECS.position_destroyEntity hne (hstate hplayer)).trans (h.2 hplayer)

/-- A pass that starts with all references in place has them in place at each visit
exactly when no destruction moves an instance that is still to be read. -/
theorem allInPlace_iff {entities : List ℕ} (hnodup : entities.Nodup)
    (hplace : ∀ e ∈ entities, InPlace stateRef typeRef ecs e) :
    AllInPlace stateRef typeRef ecs entities ↔ Undisturbed ecs entities := by
  induction entities generalizing ecs with
  | nil => exact Iff.rfl
  | cons d entities ih =>
      obtain ⟨hd, hrest⟩ := List.nodup_cons.mp hnodup
      have hne : ∀ {e}, e ∈ entities → e ≠ d := fun he heq => hd (heq ▸ he)
      have hplaces : ∀ e ∈ entities, InPlace stateRef typeRef ecs e := fun e he =>
        hplace e (List.mem_cons_of_mem _ he)
      unfold AllInPlace Undisturbed next
      by_cases hdoomed : isDoomed ecs d = true
      · rw [if_pos hdoomed, if_pos hdoomed]
        obtain ⟨hhasstate, hhastype⟩ := hasComponent_of_isDoomed hdoomed
        have hafter : (∀ last, ecs.lastEntity .type = some last → last ∉ entities) →
            (∀ last, ecs.lastEntity .state = some last →
              last ∉ entities ∨ isPlayer ecs last = true) →
            ∀ e ∈ entities, InPlace stateRef typeRef (ecs.destroyEntity d) e := by
          intro htype hstate e he
          refine inPlace_destroyEntity (hplaces e he) (hne he) (fun hlast => htype e hlast he)
            fun hplayer hlast => ?_
          rcases hstate e hlast with hnot | hplayer'
          · exact hnot he
          · rw [hplayer] at hplayer'
            cases hplayer'
        constructor
        · rintro ⟨-, hall⟩
          -- a moved instance would be looked for past the new end of its array
          have htype : ∀ last, ecs.lastEntity .type = some last → last ∉ entities := by
            intro last hlast hmem
            have hlt := hall.typeRef_lt hmem
            have hposition := (hplaces last hmem).1
            rw [ECS.position_lastEntity hlast, Option.some.injEq] at hposition
            rw [ECS.sizeOf_destroyEntity, if_pos hhastype] at hlt
            omega
          have hstate : ∀ last, ecs.lastEntity .state = some last →
              last ∉ entities ∨ isPlayer ecs last = true := by
            intro last hlast
            by_contra hnot
            rw [not_or, not_not, Bool.not_eq_true] at hnot
            obtain ⟨hmem, hplayer⟩ := hnot
            have hlt := hall.stateRef_lt hrest hmem
              ((isPlayer_destroyEntity (hne hmem)).trans hplayer)
            have hposition := (hplaces last hmem).2 hplayer
            rw [ECS.position_lastEntity hlast, Option.some.injEq] at hposition
            rw [ECS.sizeOf_destroyEntity, if_pos hhasstate] at hlt
            omega
          exact ⟨htype, hstate, (ih hrest (hafter htype hstate)).mp hall⟩
        · rintro ⟨htype, hstate, hundisturbed⟩
          exact ⟨hplace d List.mem_cons_self, (ih hrest (hafter htype hstate)).mpr hundisturbed⟩
      · rw [if_neg hdoomed, if_neg hdoomed, ← ih hrest hplaces]
        exact and_iff_right (hplace d List.mem_cons_self)

theorem entities_destroyEntity (ecs : ECS (GameInstance Other)) (d e : ℕ) :
    (ecs.destroyEntity d).entities[e]? = if e = d then none else ecs.entities[e]? := by
  rw [ECS.destroyEntity, Std.ExtTreeMap.getElem?_erase]
  by_cases he : e = d
  · simp [he]
  · simp [he, Ne.symm he]

/-- An entity that is visited and doomed is gone after the pass; nothing of the other
ones changes. -/
theorem foldl_next (ecs : ECS (GameInstance Other)) {entities : List ℕ}
    (hnodup : entities.Nodup) (e : ℕ) (c : GameComponent κ) :
    (entities.foldl next ecs).entities[e]? =
        (if e ∈ entities ∧ isDoomed ecs e = true then none else ecs.entities[e]?) ∧
      (entities.foldl next ecs).getEntityComponent e c =
        if e ∈ entities ∧ isDoomed ecs e = true then none else ecs.getEntityComponent e c := by
  induction entities generalizing ecs with
  | nil => simp
  | cons d entities ih =>
      obtain ⟨hd, hrest⟩ := List.nodup_cons.mp hnodup
      obtain ⟨ihentities, ihcomponent⟩ := ih (next ecs d) hrest
      rw [List.foldl_cons, ihentities, ihcomponent]
      unfold next
      by_cases hdoomed : isDoomed ecs d = true
      · rw [if_pos hdoomed, entities_destroyEntity, ECS.getEntityComponent_destroyEntity]
        by_cases he : e = d
        · simp [he, hdoomed]
        · simp [he, isDoomed_destroyEntity he]
      · rw [if_neg hdoomed]
        by_cases he : e = d
        · subst he
          simp [hdoomed]
        · simp [he]

/-! ## The system -/

variable [DecidableEq κ]

/-- The entities in the order in which the system visits them. -/
def visited (ecs : ECS (GameInstance Other)) : List ℕ :=
  (ecs.group [.state, .type]).getEntities.toList

omit [DecidableEq κ] in
/-- The references that a new group takes. -/
def initialRef (ecs : ECS (GameInstance Other)) (c : GameComponent κ) (e : ℕ) : ℕ :=
  (ecs.position c e).getD 0

theorem mem_visited {ecs : ECS (GameInstance Other)} {e : ℕ} :
    e ∈ visited ecs ↔ ecs.hasComponent .state e = true ∧ ecs.hasComponent .type e = true := by
  rw [visited, ECS.getEntities_group _ (by simp), ECS.mem_groupMembers (by simp)]
  simp

theorem nodup_visited (ecs : ECS (GameInstance Other)) : (visited ecs).Nodup := by
  rw [visited, ECS.getEntities_group _ (by simp)]
  exact ecs.nodup_groupMembers _

omit [DecidableEq κ] in
theorem position_initialRef {c : GameComponent κ} (h : ecs.hasComponent c e = true) :
    ecs.position c e = some (initialRef ecs c e) := by
  rw [ECS.hasComponent_eq, Option.isSome_iff_exists] at h
  obtain ⟨i, hi⟩ := h
  rw [initialRef, hi, Option.getD_some]

/-- The system visits the members of the group with the references of the group. -/
theorem apply_eq_visitAll (ecs : ECS (GameInstance Other)) :
    Pass.apply ecs = Pass.visitAll (initialRef ecs .state) (initialRef ecs .type)
      { ecs := ecs } (visited ecs) := by
  have hrefs : ∀ e ∈ visited ecs,
      ([.state, .type] : List (GameComponent κ)).mapM
          (fun c => ((ecs.group [.state, .type]).views c).atKey e) =
        some [initialRef ecs .state e, initialRef ecs .type e] := by
    intro e he
    obtain ⟨hstate, htype⟩ := mem_visited.mp he
    rw [visited, ECS.getEntities_group _ (by simp)] at he
    have hat : ∀ c ∈ ([.state, .type] : List (GameComponent κ)), ecs.hasComponent c e = true →
        ((ecs.group [.state, .type]).views c).atKey e = some (initialRef ecs c e) := by
      intro c hc hhas
      rw [(ecs.group_view hc).2, if_pos he, position_initialRef hhas]
    simp [hat .state (by simp) hstate, hat .type (by simp) htype]
  unfold Pass.apply SparseGroup.apply Pass.visitAll
  rw [ECS.components_group, ← visited]
  generalize ({ ecs := ecs } : Pass Other) = pass
  generalize visited ecs = entities at hrefs
  induction entities generalizing pass with
  | nil => rfl
  | cons e entities ih =>
      rw [List.foldlM_cons, List.foldlM_cons]
      simp only [hrefs e List.mem_cons_self]
      refine congrArg _ (funext fun pass' => ?_)
      exact ih pass' fun e he => hrefs e (List.mem_cons_of_mem _ he)

/-- The system kills exactly the dead, with each callback reading the instances of its
own entity, exactly when no destruction moves an instance that is still to be read. -/
theorem killsExactlyTheDead_iff (ecs : ECS (GameInstance Other)) :
    KillsExactlyTheDead ecs ↔ Undisturbed ecs (visited ecs) := by
  have hplace : ∀ e ∈ visited ecs,
      InPlace (initialRef ecs .state) (initialRef ecs .type) ecs e := by
    intro e he
    obtain ⟨hstate, htype⟩ := mem_visited.mp he
    exact ⟨position_initialRef htype, fun _ => position_initialRef hstate⟩
  rw [← allInPlace_iff (nodup_visited ecs) hplace]
  unfold KillsExactlyTheDead
  rw [apply_eq_visitAll]
  constructor
  · rintro ⟨pass, hrun, horder, -⟩
    exact (Pass.allInPlace_of_visitAll hrun horder).2
  · intro hall
    have hstart : AllInPlace (initialRef ecs .state) (initialRef ecs .type)
        ({ ecs := ecs } : Pass Other).ecs (visited ecs) := hall
    obtain ⟨final, hrun, horder, hecs⟩ := Pass.visitAll_of_allInPlace hstart
      fun read hread => by cases hread
    refine ⟨final, hrun, horder, fun e hdoomed => ?_, fun e hdoomed => ?_⟩
    · have hvisited : e ∈ visited ecs := mem_visited.mpr (hasComponent_of_isDoomed hdoomed)
      have hgone := fun c => foldl_next ecs (nodup_visited ecs) e c
      rw [hecs]
      simp only [hvisited, hdoomed, and_self, if_true] at hgone
      exact ⟨(hgone .state).1, fun c => (hgone c).2⟩
    · have hsame := fun c => foldl_next ecs (nodup_visited ecs) e c
      rw [hecs]
      simp only [hdoomed, Bool.false_eq_true, and_false, if_false] at hsame
      exact ⟨(hsame .state).1, fun c => (hsame c).2⟩

end

/-! ## A pass that goes wrong -/

/-- A dead enemy and a living one, registered in this order. -/
def deadAndAlive : List (ECS.Call (GameInstance fun _ : Empty => Unit)) :=
  [.registerComponents [.state, .type],
    .registerEntity ⟨.state, State.mk entityDead⟩ [⟨.type, TypeComponent.mk .kEnemy⟩],
    .registerEntity ⟨.state, State.mk 3⟩ [⟨.type, TypeComponent.mk .kEnemy⟩]]

/-- The destruction of the dead enemy takes away the place that the references to the
living one point to. -/
theorem last_instance_lost :
    ECS.Settled (deadAndAlive.foldl ECS.History.step {}).ecs ∧
      ¬ KillsExactlyTheDead (deadAndAlive.foldl ECS.History.step {}).ecs := by
  refine ⟨(ECS.History.run_calls deadAndAlive).settled, ?_⟩
  rintro ⟨pass, hrun, -⟩
  have hnone : (Pass.apply (deadAndAlive.foldl ECS.History.step {}).ecs).isNone = true := by
    decide +kernel
  rw [hrun] at hnone
  cases hnone

end Rtype.Server
