import Mathlib
import Rtype.Rtecs.Instances
import Rtype.Rtecs.Registration

/-!
# Rteng - The game engine

The engine wraps a store and keeps the state of the game beside it.  It registers the
components of a list and then its own component, the behaviour.

Main results:

- Theorem {lit}`GameEngine.new_reached`: a new engine has registered its list first.
- Theorem {lit}`mem_entities_destroyAll`: what is left of the entities after a list of
  them was destroyed.

Current gaps:

- The systems of an engine are modelled with the lobby that registers them.
-/

namespace Rtype.Rteng

open Rtype.Rtecs
open Std

variable {κ : Type} {Component : κ → Type}

/-- {lit}`GameEngine`. -/
structure GameEngine (Component : κ → Type) where
  ecs : ECS Component
  gameState : ℕ := 0
  menuState : ℕ := 0

/-- {lit}`ECS::getAllEntities`. -/
def getAllEntities (ecs : ECS Component) : List ℕ :=
  ecs.entities.keys

/-- Entities destroyed one after another. -/
def destroyAll (ecs : ECS Component) (ids : List ℕ) : ECS Component :=
  ids.foldl ECS.destroyEntity ecs

variable [DecidableEq κ]

/-- The constructor of {lit}`GameEngine`. -/
def GameEngine.new (components : List κ) (behaviour : κ) : GameEngine Component where
  ecs := ({} : ECS Component).registerComponents (components ++ [behaviour])

/-- The entities that {lit}`GameEngine::removeAllOf` collects: they have the component, and
it is equal to the given one. -/
def toDestroy (ecs : ECS Component) (c : κ) (equal : Component c → Bool) : List ℕ :=
  (getAllEntities ecs).filter fun entity =>
    match ecs.getEntity [c] c entity with
    | none => false
    | some component => equal component

/-! ## What the engine does to its store -/

theorem GameEngine.new_reached (components : List κ) (behaviour : κ) :
    ECS.Reached components (GameEngine.new components behaviour : GameEngine Component).ecs := by
  refine ⟨[.registerComponents [behaviour]], ?_⟩
  exact List.foldl_append ..

omit [DecidableEq κ] in
theorem mem_getAllEntities {ecs : ECS Component} {e : ℕ} :
    e ∈ getAllEntities ecs ↔ e ∈ ecs.entities :=
  ExtTreeMap.mem_keys

omit [DecidableEq κ] in
theorem mem_entities_destroyEntity {ecs : ECS Component} {d e : ℕ} :
    e ∈ (ecs.destroyEntity d).entities ↔ e ≠ d ∧ e ∈ ecs.entities := by
  rw [ECS.destroyEntity, ExtTreeMap.mem_erase, ne_eq, Std.compare_eq_iff_eq]
  exact and_congr_left' (not_congr eq_comm)

omit [DecidableEq κ] in
theorem hasComponent_destroyEntity {ecs : ECS Component} {d e : ℕ} (hne : e ≠ d) (c : κ) :
    (ecs.destroyEntity d).hasComponent c e = ecs.hasComponent c e := by
  rw [ECS.hasComponent_eq_isSome_get, ECS.getEntityComponent_destroyEntity, if_neg hne,
    ← ECS.hasComponent_eq_isSome_get]

omit [DecidableEq κ] in
theorem mem_entities_destroyAll {ecs : ECS Component} {ids : List ℕ} {e : ℕ} :
    e ∈ (destroyAll ecs ids).entities ↔ e ∉ ids ∧ e ∈ ecs.entities := by
  induction ids generalizing ecs with
  | nil => simp [destroyAll]
  | cons d ids ih =>
      change e ∈ (destroyAll (ecs.destroyEntity d) ids).entities ↔ _
      rw [ih, mem_entities_destroyEntity, List.mem_cons]
      tauto

omit [DecidableEq κ] in
theorem hasComponent_destroyAll {ecs : ECS Component} {ids : List ℕ} {e : ℕ} (h : e ∉ ids)
    (c : κ) : (destroyAll ecs ids).hasComponent c e = ecs.hasComponent c e := by
  induction ids generalizing ecs with
  | nil => rfl
  | cons d ids ih =>
      rw [List.mem_cons, not_or] at h
      exact (ih h.2).trans (hasComponent_destroyEntity h.1 c)

omit [DecidableEq κ] in
/-- Destroyed entities have no components, and the others keep theirs. -/
theorem getEntityComponent_destroyAll {ecs : ECS Component} {ids : List ℕ} {e : ℕ} (c : κ) :
    (destroyAll ecs ids).getEntityComponent e c =
      if e ∈ ids then none else ecs.getEntityComponent e c := by
  induction ids generalizing ecs with
  | nil => simp [destroyAll]
  | cons d ids ih =>
      change (destroyAll (ecs.destroyEntity d) ids).getEntityComponent e c = _
      rw [ih, ECS.getEntityComponent_destroyEntity]
      by_cases hrest : e ∈ ids
      · rw [if_pos hrest, if_pos (List.mem_cons_of_mem d hrest)]
      · rw [if_neg hrest]
        simp only [List.mem_cons, hrest, or_false]

omit [DecidableEq κ] in
/-- The entities that are not destroyed keep their masks. -/
theorem mask_destroyAll {ecs : ECS Component} {ids : List ℕ} {e : ℕ} (h : e ∉ ids) :
    (destroyAll ecs ids).entities[e]? = ecs.entities[e]? := by
  induction ids generalizing ecs with
  | nil => rfl
  | cons d ids ih =>
      rw [List.mem_cons, not_or] at h
      change (destroyAll (ecs.destroyEntity d) ids).entities[e]? = _
      rw [ih h.2, ECS.destroyEntity, ExtTreeMap.getElem?_erase, if_neg]
      rw [Std.compare_eq_iff_eq]
      exact fun heq => h.1 heq.symm

/-- {lit}`GameEngine::removeAllOf` collects the live entities with the given component. -/
theorem mem_toDestroy {ecs : ECS Component} {e : ℕ} {c : κ} {equal : Component c → Bool} :
    e ∈ toDestroy ecs c equal ↔ e ∈ ecs.entities ∧
      ∃ component, ecs.getEntityComponent e c = some component ∧ equal component = true := by
  rw [toDestroy, List.mem_filter, mem_getAllEntities, ECS.getEntity_singleton]
  cases ecs.getEntityComponent e c with
  | none => simp
  | some component => simp

theorem nodup_toDestroy (ecs : ECS Component) (c : κ) (equal : Component c → Bool) :
    (toDestroy ecs c equal).Nodup :=
  ExtTreeMap.nodup_keys.filter _

end Rtype.Rteng

namespace Rtype.Rtecs.ECS.Registered

open Rtype.Rteng

variable {κ : Type} {Component : κ → Type} [DecidableEq κ] {cs : List κ} {ecs : ECS Component}

theorem registerEntity (h : Registered cs ecs) (first : Instance Component)
    (rest : List (Instance Component)) : Registered cs (ecs.registerEntity first rest).1 :=
  h.call (.registerEntity first rest)

theorem preRegisterEntity (h : Registered cs ecs) : Registered cs ecs.preRegisterEntity.1 :=
  h.call .preRegisterEntity

theorem addEntityComponents (h : Registered cs ecs) (entity : ℕ)
    (instances : List (Instance Component)) :
    Registered cs (ecs.addEntityComponents entity instances) :=
  h.call (.addEntityComponents entity instances)

theorem updateEntityComponent (h : Registered cs ecs) (entityId : ℕ)
    (newInstance : Instance Component) :
    Registered cs (ecs.updateEntityComponent entityId newInstance).1 := by
  have hupdate : Registered cs (ecs.updateEntity entityId [newInstance]).1 :=
    h.call (.updateEntity entityId [newInstance])
  unfold ECS.updateEntity at hupdate
  split at hupdate
  · rename_i ecs' heq
    rw [heq]
    exact hupdate
  · rename_i ecs' heq
    rw [heq]
    exact hupdate

theorem destroyEntity (h : Registered cs ecs) (entityId : ℕ) :
    Registered cs (ecs.destroyEntity entityId) :=
  h.call (.destroyEntity entityId)

theorem destroyAll (h : Registered cs ecs) (ids : List ℕ) : Registered cs (destroyAll ecs ids) := by
  induction ids generalizing ecs with
  | nil => exact h
  | cons d ids ih => exact ih (h.destroyEntity d)

end Rtype.Rtecs.ECS.Registered
