import Mathlib
import Rtype.Rtecs.DynamicBitSet
import Rtype.Rtecs.SparseSet

/-!
# Rtecs - The entity component store

The store keeps for each entity a mask with one bit for each of its components,
and for each registered component type a sparse set of instances.  A component
type is given a bit by shifting an index to the right, and the same fact, which
entity has which component, is kept in both places.

Main results:

- Structure {lit}`ECS` and the calls on it.
- Function {lit}`History.step`: one call, with the ids that the store hands out.

Current gaps:

- The systems are not part of the store here.
-/

namespace Rtype.Rtecs

open Std

/-- {lit}`types::NullEntityID`. -/
def nullEntityID : ℕ := 2 ^ 64 - 1

/-- An instance with its component type. -/
abbrev Instance {κ : Type} (Component : κ → Type) :=
  (c : κ) × Component c

/-- {lit}`rtecs::ECS`.  The component types are the members of {lit}`κ`: the maps are
keyed by their hash codes, which are distinct. -/
structure ECS {κ : Type} (Component : κ → Type) where
  entities : ExtTreeMap ℕ DynamicBitSet := ∅
  entitiesID : ℕ := 0
  components : (c : κ) → Option (ComponentSet (Component c)) := fun _ => none
  componentsMasks : κ → Option DynamicBitSet := fun _ => none
  componentMaskIndex : DynamicBitSet := { bitsets := [(1 : Block) <<< 63] }

namespace ECS

variable {κ : Type} {Component : κ → Type}

/-! ## Masks -/

/-- {lit}`ECS::getComponentMaskHelper`: an unregistered component has the empty mask. -/
def getComponentMaskHelper (ecs : ECS Component) (c : κ) : DynamicBitSet :=
  (ecs.componentsMasks c).getD {}

/-- {lit}`ECS::getComponentMask`: the masks of the types, folded from the right. -/
def getComponentMask (ecs : ECS Component) : κ → List κ → DynamicBitSet
  | c, [] => ecs.getComponentMaskHelper c
  | c, d :: cs => (ecs.getComponentMaskHelper c).or (ecs.getComponentMask d cs)

/-- {lit}`ECS::getEntityMask`. -/
def getEntityMask (ecs : ECS Component) (entityId : ℕ) : DynamicBitSet :=
  ecs.entities[entityId]?.getD {}

variable [DecidableEq κ]

omit [DecidableEq κ] in
/-- The start of {lit}`ECS::registerComponent`: the index moves to the next bit, into a
new block when it would be lost. -/
def nextMaskIndex (ecs : ECS Component) : DynamicBitSet :=
  let increased :=
    if (ecs.componentMaskIndex.rightShift 1).none then
      ecs.componentMaskIndex.increase 1
    else
      ecs.componentMaskIndex
  increased.rightShift 1

/-- {lit}`ECS::registerComponent`.  The index moves also when the component is
registered already. -/
def registerComponent (ecs : ECS Component) (c : κ) : ECS Component :=
  let mask := ecs.nextMaskIndex
  if (ecs.components c).isSome then
    { ecs with componentMaskIndex := mask }
  else
    { ecs with
      componentMaskIndex := mask
      componentsMasks := Function.update ecs.componentsMasks c
        (some ((ecs.componentsMasks c).getD mask))
      components := Function.update ecs.components c (some ComponentSet.empty) }

/-- {lit}`ECS::registerComponents`. -/
def registerComponents (ecs : ECS Component) (cs : List κ) : ECS Component :=
  cs.foldl registerComponent ecs

/-! ## Entities -/

/-- {lit}`ECS::insertComponentInstance`: nothing happens for an unknown entity or an
unregistered component. -/
def insertComponentInstance (ecs : ECS Component) (entityId : ℕ) (instance_ : Instance Component) :
    ECS Component :=
  match ecs.entities[entityId]?, ecs.components instance_.1 with
  | some mask, some set =>
      { ecs with
        entities := ecs.entities.insert entityId
          (mask.orAssign (ecs.getComponentMask instance_.1 []))
        components := Function.update ecs.components instance_.1
          (some (set.put entityId instance_.2)) }
  | _, _ => ecs

/-- {lit}`ECS::addEntityComponents`. -/
def addEntityComponents (ecs : ECS Component) (entity : ℕ) (instances : List (Instance Component)) :
    ECS Component :=
  instances.foldl (fun ecs instance_ => ecs.insertComponentInstance entity instance_) ecs

omit [DecidableEq κ] in
/-- The insertion into {lit}`_entities`, which keeps an entry that is there. -/
def insertEntity (ecs : ECS Component) (entityId : ℕ) (mask : DynamicBitSet) : ECS Component :=
  { ecs with entities := ecs.entities.insertIfNew entityId mask }

/-- {lit}`ECS::registerEntity`: the store and the id that is returned. -/
def registerEntity (ecs : ECS Component) (first : Instance Component)
    (rest : List (Instance Component)) : ECS Component × ℕ :=
  let entityId := ecs.entitiesID
  let mask := ecs.getComponentMask first.1 (rest.map Sigma.fst)
  if mask.none then
    (ecs, nullEntityID)
  else
    let added := (ecs.insertEntity entityId mask).addEntityComponents entityId (first :: rest)
    ({ added with entitiesID := (added.entitiesID + 1) % 2 ^ 64 }, entityId)

omit [DecidableEq κ] in
/-- {lit}`ECS::preRegisterEntity`: the store and the id that is returned. -/
def preRegisterEntity (ecs : ECS Component) : ECS Component × ℕ :=
  let entityId := ecs.entitiesID
  ({ ecs.insertEntity entityId {} with entitiesID := (ecs.entitiesID + 1) % 2 ^ 64 }, entityId)

omit [DecidableEq κ] in
/-- {lit}`ECS::getEntityComponent`. -/
def getEntityComponent (ecs : ECS Component) (entityId : ℕ) (c : κ) : Option (Component c) :=
  match ecs.components c with
  | none => none
  | some set => set.get entityId

/-- {lit}`ECS::updateEntityComponent`. -/
def updateEntityComponent (ecs : ECS Component) (entityId : ℕ) (newInstance : Instance Component) :
    ECS Component × Bool :=
  match ecs.components newInstance.1 with
  | none => (ecs, false)
  | some set =>
      if !set.has entityId then
        (ecs, false)
      else
        ({ ecs with
           components := Function.update ecs.components newInstance.1
             (some (set.put entityId newInstance.2)) }, true)

/-- {lit}`ECS::updateEntity`, which stops at the first component that fails. -/
def updateEntity (ecs : ECS Component) (entityId : ℕ) :
    List (Instance Component) → ECS Component × Bool
  | [] => (ecs, true)
  | newInstance :: newInstances =>
      match ecs.updateEntityComponent entityId newInstance with
      | (ecs, true) => ecs.updateEntity entityId newInstances
      | (ecs, false) => (ecs, false)

omit [DecidableEq κ] in
/-- {lit}`ECS::destroyEntity`. -/
def destroyEntity (ecs : ECS Component) (entityId : ℕ) : ECS Component :=
  { ecs with
    components := fun c => (ecs.components c).map fun set =>
      if set.has entityId then set.remove entityId else set
    entities := ecs.entities.erase entityId }

theorem registerComponent_of_known {ecs : ECS Component} {c : κ}
    (h : (ecs.components c).isSome = true) :
    ecs.registerComponent c = { ecs with componentMaskIndex := ecs.nextMaskIndex } := by
  simp only [registerComponent, h, if_true]

theorem registerComponent_of_new {ecs : ECS Component} {c : κ}
    (h : ¬ (ecs.components c).isSome = true) (hmask : ecs.componentsMasks c = none) :
    ecs.registerComponent c =
      { ecs with
        componentMaskIndex := ecs.nextMaskIndex
        componentsMasks := Function.update ecs.componentsMasks c (some ecs.nextMaskIndex)
        components := Function.update ecs.components c (some ComponentSet.empty) } := by
  simp only [registerComponent, if_neg h, hmask, Option.getD_none]

theorem insertComponentInstance_of_known {ecs : ECS Component} {entityId : ℕ}
    {instance_ : Instance Component} {mask : DynamicBitSet}
    {set : ComponentSet (Component instance_.1)} (hmask : ecs.entities[entityId]? = some mask)
    (hset : ecs.components instance_.1 = some set) :
    ecs.insertComponentInstance entityId instance_ =
      { ecs with
        entities := ecs.entities.insert entityId
          (mask.orAssign (ecs.getComponentMask instance_.1 []))
        components := Function.update ecs.components instance_.1
          (some (set.put entityId instance_.2)) } := by
  simp only [insertComponentInstance, hmask, hset]

theorem insertComponentInstance_of_unknown {ecs : ECS Component} {entityId : ℕ}
    {instance_ : Instance Component}
    (h : ecs.entities[entityId]? = none ∨ ecs.components instance_.1 = none) :
    ecs.insertComponentInstance entityId instance_ = ecs := by
  unfold insertComponentInstance
  split
  · rename_i hmask hset
    rcases h with h | h
    · rw [hmask] at h
      cases h
    · rw [hset] at h
      cases h
  · rfl

/-! ## Calls -/

/-- A call on the store. -/
inductive Call (Component : κ → Type)
  | registerComponents (cs : List κ)
  | preRegisterEntity
  | registerEntity (first : Instance Component) (rest : List (Instance Component))
  | addEntityComponents (entity : ℕ) (instances : List (Instance Component))
  | updateEntity (entityId : ℕ) (newInstances : List (Instance Component))
  | destroyEntity (entityId : ℕ)

/-- The store with the list of the ids it has handed out. -/
structure History (Component : κ → Type) where
  ecs : ECS Component := {}
  issued : List ℕ := []

/-- A call on the store; an id is handed out when a new entity is inserted. -/
def History.step (history : History Component) : Call Component → History Component
  | .registerComponents cs => { history with ecs := history.ecs.registerComponents cs }
  | .preRegisterEntity =>
      { ecs := history.ecs.preRegisterEntity.1
        issued := history.issued ++ [history.ecs.preRegisterEntity.2] }
  | .registerEntity first rest =>
      { ecs := (history.ecs.registerEntity first rest).1
        issued :=
          if (history.ecs.getComponentMask first.1 (rest.map Sigma.fst)).none then
            history.issued
          else
            history.issued ++ [(history.ecs.registerEntity first rest).2] }
  | .addEntityComponents entity instances =>
      { history with ecs := history.ecs.addEntityComponents entity instances }
  | .updateEntity entityId newInstances =>
      { history with ecs := (history.ecs.updateEntity entityId newInstances).1 }
  | .destroyEntity entityId => { history with ecs := history.ecs.destroyEntity entityId }

end ECS

end Rtype.Rtecs
