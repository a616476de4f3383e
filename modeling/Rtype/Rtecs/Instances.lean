import Mathlib
import Rtype.Rtecs.StoreInvariant
import Rtype.Rtecs.SparseGroup

/-!
# Rtecs - What the calls do to the instances

Each call of the store, seen from outside: which entities are live after it, which
types are registered, and which instance an entity has.

Main results:

- Theorems {lit}`getEntityComponent_insert_self` and
  {lit}`getEntityComponent_insert_of_ne`: an insertion changes one instance.
- Theorem {lit}`getEntityComponent_add_self`: of the instances that are given the last one
  of each type is found.
- Theorem {lit}`getEntityComponent_registerEntity_newId`: what a registered entity has, also
  when its id is not new.
- Theorem {lit}`hasComponent_updateEntityComponent`: an update changes nobody's types.

Current gaps:

- None.
-/

namespace Rtype.Rtecs

open Std

namespace ECS

variable {κ : Type} {Component : κ → Type} [DecidableEq κ]

/-! ## One instance -/

section insert

variable (ecs : ECS Component) (entityId : ℕ) (instance_ : Instance Component)

theorem mem_entities_insert {e : ℕ} :
    e ∈ (ecs.insertComponentInstance entityId instance_).entities ↔ e ∈ ecs.entities := by
  unfold insertComponentInstance
  split
  · rename_i mask set hmask hset
    rw [ExtTreeMap.mem_insert]
    refine ⟨fun h => h.elim (fun he => ?_) id, Or.inr⟩
    obtain rfl : entityId = e := by simpa using he
    simp [ExtTreeMap.mem_iff_isSome_getElem?, hmask]
  · rfl

theorem entities_insert_of_ne {e : ℕ} (hne : e ≠ entityId) :
    (ecs.insertComponentInstance entityId instance_).entities[e]? = ecs.entities[e]? := by
  unfold insertComponentInstance
  split
  · rw [ExtTreeMap.getElem?_insert]
    simp [hne.symm]
  · rfl

theorem isSome_components_insert (c : κ) :
    ((ecs.insertComponentInstance entityId instance_).components c).isSome =
      (ecs.components c).isSome := by
  unfold insertComponentInstance
  split
  · rename_i mask set hmask hset
    by_cases hc : c = instance_.1
    · subst hc
      simp [hset]
    · simp only [Function.update_of_ne hc]
  · rfl

variable {ecs entityId instance_}

/-- An instance of a registered type is given to a live entity. -/
theorem getEntityComponent_insert_self (hlive : entityId ∈ ecs.entities)
    (hset : (ecs.components instance_.1).isSome) :
    (ecs.insertComponentInstance entityId instance_).getEntityComponent entityId instance_.1 =
      some instance_.2 := by
  rw [ExtTreeMap.mem_iff_isSome_getElem?] at hlive
  obtain ⟨mask, hmask⟩ := Option.isSome_iff_exists.mp hlive
  obtain ⟨set, hset⟩ := Option.isSome_iff_exists.mp hset
  rw [insertComponentInstance_of_known hmask hset, getEntityComponent]
  simp

/-- Every other instance stays. -/
theorem getEntityComponent_insert_of_ne {e : ℕ} {c : κ} (hne : ¬ (e = entityId ∧ c = instance_.1)) :
    (ecs.insertComponentInstance entityId instance_).getEntityComponent e c =
      ecs.getEntityComponent e c := by
  unfold insertComponentInstance
  split
  · rename_i mask set hmask hset
    unfold getEntityComponent
    by_cases hc : c = instance_.1
    · subst hc
      have he : e ≠ entityId := fun he => hne ⟨he, rfl⟩
      simp [hset, he]
    · simp only [Function.update_of_ne hc]
  · rfl

end insert

/-! ## Lists of instances -/

/-- The last instance of a type in a list. -/
def lastOf (instances : List (Instance Component)) (c : κ) : Option (Component c) :=
  match instances with
  | [] => none
  | instance_ :: rest =>
      (lastOf rest c).or (if hc : instance_.1 = c then some (hc ▸ instance_.2) else none)

theorem lastOf_append (xs ys : List (Instance Component)) (c : κ) :
    lastOf (xs ++ ys) c = (lastOf ys c).or (lastOf xs c) := by
  induction xs with
  | nil => rw [List.nil_append, lastOf, Option.or_none]
  | cons x xs ih => rw [List.cons_append, lastOf, ih, lastOf, Option.or_assoc]

theorem lastOf_singleton_self (c : κ) (value : Component c) :
    lastOf [⟨c, value⟩] c = some value := by
  simp [lastOf]

theorem lastOf_singleton_of_ne {c d : κ} (hd : c ≠ d) (value : Component c) :
    lastOf [⟨c, value⟩] d = none := by
  simp [lastOf, hd]

/-- A type that is not in a list has no last instance in it. -/
theorem lastOf_eq_none {instances : List (Instance Component)} {c : κ}
    (h : c ∉ instances.map Sigma.fst) : lastOf instances c = none := by
  induction instances with
  | nil => rfl
  | cons instance_ rest ih =>
      rw [List.map_cons, List.mem_cons, not_or] at h
      rw [lastOf, ih h.2, dif_neg (Ne.symm h.1), Option.or_none]

section add

variable (ecs : ECS Component) (entity : ℕ) (instances : List (Instance Component))

theorem mem_entities_add {e : ℕ} :
    e ∈ (ecs.addEntityComponents entity instances).entities ↔ e ∈ ecs.entities := by
  induction instances generalizing ecs with
  | nil => rfl
  | cons instance_ instances ih => exact (ih _).trans (mem_entities_insert ..)

theorem entities_add_of_ne {e : ℕ} (hne : e ≠ entity) :
    (ecs.addEntityComponents entity instances).entities[e]? = ecs.entities[e]? := by
  induction instances generalizing ecs with
  | nil => rfl
  | cons instance_ instances ih => exact (ih _).trans (entities_insert_of_ne _ _ _ hne)

theorem isSome_components_add (c : κ) :
    ((ecs.addEntityComponents entity instances).components c).isSome =
      (ecs.components c).isSome := by
  induction instances generalizing ecs with
  | nil => rfl
  | cons instance_ instances ih => exact (ih _).trans (isSome_components_insert ..)

variable {ecs entity instances}

/-- Other entities, and types that are not in the list, are left alone. -/
theorem getEntityComponent_add_of_ne {e : ℕ} {c : κ}
    (hne : e = entity → c ∉ instances.map Sigma.fst) :
    (ecs.addEntityComponents entity instances).getEntityComponent e c =
      ecs.getEntityComponent e c := by
  induction instances generalizing ecs with
  | nil => rfl
  | cons instance_ instances ih =>
      rw [List.map_cons] at hne
      have hfirst : ¬ (e = entity ∧ c = instance_.1) := by
        rintro ⟨he, rfl⟩
        exact hne he List.mem_cons_self
      exact (ih fun he hmem => hne he (List.mem_cons_of_mem _ hmem)).trans
        (getEntityComponent_insert_of_ne hfirst)

/-- A live entity that is given instances has of each registered type the last one, or the
one it had. -/
theorem getEntityComponent_add_self (hlive : entity ∈ ecs.entities) {c : κ}
    (hset : (ecs.components c).isSome) :
    (ecs.addEntityComponents entity instances).getEntityComponent entity c =
      (lastOf instances c).or (ecs.getEntityComponent entity c) := by
  induction instances generalizing ecs with
  | nil => rfl
  | cons instance_ rest ih =>
      have hlive' := (mem_entities_insert ecs entity instance_).mpr hlive
      have hset' : ((ecs.insertComponentInstance entity instance_).components c).isSome := by
        rwa [isSome_components_insert]
      have hstep :
          (ecs.addEntityComponents entity (instance_ :: rest)).getEntityComponent entity c =
            (lastOf rest c).or
              ((ecs.insertComponentInstance entity instance_).getEntityComponent entity c) :=
        ih hlive' hset'
      rw [hstep, lastOf, Option.or_assoc]
      congr 1
      by_cases hc : instance_.1 = c
      · subst hc
        rw [getEntityComponent_insert_self hlive hset, dif_pos rfl, Option.some_or]
      · rw [getEntityComponent_insert_of_ne fun h => hc h.2.symm, dif_neg hc, Option.none_or]

/-- A live entity has a type afterwards when it had it or is given it. -/
theorem hasComponent_add (hlive : entity ∈ ecs.entities) {c : κ}
    (hset : (ecs.components c).isSome)
    (hc : ecs.hasComponent c entity = true ∨ c ∈ instances.map Sigma.fst) :
    (ecs.addEntityComponents entity instances).hasComponent c entity = true := by
  induction instances generalizing ecs with
  | nil => exact hc.resolve_right List.not_mem_nil
  | cons first rest ih =>
      refine ih ((mem_entities_insert ..).mpr hlive) (by rwa [isSome_components_insert]) ?_
      rw [List.map_cons, List.mem_cons] at hc
      by_cases hfirst : c = first.1
      · subst hfirst
        left
        rw [hasComponent_eq_isSome_get, getEntityComponent_insert_self hlive hset]
        rfl
      · refine hc.imp (fun hhas => ?_) fun hmem => hmem.resolve_left hfirst
        rw [hasComponent_eq_isSome_get, getEntityComponent_insert_of_ne fun h => hfirst h.2,
          ← hasComponent_eq_isSome_get]
        exact hhas

/-- Nothing is added to an entity that is not there. -/
theorem addEntityComponents_of_dead (hdead : entity ∉ ecs.entities) :
    ecs.addEntityComponents entity instances = ecs := by
  have hnone : ecs.entities[entity]? = none := by
    exact ExtTreeMap.getElem?_eq_none hdead
  induction instances with
  | nil => rfl
  | cons first rest ih =>
      have hfirst : ecs.insertComponentInstance entity first = ecs := by
        simp only [insertComponentInstance, hnone]
      change (ecs.insertComponentInstance entity first).addEntityComponents entity rest = ecs
      rw [hfirst]
      exact ih

/-- No entity loses a type when instances are added to one. -/
theorem hasComponent_add_of_has {e : ℕ} {c : κ} (h : ecs.hasComponent c e = true) :
    (ecs.addEntityComponents entity instances).hasComponent c e = true := by
  by_cases he : e = entity
  · subst he
    by_cases hlive : e ∈ ecs.entities
    · have hset : (ecs.components c).isSome := by
        unfold hasComponent at h
        split at h
        · cases h
        · rename_i set hset
          rw [hset]
          rfl
      exact hasComponent_add hlive hset (.inl h)
    · rwa [addEntityComponents_of_dead hlive]
  · have hsame : (ecs.addEntityComponents entity instances).getEntityComponent e c =
        ecs.getEntityComponent e c := getEntityComponent_add_of_ne fun heq => absurd heq he
    rwa [hasComponent_eq_isSome_get, hsame, ← hasComponent_eq_isSome_get]

end add

/-! ## New entities -/

section register

variable {ecs : ECS Component} {first : Instance Component} {rest : List (Instance Component)}

omit [DecidableEq κ] in
/-- An empty mask means that none of the types is registered. -/
theorem not_mem_of_getComponentMask_none (hsettled : Settled ecs) {d : κ} {cs : List κ}
    (hnone : (ecs.getComponentMask d cs).none = true) {c : κ}
    (hset : (ecs.components c).isSome) : c ∉ d :: cs := by
  rcases hsettled with ⟨layout, hkeeps⟩
  intro hmem
  have hbit : (ecs.getComponentMask d cs).get (layout.bit c) = true := by
    apply hkeeps.getComponentMask_get.mpr
    exact ⟨c, hmem, by rwa [← hkeeps.registered], rfl⟩
  rw [(DynamicBitSet.none_iff _).mp hnone] at hbit
  cases hbit

omit [DecidableEq κ] in
/-- The mask of a new entity is not empty when its first type is registered. -/
theorem getComponentMask_none (hsettled : Settled ecs) (hset : (ecs.components first.1).isSome)
    (cs : List κ) : (ecs.getComponentMask first.1 cs).none = false := by
  rw [← Bool.not_eq_true]
  intro hnone
  exact not_mem_of_getComponentMask_none hsettled hnone hset List.mem_cons_self

omit [DecidableEq κ] in
theorem mem_entities_insertEntity {entityId e : ℕ} {mask : DynamicBitSet} :
    e ∈ (ecs.insertEntity entityId mask).entities ↔ e = entityId ∨ e ∈ ecs.entities := by
  rw [insertEntity, ExtTreeMap.mem_insertIfNew, Std.compare_eq_iff_eq, eq_comm]

/-- A registered entity. -/
theorem registerEntity_eq (hsettled : Settled ecs) (hset : (ecs.components first.1).isSome) :
    (ecs.registerEntity first rest) =
      ({ (ecs.insertEntity ecs.entitiesID
          (ecs.getComponentMask first.1 (rest.map Sigma.fst))).addEntityComponents
            ecs.entitiesID (first :: rest) with
         entitiesID := (((ecs.insertEntity ecs.entitiesID
          (ecs.getComponentMask first.1 (rest.map Sigma.fst))).addEntityComponents
            ecs.entitiesID (first :: rest)).entitiesID + 1) % 2 ^ 64 }, ecs.entitiesID) := by
  have hnone := getComponentMask_none hsettled hset (rest.map Sigma.fst)
  simp only [registerEntity, hnone, Bool.false_eq_true, if_false]

/-- The new entity gets the id of the counter. -/
theorem registerEntity_id (hsettled : Settled ecs) (hset : (ecs.components first.1).isSome) :
    (ecs.registerEntity first rest).2 = ecs.entitiesID := by
  rw [registerEntity_eq hsettled hset]

theorem mem_entities_registerEntity (hsettled : Settled ecs)
    (hset : (ecs.components first.1).isSome) {e : ℕ} :
    e ∈ (ecs.registerEntity first rest).1.entities ↔ e = ecs.entitiesID ∨ e ∈ ecs.entities := by
  rw [registerEntity_eq hsettled hset]
  exact (mem_entities_add ..).trans mem_entities_insertEntity

theorem entitiesID_registerEntity (hsettled : Settled ecs)
    (hset : (ecs.components first.1).isSome) :
    (ecs.registerEntity first rest).1.entitiesID = (ecs.entitiesID + 1) % 2 ^ 64 := by
  rw [registerEntity_eq hsettled hset]
  exact congrArg (fun id => (id + 1) % 2 ^ 64) (KeepsIds.addEntityComponents _ _ _).counter

/-- The other entities keep their masks. -/
theorem entities_registerEntity_of_ne {e : ℕ} (hne : e ≠ ecs.entitiesID) :
    (ecs.registerEntity first rest).1.entities[e]? = ecs.entities[e]? := by
  unfold registerEntity
  dsimp only
  split_ifs
  · rfl
  · rw [entities_add_of_ne _ _ _ hne, insertEntity, ExtTreeMap.getElem?_insertIfNew, if_neg]
    rintro ⟨heq, -⟩
    exact hne (Std.compare_eq_iff_eq.mp heq).symm

/-- The other entities keep their instances. -/
theorem getEntityComponent_registerEntity_of_ne {e : ℕ} (hne : e ≠ ecs.entitiesID) (c : κ) :
    (ecs.registerEntity first rest).1.getEntityComponent e c = ecs.getEntityComponent e c := by
  unfold registerEntity
  dsimp only
  split_ifs
  · rfl
  · exact getEntityComponent_add_of_ne fun he => absurd he hne

/-- A type of an entity is not lost when another entity is registered, also if that one
gets the same id. -/
theorem hasComponent_registerEntity (hsettled : Settled ecs)
    (hset : (ecs.components first.1).isSome) {e : ℕ} {c : κ} (hc : (ecs.components c).isSome)
    (h : ecs.hasComponent c e = true ∨ e = ecs.entitiesID ∧ c ∈ (first :: rest).map Sigma.fst) :
    (ecs.registerEntity first rest).1.hasComponent c e = true := by
  by_cases he : e = ecs.entitiesID
  · subst he
    rw [registerEntity_eq hsettled hset]
    refine hasComponent_add (mem_entities_insertEntity.mpr (Or.inl rfl)) hc ?_
    exact h.imp id And.right
  · rw [hasComponent_eq_isSome_get, getEntityComponent_registerEntity_of_ne he,
      ← hasComponent_eq_isSome_get]
    exact h.resolve_right fun h => he h.1

/-! ## Ids that are not new -/

omit [DecidableEq κ] in
/-- The id that {lit}`registerEntity` returns. -/
def newId (ecs : ECS Component) (first : Instance Component) (rest : List (Instance Component)) :
    ℕ :=
  if (ecs.getComponentMask first.1 (rest.map Sigma.fst)).none then
    nullEntityID
  else
    ecs.entitiesID

theorem registerEntity_snd : (ecs.registerEntity first rest).2 = ecs.newId first rest := by
  unfold registerEntity newId
  dsimp only
  split_ifs <;> rfl

theorem isSome_components_registerEntity (c : κ) :
    ((ecs.registerEntity first rest).1.components c).isSome = (ecs.components c).isSome := by
  unfold registerEntity
  dsimp only
  split_ifs
  · rfl
  · exact isSome_components_add ..

/-- The entities that are there stay. -/
theorem mem_entities_registerEntity_of_mem {e : ℕ} (he : e ∈ ecs.entities) :
    e ∈ (ecs.registerEntity first rest).1.entities := by
  unfold registerEntity
  dsimp only
  split_ifs
  · exact he
  · exact (mem_entities_add ..).mpr (mem_entities_insertEntity.mpr (.inr he))

/-- The new entity lives when a type of the pack is registered. -/
theorem newId_mem_registerEntity (hsettled : Settled ecs) {c : κ}
    (hmem : c ∈ (first :: rest).map Sigma.fst) (hset : (ecs.components c).isSome) :
    ecs.newId first rest ∈ (ecs.registerEntity first rest).1.entities := by
  have hnone : ¬ (ecs.getComponentMask first.1 (rest.map Sigma.fst)).none = true :=
    fun hnone => not_mem_of_getComponentMask_none hsettled hnone hset hmem
  simp only [newId, registerEntity, if_neg hnone]
  exact (mem_entities_add ..).mpr (mem_entities_insertEntity.mpr (.inl rfl))

/-- All other entities keep their instances. -/
theorem getEntityComponent_registerEntity_of_ne_newId {e : ℕ} (hne : e ≠ ecs.newId first rest)
    (c : κ) :
    (ecs.registerEntity first rest).1.getEntityComponent e c = ecs.getEntityComponent e c := by
  by_cases hnone : (ecs.getComponentMask first.1 (rest.map Sigma.fst)).none = true
  · simp only [registerEntity, hnone, if_true]
  · apply getEntityComponent_registerEntity_of_ne
    simpa only [newId, if_neg hnone] using hne

/-- The entity with the returned id has of each registered type the last instance that was
given, or the one it had. -/
theorem getEntityComponent_registerEntity_newId (hsettled : Settled ecs) {c : κ}
    (hset : (ecs.components c).isSome) :
    (ecs.registerEntity first rest).1.getEntityComponent (ecs.newId first rest) c =
      (lastOf (first :: rest) c).or (ecs.getEntityComponent (ecs.newId first rest) c) := by
  by_cases hnone : (ecs.getComponentMask first.1 (rest.map Sigma.fst)).none = true
  · rw [lastOf_eq_none (not_mem_of_getComponentMask_none hsettled hnone hset), Option.none_or]
    simp only [registerEntity, hnone, if_true]
  · have hid : ecs.newId first rest = ecs.entitiesID := by
      simp only [newId, if_neg hnone]
    rw [hid]
    simp only [registerEntity, if_neg hnone]
    have hinserted : ecs.entitiesID ∈ (ecs.insertEntity ecs.entitiesID
        (ecs.getComponentMask first.1 (rest.map Sigma.fst))).entities :=
      mem_entities_insertEntity.mpr (.inl rfl)
    exact getEntityComponent_add_self hinserted hset

end register

/-! ## Updates -/

section update

variable (ecs : ECS Component) (entityId : ℕ) (newInstance : Instance Component)

theorem entities_updateEntityComponent :
    (ecs.updateEntityComponent entityId newInstance).1.entities = ecs.entities := by
  unfold updateEntityComponent
  split
  · rfl
  · split_ifs <;> rfl

/-- An update changes an instance of an entity that has one. -/
theorem hasComponent_updateEntityComponent (c : κ) (e : ℕ) :
    (ecs.updateEntityComponent entityId newInstance).1.hasComponent c e =
      ecs.hasComponent c e := by
  unfold updateEntityComponent
  split
  · rfl
  · rename_i set hset
    split_ifs with hhas
    · rfl
    · rw [Bool.not_eq_true, Bool.not_eq_false'] at hhas
      unfold hasComponent
      by_cases hc : c = newInstance.1
      · subst hc
        simp only [Function.update_self, hset, ComponentSet.has_put]
        by_cases he : e = entityId
        · rw [he, hhas, Bool.or_true]
        · rw [decide_eq_false he, Bool.false_or]
      · simp only [Function.update_of_ne hc]

/-- An update of an entity without an instance does nothing. -/
theorem updateEntityComponent_of_not_has {ecs : ECS Component} {entityId : ℕ}
    {newInstance : Instance Component} (hhas : ¬ ecs.hasComponent newInstance.1 entityId = true) :
    (ecs.updateEntityComponent entityId newInstance).1 = ecs := by
  unfold hasComponent at hhas
  unfold updateEntityComponent
  split
  · rfl
  · rename_i set hset
    rw [hset] at hhas
    rw [if_pos (by simpa using hhas)]

/-- An update writes the instance of an entity that has one, and no other. -/
theorem getEntityComponent_updateEntityComponent {entityId : ℕ} {newInstance : Instance Component}
    (hhas : ecs.hasComponent newInstance.1 entityId = true) :
    (ecs.updateEntityComponent entityId newInstance).1.getEntityComponent entityId
        newInstance.1 = some newInstance.2 ∧
      ∀ e c, ¬ (e = entityId ∧ c = newInstance.1) →
        (ecs.updateEntityComponent entityId newInstance).1.getEntityComponent e c =
          ecs.getEntityComponent e c := by
  unfold hasComponent at hhas
  unfold updateEntityComponent
  cases hset : ecs.components newInstance.1 with
  | none =>
      rw [hset] at hhas
      cases hhas
  | some set =>
      rw [hset] at hhas
      simp only [hhas, Bool.not_true, Bool.false_eq_true, if_false, getEntityComponent]
      constructor
      · rw [Function.update_self]
        dsimp only
        rw [ComponentSet.get_put, if_pos rfl]
      · intro e c hne
        by_cases hc : c = newInstance.1
        · subst hc
          have he : e ≠ entityId := fun heq => hne ⟨heq, rfl⟩
          rw [Function.update_self, hset]
          dsimp only
          rw [ComponentSet.get_put, if_neg he]
        · rw [Function.update_of_ne hc]

end update

end ECS

end Rtype.Rtecs
