import Mathlib
import Rtype.Rtecs.SparseGroup

/-!
# Rtecs - What a group contains

A system sees the store through groups only.  This file says what a new group is, for
every state of the store and every pack of component types: its entities are the
intersection of the sets, its views agree with each other and with the store, and the
order of the pack does not matter.

Main results:

- Theorem {lit}`ECS.instanceAt_position`: the reference to an instance leads to it.
- Theorem {lit}`ECS.group_apply`: {lit}`apply` makes one call for each entity, with the
  references to its instances.
- Theorem {lit}`ECS.group_is_intersection`: the whole contents of a new group.

Current gaps:

- None.
-/

namespace Rtype.Rtecs.ECS

variable {κ : Type} {Component : κ → Type}

/-! ## References -/

/-- The instance that a reference into the set of a component leads to. -/
def instanceAt (ecs : ECS Component) (c : κ) (reference : ℕ) : Option (Component c) :=
  match ecs.components c with
  | none => none
  | some set => set.1.getAll[reference]?

/-- The reference to an instance of an entity leads to that instance. -/
theorem instanceAt_position {ecs : ECS Component} {c : κ} {entity reference : ℕ}
    (h : ecs.position c entity = some reference) :
    ecs.instanceAt c reference = ecs.getEntityComponent entity c := by
  unfold position at h
  unfold instanceAt getEntityComponent
  cases hset : ecs.components c with
  | none => simp [hset] at h
  | some set =>
      rw [hset] at h
      exact ComponentSet.getAll_at h

/-- An entity has an instance behind each of its references. -/
theorem exists_instanceAt {ecs : ECS Component} {c : κ} {entity reference : ℕ}
    (h : ecs.position c entity = some reference) :
    ∃ value, ecs.instanceAt c reference = some value ∧
      ecs.getEntityComponent entity c = some value := by
  have hholds : (ecs.getEntityComponent entity c).isSome = true := by
    rw [← hasComponent_eq_isSome_get, hasComponent_eq, h, Option.isSome_some]
  rcases Option.isSome_iff_exists.mp hholds with ⟨value, hvalue⟩
  exact ⟨value, (instanceAt_position h).trans hvalue, hvalue⟩

/-- No entity has an unregistered component. -/
theorem getEntityComponent_of_unregistered {ecs : ECS Component} {c : κ}
    (h : ecs.components c = none) (entity : ℕ) : ecs.getEntityComponent entity c = none := by
  simp only [getEntityComponent, h]

variable [DecidableEq κ]

theorem getEntity_eq_bind (ecs : ECS Component) (cs : List κ) (c : κ) (entity : ℕ) :
    ecs.getEntity cs c entity =
      (((ecs.group cs).views c).atKey entity).bind (ecs.instanceAt c) := by
  unfold getEntity instanceAt
  cases ((ecs.group cs).views c).atKey entity with
  | none => rfl
  | some reference =>
      cases ecs.components c with
      | none => rfl
      | some set => rfl

/-! ## Members -/

/-- The entities of a new group are those that hold all the components of the pack. -/
theorem mem_getEntities_group {ecs : ECS Component} {c : κ} {cs : List κ} {entity : ℕ} :
    entity ∈ (ecs.group (c :: cs)).getEntities ↔
      ∀ d ∈ c :: cs, (ecs.getEntityComponent entity d).isSome = true := by
  rw [← Array.mem_toList_iff, getEntities_group ecs (List.cons_ne_nil c cs),
    mem_groupMembers (List.cons_ne_nil c cs)]
  simp only [hasComponent_eq_isSome_get]

theorem nodup_getEntities_group (ecs : ECS Component) (c : κ) (cs : List κ) :
    (ecs.group (c :: cs)).getEntities.toList.Nodup := by
  rw [getEntities_group ecs (List.cons_ne_nil c cs)]
  exact ecs.nodup_groupMembers (c :: cs)

/-- With an unregistered component in the pack there is nothing to list. -/
theorem getEntities_group_of_unregistered {ecs : ECS Component} {c d : κ} {cs : List κ}
    (hd : d ∈ c :: cs) (h : ecs.components d = none) :
    (ecs.group (c :: cs)).getEntities = #[] := by
  apply Array.eq_empty_iff_forall_not_mem.mpr
  intro entity hentity
  have hholds := mem_getEntities_group.mp hentity d hd
  rw [getEntityComponent_of_unregistered h] at hholds
  cases hholds

/-! ## Views -/

/-- All views list the entities of the group, in the same order. -/
theorem getKeys_group (ecs : ECS Component) {c d : κ} {cs : List κ} (hd : d ∈ c :: cs) :
    ((ecs.group (c :: cs)).views d).getKeys = (ecs.group (c :: cs)).getEntities := by
  apply Array.toList_inj.mp
  rw [(ecs.group_view hd).1, getEntities_group ecs (List.cons_ne_nil c cs)]

/-- A view refers to the instance of each entity of the group. -/
theorem position_of_mem_group {ecs : ECS Component} {c d : κ} {cs : List κ} {entity : ℕ}
    (hd : d ∈ c :: cs) (h : entity ∈ (ecs.group (c :: cs)).getEntities) :
    ∃ reference, ecs.position d entity = some reference ∧
      ((ecs.group (c :: cs)).views d).atKey entity = some reference := by
  have hholds := mem_getEntities_group.mp h d hd
  rw [← hasComponent_eq_isSome_get, hasComponent_eq] at hholds
  rcases Option.isSome_iff_exists.mp hholds with ⟨reference, hreference⟩
  rw [← Array.mem_toList_iff, getEntities_group ecs (List.cons_ne_nil c cs)] at h
  exact ⟨reference, hreference, by rw [(ecs.group_view hd).2, if_pos h, hreference]⟩

/-- The group finds the instance that the store has, for its entities only. -/
theorem getEntity_group (ecs : ECS Component) {c d : κ} {cs : List κ} (hd : d ∈ c :: cs)
    (entity : ℕ) :
    ecs.getEntity (c :: cs) d entity =
      if entity ∈ (ecs.group (c :: cs)).getEntities then ecs.getEntityComponent entity d
      else none := by
  rw [getEntity_eq_bind]
  split_ifs with hentity
  · rcases position_of_mem_group hd hentity with ⟨reference, hreference, hat⟩
    rw [hat, Option.bind_some, instanceAt_position hreference]
  · rw [(ecs.group_view hd).2, if_neg]
    · rfl
    · rwa [← Array.mem_toList_iff, getEntities_group ecs (List.cons_ne_nil c cs)] at hentity

/-! ## Calls -/

/-- The references of an entity, one for each component of the pack. -/
def OwnReferences (ecs : ECS Component) (cs : List κ) (entity : ℕ) (references : List ℕ) : Prop :=
  List.Forall₂ (fun c reference => ecs.position c entity = some reference) cs references

omit [DecidableEq κ] in
/-- The references that the views have for an entity are its own. -/
theorem exists_ownReferences {ecs : ECS Component} {cs : List κ} {entity : ℕ}
    {view : κ → Option ℕ}
    (h : ∀ c ∈ cs, ∃ reference, ecs.position c entity = some reference ∧
      view c = some reference) :
    ∃ references, ecs.OwnReferences cs entity references ∧ cs.mapM view = some references := by
  induction cs with
  | nil => exact ⟨[], List.Forall₂.nil, rfl⟩
  | cons c cs ih =>
      rcases h c List.mem_cons_self with ⟨reference, hown, hview⟩
      rcases ih fun d hd => h d (List.mem_cons_of_mem c hd) with ⟨references, howns, hviews⟩
      refine ⟨reference :: references, List.Forall₂.cons hown howns, ?_⟩
      simp [List.mapM_cons, hview, hviews]

/-- {lit}`apply` makes the calls of a list: one for each entity of the group, in its
order, with the references of that entity. -/
structure MakesCalls (ecs : ECS Component) (c : κ) (cs : List κ) (calls : List (ℕ × List ℕ)) :
    Prop where
  entities : calls.map Prod.fst = (ecs.group (c :: cs)).getEntities.toList
  own : ∀ call ∈ calls, ecs.OwnReferences (c :: cs) call.1 call.2
  run : ∀ (σ : Type) (callback : σ → ℕ → List ℕ → Option σ) (s : σ),
    (ecs.group (c :: cs)).apply callback s =
      calls.foldlM (fun s call => callback s call.1 call.2) s

theorem group_apply (ecs : ECS Component) (c : κ) (cs : List κ) :
    ∃ calls, ecs.MakesCalls c cs calls := by
  have hcalls : ∀ entities : List ℕ,
      (∀ entity ∈ entities, entity ∈ (ecs.group (c :: cs)).getEntities) →
      ∃ calls : List (ℕ × List ℕ), calls.map Prod.fst = entities ∧
        (∀ call ∈ calls, ecs.OwnReferences (c :: cs) call.1 call.2) ∧
        ∀ (σ : Type) (callback : σ → ℕ → List ℕ → Option σ) (s : σ),
          entities.foldlM (fun s entity =>
            ((c :: cs).mapM fun d => ((ecs.group (c :: cs)).views d).atKey entity).elim (some s)
              (callback s entity)) s =
          calls.foldlM (fun s call => callback s call.1 call.2) s := by
    intro entities hmem
    induction entities with
    | nil => exact ⟨[], rfl, by simp, fun σ callback s => rfl⟩
    | cons entity entities ih =>
        rcases exists_ownReferences fun d hd =>
          position_of_mem_group hd (hmem entity List.mem_cons_self) with ⟨references, hown, hviews⟩
        rcases ih fun e he => hmem e (List.mem_cons_of_mem entity he) with
          ⟨calls, hentities, howns, hrun⟩
        refine ⟨(entity, references) :: calls, by rw [List.map_cons, hentities], ?_, ?_⟩
        · intro call hcall
          rcases List.mem_cons.mp hcall with rfl | hcall
          · exact hown
          · exact howns call hcall
        · intro σ callback s
          rw [List.foldlM_cons, List.foldlM_cons, hviews]
          apply Option.bind_congr
          intro s' _
          exact hrun σ callback s'
  rcases hcalls _ fun entity hentity => Array.mem_toList_iff.mp hentity with
    ⟨calls, hentities, hown, hrun⟩
  refine ⟨calls, hentities, hown, fun σ callback s => ?_⟩
  rw [← hrun σ callback s, SparseGroup.apply, components_group]
  congr 1
  ext1 s
  ext1 entity
  cases (c :: cs).mapM fun d => ((ecs.group (c :: cs)).views d).atKey entity with
  | none => rfl
  | some instances => rfl

/-! ## The intersection -/

/-- A new group on a pack, which has a first type, in every state of the store. -/
theorem group_is_intersection (ecs : ECS Component) (c : κ) (cs : List κ) :
    (∀ entity, entity ∈ (ecs.group (c :: cs)).getEntities ↔
      ∀ d ∈ c :: cs, (ecs.getEntityComponent entity d).isSome = true) ∧
    (∀ d ∈ c :: cs, ecs.components d = none → (ecs.group (c :: cs)).getEntities = #[]) ∧
    (ecs.group (c :: cs)).getEntities.toList.Nodup ∧
    (∀ d ∈ c :: cs, ((ecs.group (c :: cs)).views d).getKeys =
      (ecs.group (c :: cs)).getEntities) ∧
    (∀ d ∈ c :: cs, ∀ entity, ecs.getEntity (c :: cs) d entity =
      if entity ∈ (ecs.group (c :: cs)).getEntities then ecs.getEntityComponent entity d
      else none) ∧
    (∀ d ∈ c :: cs, ∀ entity ∈ (ecs.group (c :: cs)).getEntities,
      ((ecs.group (c :: cs)).views d).atKey entity = ecs.position d entity) ∧
    (∀ d entity reference, ecs.position d entity = some reference →
      ecs.instanceAt d reference = ecs.getEntityComponent entity d) ∧
    (∃ calls, ecs.MakesCalls c cs calls) ∧
    ∀ d ds, List.Perm (c :: cs) (d :: ds) → ∀ entity,
      entity ∈ (ecs.group (d :: ds)).getEntities ↔
        entity ∈ (ecs.group (c :: cs)).getEntities := by
  refine ⟨fun entity => mem_getEntities_group,
    fun d hd hnone => getEntities_group_of_unregistered hd hnone,
    ecs.nodup_getEntities_group c cs, fun d hd => ecs.getKeys_group hd,
    fun d hd entity => ecs.getEntity_group hd entity, ?_,
    fun d entity reference => instanceAt_position, ecs.group_apply c cs, ?_⟩
  · intro d hd entity hentity
    rcases position_of_mem_group hd hentity with ⟨reference, hreference, hat⟩
    rw [hat, hreference]
  · intro d ds hperm entity
    rw [mem_getEntities_group, mem_getEntities_group]
    constructor
    · intro h e he
      exact h e (hperm.mem_iff.mp he)
    · intro h e he
      exact h e (hperm.mem_iff.mpr he)

end Rtype.Rtecs.ECS
