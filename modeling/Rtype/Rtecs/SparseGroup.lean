import Mathlib
import Rtype.Foundations.DenseIndex
import Rtype.Rtecs.ECS

/-!
# Rtecs - Groups and their references

A group lists the entities that have all of some components, with a reference to
each of their instances.  A reference is a position in a dense array: it is taken
when the group is built, and the array may change under it.

Main results:

- Theorem {lit}`ECS.group_view`: a new group lists its members and refers to the
  instance of each of them.
- Theorems {lit}`ECS.position_destroyEntity` and {lit}`ECS.sizeOf_destroyEntity`: a
  destruction moves the last entity of a set only, and gives up one position.

Current gaps:

- A list of component types stands for the pack, and the views are found by type.
-/

namespace Rtype.Rtecs

open Std

/-! ## Views -/

/-- {lit}`SparseView<Key, T>`. -/
structure SparseView (α : Type) where
  keyToIndex : ExtTreeMap ℕ ℕ := ∅
  values : Array α := #[]
  indexToKey : Array ℕ := #[]

namespace SparseView

variable {α : Type}

/-- {lit}`SparseView::put`. -/
def put (view : SparseView α) (key : ℕ) (value : α) : SparseView α :=
  { values := view.values.push value
    keyToIndex := view.keyToIndex.insertIfNew key ((view.values.push value).size - 1)
    indexToKey := view.indexToKey.push key }

/-- {lit}`SparseView::at`. -/
def atKey (view : SparseView α) (key : ℕ) : Option α :=
  match view.keyToIndex[key]? with
  | none => none
  | some index => view.values[index]?

/-- {lit}`SparseView::getKeys`. -/
def getKeys (view : SparseView α) : Array ℕ :=
  view.indexToKey

/-- The view is a table of its keys. -/
def WellFormed (view : SparseView α) : Prop :=
  DenseIndex.Represents view.indexToKey view.values (fun key => view.keyToIndex[key]?) view.atKey

theorem atKey_eq_bind (view : SparseView α) (key : ℕ) :
    view.atKey key = (view.keyToIndex[key]?).bind fun i => view.values[i]? := by
  unfold atKey
  cases view.keyToIndex[key]? <;> rfl

theorem wellFormed_empty : ({} : SparseView α).WellFormed :=
  DenseIndex.Represents.empty (fun key => by simp) fun key => by simp [atKey_eq_bind]

variable {view : SparseView α}

/-- A new key is put at the end. -/
theorem WellFormed.put (h : view.WellFormed) {key : ℕ} (hnew : key ∉ view.getKeys) (value : α) :
    (view.put key value).WellFormed ∧
      (view.put key value).atKey = fun a => if a = key then some value else view.atKey a := by
  have habsent : view.keyToIndex[key]? = none := by
    rw [← Option.not_isSome_iff_eq_none]
    exact fun hsome => hnew (h.locates.mem_iff.mpr hsome)
  have hindex : ∀ a, (view.put key value).keyToIndex[a]? =
      if a = key then some view.indexToKey.size else view.keyToIndex[a]? := by
    intro a
    rw [SparseView.put, ExtTreeMap.getElem?_insertIfNew, Array.size_push, h.size_eq,
      Nat.add_sub_cancel]
    by_cases ha : a = key
    · subst ha
      simp [ExtTreeMap.mem_iff_isSome_getElem?, habsent]
    · simp [ha, Ne.symm ha]
  have hpush : DenseIndex.Represents (view.put key value).indexToKey (view.put key value).values
      (fun a => (view.put key value).keyToIndex[a]?)
      fun a => if a = key then some value else view.atKey a :=
    h.push habsent hindex fun a => rfl
  have hmap : (view.put key value).atKey =
      fun a => if a = key then some value else view.atKey a :=
    funext fun a => (atKey_eq_bind _ a).trans (hpush.lookup a).symm
  refine ⟨?_, hmap⟩
  rwa [WellFormed, hmap]

end SparseView

/-! ## Groups -/

/-- {lit}`SparseGroup<Ts...>`: a view of references for each component type. -/
structure SparseGroup (κ : Type) where
  components : List κ
  views : κ → SparseView ℕ := fun _ => {}

/-- {lit}`SparseGroup::getEntities`, the keys of the first view. -/
def SparseGroup.getEntities {κ : Type} (group : SparseGroup κ) : Array ℕ :=
  match group.components with
  | [] => #[]
  | c :: _ => (group.views c).getKeys

/-- {lit}`SparseGroup::apply`, with the state that the callback changes.  The callback
may end in undefined behaviour, which is nothing. -/
def SparseGroup.apply {κ σ : Type} (group : SparseGroup κ)
    (callback : σ → ℕ → List ℕ → Option σ) (s : σ) : Option σ :=
  group.getEntities.toList.foldlM (fun s entity =>
    match group.components.mapM fun c => (group.views c).atKey entity with
    | none => some s
    | some instances => callback s entity instances) s

/-- {lit}`std::min_element`: the first of the smallest elements. -/
def minElement {κ : Type} (less : κ → κ → Bool) : List κ → Option κ
  | [] => none
  | c :: cs => some (cs.foldl (fun smallest c => if less c smallest then c else smallest) c)

namespace ECS

variable {κ : Type} {Component : κ → Type}

/-- The ids in the set of a component. -/
def entitiesOf (ecs : ECS Component) (c : κ) : Array ℕ :=
  match ecs.components c with
  | none => #[]
  | some set => set.getEntities

/-- The entity is in the set of a component. -/
def hasComponent (ecs : ECS Component) (c : κ) (entity : ℕ) : Bool :=
  match ecs.components c with
  | none => false
  | some set => set.has entity

/-- The reference to an instance: its position in the dense array. -/
def position (ecs : ECS Component) (c : κ) (entity : ℕ) : Option ℕ :=
  match ecs.components c with
  | none => none
  | some set => set.position entity

/-- The comparison of two sets by their sizes; a missing set is not less than another
one, nor is another one less than it. -/
def lessSize (ecs : ECS Component) (a b : κ) : Bool :=
  match ecs.components a, ecs.components b with
  | some x, some y => decide (x.size < y.size)
  | _, _ => false

variable [DecidableEq κ]

/-- {lit}`SparseGroup::addEntity`, for each of the views. -/
def addToGroup (ecs : ECS Component) (group : SparseGroup κ) (entityId : ℕ) : SparseGroup κ :=
  { group with
    views := fun c =>
      if c ∈ group.components then
        match ecs.position c entityId with
        | none => group.views c
        | some reference => (group.views c).put entityId reference
      else
        group.views c }

/-- {lit}`ECS::group`: the entities of the smallest set that are in all the sets. -/
def group (ecs : ECS Component) (cs : List κ) : SparseGroup κ :=
  match minElement ecs.lessSize cs with
  | none => { components := cs }
  | some driver =>
      (ecs.entitiesOf driver).toList.foldl (fun group entityId =>
        if cs.all fun c => ecs.hasComponent c entityId then
          ecs.addToGroup group entityId
        else
          group) { components := cs }

/-! ## What a new group refers to -/

omit [DecidableEq κ] in
theorem hasComponent_eq (ecs : ECS Component) (c : κ) (entity : ℕ) :
    ecs.hasComponent c entity = (ecs.position c entity).isSome := by
  unfold hasComponent position
  cases ecs.components c <;> rfl

omit [DecidableEq κ] in
theorem hasComponent_eq_isSome_get (ecs : ECS Component) (c : κ) (entity : ℕ) :
    ecs.hasComponent c entity = (ecs.getEntityComponent entity c).isSome := by
  unfold hasComponent getEntityComponent
  cases ecs.components c with
  | none => rfl
  | some set => exact ComponentSet.has_eq set entity

omit [DecidableEq κ] in
theorem mem_entitiesOf {ecs : ECS Component} {c : κ} {entity : ℕ} :
    entity ∈ ecs.entitiesOf c ↔ ecs.hasComponent c entity = true := by
  unfold entitiesOf hasComponent
  cases ecs.components c with
  | none => simp
  | some set => exact ComponentSet.mem_getEntities

omit [DecidableEq κ] in
theorem nodup_entitiesOf (ecs : ECS Component) (c : κ) : (ecs.entitiesOf c).toList.Nodup := by
  unfold entitiesOf
  cases ecs.components c with
  | none => exact List.nodup_nil
  | some set => exact set.2.locates.nodup

omit [DecidableEq κ] in
/-- The smallest element is one of the elements. -/
theorem minElement_mem {less : κ → κ → Bool} {cs : List κ} {c : κ}
    (h : minElement less cs = some c) : c ∈ cs := by
  have hfold : ∀ (cs : List κ) (d : κ),
      cs.foldl (fun smallest c => if less c smallest then c else smallest) d ∈ d :: cs := by
    intro cs
    induction cs with
    | nil => exact fun d => List.mem_cons_self
    | cons e cs ih =>
        intro d
        rw [List.foldl_cons]
        rcases List.mem_cons.mp (ih (if less e d then e else d)) with hsame | hrest
        · rw [hsame]
          split_ifs <;> simp
        · exact List.mem_cons_of_mem _ (List.mem_cons_of_mem _ hrest)
  cases cs with
  | nil => cases h
  | cons d cs =>
      rw [minElement, Option.some.injEq] at h
      exact h ▸ hfold cs d

/-- The members of a group, in its order. -/
def groupMembers (ecs : ECS Component) (cs : List κ) : List ℕ :=
  match minElement ecs.lessSize cs with
  | none => []
  | some driver =>
      (ecs.entitiesOf driver).toList.filter fun entityId =>
        cs.all fun c => ecs.hasComponent c entityId

omit [DecidableEq κ] in
theorem nodup_groupMembers (ecs : ECS Component) (cs : List κ) : (ecs.groupMembers cs).Nodup := by
  unfold groupMembers
  cases minElement ecs.lessSize cs with
  | none => exact List.nodup_nil
  | some driver => exact (ecs.nodup_entitiesOf driver).filter _

omit [DecidableEq κ] in
/-- The members of a group are the entities that have all its components. -/
theorem mem_groupMembers {ecs : ECS Component} {cs : List κ} {entity : ℕ} (hcs : cs ≠ []) :
    entity ∈ ecs.groupMembers cs ↔ ∀ c ∈ cs, ecs.hasComponent c entity = true := by
  unfold groupMembers
  cases hmin : minElement ecs.lessSize cs with
  | none =>
      cases cs with
      | nil => exact absurd rfl hcs
      | cons c cs => cases hmin
  | some driver =>
      rw [List.mem_filter, Array.mem_toList_iff, mem_entitiesOf, List.all_eq_true]
      exact ⟨fun h => h.2, fun h => ⟨h driver (minElement_mem hmin), h⟩⟩

/-- Adding one entity extends each view by its reference. -/
theorem view_addToGroup {ecs : ECS Component} {group : SparseGroup κ} {c : κ} {entityId : ℕ}
    (hc : c ∈ group.components) (hwf : (group.views c).WellFormed)
    (hnew : entityId ∉ (group.views c).getKeys) (hhas : ecs.hasComponent c entityId = true) :
    ((ecs.addToGroup group entityId).views c).WellFormed ∧
      ((ecs.addToGroup group entityId).views c).getKeys = (group.views c).getKeys.push entityId ∧
      ∀ e, ((ecs.addToGroup group entityId).views c).atKey e =
        if e = entityId then ecs.position c entityId else (group.views c).atKey e := by
  rw [hasComponent_eq, Option.isSome_iff_exists] at hhas
  obtain ⟨reference, hreference⟩ := hhas
  have hview : (ecs.addToGroup group entityId).views c =
      (group.views c).put entityId reference := by
    simp only [addToGroup, if_pos hc, hreference]
  obtain ⟨hwf', hat⟩ := hwf.put hnew reference
  rw [hview, hreference]
  exact ⟨hwf', rfl, fun e => congrFun hat e⟩

/-- Adding distinct entities one after another. -/
theorem view_foldl_addToGroup {ecs : ECS Component} {group : SparseGroup κ} {c : κ}
    {members : List ℕ} (hc : c ∈ group.components) (hwf : (group.views c).WellFormed)
    (hnodup : members.Nodup) (hnew : ∀ e ∈ members, e ∉ (group.views c).getKeys)
    (hhas : ∀ e ∈ members, ecs.hasComponent c e = true) :
    ((members.foldl ecs.addToGroup group).views c).getKeys.toList =
        (group.views c).getKeys.toList ++ members ∧
      ∀ e, ((members.foldl ecs.addToGroup group).views c).atKey e =
        if e ∈ members then ecs.position c e else (group.views c).atKey e := by
  induction members generalizing group with
  | nil => simp
  | cons entityId members ih =>
      obtain ⟨hfirst, hrest⟩ := List.nodup_cons.mp hnodup
      obtain ⟨hwf', hkeys, hat⟩ := view_addToGroup hc hwf (hnew entityId List.mem_cons_self)
        (hhas entityId List.mem_cons_self)
      have hnew' : ∀ e ∈ members, e ∉ ((ecs.addToGroup group entityId).views c).getKeys := by
        intro e he
        rw [hkeys, Array.mem_push, not_or]
        refine ⟨hnew e (List.mem_cons_of_mem _ he), ?_⟩
        rintro rfl
        exact hfirst he
      have hc' : c ∈ (ecs.addToGroup group entityId).components := hc
      obtain ⟨ihkeys, ihat⟩ := ih hc' hwf' hrest hnew' fun e he =>
        hhas e (List.mem_cons_of_mem _ he)
      rw [List.foldl_cons]
      refine ⟨?_, fun e => ?_⟩
      · rw [ihkeys, hkeys]
        simp
      · rw [ihat, hat]
        by_cases he : e = entityId
        · subst he
          simp [hfirst]
        · simp [he]

/-- A new group is the group of its members. -/
theorem group_eq_foldl (ecs : ECS Component) (cs : List κ) :
    ecs.group cs = (ecs.groupMembers cs).foldl ecs.addToGroup { components := cs } := by
  unfold group groupMembers
  cases minElement ecs.lessSize cs with
  | none => rfl
  | some driver => rw [List.foldl_filter]

theorem components_group (ecs : ECS Component) (cs : List κ) :
    (ecs.group cs).components = cs := by
  have hfold : ∀ (members : List ℕ) (group : SparseGroup κ),
      (members.foldl ecs.addToGroup group).components = group.components := by
    intro members
    induction members with
    | nil => exact fun group => rfl
    | cons e members ih => exact fun group => ih (ecs.addToGroup group e)
  rw [group_eq_foldl, hfold]

/-- A view of a new group lists the members, and refers to the instances of the members
only. -/
theorem group_view (ecs : ECS Component) {cs : List κ} {c : κ} (hc : c ∈ cs) :
    ((ecs.group cs).views c).getKeys.toList = ecs.groupMembers cs ∧
      ∀ entity, ((ecs.group cs).views c).atKey entity =
        if entity ∈ ecs.groupMembers cs then ecs.position c entity else none := by
  have hhas : ∀ e ∈ ecs.groupMembers cs, ecs.hasComponent c e = true := fun e he =>
    (mem_groupMembers (List.ne_nil_of_mem hc)).mp he c hc
  have hc' : c ∈ ({ components := cs } : SparseGroup κ).components := hc
  obtain ⟨hkeys, hat⟩ := view_foldl_addToGroup hc' SparseView.wellFormed_empty
    (ecs.nodup_groupMembers cs) (fun e _ => by simp [SparseView.getKeys]) hhas
  rw [group_eq_foldl]
  refine ⟨by simpa [SparseView.getKeys] using hkeys, fun entity => ?_⟩
  rw [hat]
  simp [SparseView.atKey]

/-- The entities of a new group, when it has a component. -/
theorem getEntities_group (ecs : ECS Component) {cs : List κ} (hcs : cs ≠ []) :
    (ecs.group cs).getEntities.toList = ecs.groupMembers cs := by
  have hcomponents := ecs.components_group cs
  unfold SparseGroup.getEntities
  rw [hcomponents]
  cases cs with
  | nil => exact absurd rfl hcs
  | cons c cs => exact (ecs.group_view List.mem_cons_self).1

/-! ## One instance of a new group -/

/-- {lit}`SparseGroup::getEntity` on a new group: the instance that the reference leads
to. -/
def getEntity (ecs : ECS Component) (cs : List κ) (c : κ) (entityId : ℕ) :
    Option (Component c) :=
  match ((ecs.group cs).views c).atKey entityId, ecs.components c with
  | some reference, some set => set.1.getAll[reference]?
  | _, _ => none

/-- A group of one type finds the instance that the store has. -/
theorem getEntity_singleton (ecs : ECS Component) (c : κ) (entityId : ℕ) :
    ecs.getEntity [c] c entityId = ecs.getEntityComponent entityId c := by
  unfold getEntity getEntityComponent
  rw [(group_view ecs (List.mem_singleton_self c)).2]
  have hmember : entityId ∈ ecs.groupMembers [c] ↔ ecs.hasComponent c entityId = true := by
    rw [mem_groupMembers (by simp)]
    simp
  rw [hasComponent_eq] at hmember
  cases hset : ecs.components c with
  | none => split <;> simp_all
  | some set =>
      have hposition : ecs.position c entityId = set.position entityId := by
        simp only [position, hset]
      by_cases hmem : entityId ∈ ecs.groupMembers [c]
      · rw [if_pos hmem, hposition]
        rw [hmember, hposition] at hmem
        obtain ⟨reference, href⟩ := Option.isSome_iff_exists.mp hmem
        rw [href]
        exact ComponentSet.getAll_at href
      · rw [if_neg hmem]
        rw [hmember, hposition, ← ComponentSet.has_eq_isSome_position, ComponentSet.has_eq,
          Bool.not_eq_true, Option.isSome_eq_false_iff, Option.isNone_iff_eq_none] at hmem
        exact hmem.symm

/-! ## References under destruction -/

/-- The number of instances of a component. -/
def sizeOf (ecs : ECS Component) (c : κ) : ℕ :=
  match ecs.components c with
  | none => 0
  | some set => set.size

/-- The entity at the end of the dense array of a component. -/
def lastEntity (ecs : ECS Component) (c : κ) : Option ℕ :=
  (ecs.entitiesOf c).back?

section References

omit [DecidableEq κ]

variable {ecs : ECS Component} {c : κ} {entity : ℕ}

theorem position_lt_sizeOf {i : ℕ} (h : ecs.position c entity = some i) : i < ecs.sizeOf c := by
  unfold position at h
  unfold sizeOf
  cases hset : ecs.components c with
  | none => simp [hset] at h
  | some set =>
      rw [hset] at h
      exact ComponentSet.position_lt_size h

/-- The last entity has the last position. -/
theorem position_lastEntity (h : ecs.lastEntity c = some entity) :
    ecs.position c entity = some (ecs.sizeOf c - 1) := by
  unfold lastEntity entitiesOf at h
  unfold position sizeOf
  cases hset : ecs.components c with
  | none => simp [hset] at h
  | some set =>
      rw [hset] at h
      exact ComponentSet.position_back h

theorem components_destroyEntity_of_none (h : ecs.components c = none) (d : ℕ) :
    (ecs.destroyEntity d).components c = none := by
  simp only [destroyEntity, h, Option.map_none]

theorem components_destroyEntity_of_some {set : ComponentSet (Component c)}
    (h : ecs.components c = some set) (d : ℕ) :
    (ecs.destroyEntity d).components c = some (if set.has d then set.remove d else set) := by
  simp only [destroyEntity, h, Option.map_some]

/-- A destruction gives up the instance of the entity, and no other one. -/
theorem getEntityComponent_destroyEntity (ecs : ECS Component) (d e : ℕ) (c : κ) :
    (ecs.destroyEntity d).getEntityComponent e c =
      if e = d then none else ecs.getEntityComponent e c := by
  unfold getEntityComponent
  cases hset : ecs.components c with
  | none => simp [components_destroyEntity_of_none hset]
  | some set =>
      rw [components_destroyEntity_of_some hset]
      by_cases hhas : set.has d = true
      · simp [hhas]
      · simp only [if_neg hhas]
        by_cases he : e = d
        · subst he
          rw [if_pos rfl]
          rwa [ComponentSet.has_eq, Bool.not_eq_true, Option.isSome_eq_false_iff,
            Option.isNone_iff_eq_none] at hhas
        · rw [if_neg he]

/-- A destruction moves the last entity of a set only. -/
theorem position_destroyEntity {d : ℕ} (hne : entity ≠ d) (hlast : ecs.lastEntity c ≠ some entity) :
    (ecs.destroyEntity d).position c entity = ecs.position c entity := by
  unfold lastEntity entitiesOf at hlast
  unfold position
  cases hset : ecs.components c with
  | none => simp [components_destroyEntity_of_none hset]
  | some set =>
      simp only [hset] at hlast
      rw [components_destroyEntity_of_some hset]
      by_cases hhas : set.has d = true
      · simp only [if_pos hhas]
        exact ComponentSet.position_remove_of_ne hne hlast
      · simp only [if_neg hhas]

/-- A destruction gives up one position of each set that has the entity. -/
theorem sizeOf_destroyEntity (ecs : ECS Component) (c : κ) (d : ℕ) :
    (ecs.destroyEntity d).sizeOf c =
      if ecs.hasComponent c d then ecs.sizeOf c - 1 else ecs.sizeOf c := by
  unfold sizeOf hasComponent
  cases hset : ecs.components c with
  | none => simp [components_destroyEntity_of_none hset]
  | some set =>
      rw [components_destroyEntity_of_some hset]
      by_cases hhas : set.has d = true
      · simp [hhas, ComponentSet.size_remove]
      · simp [hhas]

end References

end ECS

end Rtype.Rtecs
