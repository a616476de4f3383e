import Mathlib
import Rtype.Rtecs.StoreInvariant
import Rtype.Rtecs.SparseGroup

/-!
# Rtecs - Component types that are registered first

Two stores that register the same list of component types before anything else give
these types the same places in their masks, whatever happens to the stores later.

Main results:

- Structure {lit}`Registered`: the types of a list have the places that follow from
  the list.
- Theorem {lit}`Reached.registered`: this holds in every store that registered the
  list first.
- Theorem {lit}`Registered.mask_get`: in the mask of an entity the place of a type
  tells whether the entity has it.

Current gaps:

- None.
-/

namespace Rtype.Rtecs

open Std

namespace ECS

variable {κ : Type} {Component : κ → Type} [DecidableEq κ]

/-! ## Masks are kept -/

theorem registerComponents_append (ecs : ECS Component) (cs ds : List κ) :
    ecs.registerComponents (cs ++ ds) = (ecs.registerComponents cs).registerComponents ds :=
  List.foldl_append

/-- A registration takes no mask away. -/
theorem registerComponent_keeps_mask {ecs : ECS Component} {c : κ} {mask : DynamicBitSet}
    (h : ecs.componentsMasks c = some mask) (d : κ) :
    (ecs.registerComponent d).componentsMasks c = some mask := by
  unfold registerComponent
  dsimp only
  split_ifs
  · exact h
  · by_cases hd : c = d
    · subst hd
      simp [h]
    · simp only [Function.update_of_ne hd]
      exact h

theorem registerComponents_keeps_mask {ecs : ECS Component} {c : κ} {mask : DynamicBitSet}
    (h : ecs.componentsMasks c = some mask) (cs : List κ) :
    (ecs.registerComponents cs).componentsMasks c = some mask := by
  induction cs generalizing ecs with
  | nil => exact h
  | cons d cs ih => exact ih (registerComponent_keeps_mask h d)

theorem insertComponentInstance_masks (ecs : ECS Component) (entityId : ℕ)
    (instance_ : Instance Component) :
    (ecs.insertComponentInstance entityId instance_).componentsMasks = ecs.componentsMasks := by
  unfold insertComponentInstance
  split <;> rfl

theorem addEntityComponents_masks (ecs : ECS Component) (entity : ℕ)
    (instances : List (Instance Component)) :
    (ecs.addEntityComponents entity instances).componentsMasks = ecs.componentsMasks := by
  induction instances generalizing ecs with
  | nil => rfl
  | cons instance_ instances ih => exact (ih _).trans (insertComponentInstance_masks ..)

theorem registerEntity_masks (ecs : ECS Component) (first : Instance Component)
    (rest : List (Instance Component)) :
    (ecs.registerEntity first rest).1.componentsMasks = ecs.componentsMasks := by
  unfold registerEntity
  dsimp only
  split_ifs
  · rfl
  · exact addEntityComponents_masks ..

theorem updateEntityComponent_masks (ecs : ECS Component) (entityId : ℕ)
    (newInstance : Instance Component) :
    (ecs.updateEntityComponent entityId newInstance).1.componentsMasks = ecs.componentsMasks := by
  unfold updateEntityComponent
  split
  · rfl
  · split_ifs <;> rfl

theorem updateEntity_masks (ecs : ECS Component) (entityId : ℕ)
    (newInstances : List (Instance Component)) :
    (ecs.updateEntity entityId newInstances).1.componentsMasks = ecs.componentsMasks := by
  induction newInstances generalizing ecs with
  | nil => rfl
  | cons newInstance newInstances ih =>
      have hone := updateEntityComponent_masks ecs entityId newInstance
      unfold updateEntity
      split
      · rename_i ecs' heq
        rw [heq] at hone
        exact (ih ecs').trans hone
      · rename_i ecs' heq
        rw [heq] at hone
        exact hone

/-- No call takes a mask away. -/
theorem step_keeps_mask {history : History Component} {c : κ} {mask : DynamicBitSet}
    (h : history.ecs.componentsMasks c = some mask) (call : Call Component) :
    (history.step call).ecs.componentsMasks c = some mask := by
  cases call with
  | registerComponents cs => exact registerComponents_keeps_mask h cs
  | preRegisterEntity => exact h
  | registerEntity first rest => exact (congrFun (registerEntity_masks ..) c).trans h
  | addEntityComponents entity instances =>
      exact (congrFun (addEntityComponents_masks ..) c).trans h
  | updateEntity entityId newInstances => exact (congrFun (updateEntity_masks ..) c).trans h
  | destroyEntity entityId => exact h

/-! ## The places of the types -/

/-- New types get the places behind the index, in their order. -/
theorem registerComponents_placed {cs : List κ} {ecs : ECS Component} {k : ℕ}
    (hindex : ecs.componentMaskIndex.OneHot k) (hnodup : cs.Nodup)
    (hnew : ∀ c ∈ cs, ecs.components c = none ∧ ecs.componentsMasks c = none) :
    ∀ i c, cs[i]? = some c →
      ∃ mask, (ecs.registerComponents cs).componentsMasks c = some mask ∧
        mask.OneHot (k + i + 1) := by
  induction cs generalizing ecs k with
  | nil =>
      intro i c hc
      cases hc
  | cons d cs ih =>
      rw [List.nodup_cons] at hnodup
      obtain ⟨hcomponent, hmask⟩ := hnew d List.mem_cons_self
      have hone : ecs.registerComponent d =
          { ecs with
            componentMaskIndex := ecs.nextMaskIndex
            componentsMasks := Function.update ecs.componentsMasks d (some ecs.nextMaskIndex)
            components := Function.update ecs.components d (some ComponentSet.empty) } :=
        registerComponent_of_new (by simp [hcomponent]) hmask
      have hnext : ecs.nextMaskIndex.OneHot (k + 1) := hindex.advance
      intro i c hc
      cases i with
      | zero =>
          obtain rfl : d = c := by simpa using hc
          refine ⟨ecs.nextMaskIndex, ?_, hnext⟩
          refine registerComponents_keeps_mask ?_ cs
          rw [hone]
          exact Function.update_self ..
      | succ i =>
          have hnew' : ∀ c ∈ cs, (ecs.registerComponent d).components c = none ∧
              (ecs.registerComponent d).componentsMasks c = none := by
            intro c hmem
            have hne : c ≠ d := by
              rintro rfl
              exact hnodup.1 hmem
            rw [hone]
            simp only [Function.update_of_ne hne]
            exact hnew c (List.mem_cons_of_mem d hmem)
          have hindex' : (ecs.registerComponent d).componentMaskIndex.OneHot (k + 1) := by
            rw [hone]
            exact hnext
          obtain ⟨mask, hget, hbit⟩ := ih hindex' hnodup.2 hnew' i c (by simpa using hc)
          refine ⟨mask, hget, ?_⟩
          rwa [show k + (i + 1) + 1 = k + 1 + i + 1 by omega]

/-! ## The first bit is nobody's -/

/-- No mask of a type or of an entity has the first bit. -/
structure FirstBitClear (ecs : ECS Component) : Prop where
  types : ∀ c mask, ecs.componentsMasks c = some mask → mask.get 0 = false
  entities : ∀ (e : ℕ) mask, ecs.entities[e]? = some mask → mask.get 0 = false

namespace FirstBitClear

variable {ecs : ECS Component}

omit [DecidableEq κ] in
theorem helper (h : FirstBitClear ecs) (c : κ) : (ecs.getComponentMaskHelper c).get 0 = false := by
  unfold getComponentMaskHelper
  cases hmask : ecs.componentsMasks c with
  | none => exact DynamicBitSet.get_empty 0
  | some mask => exact h.types c mask hmask

omit [DecidableEq κ] in
theorem getComponentMask (h : FirstBitClear ecs) (c : κ) (cs : List κ) :
    (ecs.getComponentMask c cs).get 0 = false := by
  induction cs generalizing c with
  | nil => exact h.helper c
  | cons d cs ih => rw [ECS.getComponentMask, DynamicBitSet.get_or, h.helper, ih, Bool.or_false]

theorem registerComponent (h : FirstBitClear ecs) {k : ℕ}
    (hindex : ecs.componentMaskIndex.OneHot k) (c : κ) :
    FirstBitClear (ecs.registerComponent c) := by
  have hnext : ecs.nextMaskIndex.get 0 = false := by
    have hone : ecs.nextMaskIndex.OneHot (k + 1) := hindex.advance
    rw [hone 0]
    simp
  unfold ECS.registerComponent
  dsimp only
  split_ifs
  · exact ⟨h.types, h.entities⟩
  · refine ⟨fun d mask hmask => ?_, h.entities⟩
    by_cases hd : d = c
    · subst hd
      simp only [Function.update_self, Option.some.injEq] at hmask
      cases hold : ecs.componentsMasks d with
      | none =>
          rw [hold, Option.getD_none] at hmask
          exact hmask ▸ hnext
      | some old =>
          rw [hold, Option.getD_some] at hmask
          exact hmask ▸ h.types d old hold
    · simp only [Function.update_of_ne hd] at hmask
      exact h.types d mask hmask

theorem registerComponents (h : FirstBitClear ecs) (hsettled : Settled ecs) (cs : List κ) :
    FirstBitClear (ecs.registerComponents cs) := by
  induction cs generalizing ecs with
  | nil => exact h
  | cons c cs ih =>
      obtain ⟨layout, hkeeps⟩ := hsettled
      exact ih (h.registerComponent hkeeps.index_oneHot c) (hkeeps.registerComponent c)

omit [DecidableEq κ] in
theorem insertEntity (h : FirstBitClear ecs) (entityId : ℕ) {mask : DynamicBitSet}
    (hmask : mask.get 0 = false) : FirstBitClear (ecs.insertEntity entityId mask) := by
  refine ⟨h.types, fun e emask hget => ?_⟩
  rw [ECS.insertEntity, ExtTreeMap.getElem?_insertIfNew] at hget
  split_ifs at hget with hnew
  · exact Option.some.inj hget ▸ hmask
  · exact h.entities e emask hget

theorem insertComponentInstance (h : FirstBitClear ecs) (entityId : ℕ)
    (instance_ : Instance Component) :
    FirstBitClear (ecs.insertComponentInstance entityId instance_) := by
  refine ⟨fun c mask hmask => ?_, fun e mask hget => ?_⟩
  · rw [insertComponentInstance_masks] at hmask
    exact h.types c mask hmask
  · unfold ECS.insertComponentInstance at hget
    split at hget
    · rename_i old set hold hset
      rw [ExtTreeMap.getElem?_insert] at hget
      split_ifs at hget with he
      · obtain rfl := Option.some.inj hget
        rw [DynamicBitSet.get_orAssign, h.entities entityId old hold, h.getComponentMask,
          Bool.or_false]
      · exact h.entities e mask hget
    · exact h.entities e mask hget

theorem addEntityComponents (h : FirstBitClear ecs) (entity : ℕ)
    (instances : List (Instance Component)) :
    FirstBitClear (ecs.addEntityComponents entity instances) := by
  induction instances generalizing ecs with
  | nil => exact h
  | cons instance_ instances ih => exact ih (h.insertComponentInstance entity instance_)

theorem registerEntity (h : FirstBitClear ecs) (first : Instance Component)
    (rest : List (Instance Component)) : FirstBitClear (ecs.registerEntity first rest).1 := by
  unfold ECS.registerEntity
  dsimp only
  split_ifs
  · exact h
  · have hadded := (h.insertEntity ecs.entitiesID
      (h.getComponentMask first.1 (rest.map Sigma.fst))).addEntityComponents ecs.entitiesID
        (first :: rest)
    exact ⟨hadded.types, hadded.entities⟩

theorem updateEntityComponent (h : FirstBitClear ecs) (entityId : ℕ)
    (newInstance : Instance Component) :
    FirstBitClear (ecs.updateEntityComponent entityId newInstance).1 := by
  unfold ECS.updateEntityComponent
  split
  · exact h
  · split_ifs
    · exact h
    · exact ⟨h.types, h.entities⟩

theorem updateEntity (h : FirstBitClear ecs) (entityId : ℕ)
    (newInstances : List (Instance Component)) :
    FirstBitClear (ecs.updateEntity entityId newInstances).1 := by
  induction newInstances generalizing ecs with
  | nil => exact h
  | cons newInstance newInstances ih =>
      have hone := h.updateEntityComponent entityId newInstance
      unfold ECS.updateEntity
      split
      · rename_i ecs' heq
        rw [heq] at hone
        exact ih hone
      · rename_i ecs' heq
        rw [heq] at hone
        exact hone

omit [DecidableEq κ] in
theorem destroyEntity (h : FirstBitClear ecs) (entityId : ℕ) :
    FirstBitClear (ecs.destroyEntity entityId) := by
  refine ⟨h.types, fun e mask hget => ?_⟩
  rw [ECS.destroyEntity, ExtTreeMap.getElem?_erase] at hget
  split_ifs at hget
  exact h.entities e mask hget

/-- No call uses the first bit. -/
theorem step {history : History Component} (h : FirstBitClear history.ecs)
    (hsettled : Settled history.ecs) (call : Call Component) :
    FirstBitClear (history.step call).ecs := by
  cases call with
  | registerComponents cs => exact h.registerComponents hsettled cs
  | preRegisterEntity =>
      have hinserted := h.insertEntity history.ecs.entitiesID (DynamicBitSet.get_empty 0)
      exact ⟨hinserted.types, hinserted.entities⟩
  | registerEntity first rest => exact h.registerEntity first rest
  | addEntityComponents entity instances => exact h.addEntityComponents entity instances
  | updateEntity entityId newInstances => exact h.updateEntity entityId newInstances
  | destroyEntity entityId => exact h.destroyEntity entityId

end FirstBitClear

/-! ## Stores that registered a list first -/

/-- The store agrees with itself, and the types of the list have the places from 1 on in
the order of the list. -/
structure Registered (cs : List κ) (ecs : ECS Component) : Prop where
  settled : Settled ecs
  placed : ∀ i c, cs[i]? = some c →
    ∃ mask, ecs.componentsMasks c = some mask ∧ mask.OneHot (i + 1)
  clear : FirstBitClear ecs

/-- The store that has registered a list of types, and nothing else. -/
def registering (cs : List κ) : History Component :=
  History.step {} (.registerComponents cs)

/-- The stores that registered the list before any other call. -/
def Reached (cs : List κ) (ecs : ECS Component) : Prop :=
  ∃ calls : List (Call Component), ecs = (calls.foldl History.step (registering cs)).ecs

namespace Registered

variable {cs : List κ} {ecs : ECS Component}

theorem step {history : History Component} (h : Registered cs history.ecs)
    (call : Call Component) : Registered cs (history.step call).ecs where
  settled := History.settled_step h.settled call
  placed i c hc := by
    obtain ⟨mask, hmask, hbit⟩ := h.placed i c hc
    exact ⟨mask, step_keeps_mask hmask call, hbit⟩
  clear := h.clear.step h.settled call

theorem call (h : Registered cs ecs) (call : Call Component) :
    Registered cs (History.step { ecs := ecs } call).ecs := by
  have hhistory : Registered cs (History.mk ecs []).ecs := h
  exact hhistory.step call

/-- The store right after the registration. -/
theorem start (hnodup : cs.Nodup) : Registered cs (registering cs : History Component).ecs := by
  have hsettled : Settled ({} : ECS Component) :=
    ⟨_, Keeps.start (fun _ => 0) fun _ _ => False⟩
  have hclear : FirstBitClear ({} : ECS Component) := by
    constructor
    · intro c mask hmask
      cases hmask
    · intro e mask hmask
      simp at hmask
  refine ⟨History.settled_step hsettled _, ?_, hclear.registerComponents hsettled cs⟩
  intro i c hc
  have hfirst : ({} : ECS Component).componentMaskIndex.OneHot 0 := DynamicBitSet.OneHot.first
  have hplaced := registerComponents_placed hfirst hnodup (fun _ _ => ⟨rfl, rfl⟩) i c hc
  rwa [Nat.zero_add] at hplaced

end Registered

theorem Reached.registered {cs : List κ} {ecs : ECS Component} (h : Reached cs ecs)
    (hnodup : cs.Nodup) : Registered cs ecs := by
  obtain ⟨calls, rfl⟩ := h
  have hrun : ∀ (calls : List (Call Component)) (history : History Component),
      Registered cs history.ecs → Registered cs (calls.foldl History.step history).ecs := by
    intro calls
    induction calls with
    | nil => exact fun _ h => h
    | cons call calls ih => exact fun history h => ih _ (h.step call)
  exact hrun calls _ (Registered.start hnodup)

namespace Registered

variable {cs : List κ} {ecs : ECS Component} {i e : ℕ} {c : κ} {mask : DynamicBitSet}

omit [DecidableEq κ] in
/-- The types of the list have sets. -/
theorem exists_set (h : Registered cs ecs) (hc : c ∈ cs) :
    ∃ set, ecs.components c = some set := by
  obtain ⟨i, hi⟩ := List.mem_iff_getElem?.mp hc
  obtain ⟨layout, hkeeps⟩ := h.settled
  obtain ⟨cmask, hcmask, -⟩ := h.placed i c hi
  apply Option.isSome_iff_exists.mp
  rw [hkeeps.registered c, hcmask, Option.isSome_some]

omit [DecidableEq κ] in
theorem isSome_set (h : Registered cs ecs) (hc : c ∈ cs) : (ecs.components c).isSome := by
  obtain ⟨set, hset⟩ := h.exists_set hc
  exact Option.isSome_of_eq_some hset

omit [DecidableEq κ] in
/-- The place of a type in the mask of an entity tells whether the entity has it. -/
theorem mask_get (h : Registered cs ecs) (hc : cs[i]? = some c)
    (hmask : ecs.entities[e]? = some mask) :
    mask.get (i + 1) = (ecs.getEntityComponent e c).isSome := by
  obtain ⟨layout, hkeeps⟩ := h.settled
  obtain ⟨cmask, hcmask, hbit⟩ := h.placed i c hc
  obtain ⟨set, hset⟩ := h.exists_set (List.mem_of_getElem? hc)
  -- the layout puts the type where the list does
  have hplace : i + 1 = layout.bit c :=
    (hkeeps.mask_oneHot c cmask hcmask).1.eq_of_get hbit.get_self
  obtain ⟨hhas, hget⟩ := hkeeps.member c set e mask hset hmask
  have hiff : mask.get (i + 1) = true ↔ set.has e = true := by
    rw [hplace]
    exact ⟨fun hbit => (hget hbit).resolve_right id, hhas⟩
  rw [← hasComponent_eq_isSome_get, hasComponent, hset]
  exact Bool.eq_iff_iff.mpr hiff

end Registered

end ECS

end Rtype.Rtecs
