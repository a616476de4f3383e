import Mathlib
import Rtype.Foundations.Transition
import Rtype.Rtecs.ECS

/-!
# Rtecs - The invariant of the store

Which entity has which component is kept twice, in the masks of the entities and in
the sparse sets.  This file shows that the two agree after any sequence of calls,
and that the ids of the entities are fresh as long as their counter has not gone
round.

Main results:

- Structure {lit}`Keeps`: the invariant of the store, up to instances that a call has
  announced in the mask and not yet put.
- Theorem {lit}`History.store_invariant`: the masks, the sets and the ids after any
  sequence of calls.
- Theorem {lit}`History.ids_wrap`: the counter of 64 bits goes round.

Current gaps:

- None.
-/

namespace Rtype.Rtecs

open Std
open Transition (Reachable)

namespace ECS

variable {κ : Type} {Component : κ → Type} [DecidableEq κ]

/-! ## The invariant -/

/-- How the bits are given out: {lit}`last` is the place of the index, and {lit}`bit`
gives each registered component its own place. -/
structure Layout (κ : Type) where
  last : ℕ
  bit : κ → ℕ

/-- The store agrees with itself.  The relation {lit}`owed` holds the instances that an
entity mask already announces and that the running call still has to put. -/
structure Keeps (layout : Layout κ) (owed : ℕ → κ → Prop) (ecs : ECS Component) : Prop where
  index_oneHot : ecs.componentMaskIndex.OneHot layout.last
  mask_oneHot : ∀ c mask, ecs.componentsMasks c = some mask →
    mask.OneHot (layout.bit c) ∧ layout.bit c ≤ layout.last
  registered : ∀ c, (ecs.components c).isSome = (ecs.componentsMasks c).isSome
  bit_injective : ∀ c d, (ecs.componentsMasks c).isSome → (ecs.componentsMasks d).isSome →
    layout.bit c = layout.bit d → c = d
  entity_bits : ∀ (e : ℕ) mask k, ecs.entities[e]? = some mask → mask.get k = true →
    k ≤ layout.last
  member : ∀ c set (e : ℕ) mask, ecs.components c = some set → ecs.entities[e]? = some mask →
    (set.has e = true → mask.get (layout.bit c) = true) ∧
      (mask.get (layout.bit c) = true → set.has e = true ∨ owed e c)
  live : ∀ c set e, ecs.components c = some set → set.has e = true → e ∈ ecs.entities

/-- The store between two calls: nothing is owed. -/
def Settled (ecs : ECS Component) : Prop :=
  ∃ layout, Keeps layout (fun _ _ => False) ecs

namespace Keeps

variable {layout : Layout κ} {owed owed' : ℕ → κ → Prop} {ecs : ECS Component}

omit [DecidableEq κ] in
/-- A new store. -/
theorem start (bit : κ → ℕ) (owed : ℕ → κ → Prop) :
    Keeps ⟨0, bit⟩ owed ({} : ECS Component) where
  index_oneHot := DynamicBitSet.OneHot.first
  mask_oneHot c mask h := by cases h
  registered c := rfl
  bit_injective c d h := by cases h
  entity_bits e mask k h := by simp at h
  member c set e mask h := by cases h
  live c set e h := by cases h

omit [DecidableEq κ] in
theorem mono (h : Keeps layout owed ecs)
    (howed : ∀ (e : ℕ) c, e ∈ ecs.entities → (ecs.components c).isSome → owed e c → owed' e c) :
    Keeps layout owed' ecs where
  __ := h
  member c set e mask hset hmask :=
    have hlive : e ∈ ecs.entities := by simp [ExtTreeMap.mem_iff_isSome_getElem?, hmask]
    have hknown : (ecs.components c).isSome := by simp [hset]
    ⟨(h.member c set e mask hset hmask).1, fun hbit =>
      ((h.member c set e mask hset hmask).2 hbit).imp_right (howed e c hlive hknown)⟩

omit [DecidableEq κ] in
/-- The counter of the ids plays no part. -/
theorem withEntitiesID (h : Keeps layout owed ecs) (id : ℕ) :
    Keeps layout owed { ecs with entitiesID := id } where
  __ := h

omit [DecidableEq κ] in
/-- The mask of a registered component. -/
theorem mask_of_registered (h : Keeps layout owed ecs) {c : κ} {set : ComponentSet (Component c)}
    (hset : ecs.components c = some set) :
    ∃ mask, ecs.componentsMasks c = some mask ∧ mask.OneHot (layout.bit c) := by
  have hsome : (ecs.componentsMasks c).isSome := by rw [← h.registered c, hset, Option.isSome_some]
  obtain ⟨mask, hmask⟩ := Option.isSome_iff_exists.mp hsome
  exact ⟨mask, hmask, (h.mask_oneHot c mask hmask).1⟩

omit [DecidableEq κ] in
/-- A bit of a component's mask is the bit of a registered component. -/
theorem helper_get (h : Keeps layout owed ecs) {c : κ} {k : ℕ} :
    (ecs.getComponentMaskHelper c).get k = true ↔
      (ecs.componentsMasks c).isSome ∧ k = layout.bit c := by
  unfold getComponentMaskHelper
  cases hmask : ecs.componentsMasks c with
  | none => simp
  | some mask => simp [(h.mask_oneHot c mask hmask).1 k]

omit [DecidableEq κ] in
/-- A bit of a folded mask is the bit of one of the components. -/
theorem getComponentMask_get (h : Keeps layout owed ecs) {c : κ} {cs : List κ} {k : ℕ} :
    (ecs.getComponentMask c cs).get k = true ↔
      ∃ d ∈ c :: cs, (ecs.componentsMasks d).isSome ∧ k = layout.bit d := by
  induction cs generalizing c with
  | nil => simp [getComponentMask, h.helper_get]
  | cons d cs ih =>
      rw [getComponentMask, DynamicBitSet.get_or, Bool.or_eq_true, h.helper_get, ih]
      simp

/-- A registration gives the next place to a new component, and to nobody when the
component is there already. -/
theorem registerComponent (h : Keeps layout owed ecs) (c : κ) :
    ∃ layout', Keeps layout' owed (ecs.registerComponent c) := by
  have hindex : ecs.nextMaskIndex.OneHot (layout.last + 1) := h.index_oneHot.advance
  by_cases hknown : (ecs.components c).isSome
  · rw [registerComponent_of_known hknown]
    refine ⟨⟨layout.last + 1, layout.bit⟩, ?_⟩
    exact
      { h with
        index_oneHot := hindex
        mask_oneHot := fun d mask hmask =>
          ⟨(h.mask_oneHot d mask hmask).1, (h.mask_oneHot d mask hmask).2.trans (Nat.le_succ _)⟩
        entity_bits := fun e mask k hmask hbit =>
          (h.entity_bits e mask k hmask hbit).trans (Nat.le_succ _) }
  · have hfresh : ecs.componentsMasks c = none := by
      rw [← Option.not_isSome_iff_eq_none, ← h.registered c]
      exact hknown
    rw [registerComponent_of_new hknown hfresh]
    -- the places of the others stay below the new one
    have hother : ∀ {d}, (ecs.componentsMasks d).isSome → d ≠ c ∧ layout.bit d ≤ layout.last := by
      intro d hd
      obtain ⟨mask, hmask⟩ := Option.isSome_iff_exists.mp hd
      refine ⟨?_, (h.mask_oneHot d mask hmask).2⟩
      rintro rfl
      rw [hfresh] at hmask
      cases hmask
    refine ⟨⟨layout.last + 1, Function.update layout.bit c (layout.last + 1)⟩, ?_⟩
    constructor
    case index_oneHot => exact hindex
    case mask_oneHot =>
      intro d mask hmask
      by_cases hd : d = c
      · subst hd
        simp only [Function.update_self, Option.some.injEq] at hmask
        subst hmask
        simpa using hindex
      · simp only [Function.update_of_ne hd] at hmask ⊢
        exact ⟨(h.mask_oneHot d mask hmask).1,
          (h.mask_oneHot d mask hmask).2.trans (Nat.le_succ _)⟩
    case registered =>
      intro d
      by_cases hd : d = c
      · subst hd
        simp
      · simp only [Function.update_of_ne hd]
        exact h.registered d
    case bit_injective =>
      intro d d' hd hd' hbit
      by_cases hdc : d = c <;> by_cases hdc' : d' = c
      · rw [hdc, hdc']
      · subst hdc
        simp only [Function.update_self, Function.update_of_ne hdc'] at hd' hbit
        have := (hother hd').2
        omega
      · subst hdc'
        simp only [Function.update_self, Function.update_of_ne hdc] at hd hbit
        have := (hother hd).2
        omega
      · simp only [Function.update_of_ne hdc, Function.update_of_ne hdc'] at hd hd' hbit
        exact h.bit_injective d d' hd hd' hbit
    case entity_bits =>
      exact fun e mask k hmask hbit => (h.entity_bits e mask k hmask hbit).trans (Nat.le_succ _)
    case member =>
      intro d set e mask hset hmask
      by_cases hd : d = c
      · -- the new set is empty, and no entity has the new bit
        subst hd
        simp only [Function.update_self, Option.some.injEq] at hset
        subst hset
        simp only [Function.update_self, ComponentSet.has_empty]
        refine ⟨by simp, fun hbit => ?_⟩
        have := h.entity_bits e mask _ hmask hbit
        omega
      · simp only [Function.update_of_ne hd] at hset ⊢
        exact h.member d set e mask hset hmask
    case live =>
      intro d set e hset hhas
      by_cases hd : d = c
      · subst hd
        simp only [Function.update_self, Option.some.injEq] at hset
        subst hset
        simp at hhas
      · simp only [Function.update_of_ne hd] at hset
        exact h.live d set e hset hhas

/-- Putting an instance settles what was owed for it. -/
theorem insertComponentInstance (h : Keeps layout owed ecs) (entityId : ℕ)
    (instance_ : Instance Component) :
    Keeps layout (fun e c => owed e c ∧ ¬ (e = entityId ∧ c = instance_.1))
      (ecs.insertComponentInstance entityId instance_) := by
  cases hentity : ecs.entities[entityId]? with
  | none =>
      rw [insertComponentInstance_of_unknown (Or.inl hentity)]
      refine h.mono fun e c he _ howed => ⟨howed, ?_⟩
      rintro ⟨rfl, -⟩
      simp [ExtTreeMap.mem_iff_isSome_getElem?, hentity] at he
  | some mask =>
      cases hset : ecs.components instance_.1 with
      | none =>
          rw [insertComponentInstance_of_unknown (Or.inr hset)]
          exact
            { h with
              member := fun c set e mask hc hmask =>
                ⟨(h.member c set e mask hc hmask).1, fun hbit =>
                  ((h.member c set e mask hc hmask).2 hbit).imp_right fun howed =>
                    ⟨howed, by
                      rintro ⟨-, rfl⟩
                      rw [hset] at hc
                      cases hc⟩⟩ }
      | some set =>
          obtain ⟨cmask, hcmask, hbits⟩ := h.mask_of_registered hset
          have hget : ∀ k, (mask.orAssign (ecs.getComponentMask instance_.1 [])).get k =
              (mask.get k || decide (k = layout.bit instance_.1)) := by
            intro k
            rw [DynamicBitSet.get_orAssign, getComponentMask, getComponentMaskHelper, hcmask,
              Option.getD_some, hbits k]
          have hentities : ∀ (e : ℕ) emask, (ecs.entities.insert entityId
              (mask.orAssign (ecs.getComponentMask instance_.1 [])))[e]? = some emask →
              e = entityId ∧ mask.orAssign (ecs.getComponentMask instance_.1 []) = emask ∨
                e ≠ entityId ∧ ecs.entities[e]? = some emask := by
            intro e emask hmask
            rw [ExtTreeMap.getElem?_insert] at hmask
            by_cases he : e = entityId
            · subst he
              exact Or.inl ⟨rfl, by simpa using hmask⟩
            · exact Or.inr ⟨he, by simpa [Ne.symm he] using hmask⟩
          rw [insertComponentInstance_of_known hentity hset]
          constructor
          case index_oneHot => exact h.index_oneHot
          case mask_oneHot => exact h.mask_oneHot
          case bit_injective => exact h.bit_injective
          case registered =>
            intro c
            by_cases hc : c = instance_.1
            · subst hc
              simp [hcmask]
            · simp only [Function.update_of_ne hc]
              exact h.registered c
          case entity_bits =>
            intro e emask k hmask hbit
            rcases hentities e emask hmask with ⟨rfl, rfl⟩ | ⟨-, hold⟩
            · rw [hget, Bool.or_eq_true, decide_eq_true_eq] at hbit
              rcases hbit with hbit | rfl
              · exact h.entity_bits e mask k hentity hbit
              · exact (h.mask_oneHot _ cmask hcmask).2
            · exact h.entity_bits e emask k hold hbit
          case member =>
            intro c set' e emask hc hmask
            by_cases hcomp : c = instance_.1
            · subst hcomp
              simp only [Function.update_self, Option.some.injEq] at hc
              subst hc
              rcases hentities e emask hmask with ⟨rfl, rfl⟩ | ⟨he, hold⟩
              · simp [hget]
              · have hother := h.member instance_.1 set e emask hset hold
                simpa [he] using hother
            · simp only [Function.update_of_ne hcomp] at hc
              rcases hentities e emask hmask with ⟨rfl, rfl⟩ | ⟨he, hold⟩
              · -- the added bit belongs to another component
                have hne : layout.bit c ≠ layout.bit instance_.1 := fun hbit =>
                  hcomp (h.bit_injective c instance_.1 (by rw [← h.registered c, hc]; rfl)
                    (by rw [hcmask]; rfl) hbit)
                have hsame := h.member c set' e mask hc hentity
                simpa [hget, hne, hcomp] using hsame
              · have hother := h.member c set' e emask hc hold
                simpa [he] using hother
          case live =>
            intro c set' e hc hhas
            rw [ExtTreeMap.mem_insert]
            by_cases hcomp : c = instance_.1
            · subst hcomp
              simp only [Function.update_self, Option.some.injEq] at hc
              subst hc
              rw [ComponentSet.has_put, Bool.or_eq_true, decide_eq_true_eq] at hhas
              rcases hhas with rfl | hhas
              · exact Or.inl (by simp)
              · exact Or.inr (h.live _ set e hset hhas)
            · simp only [Function.update_of_ne hcomp] at hc
              exact Or.inr (h.live c set' e hc hhas)

/-- Putting several instances settles what was owed for each of them. -/
theorem addEntityComponents (h : Keeps layout owed ecs) (entity : ℕ)
    (instances : List (Instance Component)) :
    Keeps layout (fun e c => owed e c ∧ ¬ (e = entity ∧ c ∈ instances.map Sigma.fst))
      (ecs.addEntityComponents entity instances) := by
  induction instances generalizing ecs owed with
  | nil => exact h.mono fun e c _ _ howed => ⟨howed, by simp⟩
  | cons instance_ instances ih =>
      refine (ih (h.insertComponentInstance entity instance_)).mono fun e c _ _ howed => ?_
      obtain ⟨⟨howed, hfirst⟩, hrest⟩ := howed
      refine ⟨howed, ?_⟩
      rintro ⟨he, hc⟩
      rw [List.map_cons, List.mem_cons] at hc
      rcases hc with hc | hc
      · exact hfirst ⟨he, hc⟩
      · exact hrest ⟨he, hc⟩

omit [DecidableEq κ] in
/-- A new entity is owed the instances that its mask announces. -/
theorem insertEntity (h : Keeps layout owed ecs) (entityId : ℕ) {mask : DynamicBitSet}
    (hmask : ∀ k, mask.get k = true → k ≤ layout.last) :
    Keeps layout (fun e c => owed e c ∨ e = entityId ∧ mask.get (layout.bit c) = true)
      (ecs.insertEntity entityId mask) := by
  have hentities : ∀ (e : ℕ) emask, (ecs.entities.insertIfNew entityId mask)[e]? = some emask →
      e = entityId ∧ mask = emask ∧ e ∉ ecs.entities ∨ ecs.entities[e]? = some emask := by
    intro e emask hget
    rw [ExtTreeMap.getElem?_insertIfNew] at hget
    split_ifs at hget with hnew
    · obtain ⟨heq, habsent⟩ := hnew
      obtain rfl : entityId = e := by simpa using heq
      exact Or.inl ⟨rfl, Option.some.inj hget, habsent⟩
    · exact Or.inr hget
  constructor
  case index_oneHot => exact h.index_oneHot
  case mask_oneHot => exact h.mask_oneHot
  case registered => exact h.registered
  case bit_injective => exact h.bit_injective
  case entity_bits =>
    intro e emask k hget hbit
    rcases hentities e emask hget with ⟨-, rfl, -⟩ | hold
    · exact hmask k hbit
    · exact h.entity_bits e emask k hold hbit
  case member =>
    intro c set e emask hc hget
    rcases hentities e emask hget with ⟨he, rfl, habsent⟩ | hold
    · exact ⟨fun hhas => absurd (h.live c set e hc hhas) habsent, fun hbit =>
        Or.inr (Or.inr ⟨he, hbit⟩)⟩
    · exact ⟨(h.member c set e emask hc hold).1, fun hbit =>
        ((h.member c set e emask hc hold).2 hbit).imp_right Or.inl⟩
  case live =>
    intro c set e hc hhas
    rw [ECS.insertEntity, ExtTreeMap.mem_insertIfNew]
    exact Or.inr (h.live c set e hc hhas)

omit [DecidableEq κ] in
theorem preRegisterEntity (h : Keeps layout owed ecs) :
    Keeps layout owed ecs.preRegisterEntity.1 := by
  have hmask : ∀ k, ({} : DynamicBitSet).get k = true → k ≤ layout.last := by simp
  refine ((h.insertEntity ecs.entitiesID hmask).withEntitiesID
    ((ecs.entitiesID + 1) % 2 ^ 64)).mono fun e c _ _ howed => ?_
  simpa using howed

/-- The instances that the mask of a new entity announces are the ones that are put. -/
theorem registerEntity (h : Keeps layout owed ecs) (first : Instance Component)
    (rest : List (Instance Component)) : Keeps layout owed (ecs.registerEntity first rest).1 := by
  unfold ECS.registerEntity
  by_cases hnone : (ecs.getComponentMask first.1 (rest.map Sigma.fst)).none = true
  · simp only [hnone, if_true]
    exact h
  · simp only [if_neg hnone]
    have hmask : ∀ k, (ecs.getComponentMask first.1 (rest.map Sigma.fst)).get k = true →
        k ≤ layout.last := by
      intro k hk
      obtain ⟨d, -, hd, rfl⟩ := h.getComponentMask_get.mp hk
      obtain ⟨mask, hmask⟩ := Option.isSome_iff_exists.mp hd
      exact (h.mask_oneHot d mask hmask).2
    have hpromised : Keeps layout
        (fun e c => owed e c ∨ e = ecs.entitiesID ∧ c ∈ (first :: rest).map Sigma.fst)
        (ecs.insertEntity ecs.entitiesID
          (ecs.getComponentMask first.1 (rest.map Sigma.fst))) := by
      refine (h.insertEntity ecs.entitiesID hmask).mono fun e c _ hknown howed => ?_
      refine howed.imp_right fun ⟨he, hbit⟩ => ⟨he, ?_⟩
      obtain ⟨d, hd, hdmask, hsame⟩ := h.getComponentMask_get.mp hbit
      have hc : c = d := h.bit_injective c d (by rwa [← h.registered c]) hdmask hsame
      exact hc ▸ hd
    refine ((hpromised.addEntityComponents ecs.entitiesID (first :: rest)).withEntitiesID _).mono
      fun e c _ _ howed => ?_
    exact howed.1.resolve_right howed.2

theorem updateEntityComponent (h : Keeps layout owed ecs) (entityId : ℕ)
    (newInstance : Instance Component) :
    Keeps layout owed (ecs.updateEntityComponent entityId newInstance).1 := by
  unfold ECS.updateEntityComponent
  cases hset : ecs.components newInstance.1 with
  | none => exact h
  | some set =>
      by_cases hhas : set.has entityId = true
      · simp only [hhas, Bool.not_true, Bool.false_eq_true, if_false]
        -- the set keeps its members
        have hsame : ∀ e, (set.put entityId newInstance.2).has e = set.has e := by
          intro e
          rw [ComponentSet.has_put]
          by_cases he : e = entityId
          · simp [he, hhas]
          · simp [he]
        have hcases : ∀ c set', Function.update ecs.components newInstance.1
            (some (set.put entityId newInstance.2)) c = some set' →
            ∃ set'', ecs.components c = some set'' ∧ ∀ e, set'.has e = set''.has e := by
          intro c set' hc
          by_cases hcomp : c = newInstance.1
          · subst hcomp
            simp only [Function.update_self, Option.some.injEq] at hc
            subst hc
            exact ⟨set, hset, hsame⟩
          · simp only [Function.update_of_ne hcomp] at hc
            exact ⟨set', hc, fun e => rfl⟩
        constructor
        case index_oneHot => exact h.index_oneHot
        case mask_oneHot => exact h.mask_oneHot
        case bit_injective => exact h.bit_injective
        case entity_bits => exact h.entity_bits
        case registered =>
          intro c
          by_cases hcomp : c = newInstance.1
          · subst hcomp
            simp [← h.registered, hset]
          · simp only [Function.update_of_ne hcomp]
            exact h.registered c
        case member =>
          intro c set' e emask hc hmask
          obtain ⟨set'', hold, hhas'⟩ := hcases c set' hc
          rw [hhas' e]
          exact h.member c set'' e emask hold hmask
        case live =>
          intro c set' e hc hmem
          obtain ⟨set'', hold, hhas'⟩ := hcases c set' hc
          exact h.live c set'' e hold (hhas' e ▸ hmem)
      · simp only [hhas, Bool.not_false, if_true]
        exact h

theorem updateEntity (h : Keeps layout owed ecs) (entityId : ℕ)
    (newInstances : List (Instance Component)) :
    Keeps layout owed (ecs.updateEntity entityId newInstances).1 := by
  induction newInstances generalizing ecs with
  | nil => exact h
  | cons newInstance newInstances ih =>
      have hone := h.updateEntityComponent entityId newInstance
      unfold ECS.updateEntity
      split
      · rename_i ecs' heq
        rw [heq] at hone
        exact ih hone
      · rename_i ecs' heq
        rw [heq] at hone
        exact hone

omit [DecidableEq κ] in
theorem destroyEntity (h : Keeps layout owed ecs) (entityId : ℕ) :
    Keeps layout owed (ecs.destroyEntity entityId) := by
  have hsets : ∀ c set, (ecs.destroyEntity entityId).components c = some set →
      ∃ set', ecs.components c = some set' ∧
        ∀ e, set.has e = (decide (e ≠ entityId) && set'.has e) := by
    intro c set hc
    obtain ⟨set', hold, hset⟩ := Option.map_eq_some_iff.mp hc
    refine ⟨set', hold, fun e => ?_⟩
    rw [← hset]
    split_ifs with hhas
    · rw [ComponentSet.has_remove]
    · by_cases he : e = entityId
      · simp [he, hhas]
      · simp [he]
  have hentities : ∀ (e : ℕ) mask, (ecs.destroyEntity entityId).entities[e]? = some mask →
      e ≠ entityId ∧ ecs.entities[e]? = some mask := by
    intro e mask hmask
    rw [ECS.destroyEntity, ExtTreeMap.getElem?_erase] at hmask
    split_ifs at hmask with he
    exact ⟨fun heq => he (by simp [heq]), hmask⟩
  constructor
  case index_oneHot => exact h.index_oneHot
  case mask_oneHot => exact h.mask_oneHot
  case bit_injective => exact h.bit_injective
  case registered =>
    intro c
    rw [ECS.destroyEntity, Option.isSome_map]
    exact h.registered c
  case entity_bits =>
    intro e mask k hmask hbit
    exact h.entity_bits e mask k (hentities e mask hmask).2 hbit
  case member =>
    intro c set e mask hc hmask
    obtain ⟨set', hold, hhas⟩ := hsets c set hc
    obtain ⟨he, hmask'⟩ := hentities e mask hmask
    have hmember := h.member c set' e mask hold hmask'
    simpa [hhas e, he] using hmember
  case live =>
    intro c set e hc hmem
    obtain ⟨set', hold, hhas⟩ := hsets c set hc
    rw [hhas e, Bool.and_eq_true, decide_eq_true_eq] at hmem
    rw [ECS.destroyEntity, ExtTreeMap.mem_erase]
    have hne : entityId ≠ e := Ne.symm hmem.1
    exact ⟨by simpa using hne, h.live c set' e hold hmem.2⟩

end Keeps

/-! ## Runs -/

namespace History

variable {history : History Component}

/-- The histories of all runs of a new store. -/
def Run : History Component → Prop :=
  Reachable (fun history => history = {}) step fun _ _ => True

theorem run_calls (calls : List (Call Component)) : Run (calls.foldl step {}) := by
  have hstart : Run ({} : History Component) := .start rfl
  refine Reachable.run hstart ?_
  generalize ({} : History Component) = history
  induction calls generalizing history with
  | nil => trivial
  | cons call calls ih => exact ⟨trivial, ih _⟩

/-- Each call keeps the masks and the sets in agreement. -/
theorem settled_step (h : Settled history.ecs) (call : Call Component) :
    Settled (history.step call).ecs := by
  cases call with
  | registerComponents cs =>
      unfold step ECS.registerComponents
      generalize history.ecs = ecs at h
      induction cs generalizing ecs with
      | nil => exact h
      | cons c cs ih =>
          obtain ⟨layout, hkeeps⟩ := h
          exact ih _ (hkeeps.registerComponent c)
  | preRegisterEntity => exact h.imp fun layout hkeeps => hkeeps.preRegisterEntity
  | registerEntity first rest =>
      exact h.imp fun layout hkeeps => hkeeps.registerEntity first rest
  | addEntityComponents entity instances =>
      obtain ⟨layout, hkeeps⟩ := h
      exact ⟨layout, (hkeeps.addEntityComponents entity instances).mono fun e c _ _ howed => howed.1⟩
  | updateEntity entityId newInstances =>
      exact h.imp fun layout hkeeps => hkeeps.updateEntity entityId newInstances
  | destroyEntity entityId => exact h.imp fun layout hkeeps => hkeeps.destroyEntity entityId

theorem Run.settled (h : Run history) : Settled history.ecs := by
  refine h.invariant (P := fun history => Settled history.ecs) ?_ ?_
  · rintro history rfl
    exact ⟨_, Keeps.start (fun _ => 0) _⟩
  · exact fun history call _ _ hsettled => settled_step hsettled call

end History

/-! ## What the invariant says -/

/-- The masks of the registered components have one bit each, and differ. -/
def MasksDistinct (ecs : ECS Component) : Prop :=
  (∀ c, (ecs.components c).isSome → ∃ k, (ecs.getComponentMaskHelper c).OneHot k) ∧
    ∀ c d, (ecs.components c).isSome → (ecs.components d).isSome → c ≠ d →
      (ecs.getComponentMaskHelper c).beq (ecs.getComponentMaskHelper d) = false

/-- A live entity is in the set of a registered component when its mask contains the
bit of the component. -/
def MasksMatch (ecs : ECS Component) : Prop :=
  ∀ c set k, ecs.components c = some set → (ecs.getComponentMaskHelper c).get k = true →
    ∀ e ∈ ecs.entities, set.has e = true ↔ (ecs.getEntityMask e).get k = true

/-- Only live entities are in a set. -/
def MembersLive (ecs : ECS Component) : Prop :=
  ∀ c set e, ecs.components c = some set → e ∈ set.getEntities → e ∈ ecs.entities

omit [DecidableEq κ] in
theorem Settled.masksDistinct {ecs : ECS Component} (h : Settled ecs) : MasksDistinct ecs := by
  obtain ⟨layout, h⟩ := h
  have hmask : ∀ c, (ecs.components c).isSome →
      (ecs.getComponentMaskHelper c).OneHot (layout.bit c) := by
    intro c hc k
    rw [h.registered c] at hc
    rw [Bool.eq_iff_iff, h.helper_get, decide_eq_true_eq]
    simp [hc]
  refine ⟨fun c hc => ⟨_, hmask c hc⟩, fun c d hc hd hne => ?_⟩
  rw [← Bool.not_eq_true, (hmask c hc).beq_iff (hmask d hd)]
  rw [h.registered] at hc hd
  exact fun hbit => hne (h.bit_injective c d hc hd hbit)

omit [DecidableEq κ] in
theorem Settled.masksMatch {ecs : ECS Component} (h : Settled ecs) : MasksMatch ecs := by
  obtain ⟨layout, h⟩ := h
  intro c set k hset hk e he
  obtain ⟨-, rfl⟩ := h.helper_get.mp hk
  obtain ⟨mask, hmask⟩ := Option.isSome_iff_exists.mp (ExtTreeMap.mem_iff_isSome_getElem?.mp he)
  have hmember := h.member c set e mask hset hmask
  rw [getEntityMask, hmask, Option.getD_some]
  exact ⟨hmember.1, fun hbit => (hmember.2 hbit).resolve_right id⟩

omit [DecidableEq κ] in
theorem Settled.membersLive {ecs : ECS Component} (h : Settled ecs) : MembersLive ecs := by
  obtain ⟨layout, h⟩ := h
  exact fun c set e hset he => h.live c set e hset (ComponentSet.mem_getEntities.mp he)

/-! ## The ids of the entities -/

/-- A call that hands out no id: the counter stays, and nobody new lives. -/
structure KeepsIds (ecs ecs' : ECS Component) : Prop where
  counter : ecs'.entitiesID = ecs.entitiesID
  live : ∀ e ∈ ecs'.entities, e ∈ ecs.entities

namespace KeepsIds

variable {ecs ecs' ecs'' : ECS Component}

omit [DecidableEq κ] in
theorem refl (ecs : ECS Component) : KeepsIds ecs ecs :=
  ⟨rfl, fun _ he => he⟩

omit [DecidableEq κ] in
theorem trans (h : KeepsIds ecs ecs') (h' : KeepsIds ecs' ecs'') : KeepsIds ecs ecs'' :=
  ⟨h'.counter.trans h.counter, fun e he => h.live e (h'.live e he)⟩

theorem registerComponent (ecs : ECS Component) (c : κ) :
    KeepsIds ecs (ecs.registerComponent c) := by
  simp only [ECS.registerComponent]
  split_ifs <;> exact ⟨rfl, fun _ he => he⟩

theorem registerComponents (ecs : ECS Component) (cs : List κ) :
    KeepsIds ecs (ecs.registerComponents cs) := by
  induction cs generalizing ecs with
  | nil => exact refl ecs
  | cons c cs ih => exact (registerComponent ecs c).trans (ih _)

theorem insertComponentInstance (ecs : ECS Component) (entityId : ℕ)
    (instance_ : Instance Component) :
    KeepsIds ecs (ecs.insertComponentInstance entityId instance_) := by
  unfold ECS.insertComponentInstance
  split
  · rename_i mask set hmask hset
    refine ⟨rfl, fun e he => ?_⟩
    rw [ExtTreeMap.mem_insert] at he
    rcases he with he | he
    · obtain rfl : entityId = e := by simpa using he
      simp [ExtTreeMap.mem_iff_isSome_getElem?, hmask]
    · exact he
  · exact refl ecs

theorem addEntityComponents (ecs : ECS Component) (entity : ℕ)
    (instances : List (Instance Component)) :
    KeepsIds ecs (ecs.addEntityComponents entity instances) := by
  induction instances generalizing ecs with
  | nil => exact refl ecs
  | cons instance_ instances ih =>
      exact (insertComponentInstance ecs entity instance_).trans (ih _)

theorem updateEntityComponent (ecs : ECS Component) (entityId : ℕ)
    (newInstance : Instance Component) :
    KeepsIds ecs (ecs.updateEntityComponent entityId newInstance).1 := by
  unfold ECS.updateEntityComponent
  split
  · exact refl ecs
  · split_ifs <;> exact ⟨rfl, fun _ he => he⟩

theorem updateEntity (ecs : ECS Component) (entityId : ℕ)
    (newInstances : List (Instance Component)) :
    KeepsIds ecs (ecs.updateEntity entityId newInstances).1 := by
  induction newInstances generalizing ecs with
  | nil => exact refl ecs
  | cons newInstance newInstances ih =>
      have hone := updateEntityComponent ecs entityId newInstance
      unfold ECS.updateEntity
      split
      · rename_i ecs' heq
        rw [heq] at hone
        exact hone.trans (ih ecs')
      · rename_i ecs' heq
        rw [heq] at hone
        exact hone

omit [DecidableEq κ] in
theorem destroyEntity (ecs : ECS Component) (entityId : ℕ) :
    KeepsIds ecs (ecs.destroyEntity entityId) := by
  refine ⟨rfl, fun e he => ?_⟩
  rw [ECS.destroyEntity, ExtTreeMap.mem_erase] at he
  exact he.2

end KeepsIds

namespace History

variable {history : History Component}

/-- The ids have been handed out in order, by a counter of 64 bits, and only they live. -/
structure Numbered (history : History Component) : Prop where
  issued_eq : history.issued = (List.range history.issued.length).map (· % 2 ^ 64)
  entitiesID_eq : history.ecs.entitiesID = history.issued.length % 2 ^ 64
  live_issued : ∀ e ∈ history.ecs.entities, e ∈ history.issued

omit [DecidableEq κ] in
theorem Numbered.keep (h : Numbered history) {ecs : ECS Component}
    (hkeeps : KeepsIds history.ecs ecs) : Numbered { history with ecs := ecs } where
  issued_eq := h.issued_eq
  entitiesID_eq := hkeeps.counter.trans h.entitiesID_eq
  live_issued e he := h.live_issued e (hkeeps.live e he)

omit [DecidableEq κ] in
/-- A new entity gets the id of the counter. -/
theorem Numbered.issue (h : Numbered history) {ecs : ECS Component}
    (hcounter : ecs.entitiesID = (history.ecs.entitiesID + 1) % 2 ^ 64)
    (hlive : ∀ e ∈ ecs.entities, e = history.ecs.entitiesID ∨ e ∈ history.ecs.entities) :
    Numbered { ecs := ecs, issued := history.issued ++ [history.ecs.entitiesID] } where
  issued_eq := by
    rw [List.length_append, List.length_singleton, List.range_succ, List.map_append,
      ← h.issued_eq, h.entitiesID_eq, List.map_singleton]
  entitiesID_eq := by
    rw [hcounter, h.entitiesID_eq, List.length_append, List.length_singleton, Nat.mod_add_mod]
  live_issued e he := by
    rw [List.mem_append, List.mem_singleton]
    rcases hlive e he with rfl | hold
    · exact Or.inr rfl
    · exact Or.inl (h.live_issued e hold)

omit [DecidableEq κ] in
theorem mem_insertEntity {ecs : ECS Component} {entityId e : ℕ} {mask : DynamicBitSet}
    (h : e ∈ (ecs.insertEntity entityId mask).entities) : e = entityId ∨ e ∈ ecs.entities := by
  rw [ECS.insertEntity, ExtTreeMap.mem_insertIfNew] at h
  refine h.imp_left fun heq => ?_
  obtain rfl : entityId = e := by simpa using heq
  rfl

/-- Each call keeps the ids in order. -/
theorem numbered_step (h : Numbered history) (call : Call Component) :
    Numbered (history.step call) := by
  cases call with
  | registerComponents cs => exact h.keep (.registerComponents _ cs)
  | preRegisterEntity => exact h.issue rfl fun e he => mem_insertEntity he
  | registerEntity first rest =>
      simp only [step, ECS.registerEntity]
      split_ifs with hnone
      · exact h.keep (.refl _)
      · have hadded := KeepsIds.addEntityComponents
          (history.ecs.insertEntity history.ecs.entitiesID
            (history.ecs.getComponentMask first.1 (rest.map Sigma.fst)))
          history.ecs.entitiesID (first :: rest)
        refine h.issue ?_ fun e he => mem_insertEntity (hadded.live e he)
        exact congrArg (fun id => (id + 1) % 2 ^ 64) hadded.counter
  | addEntityComponents entity instances => exact h.keep (.addEntityComponents _ entity instances)
  | updateEntity entityId newInstances => exact h.keep (.updateEntity _ entityId newInstances)
  | destroyEntity entityId => exact h.keep (.destroyEntity _ entityId)

theorem Run.numbered (h : Run history) : Numbered history := by
  refine h.invariant ?_ fun history call _ _ hnumbered => numbered_step hnumbered call
  rintro history rfl
  exact ⟨rfl, rfl, fun e he => by simp at he⟩

/-! ## The store after any sequence of calls -/

/-- The live ids are below the counter, and no id has been handed out twice. -/
def IdsFresh (history : History Component) : Prop :=
  (∀ e ∈ history.ecs.entities, e < history.ecs.entitiesID ∧ e ∈ history.issued) ∧
    history.issued.Nodup

omit [DecidableEq κ] in
/-- While the counter has not gone round, the ids are the first natural numbers. -/
theorem Numbered.idsFresh (h : Numbered history) (hfew : history.issued.length < 2 ^ 64) :
    IdsFresh history := by
  have hissued : history.issued = List.range history.issued.length := by
    conv_lhs => rw [h.issued_eq]
    conv_rhs => rw [← List.map_id (List.range history.issued.length)]
    refine List.map_congr_left fun id hid => Nat.mod_eq_of_lt ?_
    exact (List.mem_range.mp hid).trans hfew
  refine ⟨fun e he => ⟨?_, h.live_issued e he⟩, ?_⟩
  · have hmem := h.live_issued e he
    rw [hissued, List.mem_range] at hmem
    rwa [h.entitiesID_eq, Nat.mod_eq_of_lt hfew]
  · rw [hissued]
    exact List.nodup_range

/-- After any sequence of calls on a new store the masks are distinct and match the
sets, only live entities are in a set, and the ids are fresh when fewer than 2^64 of
them have been handed out. -/
theorem store_invariant (calls : List (Call Component)) :
    let history := calls.foldl step {}
    MasksDistinct history.ecs ∧ MasksMatch history.ecs ∧ MembersLive history.ecs ∧
      (history.issued.length < 2 ^ 64 → IdsFresh history) := by
  intro history
  have hrun : Run history := run_calls calls
  exact ⟨hrun.settled.masksDistinct, hrun.settled.masksMatch, hrun.settled.membersLive,
    hrun.numbered.idsFresh⟩

/-! ## The counter goes round -/

/-- An entity stays, and so many others come and go, each before the next one. -/
def comeAndGo (n : ℕ) : List (Call Component) :=
  .preRegisterEntity ::
    (List.range n).flatMap fun k => [.preRegisterEntity, .destroyEntity (k + 1)]

theorem foldl_comeAndGo (n : ℕ) :
    let history : History Component := (comeAndGo n).foldl step {}
    history.ecs.entitiesID = (n + 1) % 2 ^ 64 ∧ 0 ∈ history.ecs.entities := by
  induction n with
  | zero => exact ⟨rfl, ExtTreeMap.mem_insertIfNew_self⟩
  | succ n ih =>
      have hnext : (comeAndGo (n + 1) : List (Call Component)) =
          comeAndGo n ++ [.preRegisterEntity, .destroyEntity (n + 1)] := by
        simp only [comeAndGo, List.range_succ, List.flatMap_append, List.flatMap_singleton,
          List.cons_append]
      simp only [hnext, List.foldl_append, List.foldl_cons, List.foldl_nil]
      generalize (comeAndGo n).foldl step ({} : History Component) = history at ih
      obtain ⟨hcounter, hfirst⟩ := ih
      constructor
      · change (history.ecs.entitiesID + 1) % 2 ^ 64 = (n + 1 + 1) % 2 ^ 64
        rw [hcounter, Nat.mod_add_mod]
      · change 0 ∈ (history.ecs.entities.insertIfNew history.ecs.entitiesID {}).erase (n + 1)
        rw [ExtTreeMap.mem_erase, ExtTreeMap.mem_insertIfNew]
        exact ⟨by simp, .inr hfirst⟩

/-- While one entity lives, 2^64 - 1 others come and go.  Then the counter is back at 0, the id
of the one that lives. -/
theorem ids_wrap :
    ¬ IdsFresh ((comeAndGo (2 ^ 64 - 1)).foldl step ({} : History fun _ : Unit => Unit)) := by
  intro hfresh
  obtain ⟨hcounter, hfirst⟩ :
      ((comeAndGo (2 ^ 64 - 1)).foldl step
        ({} : History fun _ : Unit => Unit)).ecs.entitiesID = (2 ^ 64 - 1 + 1) % 2 ^ 64 ∧ _ :=
    foldl_comeAndGo (2 ^ 64 - 1)
  have hlt := (hfresh.1 0 hfirst).1
  rw [hcounter, Nat.sub_add_cancel (by norm_num), Nat.mod_self] at hlt
  exact lt_irrefl 0 hlt

end History

end ECS

end Rtype.Rtecs
