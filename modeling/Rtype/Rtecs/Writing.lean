import Mathlib
import Rtype.Rtecs.GroupContents
import Rtype.Rtecs.Instances

/-!
# Rtecs - Writing through references

A system changes instances through the references of a group.  This file says what a
write at a position of a dense array does to the store, and what a pass over a group
does that writes one value for each of its entities.

Main results:

- Theorem {lit}`ECS.gives_writeAt`: a write changes one instance.
- Theorem {lit}`ECS.apply_write`: a pass over the group of one type gives its value to all
  that have the type.

Current gaps:

- None.
-/

namespace Rtype.Rtecs

open Std

/-! ## One set -/

namespace ComponentSet

variable {T : Type}

/-- The assignment to the element of the dense array that a reference leads to. -/
def write (set : ComponentSet T) (reference : ℕ) (component : T) : ComponentSet T :=
  ⟨{ set.1 with dense := set.1.dense.setIfInBounds reference component },
    ⟨by rw [Array.size_setIfInBounds, set.2.size_eq], set.2.locates⟩⟩

variable {set : ComponentSet T} {id reference : ℕ}

@[simp]
theorem position_write (set : ComponentSet T) (reference : ℕ) (component : T) (id : ℕ) :
    (set.write reference component).position id = set.position id := rfl

@[simp]
theorem has_write (set : ComponentSet T) (reference : ℕ) (component : T) (id : ℕ) :
    (set.write reference component).has id = set.has id := rfl

/-- A write through the reference of an entity changes the instance of that entity. -/
theorem get_write (h : set.position id = some reference) (component : T) (a : ℕ) :
    (set.write reference component).get a = if a = id then some component else set.get a := by
  have hrepresents : DenseIndex.Represents set.1.entities
      (set.1.dense.setIfInBounds reference component) (sparseEntry set.1.sparsePages)
      fun a => if a = id then some component else set.get a :=
    set.2.represents.overwrite h fun a => rfl
  exact ((set.write reference component).1.get_eq_bind a).trans (hrepresents.lookup a).symm

end ComponentSet

namespace ECS

variable {κ : Type} {Component : κ → Type} [DecidableEq κ]

/-! ## The store -/

/-- A write through a reference into the set of a component; there is nothing to write to
behind the end of the set. -/
def writeAt (ecs : ECS Component) (reference : ℕ) (instance_ : Instance Component) :
    Option (ECS Component) :=
  match ecs.components instance_.1 with
  | none => none
  | some set =>
      if reference < set.size then
        some { ecs with
          components := Function.update ecs.components instance_.1
            (some (set.write reference instance_.2)) }
      else none

/-- A write leaves all but the instances alone. -/
structure WritesOnly (ecs ecs' : ECS Component) : Prop where
  entities : ecs'.entities = ecs.entities
  entitiesID : ecs'.entitiesID = ecs.entitiesID
  componentsMasks : ecs'.componentsMasks = ecs.componentsMasks
  componentMaskIndex : ecs'.componentMaskIndex = ecs.componentMaskIndex
  registered : ∀ c, (ecs'.components c).isSome = (ecs.components c).isSome
  position : ∀ c e, ecs'.position c e = ecs.position c e

omit [DecidableEq κ] in
theorem WritesOnly.refl (ecs : ECS Component) : WritesOnly ecs ecs :=
  ⟨rfl, rfl, rfl, rfl, fun _ => rfl, fun _ _ => rfl⟩

omit [DecidableEq κ] in
theorem WritesOnly.trans {ecs ecs' ecs'' : ECS Component} (h : WritesOnly ecs ecs')
    (h' : WritesOnly ecs' ecs'') : WritesOnly ecs ecs'' where
  entities := h'.entities.trans h.entities
  entitiesID := h'.entitiesID.trans h.entitiesID
  componentsMasks := h'.componentsMasks.trans h.componentsMasks
  componentMaskIndex := h'.componentMaskIndex.trans h.componentMaskIndex
  registered c := (h'.registered c).trans (h.registered c)
  position c e := (h'.position c e).trans (h.position c e)

omit [DecidableEq κ] in
theorem WritesOnly.hasComponent {ecs ecs' : ECS Component} (h : WritesOnly ecs ecs') (c : κ)
    (e : ℕ) : ecs'.hasComponent c e = ecs.hasComponent c e := by
  rw [hasComponent_eq, h.position, hasComponent_eq]

omit [DecidableEq κ] in
/-- References stay the same. -/
theorem WritesOnly.ownReferences {ecs ecs' : ECS Component} (h : WritesOnly ecs ecs')
    {cs : List κ} {e : ℕ} {references : List ℕ} (hown : ecs.OwnReferences cs e references) :
    ecs'.OwnReferences cs e references := by
  apply hown.imp
  intro c reference hreference
  rw [h.position]
  exact hreference

omit [DecidableEq κ] in
/-- The masks and the sets know nothing of what is written. -/
theorem Settled.writesOnly {ecs ecs' : ECS Component} (hsettled : Settled ecs)
    (h : WritesOnly ecs ecs') : Settled ecs' := by
  rcases hsettled with ⟨layout, hkeeps⟩
  have hsets : ∀ c set', ecs'.components c = some set' →
      ∃ set, ecs.components c = some set ∧ ∀ e, set'.has e = set.has e := by
    intro c set' hset'
    have hsome := h.registered c
    rw [hset', Option.isSome_some] at hsome
    rcases Option.isSome_iff_exists.mp hsome.symm with ⟨set, hset⟩
    refine ⟨set, hset, fun e => ?_⟩
    simpa only [ECS.hasComponent, hset', hset] using h.hasComponent c e
  refine ⟨layout, ?_⟩
  constructor
  case index_oneHot =>
    rw [h.componentMaskIndex]
    exact hkeeps.index_oneHot
  case mask_oneHot =>
    rw [h.componentsMasks]
    exact hkeeps.mask_oneHot
  case registered =>
    intro c
    rw [h.registered, h.componentsMasks]
    exact hkeeps.registered c
  case bit_injective =>
    rw [h.componentsMasks]
    exact hkeeps.bit_injective
  case entity_bits =>
    rw [h.entities]
    exact hkeeps.entity_bits
  case member =>
    rw [h.entities]
    intro c set' e mask hset' hmask
    rcases hsets c set' hset' with ⟨set, hset, hhas⟩
    rw [hhas]
    exact hkeeps.member c set e mask hset hmask
  case live =>
    rw [h.entities]
    intro c set' e hset' hmem
    rcases hsets c set' hset' with ⟨set, hset, hhas⟩
    rw [hhas] at hmem
    exact hkeeps.live c set e hset hmem

omit [DecidableEq κ] in
/-- Only live entities have an instance. -/
theorem Settled.live {ecs : ECS Component} (hsettled : Settled ecs) {e : ℕ} {c : κ}
    {instance_ : Component c} (h : ecs.getEntityComponent e c = some instance_) :
    e ∈ ecs.entities := by
  rcases hsettled with ⟨layout, hkeeps⟩
  cases hset : ecs.components c with
  | none => simp [getEntityComponent, hset] at h
  | some set =>
      apply hkeeps.live c set e hset
      have hhas := hasComponent_eq_isSome_get ecs c e
      rw [h, hasComponent, hset] at hhas
      exact hhas

theorem writesOnly_writeAt {ecs ecs' : ECS Component} {reference : ℕ}
    {instance_ : Instance Component} (h : ecs.writeAt reference instance_ = some ecs') :
    WritesOnly ecs ecs' := by
  unfold writeAt at h
  split at h
  · cases h
  · rename_i set hset
    split_ifs at h with hbound
    cases h
    constructor
    · rfl
    · rfl
    · rfl
    · rfl
    · intro c
      by_cases hc : c = instance_.1
      · subst hc
        simp [hset]
      · simp only [Function.update_of_ne hc]
    · intro c e
      unfold position
      by_cases hc : c = instance_.1
      · subst hc
        simp [hset]
      · simp only [Function.update_of_ne hc]

/-- All entities of a kind have got one value of a type, and nothing else has changed. -/
structure Gives (ecs ecs' : ECS Component) (c : κ) (value : Component c) (chosen : ℕ → Prop) :
    Prop where
  only : WritesOnly ecs ecs'
  given : ∀ e, chosen e → ecs'.getEntityComponent e c = some value
  spared : ∀ e, ¬ chosen e → ecs'.getEntityComponent e c = ecs.getEntityComponent e c
  others : ∀ e d, d ≠ c → ecs'.getEntityComponent e d = ecs.getEntityComponent e d

omit [DecidableEq κ] in
/-- All other instances stay the same. -/
theorem Gives.elsewhere {ecs ecs' : ECS Component} {c : κ} {value : Component c}
    {chosen : ℕ → Prop} (h : Gives ecs ecs' c value chosen) {e : ℕ} {d : κ}
    (hother : ¬ (chosen e ∧ d = c)) :
    ecs'.getEntityComponent e d = ecs.getEntityComponent e d := by
  by_cases hd : d = c
  · subst hd
    exact h.spared e fun hchosen => hother ⟨hchosen, rfl⟩
  · exact h.others e d hd

/-- A write through the reference of an entity is possible, and changes the instance of
that entity. -/
theorem gives_writeAt {ecs : ECS Component} {c : κ} {entity reference : ℕ}
    (h : ecs.position c entity = some reference) (value : Component c) :
    ∃ ecs', ecs.writeAt reference ⟨c, value⟩ = some ecs' ∧
      Gives ecs ecs' c value fun e => e = entity := by
  cases hset : ecs.components c with
  | none => simp [position, hset] at h
  | some set =>
      have hposition : set.position entity = some reference := by
        simpa only [position, hset] using h
      have hwrite : ecs.writeAt reference ⟨c, value⟩ =
          some { ecs with
            components := Function.update ecs.components c
              (some (set.write reference value)) } := by
        simp only [writeAt, hset, if_pos (ComponentSet.position_lt_size hposition)]
      refine ⟨_, hwrite, ?_⟩
      constructor
      · exact writesOnly_writeAt hwrite
      · rintro e rfl
        simp [getEntityComponent, ComponentSet.get_write hposition]
      · intro e he
        simp [getEntityComponent, hset, ComponentSet.get_write hposition, he]
      · intro e d hd
        simp only [getEntityComponent, Function.update_of_ne hd]

/-! ## A pass over a group -/

/-- The callback that assigns one value to the instance it is called with. -/
def writeCallback (c : κ) (value : Component c) (ecs : ECS Component) (_entity : ℕ) :
    List ℕ → Option (ECS Component)
  | [reference] => ecs.writeAt reference ⟨c, value⟩
  | _ => none

/-- Calls with the references of their entities give the value to all of them. -/
theorem gives_foldlM {ecs : ECS Component} {c : κ} (value : Component c)
    {calls : List (ℕ × List ℕ)}
    (hown : ∀ call ∈ calls, ecs.OwnReferences [c] call.1 call.2) :
    ∃ ecs', calls.foldlM (fun ecs call => writeCallback c value ecs call.1 call.2) ecs =
        some ecs' ∧ Gives ecs ecs' c value fun e => e ∈ calls.map Prod.fst := by
  induction calls generalizing ecs with
  | nil =>
      refine ⟨ecs, rfl, .refl ecs, ?_, fun _ _ => rfl, fun _ _ _ => rfl⟩
      intro e he
      cases he
  | cons call calls ih =>
      rcases call with ⟨entity, references⟩
      have hfirst := hown (entity, references) List.mem_cons_self
      rcases List.forall₂_cons_left_iff.mp hfirst with ⟨reference, rest, hposition, hrest, rfl⟩
      rw [List.forall₂_nil_left_iff] at hrest
      subst hrest
      rcases gives_writeAt hposition value with ⟨ecs₁, hwrite, hone⟩
      have hown' : ∀ call ∈ calls, ecs₁.OwnReferences [c] call.1 call.2 := by
        intro call hcall
        exact hone.only.ownReferences (hown call (List.mem_cons_of_mem _ hcall))
      rcases ih hown' with ⟨ecs', hfold, hall⟩
      refine ⟨ecs', ?_, hone.only.trans hall.only, ?_, ?_, ?_⟩
      · rw [List.foldlM_cons]
        change (ecs.writeAt reference ⟨c, value⟩).bind _ = _
        rw [hwrite, Option.bind_some]
        exact hfold
      · intro e he
        by_cases hlater : e ∈ calls.map Prod.fst
        · exact hall.given e hlater
        · rw [hall.spared e hlater]
          exact hone.given e ((List.mem_cons.mp he).resolve_right hlater)
      · intro e he
        rw [List.map_cons, List.mem_cons, not_or] at he
        rw [hall.spared e he.2, hone.spared e he.1]
      · intro e d hd
        rw [hall.others e d hd, hone.others e d hd]

/-- A pass over the group of one type that assigns a value in each call: it never writes
outside of a set, and all that have the type have the value afterwards. -/
theorem apply_write (ecs : ECS Component) (c : κ) (value : Component c) :
    ∃ ecs', (ecs.group [c]).apply (writeCallback c value) ecs = some ecs' ∧
      Gives ecs ecs' c value fun e => (ecs.getEntityComponent e c).isSome = true := by
  rcases ecs.group_apply c [] with ⟨calls, hcalls⟩
  rcases gives_foldlM value hcalls.own with ⟨ecs', hfold, hgives⟩
  refine ⟨ecs', by rw [hcalls.run]; exact hfold, ?_⟩
  have hmem : (fun e => (ecs.getEntityComponent e c).isSome = true) =
      fun e => e ∈ calls.map Prod.fst := by
    funext e
    rw [hcalls.entities, Array.mem_toList_iff, mem_getEntities_group]
    simp
  rw [hmem]
  exact hgives

end ECS

end Rtype.Rtecs
