import Mathlib
import Rtype.Rtecs.Registration
import Rtype.Rteng.EntityContent

/-!
# Rteng - The infos of an entity

The engine describes an entity by the indexes of its mask and the bytes of those of
its components that a list names, in the order of the list.

Main results:

- Theorem {lit}`getEntityInfos_eq`: the content is the concatenation of the wire forms of
  the components that the entity has.

Current gaps:

- The behaviours of an engine are not run here.
-/

namespace Rtype.Rteng

open Rtype.Rtnt (Shape)
open Rtype.Rtecs

variable {κ : Type} {Component : κ → Type}

/-! ## Components that can be sent -/

/-- What the {lit}`serialize` function of a component type lists: the shape of the fields,
their values in a component, and the component that a default one becomes when the
fields are read into it.  What is read back is what was written; fields that are not
listed are free. -/
structure Schema (T : Type) where
  shape : Shape
  save : T → shape.Val
  load : shape.Val → T
  save_load : ∀ component, save (load (save component)) = save component

/-- The serialized fields of the component survive the way through a buffer. -/
def RoundTrips {T : Type} (schema : Schema T) (component : T) : Prop :=
  Writable schema.shape ∧ schema.shape.Fits (schema.save component)

/-! ## GameEngine -/

variable [DecidableEq κ]

/-- {lit}`GameEngine::getEntityWithComponent`. -/
def getEntityWithComponent (ecs : ECS Component) (c : κ) (id : ℕ) : Option (Component c) :=
  ecs.getEntity [c] c id

/-- The function {lit}`packIfPresent` of {lit}`GameEngine::getEntityInfos`. -/
def packIfPresent (schema : (c : κ) → Schema (Component c)) (ecs : ECS Component) (id : ℕ)
    (contentStream : EntityContent) (c : κ) : Except String EntityContent :=
  match getEntityWithComponent ecs c id with
  | none => .ok contentStream
  | some component =>
      EntityContent.write (schema c).shape ((schema c).save component) contentStream

/-- {lit}`GameEngine::getEntityInfos`. -/
def getEntityInfos (schema : (c : κ) → Schema (Component c)) (ecs : ECS Component) (cs : List κ)
    (id : ℕ) : Except String (List ℕ × List UInt8) :=
  match cs.foldlM (packIfPresent schema ecs id) {} with
  | .error e => .error e
  | .ok contentStream => .ok ((ecs.getEntityMask id).serialize, contentStream.buffer)

/-! ## The content -/

/-- The wire form of one component, and nothing when it is missing. -/
def encodeComponent (schema : (c : κ) → Schema (Component c)) (held : (c : κ) → Option (Component c))
    (c : κ) : List UInt8 :=
  match held c with
  | none => []
  | some component => (schema c).shape.encode ((schema c).save component)

/-- The wire forms of the components of the list, in its order. -/
def contentOf (schema : (c : κ) → Schema (Component c)) (held : (c : κ) → Option (Component c))
    (cs : List κ) : List UInt8 :=
  cs.flatMap (encodeComponent schema held)

/-- Packing appends the wire form. -/
theorem packIfPresent_eq {schema : (c : κ) → Schema (Component c)} {ecs : ECS Component} {id : ℕ}
    {c : κ} (hfits : ∀ component, ecs.getEntityComponent id c = some component →
      RoundTrips (schema c) component) (contentStream : EntityContent) :
    packIfPresent schema ecs id contentStream c =
      .ok (contentStream.append (encodeComponent schema (ecs.getEntityComponent id) c)) := by
  unfold packIfPresent encodeComponent getEntityWithComponent
  rw [ECS.getEntity_singleton]
  cases hheld : ecs.getEntityComponent id c with
  | none => exact congrArg Except.ok contentStream.append_nil.symm
  | some component =>
      obtain ⟨hwritable, hdata⟩ := hfits component hheld
      exact EntityContent.write_eq _ _ hwritable hdata contentStream

/-- The infos are the indexes of the mask and the wire forms of the components. -/
theorem getEntityInfos_eq {schema : (c : κ) → Schema (Component c)} {ecs : ECS Component}
    {cs : List κ} {id : ℕ}
    (hfits : ∀ c ∈ cs, ∀ component, ecs.getEntityComponent id c = some component →
      RoundTrips (schema c) component) :
    getEntityInfos schema ecs cs id =
      .ok ((ecs.getEntityMask id).serialize, contentOf schema (ecs.getEntityComponent id) cs) := by
  have hpack : cs.foldlM (packIfPresent schema ecs id) {} =
      .ok (EntityContent.append {} (contentOf schema (ecs.getEntityComponent id) cs)) :=
    EntityContent.foldlM_write_eq
      (fun c hc contentStream => packIfPresent_eq (hfits c hc) contentStream) {}
  unfold getEntityInfos
  rw [hpack]
  simp [EntityContent.append]

end Rtype.Rteng
