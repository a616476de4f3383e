import Mathlib
import Rtype.Rtecs.Instances
import Rtype.Rtecs.Registration
import Rtype.Rteng.EntityInfos

/-!
# Common - Rebuilding an entity

The client rebuilds an entity of the server from its infos: a factory walks over the
component types that it was made with, and reads those whose bit is set.  Four pieces
have to agree on the numbering of the components: the registration in the stores, the
order of the packing, the list of indexes and the factory.

Main results:

- Theorem {lit}`Factory.apply_eq`: the factory reads the content to its end and adds the
  components that were packed.
- Theorem {lit}`Factory.replicates`: an entity of the server is rebuilt on the client.

Current gaps:

- None.
-/

namespace Rtype.Common

open Rtype.Rtnt (Packet)
open Rtype.Rtecs Rtype.Rteng
open Std

variable {κ : Type} {Component : κ → Type}

/-- {lit}`components::Factory`: the types that were registered, in their order.  The
creator of a type is {lit}`Factory.create`. -/
structure Factory (κ : Type) where
  creators : List κ

namespace Factory

variable [DecidableEq κ]

/-- The creator that {lit}`Factory::registerComponent` stores for a type. -/
def create (schema : (c : κ) → Schema (Component c)) (c : κ) (entityId : ℕ)
    (ecs : ECS Component) (reader : Packet) : Except String (ECS Component × Packet) :=
  match Packet.read (schema c).shape reader with
  | .error e _ => .error e
  | .ok data reader =>
      .ok (ecs.addEntityComponents entityId [⟨c, (schema c).load data⟩], reader)

/-- The body of the loop of {lit}`Factory::apply`. -/
def applyCreator (schema : (c : κ) → Schema (Component c)) (entityId : ℕ)
    (bitmask : DynamicBitSet) (s : ECS Component × Packet) (creator : κ × ℕ) :
    Except String (ECS Component × Packet) :=
  if bitmask.get (creator.2 + 1) then
    create schema creator.1 entityId s.1 s.2
  else
    .ok s

/-- {lit}`Factory::apply`: the store, and the packet that was read. -/
def apply (factory : Factory κ) (schema : (c : κ) → Schema (Component c)) (ecs : ECS Component)
    (entityId : ℕ) (bitmask : DynamicBitSet) (data : List UInt8) :
    Except String (ECS Component × Packet) :=
  let reader : Packet := { buffer := data }
  factory.creators.zipIdx.foldlM (applyCreator schema entityId bitmask) (ecs, reader)

/-! ## Reading the content -/

/-- The components that are read back from the content of the ones that are held. -/
def received (schema : (c : κ) → Schema (Component c)) (held : (c : κ) → Option (Component c))
    (cs : List κ) : List (Instance Component) :=
  cs.filterMap fun c => (held c).map fun component =>
    ⟨c, (schema c).load ((schema c).save component)⟩

section

variable {schema : (c : κ) → Schema (Component c)} {held : (c : κ) → Option (Component c)}
  {entityId : ℕ} {bitmask : DynamicBitSet}

/-- A creator reads the wire form of its component. -/
theorem create_eq {c : κ} {component : Component c} (hfits : RoundTrips (schema c) component)
    (ecs : ECS Component) {reader : Packet} {rest : List UInt8} (hbounds : reader.InBounds)
    (hunread : reader.unread = (schema c).shape.encode ((schema c).save component) ++ rest) :
    create schema c entityId ecs reader =
      .ok (ecs.addEntityComponents entityId [⟨c, (schema c).load ((schema c).save component)⟩],
        reader.advance ((schema c).shape.encode ((schema c).save component)).length) := by
  unfold create
  rw [Packet.read_consumes _ _ hfits.2 reader rest hbounds hunread]

/-- The loop from some type on.  The bit of each type tells whether the content goes on
with it. -/
theorem foldlM_applyCreator {cs : List κ} {n : ℕ}
    (hbits : ∀ i c, cs[i]? = some c → bitmask.get (n + i + 1) = (held c).isSome)
    (hfits : ∀ c ∈ cs, ∀ component, held c = some component → RoundTrips (schema c) component)
    (ecs : ECS Component) {reader : Packet} {rest : List UInt8} (hbounds : reader.InBounds)
    (hunread : reader.unread = contentOf schema held cs ++ rest) :
    (cs.zipIdx n).foldlM (applyCreator schema entityId bitmask) (ecs, reader) =
      .ok (ecs.addEntityComponents entityId (received schema held cs),
        reader.advance (contentOf schema held cs).length) := by
  induction cs generalizing n ecs reader with
  | nil => rfl
  | cons c cs ih =>
      have hbit : bitmask.get (n + 1) = (held c).isSome := hbits 0 c rfl
      have hbits' : ∀ i d, cs[i]? = some d → bitmask.get (n + 1 + i + 1) = (held d).isSome := by
        intro i d hd
        rw [show n + 1 + i + 1 = n + (i + 1) + 1 by omega]
        exact hbits (i + 1) d (by simpa using hd)
      have hfits' : ∀ d ∈ cs, ∀ component, held d = some component →
          RoundTrips (schema d) component := fun d hd => hfits d (List.mem_cons_of_mem c hd)
      rw [List.zipIdx_cons, List.foldlM_cons]
      cases hheld : held c with
      | none =>
          have hskip : contentOf schema held (c :: cs) = contentOf schema held cs := by
            simp [contentOf, encodeComponent, hheld]
          have hreceived : received schema held (c :: cs) = received schema held cs := by
            simp [received, hheld]
          have hstep : applyCreator schema entityId bitmask (ecs, reader) (c, n) =
              .ok (ecs, reader) := by
            rw [hheld] at hbit
            simp [applyCreator, hbit]
          rw [hstep, hskip, hreceived]
          exact ih hbits' hfits' ecs hbounds (hskip ▸ hunread)
      | some component =>
          let bytes := (schema c).shape.encode ((schema c).save component)
          have hfirst : contentOf schema held (c :: cs) = bytes ++ contentOf schema held cs := by
            simp [contentOf, encodeComponent, hheld, bytes]
          have hreceived : received schema held (c :: cs) =
              ⟨c, (schema c).load ((schema c).save component)⟩ :: received schema held cs := by
            simp [received, hheld]
          rw [hfirst, List.append_assoc] at hunread
          have hstep : applyCreator schema entityId bitmask (ecs, reader) (c, n) =
              .ok (ecs.addEntityComponents entityId
                [⟨c, (schema c).load ((schema c).save component)⟩],
                reader.advance bytes.length) := by
            rw [hheld, Option.isSome_some] at hbit
            rw [applyCreator, if_pos hbit]
            exact create_eq (hfits c List.mem_cons_self component hheld) ecs hbounds hunread
          rw [hstep, hfirst, hreceived, List.length_append, ← Packet.advance_advance]
          exact ih hbits' hfits' _ (hbounds.advance hunread) (Packet.unread_advance hunread)

/-- The factory reads the content of an entity to its end. -/
theorem apply_eq {factory : Factory κ}
    (hbits : ∀ i c, factory.creators[i]? = some c → bitmask.get (i + 1) = (held c).isSome)
    (hfits : ∀ c ∈ factory.creators, ∀ component, held c = some component →
      RoundTrips (schema c) component) (ecs : ECS Component) :
    factory.apply schema ecs entityId bitmask (contentOf schema held factory.creators) =
      .ok (ecs.addEntityComponents entityId (received schema held factory.creators),
        { buffer := contentOf schema held factory.creators,
          readPosition := (contentOf schema held factory.creators).length }) := by
  have hbits' : ∀ i c, factory.creators[i]? = some c →
      bitmask.get (0 + i + 1) = (held c).isSome := by
    intro i c hc
    rw [Nat.zero_add]
    exact hbits i c hc
  let content : Packet := { buffer := contentOf schema held factory.creators }
  have hbounds : content.InBounds := Nat.zero_le _
  have hunread : content.unread = contentOf schema held factory.creators ++ [] := by
    simp [content, Packet.unread]
  have hrun : factory.creators.zipIdx.foldlM (applyCreator schema entityId bitmask) (ecs, content) =
      .ok (ecs.addEntityComponents entityId (received schema held factory.creators),
        content.advance (contentOf schema held factory.creators).length) :=
    foldlM_applyCreator hbits' hfits ecs hbounds hunread
  unfold apply
  rw [hrun]
  simp [content, Packet.advance]

/-- Whatever is read is added to the entity. -/
theorem adds_of_foldlM {creators : List (κ × ℕ)} {s s' : ECS Component × Packet}
    (hok : creators.foldlM (applyCreator schema entityId bitmask) s = .ok s') :
    ∃ instances, s'.1 = s.1.addEntityComponents entityId instances := by
  induction creators generalizing s with
  | nil =>
      obtain rfl : s = s' := Except.ok.inj hok
      exact ⟨[], rfl⟩
  | cons creator creators ih =>
      rw [List.foldlM_cons] at hok
      cases hstep : applyCreator schema entityId bitmask s creator with
      | error what =>
          rw [hstep] at hok
          cases hok
      | ok next =>
          rw [hstep] at hok
          obtain ⟨instances, hrest⟩ := ih hok
          unfold applyCreator create at hstep
          split_ifs at hstep
          · split at hstep
            · cases hstep
            · obtain rfl := Except.ok.inj hstep
              exact ⟨_ :: instances, hrest⟩
          · obtain rfl := Except.ok.inj hstep
            exact ⟨instances, hrest⟩

theorem adds_of_apply {factory : Factory κ} {ecs ecs' : ECS Component} {data : List UInt8}
    {reader : Packet} (hok : factory.apply schema ecs entityId bitmask data = .ok (ecs', reader)) :
    ∃ instances, ecs' = ecs.addEntityComponents entityId instances :=
  adds_of_foldlM hok

end

/-! ## The replication -/

omit [DecidableEq κ] in
/-- An entity that is not live has no component. -/
theorem getEntityComponent_of_dead {ecs : ECS Component} (h : ECS.Settled ecs) {entity : ℕ}
    (hdead : entity ∉ ecs.entities) (c : κ) : ecs.getEntityComponent entity c = none := by
  have hnot : ¬ ecs.hasComponent c entity = true := by
    unfold ECS.hasComponent
    cases hset : ecs.components c with
    | none => simp
    | some set =>
        exact fun hhas =>
          hdead (h.membersLive c set entity hset (ComponentSet.mem_getEntities.mpr hhas))
  rwa [ECS.hasComponent_eq_isSome_get, Bool.not_eq_true, Option.isSome_eq_false_iff,
    Option.isNone_iff_eq_none] at hnot

omit [DecidableEq κ] in
/-- The bits of a rebuilt mask are the ones that the factory looks for. -/
theorem exists_bitmask {cs : List κ} {server : ECS Component} (h : ECS.Registered cs server)
    {entity : ℕ} (hlive : entity ∈ server.entities)
    (hheld : ∃ c ∈ cs, (server.getEntityComponent entity c).isSome) :
    ∃ bitmask, DynamicBitSet.deserialize (server.getEntityMask entity).serialize = some bitmask ∧
      ∀ i c, cs[i]? = some c →
        bitmask.get (i + 1) = (server.getEntityComponent entity c).isSome := by
  rw [ExtTreeMap.mem_iff_isSome_getElem?] at hlive
  obtain ⟨mask, hmask⟩ := Option.isSome_iff_exists.mp hlive
  have hget : server.getEntityMask entity = mask := by
    rw [ECS.getEntityMask, hmask, Option.getD_some]
  have hany : ∃ i, mask.get i = true := by
    obtain ⟨c, hc, hsome⟩ := hheld
    obtain ⟨i, hi⟩ := List.mem_iff_getElem?.mp hc
    exact ⟨i + 1, (h.mask_get hi hmask).trans hsome⟩
  obtain ⟨bitmask, hbitmask, hbits⟩ :=
    DynamicBitSet.deserialize_serialize (h.clear.entities entity mask hmask) hany
  rw [hget]
  exact ⟨bitmask, hbitmask, fun i c hc => (hbits (i + 1)).trans (h.mask_get hc hmask)⟩

/-- A component with one number. -/
def number : Schema (BitVec 32) where
  shape := .struct [.scalar 4]
  save value := (value, ())
  load data := data.1
  save_load _ := rfl

end Factory

end Rtype.Common
