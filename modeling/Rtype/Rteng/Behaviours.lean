import Mathlib
import Rtype.Rtecs.Writing
import Rtype.Rteng.GameEngine

/-!
# Rteng - Scripted entities

An entity can be registered with a script, an object that the engine starts and updates.
The script is kept in a component of the engine itself, and {lit}`registerEntity` fills it
in through a group, which ranges over all the entities that have a script.  This file
embeds the call and says exactly when the entities that were there before keep their
components.

Main results:

- Definition {lit}`GameEngine.registerEntity`: the call, with the writes of its callback.
- Theorem {lit}`GameEngine.registerEntity_spec`: all components after the call.
- Theorem {lit}`GameEngine.leaves_alone_iff`: the calls that leave the others alone.

Current gaps:

- A shared pointer is a number that names its object, or nothing.
-/

namespace Rtype.Rteng

open Rtype.Rtecs
open Transition (Reachable)

/-- {lit}`components::Behaviour`. -/
structure Behaviour where
  instance_ : Option ℕ := none
  started : Bool := false
deriving DecidableEq

variable {κ : Type}

/-- The component types of an engine: those of its lists and, as {lit}`none`, its own. -/
def EngineComponent (Component : κ → Type) : Option κ → Type
  | none => Behaviour
  | some c => Component c

variable {Component : κ → Type} [DecidableEq κ]

/-- A behaviour without a script. -/
def Behaviour.empty : EngineComponent Component none :=
  ({} : Behaviour)

/-- What {lit}`registerEntity` writes into a behaviour. -/
def Behaviour.filled (monoBehaviour : ℕ) : EngineComponent Component none :=
  ({ instance_ := some monoBehaviour, started := false } : Behaviour)

namespace GameEngine

/-- {lit}`GameEngine::registerEntity`.  The callback takes no notice of the entity that it
is called for. -/
def registerEntity (engine : GameEngine (EngineComponent Component))
    (monoBehaviour : Option ℕ) (first : Instance (EngineComponent Component))
    (rest : List (Instance (EngineComponent Component))) :
    Option (GameEngine (EngineComponent Component) × ℕ) :=
  let (ecs, entityId) := engine.ecs.registerEntity first rest
  match monoBehaviour with
  | none => some ({ engine with ecs }, entityId)
  | some mono =>
      let ecs := ecs.addEntityComponents entityId [⟨none, Behaviour.empty⟩]
      let behaviourGroup := ecs.group [none]
      match behaviourGroup.apply (ECS.writeCallback none (Behaviour.filled mono)) ecs with
      | none => none
      | some ecs => some ({ engine with ecs }, entityId)

/-! ## Runs of an engine -/

/-- The calls on an engine.  Its store is public, and so are the references into it, which
scripts and systems write through. -/
inductive EngineCall (Component : κ → Type)
  | store (call : ECS.Call (EngineComponent Component))
  | write (reference : ℕ) (instance_ : Instance (EngineComponent Component))
  | registerEntity (monoBehaviour : Option ℕ) (first : Instance (EngineComponent Component))
      (rest : List (Instance (EngineComponent Component)))

/-- The engine after a call, unless the call writes outside of a set. -/
def call (engine : GameEngine (EngineComponent Component)) :
    EngineCall Component → Option (GameEngine (EngineComponent Component))
  | .store call => some { engine with ecs := (ECS.History.step { ecs := engine.ecs } call).ecs }
  | .write reference instance_ =>
      (engine.ecs.writeAt reference instance_).map fun ecs => { engine with ecs }
  | .registerEntity monoBehaviour first rest =>
      (engine.registerEntity monoBehaviour first rest).map Prod.fst

/-- The engines of all runs. -/
def Reached (components : List (Option κ)) : GameEngine (EngineComponent Component) → Prop :=
  Reachable (fun engine => engine = .new components none)
    (fun engine c => (engine.call c).getD engine) fun engine c => (engine.call c).isSome

/-! ## What holds in all runs -/

/-- The store agrees with itself, and the component of the engine is registered. -/
structure Ready (ecs : ECS (EngineComponent Component)) : Prop where
  settled : ECS.Settled ecs
  registered : (ecs.components none).isSome

namespace Ready

variable {ecs ecs' : ECS (EngineComponent Component)}

/-- The engine registers its own component last. -/
theorem new (components : List (Option κ)) :
    Ready (GameEngine.new components none : GameEngine (EngineComponent Component)).ecs where
  settled := (ECS.History.run_calls [.registerComponents (components ++ [none])]).settled
  registered := by
    have happend := ECS.registerComponents_append ({} : ECS (EngineComponent Component))
      components [none]
    rw [GameEngine.new, happend]
    change ((ECS.registerComponent _ none).components none).isSome = true
    unfold ECS.registerComponent
    dsimp only
    split_ifs with hset
    · exact hset
    · simp only [Function.update_self, Option.isSome_some]

theorem storeCall (h : Ready ecs) (call : ECS.Call (EngineComponent Component)) :
    Ready (ECS.History.step { ecs := ecs } call).ecs := by
  have hbefore : ECS.Settled (ECS.History.mk ecs []).ecs := h.settled
  have hsettled : ECS.Settled (ECS.History.step { ecs := ecs } call).ecs :=
    ECS.History.settled_step hbefore call
  refine ⟨hsettled, ?_⟩
  rcases h.settled with ⟨layout, hkeeps⟩
  rcases hsettled with ⟨layout', hkeeps'⟩
  have hmask := h.registered
  rw [hkeeps.registered] at hmask
  rcases Option.isSome_iff_exists.mp hmask with ⟨mask, hmask⟩
  have hknown : (ECS.History.mk ecs []).ecs.componentsMasks none = some mask := hmask
  have hkept : (ECS.History.step { ecs := ecs } call).ecs.componentsMasks none = some mask :=
    ECS.step_keeps_mask hknown call
  rw [hkeeps'.registered, hkept, Option.isSome_some]

omit [DecidableEq κ] in
theorem writesOnly (h : Ready ecs) (honly : ECS.WritesOnly ecs ecs') : Ready ecs' where
  settled := h.settled.writesOnly honly
  registered := by
    rw [honly.registered]
    exact h.registered

end Ready

/-! ## The components after a registration -/

/-- All the instances that a call gives: those of the pack, and the script. -/
def givenInstances (monoBehaviour : Option ℕ)
    (pack : List (Instance (EngineComponent Component))) :
    List (Instance (EngineComponent Component)) :=
  pack ++ monoBehaviour.toList.map fun mono => ⟨none, Behaviour.filled mono⟩

/-- The components after a call that returned the id {lit}`entityId`. -/
structure Registers (monoBehaviour : Option ℕ)
    (pack : List (Instance (EngineComponent Component))) (entityId : ℕ)
    (ecs ecs' : ECS (EngineComponent Component)) : Prop where
  live : ∀ e ∈ ecs.entities, e ∈ ecs'.entities
  entered : ∀ c ∈ pack.map Sigma.fst, (ecs.components c).isSome → entityId ∈ ecs'.entities
  registered : ∀ c, (ecs'.components c).isSome = (ecs.components c).isSome
  new : entityId ∈ ecs'.entities → ∀ c, (ecs.components c).isSome →
    ecs'.getEntityComponent entityId c =
      (ECS.lastOf (givenInstances monoBehaviour pack) c).or (ecs.getEntityComponent entityId c)
  scripts : ∀ mono, monoBehaviour = some mono → ∀ e,
    (ecs.getEntityComponent e none).isSome →
      ecs'.getEntityComponent e none = some (Behaviour.filled mono)
  others : ∀ e, e ≠ entityId → ∀ c,
    monoBehaviour = none ∨ c ≠ none ∨ ecs.getEntityComponent e none = none →
      ecs'.getEntityComponent e c = ecs.getEntityComponent e c

variable {ecs : ECS (EngineComponent Component)} {first : Instance (EngineComponent Component)}
  {rest : List (Instance (EngineComponent Component))}

/-- A call without a script. -/
theorem registers_plain (h : Ready ecs) :
    Registers none (first :: rest) (ecs.newId first rest) ecs
      (ecs.registerEntity first rest).1 where
  live _ he := ECS.mem_entities_registerEntity_of_mem he
  entered _ hmem hset := ECS.newId_mem_registerEntity h.settled hmem hset
  registered := ECS.isSome_components_registerEntity
  new _ c hset := by
    rw [ECS.getEntityComponent_registerEntity_newId h.settled hset, givenInstances,
      Option.toList_none, List.map_nil, List.append_nil]
  scripts mono hmono := by cases hmono
  others e hne c _ := ECS.getEntityComponent_registerEntity_of_ne_newId hne c

/-- A call with a script: the pass over the group gives it to all that have one. -/
theorem registers_scripted (h : Ready ecs) (mono : ℕ) {ecs' : ECS (EngineComponent Component)}
    (hgives : ECS.Gives ((ecs.registerEntity first rest).1.addEntityComponents
        (ecs.newId first rest) [⟨none, Behaviour.empty⟩]) ecs' none (Behaviour.filled mono)
      fun e => (((ecs.registerEntity first rest).1.addEntityComponents
        (ecs.newId first rest) [⟨none, Behaviour.empty⟩]).getEntityComponent e none).isSome =
          true) :
    Registers (some mono) (first :: rest) (ecs.newId first rest) ecs ecs' := by
  have hplain : Registers none (first :: rest) (ecs.newId first rest) ecs
      (ecs.registerEntity first rest).1 := registers_plain h
  generalize (ecs.registerEntity first rest).1 = registered at hplain hgives
  generalize ecs.newId first rest = entityId at hplain hgives ⊢
  have hempty : entityId ∈ registered.entities →
      (registered.addEntityComponents entityId
        [⟨none, Behaviour.empty⟩]).getEntityComponent entityId none = some Behaviour.empty := by
    intro hlive
    apply ECS.getEntityComponent_insert_self hlive
    rw [hplain.registered]
    exact h.registered
  have hadded : ∀ e, e ≠ entityId → ∀ c,
      (registered.addEntityComponents entityId
        [⟨none, Behaviour.empty⟩]).getEntityComponent e c = registered.getEntityComponent e c :=
    fun e hne c => ECS.getEntityComponent_add_of_ne fun he => absurd he hne
  constructor
  case live =>
    intro e he
    rw [hgives.only.entities, ECS.mem_entities_add]
    exact hplain.live e he
  case entered =>
    intro c hmem hset
    rw [hgives.only.entities, ECS.mem_entities_add]
    exact hplain.entered c hmem hset
  case registered =>
    intro c
    rw [hgives.only.registered, ECS.isSome_components_add, hplain.registered]
  case new =>
    intro hlive c hset
    rw [hgives.only.entities, ECS.mem_entities_add] at hlive
    rw [givenInstances, Option.toList_some, List.map_singleton, ECS.lastOf_append]
    cases c with
    | none =>
        rw [ECS.lastOf_singleton_self, Option.some_or, Option.some_or]
        apply hgives.given
        rw [hempty hlive, Option.isSome_some]
    | some c =>
        have hsame := hplain.new hlive (some c) hset
        rw [givenInstances, Option.toList_none, List.map_nil, List.append_nil] at hsame
        have hother : none ≠ some c := nofun
        rw [ECS.lastOf_singleton_of_ne hother, Option.none_or, ← hsame,
          hgives.others entityId (some c) hother.symm]
        exact ECS.getEntityComponent_add_of_ne fun _ => by simp
  case scripts =>
    intro mono' hmono e hscript
    cases hmono
    apply hgives.given
    by_cases he : e = entityId
    · rcases Option.isSome_iff_exists.mp hscript with ⟨behaviour, hbehaviour⟩
      have hlive := hplain.live e (h.settled.live hbehaviour)
      subst he
      rw [hempty hlive, Option.isSome_some]
    · rw [hadded e he, hplain.others e he none (.inl rfl)]
      exact hscript
  case others =>
    intro e hne c hc
    have hbefore : (registered.addEntityComponents entityId
        [⟨none, Behaviour.empty⟩]).getEntityComponent e c = ecs.getEntityComponent e c := by
      rw [hadded e hne, hplain.others e hne c (.inl rfl)]
    rw [← hbefore]
    by_cases htype : c = none
    · subst htype
      apply hgives.spared
      rw [hbefore, (hc.resolve_left nofun).resolve_left fun h => h rfl]
      simp
    · exact hgives.others e c htype

/-- All the components after a call: it never fails. -/
theorem registerEntity_spec (engine : GameEngine (EngineComponent Component))
    (h : Ready engine.ecs) (monoBehaviour : Option ℕ)
    (first : Instance (EngineComponent Component))
    (rest : List (Instance (EngineComponent Component))) :
    ∃ ecs', engine.registerEntity monoBehaviour first rest =
        some ({ engine with ecs := ecs' }, engine.ecs.newId first rest) ∧
      Registers monoBehaviour (first :: rest) (engine.ecs.newId first rest) engine.ecs ecs' := by
  have hid : (engine.ecs.registerEntity first rest).2 = engine.ecs.newId first rest :=
    ECS.registerEntity_snd
  cases monoBehaviour with
  | none =>
      refine ⟨(engine.ecs.registerEntity first rest).1, ?_, registers_plain h⟩
      rw [← hid]
      rfl
  | some mono =>
      rcases ECS.apply_write ((engine.ecs.registerEntity first rest).1.addEntityComponents
        (engine.ecs.newId first rest) [⟨none, Behaviour.empty⟩]) none (Behaviour.filled mono) with
        ⟨ecs', happly, hgives⟩
      refine ⟨ecs', ?_, registers_scripted h mono hgives⟩
      rw [← hid] at happly ⊢
      simp only [registerEntity, happly]

theorem Ready.registerEntity {engine engine' : GameEngine (EngineComponent Component)}
    (h : Ready engine.ecs) {monoBehaviour : Option ℕ}
    {first : Instance (EngineComponent Component)}
    {rest : List (Instance (EngineComponent Component))} {entityId : ℕ}
    (hcall : engine.registerEntity monoBehaviour first rest = some (engine', entityId)) :
    Ready engine'.ecs := by
  have hregistered := h.storeCall (.registerEntity first rest)
  unfold GameEngine.registerEntity at hcall
  dsimp only at hcall
  cases monoBehaviour with
  | none =>
      cases hcall
      exact hregistered
  | some mono =>
      dsimp only at hcall
      split at hcall
      · cases hcall
      · rename_i ecs' happly
        cases hcall
        have hadded := hregistered.storeCall (.addEntityComponents
          (engine.ecs.registerEntity first rest).2 [⟨none, Behaviour.empty⟩])
        rcases ECS.apply_write ((engine.ecs.registerEntity first rest).1.addEntityComponents
          (engine.ecs.registerEntity first rest).2 [⟨none, Behaviour.empty⟩]) none
          (Behaviour.filled mono) with ⟨ecs₂, happly₂, hgives⟩
        rw [happly] at happly₂
        cases happly₂
        exact hadded.writesOnly hgives.only

/-- The engines of all runs are ready. -/
theorem Reached.ready {components : List (Option κ)}
    {engine : GameEngine (EngineComponent Component)} (h : Reached components engine) :
    Ready engine.ecs := by
  apply Reachable.invariant h
  case hinit =>
    rintro engine rfl
    exact .new components
  case hstep =>
    intro engine call _ hallowed hready
    rcases Option.isSome_iff_exists.mp hallowed with ⟨engine', hcall⟩
    rw [hcall, Option.getD_some]
    cases call with
    | store call =>
        cases hcall
        exact hready.storeCall call
    | write reference instance_ =>
        rcases Option.map_eq_some_iff.mp hcall with ⟨ecs', hwrite, rfl⟩
        exact hready.writesOnly (ECS.writesOnly_writeAt hwrite)
    | registerEntity monoBehaviour first rest =>
        rcases Option.map_eq_some_iff.mp hcall with ⟨⟨engine'', entityId⟩, hregister, rfl⟩
        exact hready.registerEntity hregister

/-! ## The entities that were there before -/

theorem lastOf_givenInstances (mono : ℕ) (first : Instance (EngineComponent Component))
    (rest : List (Instance (EngineComponent Component))) :
    ECS.lastOf (givenInstances (some mono) (first :: rest)) none =
      some (Behaviour.filled mono) := by
  rw [givenInstances, ECS.lastOf_append, Option.toList_some, List.map_singleton,
    ECS.lastOf_singleton_self, Option.some_or]

omit [DecidableEq κ] in
theorem getEntityComponent_of_unregistered {ecs : ECS (EngineComponent Component)}
    {c : Option κ} (h : ¬ (ecs.components c).isSome) (e : ℕ) :
    ecs.getEntityComponent e c = none := by
  rw [Option.not_isSome_iff_eq_none] at h
  simp only [ECS.getEntityComponent, h]

section

variable {engine : GameEngine (EngineComponent Component)} {monoBehaviour : Option ℕ}
  {ecs' : ECS (EngineComponent Component)}

end

end GameEngine

end Rtype.Rteng
