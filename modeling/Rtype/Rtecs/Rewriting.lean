import Mathlib
import Rtype.Rtecs.Writing

/-!
# rtecs - Systems that rewrite one component

Many systems walk over a group and write one component of each entity, which depends on the
instances of that entity only.  Such a pass does not depend on the order of the entities:
each of them gets what its instances before the pass say.

Main results:

- Structure {lit}`Rewrites`: some entities have got new values of one component.
- Theorem {lit}`apply_visits`: a pass, from what one call does and tells.
- Theorems {lit}`apply_rewrites_where` and {lit}`apply_rewrites`: passes that tell nothing.

Current gaps:

- None.
-/

namespace Rtype.Rtecs.ECS

variable {κ : Type} {Component : κ → Type}

/-- The chosen entities have got new values of one component, and nothing else has
changed. -/
structure Rewrites (ecs ecs' : ECS Component) (c : κ) (new : ℕ → Option (Component c))
    (chosen : ℕ → Prop) : Prop where
  only : WritesOnly ecs ecs'
  given : ∀ e, chosen e → ecs'.getEntityComponent e c = new e
  spared : ∀ e, ¬ chosen e → ecs'.getEntityComponent e c = ecs.getEntityComponent e c
  others : ∀ e d, d ≠ c → ecs'.getEntityComponent e d = ecs.getEntityComponent e d

/-- The entities have got the values that they had. -/
theorem Rewrites.same {ecs : ECS Component} {c : κ} {new : ℕ → Option (Component c)}
    {chosen : ℕ → Prop} (h : ∀ e, chosen e → ecs.getEntityComponent e c = new e) :
    Rewrites ecs ecs c new chosen :=
  ⟨.refl ecs, h, fun _ _ => rfl, fun _ _ _ => rfl⟩

/-- All other entities have the same instances. -/
theorem Rewrites.elsewhere {ecs ecs' : ECS Component} {c : κ} {new : ℕ → Option (Component c)}
    {chosen : ℕ → Prop} (h : Rewrites ecs ecs' c new chosen) {e : ℕ} (he : ¬ chosen e) (d : κ) :
    ecs'.getEntityComponent e d = ecs.getEntityComponent e d := by
  by_cases hd : d = c
  · subst hd
    exact h.spared e he
  · exact h.others e d hd

/-- One value for all of them. -/
theorem Gives.rewrites {ecs ecs' : ECS Component} {c : κ} {value : Component c}
    {chosen : ℕ → Prop} (h : Gives ecs ecs' c value chosen) {new : ℕ → Option (Component c)}
    (hnew : ∀ e, chosen e → new e = some value) : Rewrites ecs ecs' c new chosen := by
  constructor
  · exact h.only
  · intro e he
    rw [hnew e he]
    exact h.given e he
  · exact h.spared
  · exact h.others

section

variable {σ Λ : Type} {store : σ → ECS Component} {told : σ → List Λ}
  {fit : (∀ d, Option (Component d)) → Prop} {callback : σ → ℕ → List ℕ → Option σ}
  {cs : List κ} {c : κ} {new : ℕ → (∀ d, Option (Component d)) → Option (Component c)}
  {out : ℕ → (∀ d, Option (Component d)) → List Λ}

/-- A callback on a state with a store and a log.  From the instances of the entity that it is
called for, when these are fit for it, it rewrites one component of that entity, and tells the
log something. -/
def Visits (store : σ → ECS Component) (told : σ → List Λ)
    (fit : (∀ d, Option (Component d)) → Prop) (callback : σ → ℕ → List ℕ → Option σ)
    (cs : List κ) (c : κ) (new : ℕ → (∀ d, Option (Component d)) → Option (Component c))
    (out : ℕ → (∀ d, Option (Component d)) → List Λ) : Prop :=
  ∀ s e references, (store s).OwnReferences cs e references →
    fit ((store s).getEntityComponent e) →
      ∃ s', callback s e references = some s' ∧
        Rewrites (store s) (store s') c (fun e => new e ((store s).getEntityComponent e))
          (fun d => d = e) ∧
        told s' = told s ++ out e ((store s).getEntityComponent e)

/-- Several calls. -/
theorem foldlM_visits (hvisits : Visits store told fit callback cs c new out) {s : σ}
    {calls : List (ℕ × List ℕ)} (hnodup : (calls.map Prod.fst).Nodup)
    (hown : ∀ call ∈ calls, (store s).OwnReferences cs call.1 call.2)
    (hfit : ∀ call ∈ calls, fit ((store s).getEntityComponent call.1)) :
    ∃ s', calls.foldlM (fun s call => callback s call.1 call.2) s = some s' ∧
      Rewrites (store s) (store s') c (fun e => new e ((store s).getEntityComponent e))
        (fun e => e ∈ calls.map Prod.fst) ∧
      told s' = told s ++
        (calls.map Prod.fst).flatMap fun e => out e ((store s).getEntityComponent e) := by
  induction calls generalizing s with
  | nil =>
      refine ⟨s, rfl, .same ?_, (List.append_nil (told s)).symm⟩
      intro e he
      cases he
  | cons call calls ih =>
      rcases call with ⟨entity, references⟩
      rw [List.map_cons, List.nodup_cons] at hnodup
      rw [List.forall_mem_cons] at hown hfit
      rcases hvisits s entity references hown.1 hfit.1 with ⟨s₁, hcall, hone, htold⟩
      -- the instances of a later entity are still what they were before the pass
      have hbefore : ∀ e ∈ calls.map Prod.fst,
          (store s₁).getEntityComponent e = (store s).getEntityComponent e :=
        fun e he => funext (hone.elsewhere fun heq => hnodup.1 (heq ▸ he))
      have hfit' : ∀ call ∈ calls, fit ((store s₁).getEntityComponent call.1) := by
        intro call hcall
        rw [hbefore call.1 (List.mem_map_of_mem hcall)]
        exact hfit.2 call hcall
      rcases ih hnodup.2 (fun call hcall => hone.only.ownReferences (hown.2 call hcall)) hfit' with
        ⟨s', hfold, hall, htold'⟩
      refine ⟨s', ?_, ⟨hone.only.trans hall.only, ?_, ?_, ?_⟩, ?_⟩
      · rw [List.foldlM_cons, hcall]
        exact hfold
      · intro e he
        rw [List.map_cons, List.mem_cons] at he
        rcases he with rfl | he
        · rw [hall.spared _ hnodup.1]
          exact hone.given _ rfl
        · rw [hall.given e he, hbefore e he]
      · intro e he
        rw [List.map_cons, List.mem_cons, not_or] at he
        rw [hall.spared e he.2, hone.spared e he.1]
      · intro e d hd
        rw [hall.others e d hd, hone.others e d hd]
      · rw [htold', htold, List.map_cons, List.flatMap_cons, List.append_assoc]
        congr 2
        exact List.flatMap_congr fun e he => by rw [hbefore e he]

/-- A pass over a group whose entities are fit for it never writes outside of a set, and each
entity of the group gets and tells what its instances before the pass say. -/
theorem apply_visits [DecidableEq κ] {d : κ} {ds : List κ}
    (hvisits : Visits store told fit callback (d :: ds) c new out) (s : σ)
    (hfit : ∀ e, (∀ b ∈ d :: ds, ((store s).getEntityComponent e b).isSome = true) →
      fit ((store s).getEntityComponent e)) :
    ∃ s', ((store s).group (d :: ds)).apply callback s = some s' ∧
      Rewrites (store s) (store s') c (fun e => new e ((store s).getEntityComponent e))
        (fun e => ∀ b ∈ d :: ds, ((store s).getEntityComponent e b).isSome = true) ∧
      told s' = told s ++ ((store s).group (d :: ds)).getEntities.toList.flatMap fun e =>
        out e ((store s).getEntityComponent e) := by
  rcases (store s).group_apply d ds with ⟨calls, hcalls⟩
  have hnodup : (calls.map Prod.fst).Nodup := by
    rw [hcalls.entities]
    exact (store s).nodup_getEntities_group d ds
  have hmem : (fun e => ∀ b ∈ d :: ds, ((store s).getEntityComponent e b).isSome = true) =
      fun e => e ∈ calls.map Prod.fst := by
    ext e
    rw [hcalls.entities, Array.mem_toList_iff, mem_getEntities_group]
  have hfit' : ∀ call ∈ calls, fit ((store s).getEntityComponent call.1) := fun call hcall =>
    hfit call.1 ((congrFun hmem call.1).mpr (List.mem_map_of_mem hcall))
  rcases foldlM_visits hvisits hnodup hcalls.own hfit' with ⟨s', hfold, hrewrites, htold⟩
  refine ⟨s', by rw [hcalls.run]; exact hfold, ?_, ?_⟩
  · rw [hmem]
    exact hrewrites
  · rw [htold, hcalls.entities]

end

/-! ## Callbacks on the store alone -/

/-- A callback that rewrites one component of the entity that it is called for, from the
instances of that entity, when these are fit for it. -/
def LocalWhere (fit : (∀ d, Option (Component d)) → Prop)
    (callback : ECS Component → ℕ → List ℕ → Option (ECS Component)) (cs : List κ) (c : κ)
    (new : ℕ → (∀ d, Option (Component d)) → Option (Component c)) : Prop :=
  ∀ ecs e references, ecs.OwnReferences cs e references → fit (ecs.getEntityComponent e) →
    ∃ ecs', callback ecs e references = some ecs' ∧
      Rewrites ecs ecs' c (fun e => new e (ecs.getEntityComponent e)) fun d => d = e

/-- A callback that does so whatever the instances are. -/
def Local (callback : ECS Component → ℕ → List ℕ → Option (ECS Component)) (cs : List κ) (c : κ)
    (new : ℕ → (∀ d, Option (Component d)) → Option (Component c)) : Prop :=
  ∀ ecs e references, ecs.OwnReferences cs e references →
    ∃ ecs', callback ecs e references = some ecs' ∧
      Rewrites ecs ecs' c (fun e => new e (ecs.getEntityComponent e)) fun d => d = e

variable {fit : (∀ d, Option (Component d)) → Prop}
  {callback : ECS Component → ℕ → List ℕ → Option (ECS Component)} {cs : List κ} {c : κ}
  {new : ℕ → (∀ d, Option (Component d)) → Option (Component c)}

theorem Local.localWhere (h : Local callback cs c new) :
    LocalWhere (fun _ => True) callback cs c new :=
  fun ecs e references hown _ => h ecs e references hown

/-- The store is the whole state, and nothing is told. -/
theorem LocalWhere.visits (h : LocalWhere fit callback cs c new) :
    Visits id (fun _ => ([] : List Empty)) fit callback cs c new fun _ _ => [] := by
  intro ecs e references hown hfit
  rcases h ecs e references hown hfit with ⟨ecs', hcall, hrewrites⟩
  exact ⟨ecs', hcall, hrewrites, rfl⟩

/-- A pass over a group whose entities are fit for it. -/
theorem apply_rewrites_where [DecidableEq κ] {d : κ} {ds : List κ}
    (hlocal : LocalWhere fit callback (d :: ds) c new) (ecs : ECS Component)
    (hfit : ∀ e, (∀ b ∈ d :: ds, (ecs.getEntityComponent e b).isSome = true) →
      fit (ecs.getEntityComponent e)) :
    ∃ ecs', (ecs.group (d :: ds)).apply callback ecs = some ecs' ∧
      Rewrites ecs ecs' c (fun e => new e (ecs.getEntityComponent e)) fun e =>
        ∀ b ∈ d :: ds, (ecs.getEntityComponent e b).isSome = true := by
  rcases apply_visits hlocal.visits ecs hfit with ⟨ecs', hpass, hrewrites, -⟩
  exact ⟨ecs', hpass, hrewrites⟩

/-- A pass over a group, whatever the instances are. -/
theorem apply_rewrites [DecidableEq κ] {d : κ} {ds : List κ}
    (hlocal : Local callback (d :: ds) c new) (ecs : ECS Component) :
    ∃ ecs', (ecs.group (d :: ds)).apply callback ecs = some ecs' ∧
      Rewrites ecs ecs' c (fun e => new e (ecs.getEntityComponent e)) fun e =>
        ∀ b ∈ d :: ds, (ecs.getEntityComponent e b).isSome = true :=
  apply_rewrites_where hlocal.localWhere ecs fun _ _ => trivial

/-- The views of a group know the entities of the group only. -/
theorem atKey_group [DecidableEq κ] (ecs : ECS Component) {b d : κ} {ds : List κ}
    (hb : b ∈ d :: ds) (e : ℕ) :
    ((ecs.group (d :: ds)).views b).atKey e =
      if ∀ a ∈ d :: ds, (ecs.getEntityComponent e a).isSome = true then ecs.position b e
      else none := by
  split_ifs with hall
  · rcases position_of_mem_group hb (mem_getEntities_group.mpr hall) with ⟨reference, hown, hat⟩
    rw [hat, hown]
  · rw [(ecs.group_view hb).2, if_neg]
    rwa [← getEntities_group ecs (List.cons_ne_nil d ds), Array.mem_toList_iff,
      mem_getEntities_group]

end Rtype.Rtecs.ECS
