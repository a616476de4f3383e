import Mathlib
import Rtype.Foundations.Machines
import Rtype.Rtecs.Writing

/-!
# Rtecs - The store is a table

What the store is for can be said without masks, pages and dense arrays.  It is a table: some
component types have a column, some entities have a row, and a cell is empty or holds an
instance.  The calls write rows and cells, and every answer of the store, and all that can be
read from it, is the one of the table.  A put at an id that is too large ends the program; that
does not happen while fewer than {lit}`idLimit` ids are handed out.

Main results:

- Structure {lit}`Table` and its calls.
- Theorem {lit}`simulates`: a call does to the store what it does to the table.
- Function {lit}`ECS.Call.fits`: the puts of a call do not end the program.
- Theorem {lit}`store_refines_table`: no sequence of calls tells the store from the table.

Current gaps:

- None.
-/

namespace Rtype.Rtecs

open Std

/-- A table of instances: a cell that is filled has a row and a column. -/
@[ext]
structure Table {κ : Type} (Component : κ → Type) where
  columns : Set κ
  rows : Set ℕ
  cell : ℕ → (c : κ) → Option (Component c)
  next : ℕ
  cell_inside : ∀ e c, (cell e c).isSome → e ∈ rows ∧ c ∈ columns

/-- What a call gives back. -/
inductive Reply
  | nothing
  | id (entityId : ℕ)
  | success (done : Bool)

namespace Table

variable {κ : Type} {Component : κ → Type}

/-! ## The calls -/

/-- The table of a new store. -/
def empty : Table Component where
  columns := ∅
  rows := ∅
  cell _ _ := none
  next := 0
  cell_inside e c h := by cases h

/-- New columns, all of whose cells are empty. -/
def widen (table : Table Component) (cs : List κ) : Table Component where
  columns := table.columns ∪ { c | c ∈ cs }
  rows := table.rows
  cell := table.cell
  next := table.next
  cell_inside e c h := (table.cell_inside e c h).imp_right Or.inl

/-- A row for the next id. -/
def addRow (table : Table Component) : Table Component where
  columns := table.columns
  rows := insert table.next table.rows
  cell := table.cell
  next := (table.next + 1) % 2 ^ 64
  cell_inside e c h := (table.cell_inside e c h).imp_left Or.inr

/-- A row is taken out. -/
def removeRow (table : Table Component) (e : ℕ) : Table Component where
  columns := table.columns
  rows := { d | d ≠ e ∧ d ∈ table.rows }
  cell := Function.update table.cell e fun _ => none
  next := table.next
  cell_inside d c h := by
    by_cases hd : d = e
    · subst hd
      rw [Function.update_self] at h
      cases h
    · rw [Function.update_of_ne hd] at h
      exact (table.cell_inside d c h).imp_left (And.intro hd)

variable [DecidableEq κ]

open Classical in
/-- A cell is written, if there is one. -/
noncomputable def write (table : Table Component) (e : ℕ) (instance_ : Instance Component) :
    Table Component :=
  if hinside : e ∈ table.rows ∧ instance_.1 ∈ table.columns then
    { table with
      cell := Function.update table.cell e
        (Function.update (table.cell e) instance_.1 (some instance_.2))
      cell_inside := by
        intro d c h
        by_cases hd : d = e
        · subst hd
          rw [Function.update_self] at h
          by_cases hc : c = instance_.1
          · subst hc
            exact hinside
          · rw [Function.update_of_ne hc] at h
            exact table.cell_inside d c h
        · rw [Function.update_of_ne hd] at h
          exact table.cell_inside d c h }
  else
    table

/-- Cells of one row are written, one after another. -/
noncomputable def writeAll (table : Table Component) (e : ℕ)
    (instances : List (Instance Component)) : Table Component :=
  instances.foldl (fun table instance_ => table.write e instance_) table

open Classical in
/-- A new row with instances, if one of them has a column. -/
noncomputable def create (table : Table Component) (instances : List (Instance Component)) :
    Table Component × Reply :=
  if ∃ instance_ ∈ instances, instance_.1 ∈ table.columns then
    (table.addRow.writeAll table.next instances, .id table.next)
  else
    (table, .id nullEntityID)

/-- Filled cells of one row are written, up to the first that is empty. -/
noncomputable def overwrite (table : Table Component) (e : ℕ) :
    List (Instance Component) → Table Component × Reply
  | [] => (table, .success true)
  | instance_ :: instances =>
      if (table.cell e instance_.1).isSome then
        (table.write e instance_).overwrite e instances
      else
        (table, .success false)

/-- What a call does to the table. -/
noncomputable def serve (table : Table Component) : ECS.Call Component → Table Component × Reply
  | .registerComponents cs => (table.widen cs, .nothing)
  | .preRegisterEntity => (table.addRow, .id table.next)
  | .registerEntity first rest => table.create (first :: rest)
  | .addEntityComponents entity instances => (table.writeAll entity instances, .nothing)
  | .updateEntity entityId newInstances => table.overwrite entityId newInstances
  | .destroyEntity entityId => (table.removeRow entityId, .nothing)

end Table

/-! ## Calls on the store -/

namespace ECS

variable {κ : Type} {Component : κ → Type} {ecs : ECS Component}

/-- The mask of a pack is not empty when one of its types is registered. -/
theorem Settled.getComponentMask_eq_false (h : Settled ecs) {c : κ} {cs : List κ} :
    (ecs.getComponentMask c cs).none = false ↔ ∃ d ∈ c :: cs, (ecs.components d).isSome := by
  constructor
  · intro hsome
    rcases h with ⟨layout, hkeeps⟩
    rw [← Bool.not_eq_true, DynamicBitSet.none_iff, not_forall] at hsome
    rcases hsome with ⟨k, hk⟩
    rw [Bool.not_eq_false, hkeeps.getComponentMask_get] at hk
    rcases hk with ⟨d, hd, hmask, -⟩
    exact ⟨d, hd, by rwa [hkeeps.registered]⟩
  · rintro ⟨d, hd, hset⟩
    rw [← Bool.not_eq_true]
    exact fun hnone => not_mem_of_getComponentMask_none h hnone hset hd

variable [DecidableEq κ]

/-- The counter of the ids plays no part when instances are added. -/
theorem addEntityComponents_withEntitiesID (ecs : ECS Component) (id entity : ℕ)
    (instances : List (Instance Component)) :
    { ecs with entitiesID := id }.addEntityComponents entity instances =
      { ecs.addEntityComponents entity instances with entitiesID := id } := by
  induction instances generalizing ecs with
  | nil => rfl
  | cons instance_ instances ih =>
      have hfirst : { ecs with entitiesID := id }.insertComponentInstance entity instance_ =
          { ecs.insertComponentInstance entity instance_ with entitiesID := id } := by
        unfold insertComponentInstance
        dsimp only
        split <;> rfl
      change ({ ecs with entitiesID := id }.insertComponentInstance entity
        instance_).addEntityComponents entity instances = _
      rw [hfirst]
      exact ih _

theorem isSome_components_updateEntityComponent (ecs : ECS Component) (entityId : ℕ)
    (newInstance : Instance Component) (c : κ) :
    ((ecs.updateEntityComponent entityId newInstance).1.components c).isSome =
      (ecs.components c).isSome := by
  unfold updateEntityComponent
  split
  · rfl
  · rename_i set hset
    split_ifs
    · rfl
    · by_cases hc : c = newInstance.1
      · subst hc
        simp [hset]
      · simp [hc]

theorem updateEntityComponent_snd (ecs : ECS Component) (entityId : ℕ)
    (newInstance : Instance Component) :
    (ecs.updateEntityComponent entityId newInstance).2 =
      ecs.hasComponent newInstance.1 entityId := by
  unfold updateEntityComponent hasComponent
  split
  · rename_i hset
    rw [hset]
  · rename_i set hset
    rw [hset]
    dsimp only
    cases hhas : set.has entityId
    · rfl
    · rfl

/-- An update goes on after an instance that the entity has. -/
theorem updateEntity_cons_of_has {entityId : ℕ} {newInstance : Instance Component}
    {newInstances : List (Instance Component)}
    (hhas : ecs.hasComponent newInstance.1 entityId = true) :
    ecs.updateEntity entityId (newInstance :: newInstances) =
      (ecs.updateEntityComponent entityId newInstance).1.updateEntity entityId newInstances := by
  rw [← updateEntityComponent_snd] at hhas
  rw [updateEntity]
  split
  · rename_i hone
    rw [hone]
  · rename_i hone
    rw [hone] at hhas
    cases hhas

/-- An update stops at an instance that the entity does not have. -/
theorem updateEntity_cons_of_not_has {entityId : ℕ} {newInstance : Instance Component}
    {newInstances : List (Instance Component)}
    (hhas : ¬ ecs.hasComponent newInstance.1 entityId = true) :
    ecs.updateEntity entityId (newInstance :: newInstances) = (ecs, false) := by
  have hsame := updateEntityComponent_of_not_has hhas
  rw [← updateEntityComponent_snd] at hhas
  rw [updateEntity]
  split
  · rename_i hone
    rw [hone] at hhas
    exact absurd rfl hhas
  · rename_i hone
    rw [hone] at hsame
    exact Prod.ext hsame rfl

end ECS

/-! ## What the store shows -/

/-- The table can be read off the store. -/
structure Shows {κ : Type} {Component : κ → Type} (ecs : ECS Component) (table : Table Component) :
    Prop where
  columns : ∀ c, (ecs.components c).isSome ↔ c ∈ table.columns
  rows : ∀ e, e ∈ ecs.entities ↔ e ∈ table.rows
  cell : ∀ e c, ecs.getEntityComponent e c = table.cell e c
  next : ecs.entitiesID = table.next

namespace Shows

variable {κ : Type} {Component : κ → Type} {ecs : ECS Component} {table : Table Component}

theorem new : Shows ({} : ECS Component) Table.empty where
  columns _ := iff_of_false nofun id
  rows _ := iff_of_false ExtTreeMap.not_mem_empty id
  cell _ _ := rfl
  next := rfl

theorem insertEntity (h : Shows ecs table) (mask : DynamicBitSet) :
    Shows { ecs.insertEntity ecs.entitiesID mask with
      entitiesID := (ecs.entitiesID + 1) % 2 ^ 64 } table.addRow where
  columns := h.columns
  rows e := by
    have hmem : e ∈ (ecs.insertEntity ecs.entitiesID mask).entities ↔
        e = table.next ∨ e ∈ table.rows := by
      rw [ECS.mem_entities_insertEntity, h.rows, h.next]
    exact hmem
  cell := h.cell
  next := by
    change (ecs.entitiesID + 1) % 2 ^ 64 = (table.next + 1) % 2 ^ 64
    rw [h.next]

theorem destroyEntity (h : Shows ecs table) (e : ℕ) :
    Shows (ecs.destroyEntity e) (table.removeRow e) where
  columns c := by
    have hsame : ((ecs.destroyEntity e).components c).isSome = (ecs.components c).isSome :=
      Option.isSome_map
    rw [hsame]
    exact h.columns c
  rows d := by
    have hmem : d ∈ (ecs.destroyEntity e).entities ↔ d ≠ e ∧ d ∈ ecs.entities := by
      rw [ECS.destroyEntity, ExtTreeMap.mem_erase, ne_eq, Std.compare_eq_iff_eq]
      exact and_congr_left' (not_congr eq_comm)
    rw [hmem, h.rows]
    rfl
  cell d c := by
    rw [ECS.getEntityComponent_destroyEntity, h.cell]
    change _ = Function.update table.cell e (fun _ => none) d c
    by_cases hd : d = e
    · subst hd
      rw [if_pos rfl, Function.update_self]
    · rw [if_neg hd, Function.update_of_ne hd]
  next := h.next

variable [DecidableEq κ]

theorem registerComponent (h : Shows ecs table) (c : κ) :
    Shows (ecs.registerComponent c) (table.widen [c]) where
  columns d := by
    change _ ↔ d ∈ table.columns ∨ d ∈ [c]
    rw [← h.columns, List.mem_singleton]
    unfold ECS.registerComponent
    dsimp only
    split_ifs with hknown
    · refine ⟨Or.inl, fun hd => hd.elim id ?_⟩
      rintro rfl
      exact hknown
    · by_cases hd : d = c
      · subst hd
        simp
      · simp [hd]
  rows e := by
    unfold ECS.registerComponent
    dsimp only
    split_ifs
    · exact h.rows e
    · exact h.rows e
  cell e d := by
    change _ = table.cell e d
    rw [← h.cell]
    unfold ECS.registerComponent
    dsimp only
    split_ifs with hknown
    · rfl
    · unfold ECS.getEntityComponent
      by_cases hd : d = c
      · subst hd
        rw [Option.not_isSome_iff_eq_none.mp hknown]
        simp
      · simp [Function.update_of_ne hd]
  next := by
    unfold ECS.registerComponent
    dsimp only
    split_ifs
    · exact h.next
    · exact h.next

theorem registerComponents (h : Shows ecs table) (cs : List κ) :
    Shows (ecs.registerComponents cs) (table.widen cs) := by
  induction cs generalizing ecs table with
  | nil =>
      have hsame : table.widen [] = table := by
        ext
        · exact or_iff_left List.not_mem_nil
        · rfl
        · rfl
        · rfl
      rw [hsame]
      exact h
  | cons c cs ih =>
      have hsplit : table.widen (c :: cs) = (table.widen [c]).widen cs := by
        ext d
        · change d ∈ table.columns ∨ d ∈ c :: cs ↔ (d ∈ table.columns ∨ d ∈ [c]) ∨ d ∈ cs
          rw [List.mem_cons, List.mem_singleton, or_assoc]
        · rfl
        · rfl
        · rfl
      rw [hsplit]
      exact ih (h.registerComponent c)

/-- One instance is written, and everything else stays. -/
theorem write (h : Shows ecs table) {ecs' : ECS Component} {e : ℕ} {instance_ : Instance Component}
    (hinside : e ∈ table.rows ∧ instance_.1 ∈ table.columns)
    (hcolumns : ∀ c, (ecs'.components c).isSome = (ecs.components c).isSome)
    (hrows : ∀ d, d ∈ ecs'.entities ↔ d ∈ ecs.entities)
    (hself : ecs'.getEntityComponent e instance_.1 = some instance_.2)
    (hothers : ∀ d c, ¬ (d = e ∧ c = instance_.1) →
      ecs'.getEntityComponent d c = ecs.getEntityComponent d c)
    (hnext : ecs'.entitiesID = ecs.entitiesID) : Shows ecs' (table.write e instance_) := by
  rw [Table.write, dif_pos hinside]
  constructor
  · intro c
    rw [hcolumns]
    exact h.columns c
  · intro d
    rw [hrows]
    exact h.rows d
  · intro d c
    dsimp only
    by_cases hd : d = e
    · subst hd
      rw [Function.update_self]
      by_cases hc : c = instance_.1
      · subst hc
        rw [Function.update_self, hself]
      · rw [Function.update_of_ne hc, hothers d c fun hboth => hc hboth.2, h.cell]
    · rw [Function.update_of_ne hd, hothers d c fun hboth => hd hboth.1, h.cell]
  · exact hnext.trans h.next

theorem insertComponentInstance (h : Shows ecs table) (e : ℕ) (instance_ : Instance Component) :
    Shows (ecs.insertComponentInstance e instance_) (table.write e instance_) := by
  by_cases hinside : e ∈ table.rows ∧ instance_.1 ∈ table.columns
  · have hlive : e ∈ ecs.entities := (h.rows e).mpr hinside.1
    have hset : (ecs.components instance_.1).isSome := (h.columns _).mpr hinside.2
    apply h.write hinside
    · exact ECS.isSome_components_insert ecs e instance_
    · exact fun d => ECS.mem_entities_insert ecs e instance_
    · exact ECS.getEntityComponent_insert_self hlive hset
    · exact fun d c hcell => ECS.getEntityComponent_insert_of_ne hcell
    · exact (ECS.KeepsIds.insertComponentInstance ecs e instance_).counter
  · rw [Table.write, dif_neg hinside, ECS.insertComponentInstance_of_unknown]
    · exact h
    · rw [not_and_or, ← h.rows, ← h.columns] at hinside
      exact hinside.imp ExtTreeMap.getElem?_eq_none Option.not_isSome_iff_eq_none.mp

theorem addEntityComponents (h : Shows ecs table) (e : ℕ) (instances : List (Instance Component)) :
    Shows (ecs.addEntityComponents e instances) (table.writeAll e instances) := by
  induction instances generalizing ecs table with
  | nil => exact h
  | cons instance_ instances ih => exact ih (h.insertComponentInstance e instance_)

/-- An entity is registered, with the instances whose types have a column. -/
theorem registerEntity (h : Shows ecs table) (hsettled : ECS.Settled ecs)
    (first : Instance Component) (rest : List (Instance Component)) :
    Reply.id (ecs.registerEntity first rest).2 = (table.create (first :: rest)).2 ∧
      Shows (ecs.registerEntity first rest).1 (table.create (first :: rest)).1 := by
  have hcolumns : (ecs.getComponentMask first.1 (rest.map Sigma.fst)).none = false ↔
      ∃ instance_ ∈ first :: rest, instance_.1 ∈ table.columns := by
    rw [hsettled.getComponentMask_eq_false, ← List.map_cons]
    simp only [List.mem_map, exists_exists_and_eq_and, h.columns]
  unfold ECS.registerEntity Table.create
  by_cases hnone : (ecs.getComponentMask first.1 (rest.map Sigma.fst)).none = true
  · have hnowhere : ¬ ∃ instance_ ∈ first :: rest, instance_.1 ∈ table.columns := by
      rw [← hcolumns, hnone]
      exact Bool.noConfusion
    simp only [hnone, if_true, if_neg hnowhere]
    exact ⟨trivial, h⟩
  · rw [Bool.not_eq_true] at hnone
    simp only [hnone, Bool.false_eq_true, if_false, if_pos (hcolumns.mp hnone)]
    refine ⟨by rw [h.next], ?_⟩
    have hrow := h.insertEntity (ecs.getComponentMask first.1 (rest.map Sigma.fst))
    have hshows := hrow.addEntityComponents ecs.entitiesID (first :: rest)
    rw [ECS.addEntityComponents_withEntitiesID] at hshows
    rw [(ECS.KeepsIds.addEntityComponents _ _ _).counter, ← h.next]
    exact hshows

theorem updateEntityComponent (h : Shows ecs table) {e : ℕ} {instance_ : Instance Component}
    (hfilled : (table.cell e instance_.1).isSome) :
    Shows (ecs.updateEntityComponent e instance_).1 (table.write e instance_) := by
  have hhas : ecs.hasComponent instance_.1 e = true := by
    rw [ECS.hasComponent_eq_isSome_get, h.cell]
    exact hfilled
  rcases ECS.getEntityComponent_updateEntityComponent ecs hhas with ⟨hself, hothers⟩
  apply h.write (table.cell_inside e instance_.1 hfilled)
  · exact ECS.isSome_components_updateEntityComponent ecs e instance_
  · intro d
    rw [ECS.entities_updateEntityComponent]
  · exact hself
  · exact hothers
  · exact (ECS.KeepsIds.updateEntityComponent ecs e instance_).counter

/-- Instances of an entity are replaced, up to the first that it does not have. -/
theorem updateEntity (h : Shows ecs table) (e : ℕ) (instances : List (Instance Component)) :
    Reply.success (ecs.updateEntity e instances).2 = (table.overwrite e instances).2 ∧
      Shows (ecs.updateEntity e instances).1 (table.overwrite e instances).1 := by
  induction instances generalizing ecs table with
  | nil => exact ⟨rfl, h⟩
  | cons instance_ instances ih =>
      by_cases hfilled : (table.cell e instance_.1).isSome
      · have hhas : ecs.hasComponent instance_.1 e = true := by
          rw [ECS.hasComponent_eq_isSome_get, h.cell]
          exact hfilled
        have hone := ih (h.updateEntityComponent hfilled)
        rw [Table.overwrite, if_pos hfilled, ECS.updateEntity_cons_of_has hhas]
        exact hone
      · have hhas : ¬ ecs.hasComponent instance_.1 e = true := by
          rw [ECS.hasComponent_eq_isSome_get, h.cell]
          exact hfilled
        rw [Table.overwrite, if_neg hfilled, ECS.updateEntity_cons_of_not_has hhas]
        exact ⟨rfl, h⟩

end Shows

/-! ## The refinement -/

section

variable {κ : Type} {Component : κ → Type} [DecidableEq κ]

/-- A call on the store, with what it gives back. -/
def ECS.History.serve (history : ECS.History Component) (call : ECS.Call Component) :
    ECS.History Component × Reply :=
  (history.step call,
    match call with
    | .registerComponents _ => .nothing
    | .preRegisterEntity => .id history.ecs.preRegisterEntity.2
    | .registerEntity first rest => .id (history.ecs.registerEntity first rest).2
    | .addEntityComponents _ _ => .nothing
    | .updateEntity entityId newInstances =>
        .success (history.ecs.updateEntity entityId newInstances).2
    | .destroyEntity _ => .nothing)

/-- A call does to the store what it does to the table. -/
theorem simulates : Machines.Simulates ECS.History.serve (@Table.serve κ Component _)
    fun history table => history.ecs.Settled ∧ Shows history.ecs table := by
  rintro history table ⟨hsettled, h⟩ call
  have hsettled' := ECS.History.settled_step hsettled call
  cases call with
  | registerComponents cs => exact ⟨rfl, hsettled', h.registerComponents cs⟩
  | preRegisterEntity => exact ⟨congrArg Reply.id h.next, hsettled', h.insertEntity {}⟩
  | registerEntity first rest =>
      rcases h.registerEntity hsettled first rest with ⟨hreply, hshows⟩
      exact ⟨hreply, hsettled', hshows⟩
  | addEntityComponents entity instances =>
      exact ⟨rfl, hsettled', h.addEntityComponents entity instances⟩
  | updateEntity entityId newInstances =>
      rcases h.updateEntity entityId newInstances with ⟨hreply, hshows⟩
      exact ⟨hreply, hsettled', hshows⟩
  | destroyEntity entityId => exact ⟨rfl, hsettled', h.destroyEntity entityId⟩

/-! ## Ids that are too large -/

namespace ECS

/-- The put of {lit}`insertComponentInstance` does not end the program. -/
def insertFits (ecs : ECS Component) (entityId : ℕ) (instance_ : Instance Component) : Bool :=
  match ecs.entities[entityId]?, ecs.components instance_.1 with
  | some _, some set => (set.1.put entityId instance_.2).isSome
  | _, _ => true

/-- The puts of {lit}`addEntityComponents` do not. -/
def addFits (ecs : ECS Component) (entity : ℕ) : List (Instance Component) → Bool
  | [] => true
  | instance_ :: instances =>
      ecs.insertFits entity instance_ &&
        (ecs.insertComponentInstance entity instance_).addFits entity instances

/-- The put of {lit}`updateEntityComponent` does not. -/
def updateComponentFits (ecs : ECS Component) (entityId : ℕ) (newInstance : Instance Component) :
    Bool :=
  match ecs.components newInstance.1 with
  | none => true
  | some set => !set.has entityId || (set.1.put entityId newInstance.2).isSome

/-- The puts of {lit}`updateEntity` do not. -/
def updateFits (ecs : ECS Component) (entityId : ℕ) : List (Instance Component) → Bool
  | [] => true
  | newInstance :: newInstances =>
      ecs.updateComponentFits entityId newInstance &&
        match ecs.updateEntityComponent entityId newInstance with
        | (ecs, true) => ecs.updateFits entityId newInstances
        | (_, false) => true

/-- The puts of a call do not end the program. -/
def Call.fits (history : History Component) : Call Component → Bool
  | .registerEntity first rest =>
      let mask := history.ecs.getComponentMask first.1 (rest.map Sigma.fst)
      mask.none || (history.ecs.insertEntity history.ecs.entitiesID mask).addFits
        history.ecs.entitiesID (first :: rest)
  | .addEntityComponents entity instances => history.ecs.addFits entity instances
  | .updateEntity entityId newInstances => history.ecs.updateFits entityId newInstances
  | _ => true

variable {ecs : ECS Component} {e : ℕ}

omit [DecidableEq κ] in
theorem insertFits_of_lt (hlt : e ∈ ecs.entities → e < idLimit) (instance_ : Instance Component) :
    ecs.insertFits e instance_ = true := by
  unfold insertFits
  split
  · rename_i hmask hset
    rw [SparseSet.put_of_lt (hlt (ExtTreeMap.mem_iff_isSome_getElem?.mpr (hmask ▸ rfl)))]
    rfl
  · rfl

theorem addFits_of_lt (hlt : e ∈ ecs.entities → e < idLimit)
    (instances : List (Instance Component)) : ecs.addFits e instances = true := by
  induction instances generalizing ecs with
  | nil => rfl
  | cons instance_ instances ih =>
      rw [addFits, insertFits_of_lt hlt, Bool.true_and]
      exact ih fun hlive => hlt ((mem_entities_insert ..).mp hlive)

theorem updateFits_of_lt (hlive : ∀ c, ecs.hasComponent c e = true → e < idLimit)
    (newInstances : List (Instance Component)) : ecs.updateFits e newInstances = true := by
  induction newInstances generalizing ecs with
  | nil => rfl
  | cons newInstance newInstances ih =>
      have hone : ecs.updateComponentFits e newInstance = true := by
        unfold updateComponentFits
        split
        · rfl
        · rename_i set hset
          cases hhas : set.has e with
          | false => rfl
          | true =>
              have hhere : ecs.hasComponent newInstance.1 e = true := by
                rw [hasComponent, hset]
                exact hhas
              rw [SparseSet.put_of_lt (hlive newInstance.1 hhere)]
              rfl
      rw [updateFits, hone, Bool.true_and]
      split
      · rename_i next hnext
        apply ih
        intro c hhas
        apply hlive c
        rw [← hasComponent_updateEntityComponent ecs e newInstance, hnext]
        exact hhas
      · rfl

omit [DecidableEq κ] in
/-- While few ids are handed out, all that live are small enough. -/
theorem History.Numbered.lt_idLimit {history : History Component} (h : history.Numbered)
    (hfew : history.issued.length ≤ idLimit) (hlive : e ∈ history.ecs.entities) : e < idLimit := by
  have hmem := h.live_issued e hlive
  rw [h.issued_eq, List.mem_map] at hmem
  rcases hmem with ⟨k, hk, rfl⟩
  have hsmall : k % 2 ^ 64 ≤ k := Nat.mod_le k _
  rw [List.mem_range] at hk
  omega

/-- A call that leaves the number of ids small fits. -/
theorem History.Numbered.fits {history : History Component} (h : history.Numbered)
    (hsettled : history.ecs.Settled) {call : Call Component}
    (hfew : (history.step call).issued.length ≤ idLimit) :
    history.issued.length ≤ idLimit ∧ call.fits history = true := by
  cases call with
  | registerComponents cs => exact ⟨hfew, rfl⟩
  | preRegisterEntity =>
      rw [History.step, List.length_append] at hfew
      exact ⟨by omega, rfl⟩
  | registerEntity first rest =>
      rw [History.step] at hfew
      dsimp only [Call.fits]
      cases hnone : (history.ecs.getComponentMask first.1 (rest.map Sigma.fst)).none with
      | true =>
          rw [hnone, if_pos rfl] at hfew
          exact ⟨hfew, rfl⟩
      | false =>
          rw [hnone, if_neg Bool.false_ne_true, List.length_append, List.length_singleton] at hfew
          have hcounter := Nat.mod_le history.issued.length (2 ^ 64)
          rw [← h.entitiesID_eq] at hcounter
          refine ⟨by omega, ?_⟩
          rw [Bool.false_or]
          exact addFits_of_lt (fun _ => by omega) _
  | addEntityComponents entity instances =>
      exact ⟨hfew, addFits_of_lt (h.lt_idLimit hfew) instances⟩
  | updateEntity entityId newInstances =>
      refine ⟨hfew, updateFits_of_lt (fun c hhas => ?_) newInstances⟩
      rw [hasComponent_eq_isSome_get, Option.isSome_iff_exists] at hhas
      rcases hhas with ⟨instance_, hinstance⟩
      exact h.lt_idLimit hfew (hsettled.live hinstance)
  | destroyEntity entityId => exact ⟨hfew, rfl⟩

end ECS

/-! ## The whole refinement -/

/-- No sequence of calls on a new store tells it from a new table.  It does not end the program
while fewer than {lit}`idLimit` ids are handed out.  When it does not, the calls give back the
same, and afterwards the entities are the rows, an instance is read from its cell, and a group
lists the rows in which all its columns are filled, with the instances of their cells. -/
theorem store_refines_table (calls : List (ECS.Call Component)) :
    let attempt :=
      Machines.transcript ECS.History.serve (fun history call => call.fits history) {} calls
    let table := Machines.final Table.serve Table.empty calls
    ((calls.foldl ECS.History.step {}).issued.length ≤ idLimit → attempt.isSome) ∧
      ∀ replies history, attempt = some (replies, history) →
        replies = Machines.answers Table.serve Table.empty calls ∧
        (∀ e, e ∈ history.ecs.entities ↔ e ∈ table.rows) ∧
        (∀ e c, history.ecs.getEntityComponent e c = table.cell e c) ∧
        ∀ c cs, (history.ecs.group (c :: cs)).getEntities.toList.Nodup ∧
          ∀ e, (e ∈ (history.ecs.group (c :: cs)).getEntities ↔
              ∀ d ∈ c :: cs, (table.cell e d).isSome) ∧
            ∀ d ∈ c :: cs, history.ecs.getEntity (c :: cs) d e =
              open Classical in
              if ∀ d ∈ c :: cs, (table.cell e d).isSome then table.cell e d else none := by
  intro attempt table
  have hstart : ECS.Settled ({} : ECS Component) ∧ Shows ({} : ECS Component) Table.empty :=
    ⟨⟨_, .start (fun _ => 0) _⟩, .new⟩
  constructor
  · intro hfew
    have hnew : ({} : ECS.History Component).Numbered ∧ ({} : ECS Component).Settled :=
      ⟨(ECS.History.run_calls []).numbered, hstart.1⟩
    have hattempt := @Machines.exists_transcript _ _ _ ECS.History.serve
      (fun history call => call.fits history) (fun history => history.issued.length ≤ idLimit)
      (fun history => history.Numbered ∧ history.ecs.Settled)
      (fun history call h =>
        ⟨ECS.History.numbered_step h.1 call, ECS.History.settled_step h.2 call⟩)
      (fun history call h hfew => h.1.fits h.2 hfew) _ hnew calls hfew
    rcases hattempt.2 with ⟨replies, history, hrun⟩
    exact Option.isSome_of_eq_some hrun
  · intro replies history hrun
    obtain ⟨rfl, rfl⟩ := Machines.eq_of_transcript hrun
    rcases simulates.run (s := ({} : ECS.History Component)) hstart calls with
      ⟨hanswers, -, hshows⟩
    refine ⟨hanswers, hshows.rows, hshows.cell, ?_⟩
    intro c cs
    refine ⟨ECS.nodup_getEntities_group _ c cs, ?_⟩
    intro e
    have hgroup : e ∈ ((Machines.final ECS.History.serve {} calls).ecs.group
        (c :: cs)).getEntities ↔ ∀ d ∈ c :: cs, (table.cell e d).isSome := by
      simp only [ECS.mem_getEntities_group, hshows.cell, table]
    refine ⟨hgroup, ?_⟩
    intro d hd
    rw [ECS.getEntity_group _ hd, hshows.cell]
    exact if_congr hgroup rfl rfl

end

/-! ## Columns that are not written -/

section

variable {κ : Type} {Component : κ → Type}

/-- The types of the instances that a call is made with. -/
def ECS.Call.types : ECS.Call Component → List κ
  | .registerComponents _ => []
  | .preRegisterEntity => []
  | .registerEntity first rest => (first :: rest).map Sigma.fst
  | .addEntityComponents _ instances => instances.map Sigma.fst
  | .updateEntity _ newInstances => newInstances.map Sigma.fst
  | .destroyEntity _ => []

variable [DecidableEq κ]

namespace Table

variable {table : Table Component} {c : κ}

theorem cell_write_of_ne (d : ℕ) {instance_ : Instance Component} (hc : c ≠ instance_.1) (e : ℕ) :
    (table.write d instance_).cell e c = table.cell e c := by
  unfold write
  split_ifs
  · by_cases he : e = d
    · subst he
      simp only [Function.update_self, Function.update_of_ne hc]
    · simp only [Function.update_of_ne he]
  · rfl

theorem cell_writeAll_of_not_mem (d : ℕ) {instances : List (Instance Component)}
    (hc : c ∉ instances.map Sigma.fst) (e : ℕ) :
    (table.writeAll d instances).cell e c = table.cell e c := by
  induction instances generalizing table with
  | nil => rfl
  | cons instance_ instances ih =>
      rw [List.map_cons, List.mem_cons, not_or] at hc
      exact (ih hc.2).trans (cell_write_of_ne d hc.1 e)

theorem cell_overwrite_of_not_mem (d : ℕ) {instances : List (Instance Component)}
    (hc : c ∉ instances.map Sigma.fst) (e : ℕ) :
    (table.overwrite d instances).1.cell e c = table.cell e c := by
  induction instances generalizing table with
  | nil => rfl
  | cons instance_ instances ih =>
      rw [List.map_cons, List.mem_cons, not_or] at hc
      unfold overwrite
      split_ifs
      · exact (ih hc.2).trans (cell_write_of_ne d hc.1 e)
      · rfl

/-- A call that is made without instances of a type leaves them, or takes them out with their
entity. -/
theorem cell_serve {call : ECS.Call Component} (hc : c ∉ call.types) (e : ℕ) :
    (table.serve call).1.cell e c = table.cell e c ∨ (table.serve call).1.cell e c = none := by
  cases call with
  | registerComponents cs => exact .inl rfl
  | preRegisterEntity => exact .inl rfl
  | registerEntity first rest =>
      left
      change (table.create (first :: rest)).1.cell e c = _
      unfold create
      split_ifs
      · exact cell_writeAll_of_not_mem _ hc e
      · rfl
  | addEntityComponents entity instances => exact .inl (cell_writeAll_of_not_mem entity hc e)
  | updateEntity entityId newInstances => exact .inl (cell_overwrite_of_not_mem entityId hc e)
  | destroyEntity entityId =>
      by_cases he : e = entityId
      · right
        subst he
        change Function.update table.cell e (fun _ => none) e c = none
        rw [Function.update_self]
      · left
        change Function.update table.cell entityId (fun _ => none) e c = _
        rw [Function.update_of_ne he]

end Table

omit [DecidableEq κ] in
/-- A store that agrees with itself is a table. -/
theorem ECS.Settled.exists_shows {ecs : ECS Component} (h : ecs.Settled) :
    ∃ table, Shows ecs table := by
  let table : Table Component :=
    { columns := { c | (ecs.components c).isSome }
      rows := { e | e ∈ ecs.entities }
      cell := ecs.getEntityComponent
      next := ecs.entitiesID
      cell_inside := by
        intro e c hsome
        rcases Option.isSome_iff_exists.mp hsome with ⟨component, hcomponent⟩
        refine ⟨ECS.Settled.live h hcomponent, ?_⟩
        by_contra hnone
        rw [Set.mem_ofPred_eq, Bool.not_eq_true, Option.isSome_eq_false_iff,
          Option.isNone_iff_eq_none] at hnone
        rw [ECS.getEntityComponent_of_unregistered hnone] at hsome
        cases hsome }
  exact ⟨table, fun _ => Iff.rfl, fun _ => Iff.rfl, fun _ _ => rfl, rfl⟩

/-- The same for the store. -/
theorem ECS.getEntityComponent_step {ecs : ECS Component} (h : ecs.Settled)
    {call : ECS.Call Component} {c : κ} (hc : c ∉ call.types) (e : ℕ) :
    (ECS.History.step { ecs := ecs } call).ecs.getEntityComponent e c =
        ecs.getEntityComponent e c ∨
      (ECS.History.step { ecs := ecs } call).ecs.getEntityComponent e c = none := by
  rcases h.exists_shows with ⟨table, hshows⟩
  rcases simulates { ecs := ecs } table ⟨h, hshows⟩ call with ⟨-, -, hshows'⟩
  have hcell := @Table.cell_serve _ _ _ table _ _ hc e
  rw [← hshows.cell, ← hshows'.cell] at hcell
  exact hcell

end

end Rtype.Rtecs
