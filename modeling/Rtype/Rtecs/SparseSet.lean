import Mathlib
import Rtype.Foundations.DenseIndex

/-!
# Rtecs - Sparse sets

The instances of one component type are kept in a sparse set: a dense array of
instances beside a dense array of entity ids, and a paged array that maps an
entity id to its dense position.  Pages are allocated when an id falls on or past
their end, all those in between included.

Main results:

- Structure {lit}`WellFormed`: the dense arrays and the pages correspond.
- Theorem {lit}`agrees_with_map_iff`: after a sequence of calls a sparse set answers
  as the finite map built by the same calls, as long as a vector can hold the pages
  up to each id.
- Theorem {lit}`put_terminates`: for larger ids {lit}`put` ends the program.

Current gaps:

- Entity ids and dense positions are natural numbers, and memory does not run out
  before a vector has its greatest size.
- {lit}`ComponentSet`, which the store is made of, only describes ids that are small
  enough for their page.
-/

namespace Rtype.Rtecs

open Std

/-! ## Pages -/

/-- {lit}`SparseSet::kPageSize`. -/
abbrev kPageSize : ℕ := 2048

/-- {lit}`PAGE_OF`. -/
def pageOf (id : ℕ) : ℕ :=
  id / kPageSize

/-- {lit}`PAGE_INDEX_OF`. -/
def pageIndexOf (id : ℕ) : Fin kPageSize :=
  ⟨id % kPageSize, Nat.mod_lt id (by decide)⟩

/-- {lit}`max_size` of a vector of pages, each of which takes 32 KiB. -/
def maxPages : ℕ := 2 ^ 48 - 1

/-- The ids whose page a vector can hold are below this one. -/
def idLimit : ℕ := maxPages * kPageSize

/-- One page: a dense position, or nothing, for each of its ids. -/
abbrev Sparse :=
  Vector (Option ℕ) kPageSize

/-- A page without entries. -/
def nullPage : Sparse :=
  Vector.replicate kPageSize none

/-- An id is known from its page and its index in the page. -/
theorem id_eq_of_page {id id' : ℕ} (hpage : pageOf id = pageOf id')
    (hindex : pageIndexOf id = pageIndexOf id') : id = id' := by
  have hmod : id % kPageSize = id' % kPageSize := congrArg Fin.val hindex
  rw [← Nat.div_add_mod id kPageSize, ← Nat.div_add_mod id' kPageSize, hmod]
  exact congrArg (kPageSize * · + id' % kPageSize) hpage

/-- The entry of an id, when its page is allocated. -/
def sparseEntry (pages : Array Sparse) (id : ℕ) : Option ℕ :=
  match pages[pageOf id]? with
  | none => none
  | some page => page[pageIndexOf id]

/-- {lit}`_sparsePages[page][sparseIndex] = entry`. -/
def setSparseEntry (pages : Array Sparse) (id : ℕ) (entry : Option ℕ) : Array Sparse :=
  pages.modify (pageOf id) fun page => page.set (pageIndexOf id) entry

/-- The allocation at the start of {lit}`put`: all pages up to the one of the id
exist afterwards, and the last one is filled with null entries. -/
def growTo (pages : Array Sparse) (page : ℕ) : Array Sparse :=
  if page ≥ pages.size then
    (pages ++ Array.replicate (page + 1 - pages.size) nullPage).setIfInBounds page nullPage
  else
    pages

@[simp]
theorem nullPage_getElem (i : Fin kPageSize) : nullPage[(i : ℕ)] = none :=
  Vector.getElem_replicate _

theorem pageOf_lt_maxPages {id : ℕ} : pageOf id < maxPages ↔ id < idLimit :=
  Nat.div_lt_iff_lt_mul (by decide)

theorem size_growTo (pages : Array Sparse) (page : ℕ) :
    (growTo pages page).size = max pages.size (page + 1) := by
  unfold growTo
  split
  · rw [Array.size_setIfInBounds, Array.size_append, Array.size_replicate]
    omega
  · omega

theorem sparseEntry_empty (id : ℕ) : sparseEntry #[] id = none :=
  rfl

theorem pageOf_lt_size_growTo (pages : Array Sparse) (page : ℕ) :
    page < (growTo pages page).size := by
  rw [size_growTo]
  omega

/-- Fresh pages have no entries. -/
theorem sparseEntry_growTo (pages : Array Sparse) (page id : ℕ) :
    sparseEntry (growTo pages page) id = sparseEntry pages id := by
  unfold growTo
  split_ifs with hgrow
  · unfold sparseEntry
    rw [Array.getElem?_setIfInBounds]
    by_cases hpage : page = pageOf id
    · have hnone : pages[pageOf id]? = none := Array.getElem?_eq_none (by omega)
      rw [if_pos hpage, hnone]
      have hlt : page < (pages ++ Array.replicate (page + 1 - pages.size) nullPage).size := by
        rw [Array.size_append, Array.size_replicate]
        omega
      rw [if_pos hlt]
      exact nullPage_getElem _
    · rw [if_neg hpage, Array.getElem?_append]
      split_ifs with hlt
      · rfl
      · have hnone : pages[pageOf id]? = none := Array.getElem?_eq_none (by omega)
        rw [hnone, Array.getElem?_replicate]
        split_ifs
        · exact nullPage_getElem _
        · rfl
  · rfl

/-- A write changes the entry of its id only. -/
theorem sparseEntry_setSparseEntry {pages : Array Sparse} {id : ℕ}
    (hpage : pageOf id < pages.size) (entry : Option ℕ) (id' : ℕ) :
    sparseEntry (setSparseEntry pages id entry) id' =
      if id' = id then entry else sparseEntry pages id' := by
  unfold sparseEntry setSparseEntry
  rw [Array.getElem?_modify]
  by_cases hsame : pageOf id = pageOf id'
  · rw [if_pos hsame, ← hsame, Array.getElem?_eq_getElem hpage, Option.map_some]
    by_cases hid : id' = id
    · subst hid
      simp
    · have hindex : (pageIndexOf id : ℕ) ≠ pageIndexOf id' := fun h =>
        hid (id_eq_of_page hsame (Fin.ext h)).symm
      simp [hid, Vector.getElem_set_ne _ _ hindex]
  · have hid : id' ≠ id := by
      rintro rfl
      exact hsame rfl
    rw [if_neg hsame, if_neg hid]

theorem pageOf_lt_size {pages : Array Sparse} {id i : ℕ}
    (h : sparseEntry pages id = some i) : pageOf id < pages.size := by
  by_contra hlt
  have hnone : pages[pageOf id]? = none := Array.getElem?_eq_none (by omega)
  simp [sparseEntry, hnone] at h

@[simp]
theorem size_setSparseEntry (pages : Array Sparse) (id : ℕ) (entry : Option ℕ) :
    (setSparseEntry pages id entry).size = pages.size := by
  simp [setSparseEntry]

/-! ## The set -/

/-- {lit}`SparseSet<T>`. -/
structure SparseSet (T : Type) where
  dense : Array T := #[]
  entities : Array ℕ := #[]
  sparsePages : Array Sparse := #[]

namespace SparseSet

variable {T : Type}

/-- {lit}`SparseSet::get`, in both its forms. -/
def get (set : SparseSet T) (id : ℕ) : Option T :=
  match sparseEntry set.sparsePages id with
  | none => none
  | some denseIndex => set.dense[denseIndex]?

/-- {lit}`SparseSet::getAll`. -/
def getAll (set : SparseSet T) : Array T :=
  set.dense

/-- {lit}`ASparseSet::getEntities`. -/
def getEntities (set : SparseSet T) : Array ℕ :=
  set.entities

/-- {lit}`SparseSet::has`. -/
def has (set : SparseSet T) (id : ℕ) : Bool :=
  (sparseEntry set.sparsePages id).isSome

/-- {lit}`SparseSet::size`. -/
def size (set : SparseSet T) : ℕ :=
  set.dense.size

/-- {lit}`SparseSet::put` for an id whose page a vector can hold. -/
def place (set : SparseSet T) (id : ℕ) (component : T) : SparseSet T :=
  let sparsePages := growTo set.sparsePages (pageOf id)
  match sparseEntry sparsePages id with
  | none =>
      { dense := set.dense.push component
        entities := set.entities.push id
        sparsePages := setSparseEntry sparsePages id (some ((set.dense.push component).size - 1)) }
  | some denseIndex =>
      { dense := set.dense.setIfInBounds denseIndex component
        entities := set.entities.setIfInBounds denseIndex id
        sparsePages := sparsePages }

/-- {lit}`SparseSet::put`, which always returns {lit}`true`.  It is {lit}`noexcept`: the program
ends when {lit}`resize` throws because there are too many pages. -/
def put (set : SparseSet T) (id : ℕ) (component : T) : Option (SparseSet T) :=
  if pageOf id ≥ set.sparsePages.size ∧ pageOf id + 1 > maxPages then
    none
  else
    some (set.place id component)

/-- {lit}`SparseSet::remove`. -/
def remove (set : SparseSet T) (id : ℕ) : SparseSet T :=
  if !set.has id then
    set
  else
    match sparseEntry set.sparsePages id, set.entities.back? with
    | some targetIndex, some movedEntityId =>
        let dense := DenseIndex.swapRemove set.dense targetIndex
        let entities := DenseIndex.swapRemove set.entities targetIndex
        let sparsePages := setSparseEntry set.sparsePages id none
        { dense := dense
          entities := entities
          sparsePages :=
            if targetIndex < dense.size then
              setSparseEntry sparsePages movedEntityId (some targetIndex)
            else
              sparsePages }
    | _, _ => set

/-- {lit}`SparseSet::clear`. -/
def clear (_set : SparseSet T) : SparseSet T :=
  {}

/-! ## The correspondence of the arrays -/

/-- The dense arrays have one length, and the entry of an id is its position. -/
structure WellFormed (set : SparseSet T) : Prop where
  size_eq : set.dense.size = set.entities.size
  locates : DenseIndex.Locates (sparseEntry set.sparsePages) set.entities

variable {set : SparseSet T}

theorem get_eq_bind (set : SparseSet T) (id : ℕ) :
    set.get id = (sparseEntry set.sparsePages id).bind fun i => set.dense[i]? := by
  unfold get
  cases sparseEntry set.sparsePages id <;> rfl

/-- A well-formed set describes the map that {lit}`get` reads. -/
theorem WellFormed.represents (h : set.WellFormed) :
    DenseIndex.Represents set.entities set.dense (sparseEntry set.sparsePages) set.get :=
  ⟨h.size_eq, h.locates, set.get_eq_bind⟩

theorem WellFormed.of_represents {map : ℕ → Option T}
    (h : DenseIndex.Represents set.entities set.dense (sparseEntry set.sparsePages) map) :
    set.WellFormed ∧ set.get = map :=
  ⟨⟨h.size_eq, h.locates⟩, funext fun id => (set.get_eq_bind id).trans (h.lookup id).symm⟩

/-- A new set is well formed and empty. -/
theorem wellFormed_empty : ({} : SparseSet T).WellFormed ∧ ({} : SparseSet T).get = fun _ => none :=
  WellFormed.of_represents (DenseIndex.Represents.empty sparseEntry_empty fun _ => rfl)

theorem place_of_absent {id : ℕ} (h : sparseEntry set.sparsePages id = none) (component : T) :
    set.place id component =
      { dense := set.dense.push component
        entities := set.entities.push id
        sparsePages := setSparseEntry (growTo set.sparsePages (pageOf id)) id
          (some set.dense.size) } := by
  simp only [place, sparseEntry_growTo, h, Array.size_push, Nat.add_sub_cancel]

theorem place_of_present {id i : ℕ} (h : sparseEntry set.sparsePages id = some i)
    (component : T) :
    set.place id component =
      { dense := set.dense.setIfInBounds i component
        entities := set.entities.setIfInBounds i id
        sparsePages := growTo set.sparsePages (pageOf id) } := by
  simp only [place, sparseEntry_growTo, h]

theorem remove_of_absent {id : ℕ} (h : sparseEntry set.sparsePages id = none) :
    set.remove id = set := by
  simp [remove, has, h]

theorem remove_of_present {id i last : ℕ} (h : sparseEntry set.sparsePages id = some i)
    (hlast : set.entities.back? = some last) :
    set.remove id =
      { dense := DenseIndex.swapRemove set.dense i
        entities := DenseIndex.swapRemove set.entities i
        sparsePages :=
          if i < set.dense.size - 1 then
            setSparseEntry (setSparseEntry set.sparsePages id none) last (some i)
          else
            setSparseEntry set.sparsePages id none } := by
  simp [remove, has, h, hlast]

/-- {lit}`place` inserts an entry or overwrites it. -/
theorem WellFormed.place (h : set.WellFormed) (id : ℕ) (component : T) :
    (set.place id component).WellFormed ∧
      (set.place id component).get = fun a => if a = id then some component else set.get a := by
  apply WellFormed.of_represents
  cases hentry : sparseEntry set.sparsePages id with
  | none =>
      rw [place_of_absent hentry]
      refine h.represents.push hentry (fun a => ?_) fun a => rfl
      rw [sparseEntry_setSparseEntry (pageOf_lt_size_growTo _ _), sparseEntry_growTo, h.size_eq]
  | some i =>
      rw [place_of_present hentry]
      -- the id is written over itself
      have hsame : set.entities.setIfInBounds i id = set.entities := by
        obtain ⟨hlt, hat⟩ := Array.getElem?_eq_some_iff.mp ((h.locates id i).mp hentry)
        rw [Array.setIfInBounds, dif_pos hlt, ← hat, Array.set_getElem_self]
      have hpages : sparseEntry (growTo set.sparsePages (pageOf id)) =
          sparseEntry set.sparsePages :=
        funext (sparseEntry_growTo set.sparsePages (pageOf id))
      simp only [hsame, hpages]
      exact h.represents.overwrite hentry fun a => rfl

/-- The positions after a removal: the last id, unless it is the removed one, gets the
free position. -/
theorem WellFormed.sparseEntry_remove (h : set.WellFormed) {id i last : ℕ}
    (hentry : sparseEntry set.sparsePages id = some i)
    (hback : set.entities.back? = some last) (a : ℕ) :
    sparseEntry (set.remove id).sparsePages a =
      if a = id then none else if a = last then some i else sparseEntry set.sparsePages a := by
  have hlt := h.locates.lt_size hentry
  have hlast : sparseEntry set.sparsePages last = some (set.entities.size - 1) :=
    (h.locates _ _).mpr (by rwa [Array.back?] at hback)
  have hpage := pageOf_lt_size hentry
  rw [remove_of_present hentry hback, h.size_eq]
  by_cases hmoved : i < set.entities.size - 1
  · -- the last element is another one, and takes the free position
    have hne : last ≠ id := by
      rintro rfl
      rw [hentry, Option.some.injEq] at hlast
      omega
    rw [if_pos hmoved, sparseEntry_setSparseEntry (by simpa using pageOf_lt_size hlast),
      sparseEntry_setSparseEntry hpage]
    by_cases hal : a = last
    · simp [hal, hne]
    · simp [hal]
  · -- the element is the last one itself
    have hsame : last = id := by
      obtain rfl : i = set.entities.size - 1 := by omega
      exact Option.some.inj (((h.locates _ _).mp hlast).symm.trans
        ((h.locates _ _).mp hentry))
    rw [if_neg hmoved, sparseEntry_setSparseEntry hpage, hsame]
    by_cases ha : a = id
    · simp [ha]
    · simp [ha]

/-- A set with an entry has a last entity. -/
theorem WellFormed.exists_back (h : set.WellFormed) {id i : ℕ}
    (hentry : sparseEntry set.sparsePages id = some i) :
    ∃ last, set.entities.back? = some last := by
  have hlt := h.locates.lt_size hentry
  exact ⟨_, by rw [Array.back?, Array.getElem?_eq_getElem (by omega)]⟩

/-- {lit}`remove` erases an entry, and does nothing for an absent id. -/
theorem WellFormed.remove (h : set.WellFormed) (id : ℕ) :
    (set.remove id).WellFormed ∧
      (set.remove id).get = fun a => if a = id then none else set.get a := by
  cases hentry : sparseEntry set.sparsePages id with
  | none =>
      rw [remove_of_absent hentry]
      refine ⟨h, funext fun a => ?_⟩
      by_cases ha : a = id
      · rw [if_pos ha, ha, get_eq_bind, hentry, Option.bind_none]
      · rw [if_neg ha]
  | some i =>
      obtain ⟨last, hback⟩ := h.exists_back hentry
      have hindex := h.sparseEntry_remove hentry hback
      apply WellFormed.of_represents
      rw [remove_of_present hentry hback] at hindex ⊢
      exact h.represents.swapRemove hentry hback hindex fun a => rfl

/-! ## The finite map -/

/-- A call that changes the set. -/
inductive Operation (T : Type)
  | put (id : ℕ) (component : T)
  | remove (id : ℕ)
  | clear

/-- A call on a sparse set, unless it ends the program. -/
def apply (set : SparseSet T) : Operation T → Option (SparseSet T)
  | .put id component => set.put id component
  | .remove id => some (set.remove id)
  | .clear => some set.clear

/-- A vector can hold the pages that the call needs. -/
def Operation.Fits : Operation T → Prop
  | .put id _ => id < idLimit
  | .remove _ => True
  | .clear => True

/-- The same call on a finite map. -/
def Operation.onMap (map : ExtTreeMap ℕ T) : Operation T → ExtTreeMap ℕ T
  | .put id component => map.insert id component
  | .remove id => map.erase id
  | .clear => ∅

/-- A sparse set and a finite map give the same answers, and the arrays and pages of
the set lay the map out. -/
structure Agrees (set : SparseSet T) (map : ExtTreeMap ℕ T) : Prop where
  has_eq : ∀ id, set.has id = map.contains id
  get_eq : ∀ id : ℕ, set.get id = map[id]?
  size_eq : set.size = map.size
  dense_size_eq : set.dense.size = set.entities.size
  nodup : set.getEntities.toList.Nodup
  mem_iff : ∀ id : ℕ, id ∈ set.getEntities ↔ id ∈ map
  value_at : ∀ i id : ℕ, set.getEntities[i]? = some id → set.getAll[i]? = map[id]?
  entry_iff : ∀ id i : ℕ, sparseEntry set.sparsePages id = some i ↔ set.entities[i]? = some id

theorem has_eq_isSome_get (h : set.WellFormed) (id : ℕ) : set.has id = (set.get id).isSome :=
  h.represents.isSome_iff

/-- A well-formed set whose entries and number of entries are those of the map agrees
with it. -/
theorem WellFormed.agrees {map : ExtTreeMap ℕ T} (h : set.WellFormed)
    (hget : set.get = fun id => map[id]?) (hsize : set.size = map.size) : set.Agrees map where
  has_eq id := by rw [has_eq_isSome_get h, hget, ExtTreeMap.contains_eq_isSome_getElem?]
  get_eq id := congrFun hget id
  size_eq := hsize
  dense_size_eq := h.size_eq
  nodup := h.locates.nodup
  mem_iff id := by
    rw [ExtTreeMap.mem_iff_isSome_getElem?, ← congrFun hget id, ← has_eq_isSome_get h]
    exact h.locates.mem_iff
  value_at i id hi := (h.represents.value_at hi).trans (congrFun hget id)
  entry_iff := h.locates

/-- How {lit}`place` changes the size. -/
theorem size_place (set : SparseSet T) (id : ℕ) (component : T) :
    (set.place id component).size = if set.has id then set.size else set.size + 1 := by
  unfold has size
  cases hentry : sparseEntry set.sparsePages id with
  | none => simp [place_of_absent hentry]
  | some i => simp [place_of_present hentry]

/-- How {lit}`remove` changes the size. -/
theorem WellFormed.size_remove (h : set.WellFormed) (id : ℕ) :
    (set.remove id).size = if set.has id then set.size - 1 else set.size := by
  unfold has size
  cases hentry : sparseEntry set.sparsePages id with
  | none => simp [remove_of_absent hentry]
  | some i =>
      obtain ⟨last, hback⟩ := h.exists_back hentry
      simp [remove_of_present hentry hback]

theorem put_of_lt {id : ℕ} (h : id < idLimit) (component : T) :
    set.put id component = some (set.place id component) := by
  have hpage := pageOf_lt_maxPages.mpr h
  exact if_neg fun hfull => by omega

/-- The program ends at an id whose page a vector cannot hold. -/
theorem put_of_le {id : ℕ} (hpages : set.sparsePages.size ≤ maxPages) (h : idLimit ≤ id)
    (component : T) : set.put id component = none := by
  have hpage : maxPages ≤ pageOf id := Nat.not_lt.mp (pageOf_lt_maxPages.not.mpr (Nat.not_lt.mpr h))
  exact if_pos ⟨hpages.trans hpage, Nat.lt_succ_of_le hpage⟩

theorem size_pages_place (set : SparseSet T) (id : ℕ) (component : T) :
    (set.place id component).sparsePages.size = max set.sparsePages.size (pageOf id + 1) := by
  cases hentry : sparseEntry set.sparsePages id with
  | none => rw [place_of_absent hentry, size_setSparseEntry, size_growTo]
  | some i => rw [place_of_present hentry, size_growTo]

theorem WellFormed.size_pages_remove (h : set.WellFormed) (id : ℕ) :
    (set.remove id).sparsePages.size = set.sparsePages.size := by
  cases hentry : sparseEntry set.sparsePages id with
  | none => rw [remove_of_absent hentry]
  | some i =>
      obtain ⟨last, hback⟩ := h.exists_back hentry
      rw [remove_of_present hentry hback]
      dsimp only
      split_ifs <;> simp only [size_setSparseEntry]

/-- A set that agrees with a map, and has no more pages than a vector can hold. -/
structure Lays (set : SparseSet T) (map : ExtTreeMap ℕ T) : Prop where
  wellFormed : set.WellFormed
  agrees : set.Agrees map
  pages : set.sparsePages.size ≤ maxPages

theorem Lays.new : ({} : SparseSet T).Lays ∅ := by
  obtain ⟨hwf, hget⟩ := wellFormed_empty (T := T)
  exact ⟨hwf, hwf.agrees (hget.trans (funext fun a => by simp)) rfl, Nat.zero_le maxPages⟩

/-- A call that fits keeps a set in agreement with its map. -/
theorem Lays.apply {map : ExtTreeMap ℕ T} (h : set.Lays map) {operation : Operation T}
    (hfits : operation.Fits) :
    ∃ set', set.apply operation = some set' ∧ set'.Lays (operation.onMap map) := by
  cases operation with
  | put id component =>
      obtain ⟨hwf, hget⟩ := h.wellFormed.place id component
      refine ⟨_, put_of_lt hfits component, hwf,
        hwf.agrees (hget.trans (funext fun a => ?_)) ?_, ?_⟩
      · rw [Operation.onMap, ExtTreeMap.getElem?_insert, h.agrees.get_eq]
        simp [eq_comm (a := a)]
      · rw [Operation.onMap, size_place, ExtTreeMap.size_insert, h.agrees.has_eq,
          h.agrees.size_eq]
      · rw [size_pages_place]
        exact max_le h.pages (pageOf_lt_maxPages.mpr hfits)
  | remove id =>
      obtain ⟨hwf, hget⟩ := h.wellFormed.remove id
      refine ⟨_, rfl, hwf, hwf.agrees (hget.trans (funext fun a => ?_)) ?_, ?_⟩
      · rw [Operation.onMap, ExtTreeMap.getElem?_erase, h.agrees.get_eq]
        simp [eq_comm (a := a)]
      · rw [Operation.onMap, h.wellFormed.size_remove, ExtTreeMap.size_erase, h.agrees.has_eq,
          h.agrees.size_eq]
      · rw [h.wellFormed.size_pages_remove]
        exact h.pages
  | clear => exact ⟨_, rfl, .new⟩

/-- A call that does not fit ends the program. -/
theorem Lays.apply_none {map : ExtTreeMap ℕ T} (h : set.Lays map) {operation : Operation T}
    (hfits : ¬ operation.Fits) : set.apply operation = none := by
  cases operation with
  | put id component => exact put_of_le h.pages (Nat.not_lt.mp hfits) component
  | remove id => exact absurd trivial hfits
  | clear => exact absurd trivial hfits

theorem Lays.run_iff {map : ExtTreeMap ℕ T} (h : set.Lays map) (operations : List (Operation T)) :
    (∃ set', operations.foldlM SparseSet.apply set = some set' ∧
      set'.Agrees (operations.foldl Operation.onMap map)) ↔
        ∀ operation ∈ operations, operation.Fits := by
  induction operations generalizing set map with
  | nil =>
      refine ⟨fun _ _ hmem => (List.not_mem_nil hmem).elim, fun _ => ?_⟩
      exact ⟨set, rfl, h.agrees⟩
  | cons operation operations ih =>
      rw [List.forall_mem_cons, List.foldlM_cons, List.foldl_cons]
      by_cases hfits : operation.Fits
      · rcases h.apply hfits with ⟨next, happly, hnext⟩
        rw [happly, and_iff_right hfits]
        exact ih hnext
      · rw [h.apply_none hfits]
        refine ⟨?_, fun hall => absurd hall.1 hfits⟩
        rintro ⟨set', hrun, -⟩
        cases hrun

/-- After a sequence of calls on a new set, the set agrees with the finite map that the same
calls build, exactly when a vector can hold the pages up to each id that is put. -/
theorem agrees_with_map_iff (operations : List (Operation T)) :
    (∃ set, operations.foldlM apply {} = some set ∧
      set.Agrees (operations.foldl Operation.onMap ∅)) ↔
        ∀ operation ∈ operations, operation.Fits :=
  Lays.new.run_iff operations

/-- The pages up to a large id are more than a vector can hold. -/
theorem put_terminates :
    ¬ ∀ operations : List (Operation ℕ), ∃ set, operations.foldlM apply {} = some set ∧
      set.Agrees (operations.foldl Operation.onMap ∅) := by
  intro hall
  rcases hall [.put (2 ^ 59 - 2048) 7] with ⟨set, hrun, -⟩
  have hnone : [Operation.put (2 ^ 59 - 2048) 7].foldlM apply ({} : SparseSet ℕ) = none := by
    decide
  rw [hnone] at hrun
  cases hrun

end SparseSet

/-! ## Sets that carry their correspondence -/

/-- A sparse set together with the proof that its arrays correspond: what the program
can hold, since it starts from new sets and only calls their functions. -/
abbrev ComponentSet (T : Type) :=
  { set : SparseSet T // set.WellFormed }

namespace ComponentSet

variable {T : Type}

/-- A new set. -/
def empty : ComponentSet T :=
  ⟨{}, SparseSet.wellFormed_empty.1⟩

def get (set : ComponentSet T) (id : ℕ) : Option T :=
  set.1.get id

def has (set : ComponentSet T) (id : ℕ) : Bool :=
  set.1.has id

def size (set : ComponentSet T) : ℕ :=
  set.1.size

def getEntities (set : ComponentSet T) : Array ℕ :=
  set.1.getEntities

/-- {lit}`SparseSet::put` on a set of the store, for an id below {lit}`idLimit`. -/
def put (set : ComponentSet T) (id : ℕ) (component : T) : ComponentSet T :=
  ⟨set.1.place id component, (set.2.place id component).1⟩

def remove (set : ComponentSet T) (id : ℕ) : ComponentSet T :=
  ⟨set.1.remove id, (set.2.remove id).1⟩

@[simp]
theorem get_empty (id : ℕ) : (empty : ComponentSet T).get id = none :=
  congrFun SparseSet.wellFormed_empty.2 id

@[simp]
theorem get_put (set : ComponentSet T) (id : ℕ) (component : T) (a : ℕ) :
    (set.put id component).get a = if a = id then some component else set.get a :=
  congrFun (set.2.place id component).2 a

@[simp]
theorem get_remove (set : ComponentSet T) (id a : ℕ) :
    (set.remove id).get a = if a = id then none else set.get a :=
  congrFun (set.2.remove id).2 a

theorem has_eq (set : ComponentSet T) (id : ℕ) : set.has id = (set.get id).isSome :=
  SparseSet.has_eq_isSome_get set.2 id

theorem mem_getEntities {set : ComponentSet T} {id : ℕ} :
    id ∈ set.getEntities ↔ set.has id = true :=
  set.2.locates.mem_iff

@[simp]
theorem has_empty (id : ℕ) : (empty : ComponentSet T).has id = false := by
  simp [has_eq]

@[simp]
theorem has_put (set : ComponentSet T) (id : ℕ) (component : T) (a : ℕ) :
    (set.put id component).has a = (decide (a = id) || set.has a) := by
  rw [has_eq, has_eq, get_put]
  by_cases ha : a = id <;> simp [ha]

@[simp]
theorem has_remove (set : ComponentSet T) (id a : ℕ) :
    (set.remove id).has a = (decide (a ≠ id) && set.has a) := by
  rw [has_eq, has_eq, get_remove]
  by_cases ha : a = id <;> simp [ha]

/-! ## Positions -/

/-- The dense position of an id. -/
def position (set : ComponentSet T) (id : ℕ) : Option ℕ :=
  sparseEntry set.1.sparsePages id

variable {set : ComponentSet T} {id i : ℕ}

theorem has_eq_isSome_position (set : ComponentSet T) (id : ℕ) :
    set.has id = (set.position id).isSome :=
  rfl

/-- A position holds the id whose position it is. -/
theorem position_eq_some_iff : set.position id = some i ↔ set.getEntities[i]? = some id :=
  set.2.locates id i

/-- The instance at the position of an id is the one of the id. -/
theorem getAll_at (h : set.position id = some i) : set.1.getAll[i]? = set.get id :=
  set.2.represents.value_at (position_eq_some_iff.mp h)

theorem size_eq (set : ComponentSet T) : set.size = set.getEntities.size :=
  set.2.size_eq

theorem position_lt_size (h : set.position id = some i) : i < set.size := by
  rw [size_eq]
  exact set.2.locates.lt_size h

/-- The last id has the last position. -/
theorem position_back {last : ℕ} (h : set.getEntities.back? = some last) :
    set.position last = some (set.size - 1) := by
  rwa [position_eq_some_iff, size_eq, ← Array.back?]

theorem size_remove (set : ComponentSet T) (id : ℕ) :
    (set.remove id).size = if set.has id then set.size - 1 else set.size :=
  set.2.size_remove id

/-- A removal moves the last id only. -/
theorem position_remove_of_ne {a : ℕ} (hne : a ≠ id) (hlast : set.getEntities.back? ≠ some a) :
    (set.remove id).position a = set.position a := by
  change sparseEntry (set.1.remove id).sparsePages a = sparseEntry set.1.sparsePages a
  cases hentry : sparseEntry set.1.sparsePages id with
  | none => rw [SparseSet.remove_of_absent hentry]
  | some i =>
      obtain ⟨last, hback⟩ := set.2.exists_back hentry
      have hal : a ≠ last := by
        rintro rfl
        exact hlast hback
      rw [set.2.sparseEntry_remove hentry hback, if_neg hne, if_neg hal]

end ComponentSet

end Rtype.Rtecs
