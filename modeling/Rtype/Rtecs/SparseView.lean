import Mathlib
import Rtype.Foundations.Transition
import Rtype.Rtecs.SparseGroup

/-!
# Rtecs - Sparse views

A view keeps its values in a vector, the key of each value in a second one, and the place
of each key in a map.  The groups only put new keys into their views.  This file takes the
other calls as they are: a removal, which forgets to move the key along with the last
value, and a put of a key that is there, which appends the value and leaves the place of
the key.

Main results:

- Theorem {lit}`SparseView.aligned_throughout_iff`: a view stays in order exactly while
  the key that is erased is the last one that was put.
- Theorem {lit}`SparseView.atKey_putAll`: of several values of a key the first one counts.
- Theorem {lit}`SparseView.overwritten_iff`: a list of puts is kept as announced exactly
  when it repeats no key.

Current gaps:

- The keys are natural numbers, as the ids of the entities.
-/

namespace Rtype.Rtecs

open Std
open Transition (Throughout AllowedRun)

namespace SparseView

variable {α : Type}

/-! ## The other calls -/

/-- {lit}`SparseView::erase`.  The key of the last value is dropped, also when another key
is erased, and {lit}`operator[]` puts a missing key at the place 0.  An access outside of a
vector is nothing. -/
def erase (view : SparseView α) (key : ℕ) : Option (SparseView α) :=
  match view.keyToIndex[key]? with
  | none => some view
  | some index =>
      match view.indexToKey[view.values.size - 1]? with
      | none => none
      | some lastKey =>
          let lastIndex := view.keyToIndex[lastKey]?.getD 0
          if index < view.values.size then
            some
              { keyToIndex :=
                  ((view.keyToIndex.insert key lastIndex).insert lastKey index).erase key
                values := DenseIndex.swapRemove view.values index
                indexToKey := view.indexToKey.pop }
          else none

/-- {lit}`SparseView::has`. -/
def has (view : SparseView α) (key : ℕ) : Bool :=
  view.keyToIndex.contains key

/-- {lit}`SparseView::getValues`. -/
def getValues (view : SparseView α) : Array α :=
  view.values

theorem has_eq (view : SparseView α) (key : ℕ) :
    view.has key = view.keyToIndex[key]?.isSome := by
  rw [has, ExtTreeMap.contains_eq_isSome_getElem?]

/-! ## A view of a list -/

section

variable {entries : List (ℕ × α)} {key : ℕ} {value : α}

/-- In a list without repeated keys a value is found by its key. -/
theorem lookup_eq_some_iff_mem (hnodup : (entries.map Prod.fst).Nodup) :
    entries.lookup key = some value ↔ (key, value) ∈ entries := by
  induction entries with
  | nil => simp
  | cons entry entries ih =>
      rcases entry with ⟨key', value'⟩
      rw [List.map_cons, List.nodup_cons] at hnodup
      rw [List.lookup_cons, List.mem_cons, ← ih hnodup.2, Prod.mk.injEq]
      by_cases hkey : key = key'
      · subst hkey
        have habsent : entries.lookup key ≠ some value := by
          rw [ne_eq, ih hnodup.2]
          exact fun hmem => hnodup.1 (List.mem_map.mpr ⟨_, hmem, rfl⟩)
        simp [habsent, eq_comm]
      · rw [beq_eq_false_iff_ne.mpr hkey]
        simp [hkey]

theorem keys_concat (entries : List (ℕ × α)) (entry : ℕ × α) :
    (entries ++ [entry]).map Prod.fst = entries.map Prod.fst ++ [entry.1] := by
  rw [List.map_append, List.map_singleton]

/-- The last key of such a list is no other one. -/
theorem last_not_mem (hnodup : ((entries ++ [(key, value)]).map Prod.fst).Nodup) :
    key ∉ entries.map Prod.fst := by
  rw [keys_concat, ← List.concat_eq_append, List.nodup_concat] at hnodup
  exact hnodup.1

theorem isSome_lookup_iff : (entries.lookup key).isSome ↔ key ∈ entries.map Prod.fst := by
  rw [List.lookup_isSome_iff, List.mem_map]
  exact exists_congr fun entry => and_congr_right' (beq_iff_eq.trans eq_comm)

theorem lookup_reverse (hnodup : (entries.map Prod.fst).Nodup) (key : ℕ) :
    entries.reverse.lookup key = entries.lookup key := by
  have hnodup' : (entries.reverse.map Prod.fst).Nodup := by
    rw [List.map_reverse]
    exact List.nodup_reverse.mpr hnodup
  ext value
  rw [lookup_eq_some_iff_mem hnodup', lookup_eq_some_iff_mem hnodup, List.mem_reverse]

/-- The view holds the entries of a list, in its order. -/
structure Mirrors (view : SparseView α) (entries : List (ℕ × α)) : Prop where
  wellFormed : view.WellFormed
  keys : view.getKeys.toList = entries.map Prod.fst
  found : ∀ key, view.atKey key = entries.lookup key

theorem mirrors_empty : ({} : SparseView α).Mirrors [] :=
  ⟨wellFormed_empty, rfl, fun key => by simp [atKey_eq_bind]⟩

variable {view : SparseView α}

namespace Mirrors

theorem nodup (h : view.Mirrors entries) : (entries.map Prod.fst).Nodup := by
  rw [← h.keys]
  exact h.wellFormed.locates.nodup

theorem mem_keys (h : view.Mirrors entries) : key ∈ view.getKeys ↔ key ∈ entries.map Prod.fst := by
  rw [← h.keys, Array.mem_toList_iff]

theorem has_iff (h : view.Mirrors entries) : view.has key = true ↔ key ∈ entries.map Prod.fst := by
  rw [has_eq, ← h.mem_keys]
  exact h.wellFormed.locates.mem_iff.symm

/-- A new key goes to the end. -/
theorem put (h : view.Mirrors entries) (hnew : key ∉ entries.map Prod.fst) (value : α) :
    (view.put key value).Mirrors (entries ++ [(key, value)]) := by
  have hput := h.wellFormed.put (fun hmem => hnew (h.mem_keys.mp hmem)) value
  constructor
  case wellFormed => exact hput.1
  case keys =>
    change (view.getKeys.push key).toList = _
    rw [Array.toList_push, h.keys, keys_concat]
  case found =>
    intro a
    rw [congrFun hput.2 a, List.lookup_append, List.lookup_cons, List.lookup_nil]
    by_cases ha : a = key
    · subst ha
      have hnone : entries.lookup a = none := by
        rw [← Option.not_isSome_iff_eq_none, isSome_lookup_iff]
        exact hnew
      simp [hnone]
    · rw [if_neg ha, beq_eq_false_iff_ne.mpr ha, Option.or_none, h.found a]

/-- The last key is found at the end. -/
theorem back_eq (h : view.Mirrors (entries ++ [(key, value)])) :
    view.indexToKey.back? = some key := by
  rw [← Array.getLast?_toList]
  change view.getKeys.toList.getLast? = some key
  rw [h.keys, keys_concat, List.getLast?_concat]

/-- The last key is erased in order. -/
theorem erase_last (h : view.Mirrors (entries ++ [(key, value)])) :
    ∃ view', view.erase key = some view' ∧ view'.Mirrors entries := by
  have hend : view.indexToKey[view.indexToKey.size - 1]? = some key := by
    rw [← Array.back?_eq_getElem?]
    exact h.back_eq
  have hindex : view.keyToIndex[key]? = some (view.indexToKey.size - 1) :=
    (h.wellFormed.locates key _).mpr hend
  have herase : ∃ view', view.erase key = some view' ∧
      view'.keyToIndex = ((view.keyToIndex.insert key (view.indexToKey.size - 1)).insert key
        (view.indexToKey.size - 1)).erase key ∧
      view'.values = DenseIndex.swapRemove view.values (view.indexToKey.size - 1) ∧
      view'.indexToKey = view.indexToKey.pop := by
    simp only [erase, hindex, h.wellFormed.size_eq, hend, Option.getD_some,
      if_pos (h.wellFormed.locates.lt_size hindex)]
    exact ⟨_, rfl, rfl, rfl, rfl⟩
  rcases herase with ⟨view', herase, hplaces, hvalues, hpop⟩
  have hplace : ∀ a, view'.keyToIndex[a]? =
      if a = key then none else if a = key then some (view.indexToKey.size - 1) else
        view.keyToIndex[a]? := by
    intro a
    rw [hplaces, ExtTreeMap.getElem?_erase, ExtTreeMap.getElem?_insert,
      ExtTreeMap.getElem?_insert]
    by_cases ha : a = key
    · simp [ha]
    · simp [ha, Ne.symm ha]
  have hremoved : DenseIndex.Represents (DenseIndex.swapRemove view.indexToKey
      (view.indexToKey.size - 1)) (DenseIndex.swapRemove view.values
        (view.indexToKey.size - 1)) (fun a => view'.keyToIndex[a]?)
      fun a => if a = key then none else view.atKey a :=
    h.wellFormed.swapRemove hindex h.back_eq hplace fun a => rfl
  rw [DenseIndex.swapRemove_last, ← hvalues, ← hpop] at hremoved
  have hfound : view'.atKey = fun a => if a = key then none else view.atKey a :=
    funext fun a => (atKey_eq_bind view' a).trans (hremoved.lookup a).symm
  refine ⟨view', herase, ?_⟩
  constructor
  case wellFormed => rwa [WellFormed, hfound]
  case keys =>
    rw [getKeys, hpop, Array.toList_pop]
    change view.getKeys.toList.dropLast = _
    rw [h.keys, keys_concat, List.dropLast_concat]
  case found =>
    intro a
    rw [congrFun hfound a, h.found a, List.lookup_append, List.lookup_cons, List.lookup_nil]
    by_cases ha : a = key
    · subst ha
      have hnone : entries.lookup a = none := by
        rw [← Option.not_isSome_iff_eq_none, isSome_lookup_iff]
        exact last_not_mem h.nodup
      rw [if_pos rfl, hnone]
    · rw [if_neg ha, beq_eq_false_iff_ne.mpr ha, Option.or_none]

/-- A key that is not there is not erased. -/
theorem erase_absent (h : view.Mirrors entries) (habsent : key ∉ entries.map Prod.fst) :
    view.erase key = some view := by
  have hnone : view.keyToIndex[key]? = none := by
    rw [← Option.not_isSome_iff_eq_none, ← has_eq, h.has_iff]
    exact habsent
  simp only [erase, hnone]

end Mirrors

end

/-! ## Puts and erases -/

/-- A call on a view. -/
inductive Call (α : Type)
  | put (key : ℕ) (value : α)
  | erase (key : ℕ)

/-- The keys that a list of calls puts. -/
def putKeys : List (Call α) → List ℕ
  | [] => []
  | .put key _ :: calls => key :: putKeys calls
  | .erase _ :: calls => putKeys calls

/-- What a view is to hold after a call: the entries that were put and not erased. -/
def hold (entries : List (ℕ × α)) : Call α → List (ℕ × α)
  | .put key value => entries ++ [(key, value)]
  | .erase key => entries.filter fun entry => entry.1 ≠ key

/-- A call that erases nothing, or the entry that was put last. -/
def ErasesLast (entries : List (ℕ × α)) : Call α → Prop
  | .put _ _ => True
  | .erase key =>
      key ∉ entries.map Prod.fst ∨ (entries.map Prod.fst).getLast? = some key

instance ErasesLast.decidable :
    ∀ (entries : List (ℕ × α)) (call : Call α), Decidable (ErasesLast entries call)
  | _, .put _ _ => .isTrue trivial
  | entries, .erase key => inferInstanceAs (Decidable (key ∉ entries.map Prod.fst ∨
      (entries.map Prod.fst).getLast? = some key))

/-- A view in use, unless it was lost, and what it is to hold. -/
structure Usage (α : Type) where
  view : Option (SparseView α) := some {}
  entries : List (ℕ × α) := []

namespace Usage

def step (usage : Usage α) (call : Call α) : Usage α where
  view :=
    match call with
    | .put key value => usage.view.map fun view => view.put key value
    | .erase key => usage.view.bind fun view => view.erase key
  entries := hold usage.entries call

/-- The view and what it is to hold agree: keys and values are side by side, each key
once, and no other key is known to the view. -/
structure Agrees (view : SparseView α) (entries : List (ℕ × α)) : Prop where
  nodup : view.getKeys.toList.Nodup
  keys : ∀ key, key ∈ view.getKeys ↔ key ∈ entries.map Prod.fst
  size : view.getValues.size = view.getKeys.size
  beside : ∀ (i : ℕ) (key : ℕ), view.getKeys[i]? = some key →
    view.getValues[i]? = entries.lookup key
  found : ∀ key, view.atKey key = entries.lookup key
  has : ∀ key, view.has key = true ↔ key ∈ entries.map Prod.fst

/-- The view is in order. -/
def Aligned (usage : Usage α) : Prop :=
  ∃ view, usage.view = some view ∧ Agrees view usage.entries

end Usage

theorem Mirrors.agrees {view : SparseView α} {entries : List (ℕ × α)}
    (h : view.Mirrors entries) : Usage.Agrees view entries where
  nodup := by
    rw [h.keys]
    exact h.nodup
  keys _ := h.mem_keys
  size := h.wellFormed.size_eq
  beside i key hkey := by
    rw [← h.found key]
    exact h.wellFormed.value_at hkey
  found := h.found
  has _ := h.has_iff

/-- Each erase of a key that is there drops the last key. -/
theorem getKeys_erase {view view' : SparseView α} {key : ℕ} (hhas : view.has key = true)
    (herase : view.erase key = some view') : view'.getKeys = view.getKeys.pop := by
  rw [has_eq] at hhas
  rcases Option.isSome_iff_exists.mp hhas with ⟨index, hindex⟩
  simp only [erase, hindex] at herase
  split at herase
  · cases herase
  · split_ifs at herase
    cases herase
    rfl

/-- Nothing is taken from the entries when the key is not there. -/
theorem hold_erase_absent {entries : List (ℕ × α)} {key : ℕ}
    (habsent : key ∉ entries.map Prod.fst) : hold entries (.erase key) = entries := by
  rw [hold, List.filter_eq_self]
  intro entry hentry
  have hne : entry.1 ≠ key := by
    rintro rfl
    exact habsent (List.mem_map_of_mem hentry)
  simpa using hne

/-- The entries without the last one. -/
theorem hold_erase_last {entries : List (ℕ × α)} {key : ℕ} {value : α}
    (hnodup : ((entries ++ [(key, value)]).map Prod.fst).Nodup) :
    hold (entries ++ [(key, value)]) (.erase key) = entries := by
  have hkept := hold_erase_absent (last_not_mem hnodup)
  rw [hold] at hkept ⊢
  rw [List.filter_append, hkept]
  simp

/-- An erase of another key than the last one puts the view out of order. -/
theorem Mirrors.erase_other {view : SparseView α} {entries : List (ℕ × α)} {key last : ℕ}
    {value : α} (h : view.Mirrors (entries ++ [(last, value)])) (hne : key ≠ last)
    (hmem : key ∈ (entries ++ [(last, value)]).map Prod.fst) :
    ¬ Usage.Aligned
      ((Usage.mk (some view) (entries ++ [(last, value)])).step (.erase key)) := by
  rintro ⟨view', hview', hagrees⟩
  have herase : view.erase key = some view' := hview'
  have hkeys := getKeys_erase (h.has_iff.mpr hmem) herase
  -- the last entry is still to be held, and its key is gone
  have hheld : last ∈ (hold (entries ++ [(last, value)]) (.erase key)).map Prod.fst := by
    rw [List.mem_map]
    refine ⟨(last, value), ?_, rfl⟩
    rw [hold, List.mem_filter]
    simpa using hne.symm
  have hgone : last ∉ view'.getKeys := by
    rw [hkeys, ← Array.mem_toList_iff, Array.toList_pop, h.keys, keys_concat,
      List.dropLast_concat]
    exact last_not_mem h.nodup
  exact hgone ((hagrees.keys last).mpr hheld)

/-- An erase of nothing or of the last entry keeps the view in order. -/
theorem Mirrors.erase_allowed {view : SparseView α} {entries : List (ℕ × α)} {key : ℕ}
    (h : view.Mirrors entries) (hallowed : ErasesLast entries (.erase key)) :
    ∃ view', view.erase key = some view' ∧ view'.Mirrors (hold entries (.erase key)) := by
  rcases hallowed with habsent | hlast
  · rw [hold_erase_absent habsent]
    exact ⟨view, h.erase_absent habsent, h⟩
  · rcases List.eq_nil_or_concat' entries with rfl | ⟨before, ⟨last, value⟩, rfl⟩
    · cases hlast
    · rw [keys_concat, List.getLast?_concat] at hlast
      obtain rfl : last = key := Option.some.inj hlast
      rw [hold_erase_last h.nodup]
      exact h.erase_last

/-- Any other erase puts it out of order. -/
theorem Mirrors.erase_not_allowed {view : SparseView α} {entries : List (ℕ × α)} {key : ℕ}
    (h : view.Mirrors entries) (hother : ¬ ErasesLast entries (.erase key)) :
    ¬ Usage.Aligned ((Usage.mk (some view) entries).step (.erase key)) := by
  rw [ErasesLast, not_or, not_not] at hother
  rcases List.eq_nil_or_concat' entries with rfl | ⟨before, ⟨last, value⟩, rfl⟩
  · cases hother.1
  · apply h.erase_other _ hother.1
    rintro rfl
    apply hother.2
    rw [keys_concat, List.getLast?_concat]

/-- A run of puts of new keys and of erases, from a view in order. -/
theorem Mirrors.throughout_iff {view : SparseView α} {entries : List (ℕ × α)}
    (h : view.Mirrors entries) {calls : List (Call α)} (hdistinct : (putKeys calls).Nodup)
    (hfresh : ∀ key ∈ putKeys calls, key ∉ entries.map Prod.fst) :
    Throughout Usage.step Usage.Aligned ⟨some view, entries⟩ calls ↔
      AllowedRun hold ErasesLast entries calls := by
  induction calls generalizing view entries with
  | nil => exact iff_of_true ⟨view, rfl, h.agrees⟩ trivial
  | cons call calls ih =>
      have hhere : Usage.Aligned ⟨some view, entries⟩ := ⟨view, rfl, h.agrees⟩
      rw [Throughout, and_iff_right hhere, AllowedRun]
      cases call with
      | put key value =>
          rw [putKeys, List.nodup_cons] at hdistinct
          have hput := h.put (hfresh key List.mem_cons_self) value
          have hfresh' : ∀ a ∈ putKeys calls, a ∉ (entries ++ [(key, value)]).map Prod.fst := by
            intro a ha hmem
            rw [keys_concat, List.mem_append, List.mem_singleton] at hmem
            rcases hmem with hmem | rfl
            · exact hfresh a (List.mem_cons_of_mem _ ha) hmem
            · exact hdistinct.1 ha
          exact (ih hput hdistinct.2 hfresh').trans (and_iff_right trivial).symm
      | erase key =>
          by_cases hallowed : ErasesLast entries (.erase key)
          · rcases h.erase_allowed hallowed with ⟨view', herase, hmirrors⟩
            have hstep : Usage.step ⟨some view, entries⟩ (.erase key) =
                ⟨some view', hold entries (.erase key)⟩ := by
              simp only [Usage.step, Option.bind_some, herase]
            have hfresh' : ∀ a ∈ putKeys calls,
                a ∉ (hold entries (.erase key)).map Prod.fst := by
              intro a ha hmem
              exact hfresh a ha (List.map_subset _ (List.filter_subset_self _) hmem)
            rw [hstep, ih hmirrors hdistinct hfresh', and_iff_right hallowed]
          · apply iff_of_false
            · intro hrest
              exact h.erase_not_allowed hallowed hrest.head
            · exact fun hrest => hallowed hrest.1

/-- Throughout a run of puts of new keys and of erases a new view is in order if and only if
each erase is of a key that is not there, or of the one that was put last. -/
theorem aligned_throughout_iff (calls : List (Call α)) (hdistinct : (putKeys calls).Nodup) :
    Throughout Usage.step Usage.Aligned {} calls ↔ AllowedRun hold ErasesLast [] calls :=
  mirrors_empty.throughout_iff hdistinct fun _ _ => List.not_mem_nil

/-- Keys that are erased in the reverse order of their puts. -/
theorem aligned_throughout_stack :
    Throughout Usage.step Usage.Aligned ({} : Usage ℕ)
      [.put 1 2, .put 2 4, .erase 3, .erase 2, .put 3 6, .erase 3, .erase 1] :=
  (aligned_throughout_iff _ (by decide)).mpr (by decide)

/-- The first of two keys is erased: the key of the remaining value is gone. -/
theorem not_aligned_after_erase :
    (putKeys [Call.put 1 2, .put 2 4, .erase 1]).Nodup ∧
      ¬ Throughout Usage.step Usage.Aligned ({} : Usage ℕ) [.put 1 2, .put 2 4, .erase 1] := by
  refine ⟨by decide, fun h => ?_⟩
  have hmirrors : (({} : SparseView ℕ).put 1 2).Mirrors [(1, 2)] :=
    mirrors_empty.put List.not_mem_nil 2
  have hmirrors' : ((({} : SparseView ℕ).put 1 2).put 2 4).Mirrors ([(1, 2)] ++ [(2, 4)]) :=
    hmirrors.put (by decide) 4
  have hother : (1 : ℕ) ≠ 2 := by decide
  exact hmirrors'.erase_other hother (by decide) h.last

/-! ## Puts of any keys -/

/-- A new view after a list of puts. -/
def putAll (puts : List (ℕ × α)) : SparseView α :=
  puts.foldl (fun view entry => view.put entry.1 entry.2) {}

theorem putAll_concat (puts : List (ℕ × α)) (entry : ℕ × α) :
    putAll (puts ++ [entry]) = (putAll puts).put entry.1 entry.2 := by
  rw [putAll, List.foldl_concat]
  rfl

/-- Each put appends a key and a value. -/
theorem getKeys_putAll (puts : List (ℕ × α)) :
    (putAll puts).getKeys.toList = puts.map Prod.fst := by
  induction puts using List.reverseRecOn with
  | nil => rfl
  | append_singleton puts entry ih =>
      rw [putAll_concat, keys_concat, ← ih, ← Array.toList_push]
      rfl

/-- The place of each key is in the vector. -/
theorem lt_size_putAll (puts : List (ℕ × α)) {key index : ℕ}
    (h : (putAll puts).keyToIndex[key]? = some index) : index < (putAll puts).values.size := by
  induction puts using List.reverseRecOn generalizing index with
  | nil => simp [putAll] at h
  | append_singleton puts entry ih =>
      rw [putAll_concat, SparseView.put] at h ⊢
      rw [ExtTreeMap.getElem?_insertIfNew] at h
      rw [Array.size_push] at h ⊢
      split_ifs at h
      · cases h
        exact Nat.lt_succ_self _
      · exact (ih h).trans (Nat.lt_succ_self _)

/-- The first value of a key is the one that is found. -/
theorem atKey_putAll (puts : List (ℕ × α)) (key : ℕ) :
    (putAll puts).atKey key = puts.lookup key := by
  induction puts using List.reverseRecOn with
  | nil => exact mirrors_empty.found key
  | append_singleton puts entry ih =>
      rw [List.lookup_append, ← ih, putAll_concat, List.lookup_cons, List.lookup_nil]
      rw [atKey_eq_bind, atKey_eq_bind, SparseView.put, ExtTreeMap.getElem?_insertIfNew]
      cases hindex : (putAll puts).keyToIndex[key]? with
      | none =>
          by_cases hkey : key = entry.1
          · subst hkey
            simp [ExtTreeMap.mem_iff_isSome_getElem?, hindex]
          · rw [beq_eq_false_iff_ne.mpr hkey]
            simp [Ne.symm hkey]
      | some index =>
          have hlt := lt_size_putAll puts hindex
          have hplace : ¬ (compare entry.1 key = .eq ∧ entry.1 ∉ (putAll puts).keyToIndex) := by
            rintro ⟨heq, habsent⟩
            rw [Std.compare_eq_iff_eq] at heq
            rw [heq, ExtTreeMap.mem_iff_isSome_getElem?, hindex] at habsent
            exact habsent rfl
          rw [if_neg hplace, Option.bind_some, Option.bind_some, Array.getElem?_push,
            if_neg hlt.ne, Array.getElem?_eq_getElem hlt, Option.some_or]

/-- Puts of different keys are kept in their order. -/
theorem mirrors_putAll {puts : List (ℕ × α)} (hnodup : (puts.map Prod.fst).Nodup) :
    (putAll puts).Mirrors puts := by
  induction puts using List.reverseRecOn with
  | nil => exact mirrors_empty
  | append_singleton puts entry ih =>
      rw [putAll_concat]
      apply (ih _).put (last_not_mem hnodup)
      rw [keys_concat] at hnodup
      exact hnodup.of_append_left

/-- What a list of puts announces: the last value of each key, one key and one value. -/
structure Overwritten (puts : List (ℕ × α)) (view : SparseView α) : Prop where
  found : ∀ key, view.atKey key = puts.reverse.lookup key
  keys : ∀ key, view.getKeys.toList.count key = if key ∈ puts.map Prod.fst then 1 else 0
  values : view.getValues.size = (puts.map Prod.fst).dedup.length

/-- A list of puts is kept as announced if and only if no key is repeated. -/
theorem overwritten_iff (puts : List (ℕ × α)) :
    Overwritten puts (putAll puts) ↔ (puts.map Prod.fst).Nodup := by
  constructor
  · intro h
    rw [← getKeys_putAll, List.nodup_iff_count_le_one]
    intro key
    rw [h.keys key]
    split_ifs <;> decide
  · intro hnodup
    have hmirrors := mirrors_putAll hnodup
    constructor
    case found =>
      intro key
      rw [hmirrors.found, lookup_reverse hnodup]
    case keys =>
      intro key
      rw [hmirrors.keys, hnodup.count]
    case values =>
      rw [hnodup.dedup, ← hmirrors.keys, Array.length_toList]
      exact hmirrors.wellFormed.size_eq

/-- The second value of a key is not found. -/
theorem not_overwritten_second :
    (putAll [(1, 2), (1, 4)]).atKey 1 = some 2 ∧
      ¬ Overwritten [(1, 2), (1, 4)] (putAll [(1, 2), (1, 4)]) := by
  have hfirst : (putAll [(1, 2), (1, 4)]).atKey 1 = some 2 := atKey_putAll _ 1
  refine ⟨hfirst, fun h => ?_⟩
  have hlast := h.found 1
  rw [hfirst] at hlast
  revert hlast
  decide


end SparseView

end Rtype.Rtecs
