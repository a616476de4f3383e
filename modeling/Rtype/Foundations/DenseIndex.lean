import Mathlib

/-!
# Foundations - Dense arrays with an index

A table that keeps its keys and its values in two dense arrays needs an index
from a key to its position.  An entry is taken out by swapping it with the last
one, so that the arrays stay dense and one other key changes its position.  This
file states what such a table represents, and the rules for its four updates.

Main results:

- Structure {lit}`Represents`: the arrays and the index describe a map.
- Theorems {lit}`Represents.push`, {lit}`Represents.overwrite` and
  {lit}`Represents.swapRemove`: the updates of the table are the updates of the
  map.

Current gaps:

- None.
-/

namespace DenseIndex

variable {κ α : Type*}

/-! ## Swap with the last element and pop -/

/-- Take out the element at {lit}`i`: swap it with the last one, and pop. -/
def swapRemove (xs : Array α) (i : ℕ) : Array α :=
  (xs.swapIfInBounds i (xs.size - 1)).pop

@[simp]
theorem size_swapRemove (xs : Array α) (i : ℕ) : (swapRemove xs i).size = xs.size - 1 := by
  simp [swapRemove]

/-- Below the new size, only the position of the removed element has changed: the
last element is there now. -/
theorem getElem?_swapRemove {xs : Array α} {i j : ℕ} (hi : i < xs.size)
    (hj : j + 1 < xs.size) :
    (swapRemove xs i)[j]? = if j = i then xs.back? else xs[j]? := by
  have hlast : xs.size - 1 < xs.size := by omega
  rw [swapRemove, Array.getElem?_pop, Array.size_swapIfInBounds, if_pos (by omega),
    Array.swapIfInBounds, dif_pos hi, dif_pos hlast, Array.getElem?_swap, Array.back?]
  have hne : xs.size - 1 ≠ j := by omega
  rw [if_neg hne]
  by_cases hji : j = i
  · subst hji
    simp [hlast]
  · rw [if_neg hji, if_neg fun h => hji h.symm]

/-- Nothing is moved when the last element is taken out. -/
theorem swapRemove_last (xs : Array α) : swapRemove xs (xs.size - 1) = xs.pop := by
  rw [swapRemove]
  congr 1
  by_cases h : xs.size - 1 < xs.size
  · simp only [Array.swapIfInBounds, dif_pos h]
    ext i hi hi'
    · rw [Array.size_swap]
    · rw [Array.getElem_swap]
      split_ifs with hlast
      · simp only [hlast]
      · rfl
  · simp only [Array.swapIfInBounds, dif_neg h]

/-! ## Tables -/

/-- The index gives the position of each key, and only of these keys. -/
def Locates (index : κ → Option ℕ) (keys : Array κ) : Prop :=
  ∀ key i, index key = some i ↔ keys[i]? = some key

/-- The arrays {lit}`keys` and {lit}`values` and the index describe {lit}`map`. -/
structure Represents (keys : Array κ) (values : Array α) (index : κ → Option ℕ)
    (map : κ → Option α) : Prop where
  size_eq : values.size = keys.size
  locates : Locates index keys
  lookup : ∀ key, map key = (index key).bind fun i => values[i]?

namespace Locates

variable {index index' : κ → Option ℕ} {keys : Array κ} {key last : κ} {i j : ℕ}

theorem lt_size (h : Locates index keys) (hi : index key = some i) : i < keys.size :=
  (Array.getElem?_eq_some_iff.mp ((h key i).mp hi)).1

/-- Two positions with one key are the same. -/
theorem position_unique (h : Locates index keys) (hi : keys[i]? = some key)
    (hj : keys[j]? = some key) : i = j :=
  Option.some.inj (((h key i).mpr hi).symm.trans ((h key j).mpr hj))

theorem mem_iff (h : Locates index keys) : key ∈ keys ↔ (index key).isSome := by
  rw [Array.mem_iff_getElem?, Option.isSome_iff_exists]
  exact exists_congr fun i => (h key i).symm

theorem nodup (h : Locates index keys) : keys.toList.Nodup := by
  rw [List.nodup_iff_getElem?_ne_getElem?]
  intro i j hij hj heq
  have hsome : keys[j]? = some (keys.toList[j]) := by simp
  have hsome' : keys[i]? = some (keys.toList[j]) := by
    rw [← Array.getElem?_toList, heq, Array.getElem?_toList, hsome]
  exact absurd (h.position_unique hsome' hsome) hij.ne

/-- A new key goes to the end. -/
theorem push [DecidableEq κ] (h : Locates index keys) (hnew : index key = none)
    (hindex : ∀ a, index' a = if a = key then some keys.size else index a) :
    Locates index' (keys.push key) := by
  intro a i
  rw [hindex, Array.getElem?_push]
  by_cases hi : i = keys.size
  · subst hi
    have hnot : index a ≠ some keys.size := fun hpos => absurd (h.lt_size hpos) (lt_irrefl _)
    by_cases ha : a = key
    · simp [ha]
    · simp [ha, hnot, Ne.symm ha]
  · rw [if_neg hi, ← h a i]
    by_cases ha : a = key
    · simp [ha, hnew, Ne.symm hi]
    · rw [if_neg ha]

/-- A key is taken out by swapping it with the last one: the last key, unless it is
the removed one, gets the free position. -/
theorem swapRemove [DecidableEq κ] (h : Locates index keys) (hi : index key = some i)
    (hlast : keys.back? = some last)
    (hindex : ∀ a, index' a = if a = key then none else if a = last then some i else index a) :
    Locates index' (DenseIndex.swapRemove keys i) := by
  have hkey : keys[i]? = some key := (h key i).mp hi
  have hlt : i < keys.size := h.lt_size hi
  have hend : keys[keys.size - 1]? = some last := by rwa [Array.back?] at hlast
  intro a j
  rw [hindex]
  by_cases hj : j + 1 < keys.size
  · rw [getElem?_swapRemove hlt hj, hlast]
    by_cases hji : j = i
    · -- the free position holds the last key, which differs from the removed one
      subst hji
      have hne : key ≠ last := by
        rintro rfl
        have := h.position_unique hkey hend
        omega
      rw [if_pos rfl, Option.some.injEq]
      by_cases hak : a = key
      · simp [hak, hne.symm]
      · by_cases hal : a = last
        · simp [hal, hne.symm]
        · have hnot : index a ≠ some j := fun hpos =>
            hak (Option.some.inj (((h a j).mp hpos).symm.trans hkey))
          simp [hak, hal, hnot, Ne.symm hal]
    · -- the other positions below the new end hold what they held
      rw [if_neg hji, ← h a j]
      by_cases hak : a = key
      · have hnot : index key ≠ some j := fun hpos =>
          hji (Option.some.inj (hpos.symm.trans hi))
        simp [hak, hnot]
      · rw [if_neg hak]
        by_cases hal : a = last
        · have hnot : index last ≠ some j := fun hpos => by
            have := h.position_unique ((h last j).mp hpos) hend
            omega
          simp [hal, hnot, Ne.symm hji]
        · rw [if_neg hal]
  · -- nothing is located past the new end
    have hnone : (DenseIndex.swapRemove keys i)[j]? = none := by
      rw [Array.getElem?_eq_none_iff, size_swapRemove]
      omega
    rw [hnone]
    refine iff_of_false ?_ (by simp)
    by_cases hak : a = key
    · simp [hak]
    · rw [if_neg hak]
      by_cases hal : a = last
      · have hne : i ≠ keys.size - 1 := by
          rintro rfl
          exact hak (hal.trans (Option.some.inj (hend.symm.trans hkey)))
        rw [if_pos hal, Option.some.injEq]
        omega
      · rw [if_neg hal]
        intro hpos
        have hat := (h a j).mp hpos
        have hjlt := h.lt_size hpos
        obtain rfl : j = keys.size - 1 := by omega
        exact hal (Option.some.inj (hat.symm.trans hend))

end Locates

namespace Represents

variable [DecidableEq κ] {keys : Array κ} {values : Array α} {index : κ → Option ℕ}
  {map : κ → Option α} {key : κ} {value : α} {i : ℕ}

omit [DecidableEq κ] in
/-- A key has a position exactly when the map has it. -/
theorem isSome_iff (h : Represents keys values index map) :
    (index key).isSome = (map key).isSome := by
  rw [h.lookup key]
  cases hi : index key with
  | none => rfl
  | some i =>
      have hlt : i < values.size := h.size_eq ▸ h.locates.lt_size hi
      simp [hlt]

omit [DecidableEq κ] in
/-- The value beside a key is the value of the map. -/
theorem value_at (h : Represents keys values index map) (hi : keys[i]? = some key) :
    values[i]? = map key := by
  rw [h.lookup key, (h.locates key i).mpr hi, Option.bind_some]

omit [DecidableEq κ] in
/-- Empty arrays with an empty index describe the empty map. -/
theorem empty (hindex : ∀ key, index key = none) (hmap : ∀ key, map key = none) :
    Represents #[] #[] index map := by
  refine ⟨rfl, fun key i => ?_, fun key => ?_⟩
  · simp [hindex key]
  · rw [hmap key, hindex key, Option.bind_none]

/-- A new key goes to the end, and its value too. -/
theorem push {index' : κ → Option ℕ} {map' : κ → Option α}
    (h : Represents keys values index map) (hnew : index key = none)
    (hindex : ∀ a, index' a = if a = key then some keys.size else index a)
    (hmap : ∀ a, map' a = if a = key then some value else map a) :
    Represents (keys.push key) (values.push value) index' map' := by
  refine ⟨by simp [h.size_eq], h.locates.push hnew hindex, fun a => ?_⟩
  rw [hmap, hindex]
  by_cases ha : a = key
  · simp [ha, ← h.size_eq]
  · rw [if_neg ha, if_neg ha, h.lookup a]
    cases hi : index a with
    | none => rfl
    | some i =>
        have hlt : i < values.size := h.size_eq ▸ h.locates.lt_size hi
        simp [Array.getElem?_push, hlt, hlt.ne]

/-- A present key gets another value where it is. -/
theorem overwrite {map' : κ → Option α} (h : Represents keys values index map)
    (hi : index key = some i) (hmap : ∀ a, map' a = if a = key then some value else map a) :
    Represents keys (values.setIfInBounds i value) index map' := by
  refine ⟨by simp [h.size_eq], h.locates, fun a => ?_⟩
  have hlt : i < values.size := h.size_eq ▸ h.locates.lt_size hi
  rw [hmap]
  by_cases ha : a = key
  · simp [ha, hi, hlt]
  · rw [if_neg ha, h.lookup a]
    cases hj : index a with
    | none => rfl
    | some j =>
        have hij : i ≠ j := by
          rintro rfl
          have hsame := ((h.locates key i).mp hi).symm.trans ((h.locates a i).mp hj)
          exact ha (Option.some.inj hsame).symm
        simp [Array.getElem?_setIfInBounds, hij]

/-- A key and its value are taken out by swapping both with the last ones. -/
theorem swapRemove {index' : κ → Option ℕ} {map' : κ → Option α} {last : κ}
    (h : Represents keys values index map) (hi : index key = some i)
    (hlast : keys.back? = some last)
    (hindex : ∀ a, index' a = if a = key then none else if a = last then some i else index a)
    (hmap : ∀ a, map' a = if a = key then none else map a) :
    Represents (DenseIndex.swapRemove keys i) (DenseIndex.swapRemove values i) index' map' := by
  have hlocates := h.locates.swapRemove hi hlast hindex
  refine ⟨by simp [h.size_eq], hlocates, fun a => ?_⟩
  have hkey : keys[i]? = some key := (h.locates key i).mp hi
  have hlt : i < keys.size := h.locates.lt_size hi
  have hend : keys[keys.size - 1]? = some last := by rwa [Array.back?] at hlast
  have hvalue : ∀ {j}, j + 1 < keys.size → (DenseIndex.swapRemove values i)[j]? =
      if j = i then values[keys.size - 1]? else values[j]? := by
    intro j hj
    rw [getElem?_swapRemove (h.size_eq ▸ hlt) (h.size_eq ▸ hj), Array.back?, h.size_eq]
  rw [hmap]
  by_cases ha : a = key
  · simp [hindex, ha]
  · rw [if_neg ha, h.lookup a, hindex, if_neg ha]
    by_cases hal : a = last
    · subst hal
      have hne : i ≠ keys.size - 1 := by
        rintro rfl
        exact ha (Option.some.inj (hend.symm.trans hkey))
      rw [if_pos rfl, (h.locates a _).mpr hend, Option.bind_some, Option.bind_some,
        hvalue (by omega), if_pos rfl]
    · rw [if_neg hal]
      cases hj : index a with
      | none => rfl
      | some j =>
          have hjlt := h.locates.lt_size hj
          have hat := (h.locates a j).mp hj
          have hji : j ≠ i := by
            rintro rfl
            exact ha (Option.some.inj (hat.symm.trans hkey))
          have hjl : j ≠ keys.size - 1 := by
            rintro rfl
            exact hal (Option.some.inj (hat.symm.trans hend))
          rw [Option.bind_some, Option.bind_some, hvalue (by omega), if_neg hji]

end Represents

end DenseIndex
