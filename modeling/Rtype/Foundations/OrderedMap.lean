import Mathlib

/-!
# Foundations - Ordered maps

Programs that keep their state in ordered maps erase whole lists of keys and
loop by taking one entry out at a time.  This file supplies the facts about
{lit}`Std.TreeMap` that such loops need.

Main results:

- Theorem {lit}`getElem?_eraseAll`: a key survives the erasure of a list exactly
  when it is not in the list.
- Theorem {lit}`size_erase_lt`: taking out a present key makes the map smaller.

Current gaps:

- None.
-/

namespace OrderedMap

open Std

variable {κ β : Type} {cmp : κ → κ → Ordering} [TransCmp cmp] [LawfulEqCmp cmp]

/-- An insertion leaves the other keys alone. -/
theorem getD_insert_of_ne {t : TreeMap κ β cmp} {key a : κ} {value fallback : β}
    (h : key ≠ a) : (t.insert key value).getD a fallback = t.getD a fallback := by
  rw [TreeMap.getD_insert, if_neg fun hcmp => h (LawfulEqCmp.eq_of_compare hcmp)]

/-- Erasing a list of keys, one after another. -/
def eraseAll (t : TreeMap κ β cmp) (keys : List κ) : TreeMap κ β cmp :=
  keys.foldl (fun t key => t.erase key) t

omit [TransCmp cmp] [LawfulEqCmp cmp] in
/-- Erasing two lists one after the other erases all of both. -/
theorem eraseAll_append (t : TreeMap κ β cmp) (keys keys' : List κ) :
    eraseAll t (keys ++ keys') = eraseAll (eraseAll t keys) keys' :=
  List.foldl_append

/-- The entry at a key after the erasure of a list of keys. -/
theorem getElem?_eraseAll [DecidableEq κ] (t : TreeMap κ β cmp) (keys : List κ) (a : κ) :
    (eraseAll t keys)[a]? = if a ∈ keys then none else t[a]? := by
  induction keys generalizing t with
  | nil => simp [eraseAll]
  | cons key keys ih =>
      have hstep : eraseAll t (key :: keys) = eraseAll (t.erase key) keys := rfl
      rw [hstep, ih, TreeMap.getElem?_erase]
      by_cases hrest : a ∈ keys
      · simp [hrest]
      · by_cases hkey : a = key
        · subst hkey
          simp
        · have hne : cmp key a ≠ .eq := fun h => hkey (LawfulEqCmp.eq_of_compare h).symm
          simp [hrest, hkey, hne]

omit [LawfulEqCmp cmp] in
/-- Taking out a present key makes the map smaller. -/
theorem size_erase_lt {t : TreeMap κ β cmp} {key : κ} {value : β}
    (h : t[key]? = some value) : (t.erase key).size < t.size := by
  have hcontains : t.contains key = true := by
    rw [TreeMap.contains_eq_isSome_getElem?, h, Option.isSome_some]
  have hpos : t.size ≠ 0 := by
    have hempty := TreeMap.isEmpty_eq_false_of_contains hcontains
    rw [TreeMap.isEmpty_eq_size_eq_zero] at hempty
    simpa using hempty
  rw [TreeMap.size_erase, if_pos hcontains]
  omega

end OrderedMap
