import Mathlib

/-!
# Foundations - Reverse scans

A loop goes over the indexes of a vector from the last one to the first, and erases the
element at the index or replaces it.  What it emits is collected in the order of the loop.
Since an erasure moves only elements that have been visited, every element is visited once.

Main results:

- Theorem {lit}`scan_eq`: the loop is a {lit}`filterMap`, when no visit fails.
- Theorem {lit}`visit_of_scan`: no visit fails when the loop comes to its end.

Current gaps:

- None.
-/

namespace ReverseScan

variable {α β ε : Type*}

/-- The loop over the first indexes.  A visit gives what the element becomes, or nothing
when it is erased, and what is emitted; an index outside of the vector is a failure. -/
def scan (visit : ℕ → α → Except ε (Option α × List β)) (outside : ε) :
    ℕ → List α → List β → Except ε (List α × List β)
  | 0, xs, emitted => .ok (xs, emitted)
  | i + 1, xs, emitted =>
      match xs[i]? with
      | none => .error outside
      | some x =>
          match visit i x with
          | .error failure => .error failure
          | .ok (none, new) => scan visit outside i (xs.eraseIdx i) (emitted ++ new)
          | .ok (some x', new) => scan visit outside i (xs.set i x') (emitted ++ new)

variable {visit : ℕ → α → Except ε (Option α × List β)} {outside : ε} {next : α → Option α}
  {emit : ℕ → α → List β}

/-- The step of the loop at the last of the elements that are left. -/
theorem scan_snoc {x : α} {xs done : List α} {emitted : List β}
    (hvisit : visit xs.length x = .ok (next x, emit xs.length x)) :
    scan visit outside (xs ++ [x]).length (xs ++ [x] ++ done) emitted =
      scan visit outside xs.length (xs ++ ((next x).toList ++ done))
        (emitted ++ emit xs.length x) := by
  have hget : (xs ++ [x] ++ done)[xs.length]? = some x := by
    rw [List.append_assoc, List.getElem?_append_right (Nat.le_refl _), Nat.sub_self]
    rfl
  rw [List.length_append, List.length_singleton, scan, hget]
  simp only [hvisit]
  cases hnext : next x with
  | none =>
      have herase : (xs ++ [x] ++ done).eraseIdx xs.length = xs ++ done := by
        rw [List.append_assoc, List.eraseIdx_append_of_length_le (Nat.le_refl _), Nat.sub_self]
        rfl
      simp only [herase, Option.toList_none, List.nil_append]
  | some x' =>
      have hset : (xs ++ [x] ++ done).set xs.length x' = xs ++ (x' :: done) := by
        rw [List.append_assoc, List.set_append_right _ _ (Nat.le_refl _), Nat.sub_self]
        rfl
      simp only [hset, Option.toList_some, List.singleton_append]

/-- When no visit fails, the elements become what the visits make of them, in their places,
and what is emitted comes from the last element first. -/
theorem scan_eq {xs done : List α} {emitted : List β}
    (hvisit : ∀ i x, xs[i]? = some x → visit i x = .ok (next x, emit i x)) :
    scan visit outside xs.length (xs ++ done) emitted =
      .ok (xs.filterMap next ++ done,
        emitted ++ xs.zipIdx.reverse.flatMap fun entry => emit entry.2 entry.1) := by
  induction xs using List.reverseRecOn generalizing done emitted with
  | nil => simp [scan]
  | append_singleton xs x ih =>
      have hlast : (xs ++ [x])[xs.length]? = some x := by
        rw [List.getElem?_append_right (Nat.le_refl _), Nat.sub_self]
        rfl
      have hfront : ∀ i y, xs[i]? = some y → visit i y = .ok (next y, emit i y) := by
        intro i y hy
        apply hvisit
        rw [List.getElem?_append_left, hy]
        exact (List.getElem?_eq_some_iff.mp hy).1
      rw [scan_snoc (hvisit _ x hlast), ih hfront, List.filterMap_append, List.zipIdx_append,
        List.reverse_append, List.flatMap_append]
      have htail : List.filterMap next [x] = (next x).toList := by
        cases hnext : next x with
        | none => simp [hnext]
        | some x' => simp [hnext]
      rw [htail]
      simp [List.append_assoc]

/-- A loop that comes to its end has visited every element without a failure. -/
theorem visit_of_scan {n i : ℕ} {x : α} {xs : List α} {emitted : List β} {result : List α × List β}
    (h : scan visit outside n xs emitted = .ok result) (hi : i < n) (hx : xs[i]? = some x) :
    ∃ visited, visit i x = .ok visited := by
  induction n generalizing xs emitted with
  | zero => cases hi
  | succ n ih =>
      cases hlast : xs[n]? with
      | none => simp [scan, hlast] at h
      | some y =>
          cases hvisit : visit n y with
          | error failure => simp [scan, hlast, hvisit] at h
          | ok visited =>
              rcases Nat.lt_or_eq_of_le (Nat.le_of_lt_succ hi) with hless | rfl
              · -- what the loop does at the last index leaves the indexes below it as they are
                rcases visited with ⟨_ | y', new⟩
                · simp only [scan, hlast, hvisit] at h
                  exact ih h hless (by rw [List.getElem?_eraseIdx_of_lt hless, hx])
                · simp only [scan, hlast, hvisit] at h
                  exact ih h hless (by rw [List.getElem?_set_ne hless.ne', hx])
              · rw [hx, Option.some_inj] at hlast
                exact ⟨visited, hlast ▸ hvisit⟩

end ReverseScan
