import Mathlib.Data.List.Nodup
import Mathlib.Data.List.Range
import Mathlib.Data.Set.Insert

/-!
# Foundations - Resequencing

A resequencer receives numbered items in any order and releases them in the order
of their numbers.  It keeps the next number to release and holds the items that
came early.  This file states what such a state knows about the items that have
arrived, and how arrivals and releases change it.

Main results:

- Structure {lit}`Invariant`: released items carry the numbers up to the next one,
  and every item that arrived was released or is held.
- Theorems {lit}`Invariant.release`, {lit}`Invariant.arrive_next`,
  {lit}`Invariant.arrive_early` and {lit}`Invariant.arrive_late`: the transitions.
- Theorem {lit}`Settled.map_released`: once nothing can be released, the released
  items are the longest prefix of all items whose members have all arrived.

Current gaps:

- None.
-/

namespace Resequencer

variable {α β γ : Type*}

/-- The released items carry the numbers `0` to `next - 1`, in this order; the held
items have arrived early; no arrived item is lost. -/
structure Invariant (key : α → ℕ) (arrived : Set α) (released : List α) (next : ℕ)
    (held : ℕ → Option α) : Prop where
  released_key : released.map key = List.range next
  released_arrived : ∀ x ∈ released, x ∈ arrived
  held_spec : ∀ k x, held k = some x → key x = k ∧ next ≤ k ∧ x ∈ arrived
  accounted : ∀ x ∈ arrived, key x < next ∨ held (key x) ≠ none

/-- The next item has not arrived, so nothing more can be released. -/
structure Settled (key : α → ℕ) (arrived : Set α) (released : List α) (next : ℕ)
    (held : ℕ → Option α) : Prop extends Invariant key arrived released next held where
  next_missing : held next = none

variable {key : α → ℕ} {arrived : Set α} {released : List α} {next : ℕ}
  {held held' : ℕ → Option α} {x : α}

theorem settled_empty : Settled key ∅ [] 0 fun _ => none where
  released_key := rfl
  released_arrived := by simp
  held_spec := by simp
  accounted := by simp
  next_missing := rfl

namespace Invariant

/-- The next item is held and is released. -/
theorem release (h : Invariant key arrived released next held) (hx : held next = some x)
    (hheld : ∀ k, held' k = if k = next then none else held k) :
    Invariant key arrived (released ++ [x]) (next + 1) held' where
  released_key := by
    rw [List.map_append, h.released_key, List.range_succ, List.map_singleton,
      (h.held_spec next x hx).1]
  released_arrived := by
    intro y hy
    rcases List.mem_append.mp hy with hy | hy
    · exact h.released_arrived y hy
    · rw [List.mem_singleton.mp hy]
      exact (h.held_spec next x hx).2.2
  held_spec := by
    intro k y hy
    rw [hheld] at hy
    split_ifs at hy with hk
    obtain ⟨hkey, hle, hmem⟩ := h.held_spec k y hy
    exact ⟨hkey, by omega, hmem⟩
  accounted := by
    intro y hy
    rw [hheld]
    split_ifs with hk
    · exact Or.inl (by omega)
    · exact (h.accounted y hy).imp_left fun hlt => by omega

/-- The next item arrives and is released at once. -/
theorem arrive_next (h : Settled key arrived released next held) (hx : key x = next) :
    Invariant key (insert x arrived) (released ++ [x]) (next + 1) held where
  released_key := by
    rw [List.map_append, h.released_key, List.range_succ, List.map_singleton, hx]
  released_arrived := by
    intro y hy
    rcases List.mem_append.mp hy with hy | hy
    · exact Set.mem_insert_of_mem x (h.released_arrived y hy)
    · rw [List.mem_singleton.mp hy]
      exact Set.mem_insert x arrived
  held_spec := by
    intro k y hy
    obtain ⟨hkey, hle, hmem⟩ := h.held_spec k y hy
    have hne : k ≠ next := by
      rintro rfl
      rw [h.next_missing] at hy
      cases hy
    exact ⟨hkey, by omega, Set.mem_insert_of_mem x hmem⟩
  accounted := by
    rintro y (rfl | hy)
    · exact Or.inl (by omega)
    · exact (h.accounted y hy).imp_left fun hlt => by omega

/-- An item arrives early and is held, in place of an earlier one of its number. -/
theorem arrive_early (h : Invariant key arrived released next held) (hx : next < key x)
    (hheld : ∀ k, held' k = if k = key x then some x else held k) :
    Invariant key (insert x arrived) released next held' where
  released_key := h.released_key
  released_arrived := fun y hy => Set.mem_insert_of_mem x (h.released_arrived y hy)
  held_spec := by
    intro k y hy
    rw [hheld] at hy
    split_ifs at hy with hk
    · rw [Option.some.injEq] at hy
      subst hy
      exact ⟨hk.symm, by omega, Set.mem_insert x arrived⟩
    · obtain ⟨hkey, hle, hmem⟩ := h.held_spec k y hy
      exact ⟨hkey, hle, Set.mem_insert_of_mem x hmem⟩
  accounted := by
    intro y hy
    rw [hheld]
    split_ifs with hk
    · exact Or.inr (Option.some_ne_none x)
    · rcases hy with rfl | hy
      · exact absurd rfl hk
      · exact h.accounted y hy

/-- An item whose number was released before is ignored. -/
theorem arrive_late (h : Invariant key arrived released next held) (hx : key x < next) :
    Invariant key (insert x arrived) released next held where
  released_key := h.released_key
  released_arrived := fun y hy => Set.mem_insert_of_mem x (h.released_arrived y hy)
  held_spec := by
    intro k y hy
    obtain ⟨hkey, hle, hmem⟩ := h.held_spec k y hy
    exact ⟨hkey, hle, Set.mem_insert_of_mem x hmem⟩
  accounted := by
    rintro y (rfl | hy)
    · exact Or.inl hx
    · exact h.accounted y hy

/-- The released item at a position carries that number. -/
theorem key_released (h : Invariant key arrived released next held) {i : ℕ}
    (hi : i < released.length) : key released[i] = i := by
  have hget : (released.map key)[i]? = (List.range next)[i]? := by rw [h.released_key]
  have hlen : released.length = next := by
    have := congrArg List.length h.released_key
    simpa using this
  rw [List.getElem?_map, List.getElem?_eq_getElem hi, List.getElem?_range (by omega)] at hget
  exact Option.some.inj hget

theorem length_released (h : Invariant key arrived released next held) :
    released.length = next := by
  have hlen := congrArg List.length h.released_key
  simpa using hlen

/-- No number is released twice. -/
theorem nodup_released (h : Invariant key arrived released next held) : released.Nodup :=
  List.Nodup.of_map key (h.released_key ▸ List.nodup_range)

end Invariant

/-! ## The released prefix -/

/-- A prefix whose members satisfy a predicate, followed by one that does not. -/
theorem takeWhile_eq_take {items : List β} {p : β → Bool} {n : ℕ}
    (hall : ∀ i (hi : i < items.length), i < n → p items[i] = true)
    (hstop : ∀ hn : n < items.length, p items[n] = false) :
    items.takeWhile p = items.take n := by
  induction items generalizing n with
  | nil => simp
  | cons item items ih =>
      cases n with
      | zero =>
          have hitem : p item = false := hstop (Nat.zero_lt_succ _)
          simp [hitem]
      | succ n =>
          have hitem : p item = true := hall 0 (Nat.zero_lt_succ _) (Nat.zero_lt_succ _)
          rw [List.takeWhile_cons, if_pos hitem, List.take_succ_cons]
          congr 1
          refine ih (fun i hi hin => ?_) fun hn => ?_
          · exact hall (i + 1) (Nat.succ_lt_succ hi) (Nat.succ_lt_succ hin)
          · exact hstop (Nat.succ_lt_succ hn)

/-- When the arrived items are those of a numbered list that satisfy a predicate,
the released ones are the longest prefix of the list that satisfies it. -/
theorem Settled.map_released (h : Settled key arrived released next held) {items : List β}
    {p : β → Bool} {f : α → γ} {g : β → γ}
    (hp : ∀ k (hk : k < items.length), p items[k] = true ↔ ∃ x ∈ arrived, key x = k)
    (hkey : ∀ x ∈ arrived, ∃ hk : key x < items.length, f x = g items[key x]) :
    released.map f = (items.takeWhile p).map g := by
  have hlen := h.length_released
  have hreleased : ∀ i (hi : i < released.length), ∃ hk : i < items.length,
      f released[i] = g items[i] ∧ p items[i] = true := by
    intro i hi
    have hmem := h.released_arrived _ (List.getElem_mem hi)
    have hi' := h.key_released hi
    obtain ⟨hk, hf⟩ := hkey _ hmem
    simp only [hi'] at hk hf
    exact ⟨hk, hf, (hp i hk).mpr ⟨_, hmem, hi'⟩⟩
  have htake : items.takeWhile p = items.take next := by
    refine takeWhile_eq_take (fun i hi hin => ?_) fun hn => ?_
    · exact (hreleased i (hlen ▸ hin)).2.2
    · by_contra hnext
      rw [Bool.not_eq_false, hp next hn] at hnext
      obtain ⟨x, hx, hkx⟩ := hnext
      rcases h.accounted x hx with hlt | hheld
      · omega
      · rw [hkx] at hheld
        exact hheld h.next_missing
  rw [htake]
  refine List.ext_getElem ?_ fun i hi hi' => ?_
  · rw [List.length_map, List.length_map, List.length_take, hlen]
    rcases Nat.eq_zero_or_pos next with hzero | hpos
    · omega
    · have := (hreleased (next - 1) (by omega)).1
      omega
  · rw [List.getElem_map, List.getElem_map, List.getElem_take]
    rw [List.length_map] at hi
    exact (hreleased i hi).2.1

end Resequencer
