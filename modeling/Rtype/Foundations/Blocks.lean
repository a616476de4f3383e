import Mathlib

/-!
# Foundations - Cutting a list into blocks

A list that is too long to be handled at once is cut into blocks of a fixed size:
packets of bounded length, pages of a listing.  This file defines the blocks by their
number and gives the rules for the two loops that produce them, the one that takes the
next block off the list and the one that jumps to a block.

Main results:

- Theorem {lit}`blocks_of_ne_nil`: the blocks are the first one and those of the rest.
- Theorem {lit}`flatten_blocks`: the blocks together are the list.
- Theorem {lit}`flatMap_range_block`: so are the first {lit}`count` blocks, once they
  reach the end of the list.
- Theorem {lit}`block_eq_nil_iff`: the numbers of the empty blocks.

Current gaps:

- None.
-/

namespace Blocks

variable {α : Type*} {size : ℕ} {xs : List α}

/-- Block number {lit}`k` of a list. -/
def block (size : ℕ) (xs : List α) (k : ℕ) : List α :=
  (xs.drop (size * k)).take size

/-- The blocks of a list: all of {lit}`size` elements but the last, which is not empty. -/
def blocks (size : ℕ) (xs : List α) : List (List α) :=
  (List.range (xs.length ⌈/⌉ size)).map (block size xs)

/-! ## Single blocks -/

theorem length_block_le (size : ℕ) (xs : List α) (k : ℕ) : (block size xs k).length ≤ size := by
  rw [block, List.length_take]
  exact Nat.min_le_left _ _

/-- A block is empty when it lies past the end of the list. -/
theorem block_eq_nil_iff (hsize : 0 < size) (xs : List α) (k : ℕ) :
    block size xs k = [] ↔ xs.length ≤ size * k := by
  rw [block, List.take_eq_nil_iff, List.drop_eq_nil_iff]
  constructor
  · intro h
    exact h.resolve_left hsize.ne'
  · intro h
    exact Or.inr h

theorem block_zero (size : ℕ) (xs : List α) : block size xs 0 = xs.take size := by
  rw [block, Nat.mul_zero, List.drop_zero]

/-- The later blocks are those of the rest of the list. -/
theorem block_succ (size : ℕ) (xs : List α) (k : ℕ) :
    block size xs (k + 1) = block size (xs.drop size) k := by
  rw [block, block, List.drop_drop]
  congr 2
  ring

/-! ## All blocks -/

@[simp]
theorem length_blocks (size : ℕ) (xs : List α) :
    (blocks size xs).length = xs.length ⌈/⌉ size := by
  rw [blocks, List.length_map, List.length_range]

@[simp]
theorem blocks_nil (size : ℕ) : blocks size ([] : List α) = [] := by
  rw [blocks, List.length_nil, zero_ceilDiv, List.range_zero, List.map_nil]

/-- A block of a list that is not empty is split off before the others. -/
theorem length_ceilDiv_drop (hsize : 0 < size) (hxs : xs ≠ []) :
    xs.length ⌈/⌉ size = (xs.drop size).length ⌈/⌉ size + 1 := by
  have hpos : 0 < xs.length := List.length_pos_of_ne_nil hxs
  rw [List.length_drop, Nat.ceilDiv_eq_add_pred_div, Nat.ceilDiv_eq_add_pred_div]
  by_cases hlong : size ≤ xs.length
  · rw [← Nat.add_div_right _ hsize]
    congr 1
    omega
  · have hzero : xs.length - size = 0 := by omega
    rw [hzero, Nat.zero_add, Nat.div_eq_of_lt (a := size - 1) (by omega)]
    have hone : xs.length + size - 1 = (xs.length - 1) + size := by omega
    rw [hone, Nat.add_div_right _ hsize, Nat.div_eq_of_lt (by omega)]

/-- The blocks are the first one and those of the rest. -/
theorem blocks_of_ne_nil (hsize : 0 < size) (hxs : xs ≠ []) :
    blocks size xs = xs.take size :: blocks size (xs.drop size) := by
  rw [blocks, length_ceilDiv_drop hsize hxs, List.range_succ_eq_map, List.map_cons, block_zero,
    List.map_map, blocks]
  congr 1
  apply List.map_congr_left
  intro k _
  exact block_succ size xs k

/-- No block is empty, and none is too long. -/
theorem length_of_mem_blocks (hsize : 0 < size) {b : List α} (hb : b ∈ blocks size xs) :
    1 ≤ b.length ∧ b.length ≤ size := by
  rw [blocks, List.mem_map] at hb
  rcases hb with ⟨k, hk, rfl⟩
  refine ⟨?_, length_block_le size xs k⟩
  rw [List.mem_range, ← not_le, ceilDiv_le_iff_le_mul hsize] at hk
  apply List.length_pos_of_ne_nil
  intro hnil
  exact hk ((block_eq_nil_iff hsize xs k).mp hnil)

/-- The first blocks together are the list, once they reach its end. -/
theorem flatMap_range_block {count : ℕ} (hcount : xs.length ≤ size * count) :
    (List.range count).flatMap (block size xs) = xs := by
  induction count generalizing xs with
  | zero =>
      have hnil : xs = [] := List.length_eq_zero_iff.mp (by omega)
      rw [hnil]
      rfl
  | succ count ih =>
      have hrest : (xs.drop size).length ≤ size * count := by
        rw [List.length_drop]
        rw [Nat.mul_succ] at hcount
        omega
      rw [List.range_succ_eq_map, List.flatMap_cons, List.flatMap_map, block_zero]
      simp only [block_succ]
      rw [ih hrest, List.take_append_drop]

/-- The blocks together are the list. -/
theorem flatten_blocks (hsize : 0 < size) (xs : List α) : (blocks size xs).flatten = xs := by
  rw [blocks, ← List.flatMap_def]
  apply flatMap_range_block
  exact (ceilDiv_le_iff_le_mul hsize).mp le_rfl

end Blocks
