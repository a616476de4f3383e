import Mathlib.Data.Set.Insert
import Mathlib.Order.Bounds.Basic

/-!
# Foundations - Sliding windows

A receiver that wants to say which numbers it has seen without listing them
keeps the greatest one, the head, and one bit for each of the numbers just
below it.  This file states what such a window knows about the set of numbers
seen, and which new bits keep it exact when a number arrives.

Main results:

- Structure {lit}`Represents`: the head is the greatest member and each bit of
  the window tells whether its number is a member.
- Theorems {lit}`Represents.advance` and {lit}`Represents.record`: the new bits
  for a number beyond the head, and for one behind it.

Current gaps:

- None.
-/

namespace SlidingWindow

/-- `head` and the predicate `bit` describe the set `seen` exactly: bit `i` stands
for the number `i + 1` below the head. -/
structure Represents (width : ℕ) (seen : Set ℕ) (head : ℕ) (bit : ℕ → Prop) : Prop where
  greatest : IsGreatest seen head
  bit_iff : ∀ i < width, bit i ↔ ∃ n ∈ seen, n + (i + 1) = head

variable {width head x : ℕ} {seen : Set ℕ} {bit bit' : ℕ → Prop}

/-- A window without bits describes a single number. -/
theorem represents_singleton (hbit : ∀ i < width, ¬ bit i) :
    Represents width {x} x bit := by
  refine ⟨isGreatest_singleton, fun i hi => ⟨fun h => absurd h (hbit i hi), ?_⟩⟩
  rintro ⟨n, hn, hsum⟩
  rw [Set.mem_singleton_iff] at hn
  omega

namespace Represents

/-- The head moves up: the old bits move by the same amount, and the old head
gets a bit of its own when it stays inside the window. -/
theorem advance (h : Represents width seen head bit) (hx : head < x)
    (hbit : ∀ i < width, bit' i ↔ i + 1 = x - head ∨ x - head ≤ i ∧ bit (i - (x - head))) :
    Represents width (insert x seen) x bit' := by
  have hle : ∀ n ∈ seen, n ≤ head := fun n hn => h.greatest.2 hn
  refine ⟨⟨Set.mem_insert x seen, ?_⟩, fun i hi => ?_⟩
  · rintro n (rfl | hn)
    · exact le_rfl
    · exact (hle n hn).trans hx.le
  · rw [hbit i hi]
    constructor
    · rintro (hi' | ⟨hshift, hold⟩)
      · exact ⟨head, Set.mem_insert_of_mem x h.greatest.1, by omega⟩
      · obtain ⟨n, hn, hsum⟩ := (h.bit_iff _ (by omega)).mp hold
        exact ⟨n, Set.mem_insert_of_mem x hn, by omega⟩
    · rintro ⟨n, rfl | hn, hsum⟩
      · omega
      · have hnle := hle n hn
        rcases Nat.eq_or_lt_of_le hnle with hn' | hn'
        · exact Or.inl (by omega)
        · exact Or.inr ⟨by omega, (h.bit_iff _ (by omega)).mpr ⟨n, hn, by omega⟩⟩

/-- A number behind the head sets its bit, when it has one. -/
theorem record (h : Represents width seen head bit) (hx : x < head)
    (hbit : ∀ i < width, bit' i ↔ bit i ∨ x + (i + 1) = head) :
    Represents width (insert x seen) head bit' := by
  refine ⟨⟨Set.mem_insert_of_mem x h.greatest.1, ?_⟩, fun i hi => ?_⟩
  · rintro n (rfl | hn)
    · exact hx.le
    · exact h.greatest.2 hn
  · rw [hbit i hi, h.bit_iff i hi]
    constructor
    · rintro (⟨n, hn, hsum⟩ | hsum)
      · exact ⟨n, Set.mem_insert_of_mem x hn, hsum⟩
      · exact ⟨x, Set.mem_insert x seen, hsum⟩
    · rintro ⟨n, rfl | hn, hsum⟩
      · exact Or.inr hsum
      · exact Or.inl ⟨n, hn, hsum⟩

/-- The head itself brings nothing new. -/
theorem again (h : Represents width seen head bit) :
    Represents width (insert head seen) head bit := by
  rwa [Set.insert_eq_of_mem h.greatest.1]

end Represents

end SlidingWindow
