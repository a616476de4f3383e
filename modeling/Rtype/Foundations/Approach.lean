import Mathlib

/-!
# Foundations - Approaching a target

A value goes a part of the way to its target in each step, and jumps to it when it is close.
The distance shrinks by the part that is left of the way, so the value never goes past its
target, and arrives after finitely many steps when the parts neither vanish nor double the way.

Main results:

- Function {lit}`approach`: one step.
- Theorem {lit}`approach_mem_uIcc`: a step does not go past the target.
- Theorem {lit}`exists_arrives`: enough steps arrive.
- Theorem {lit}`le_abs_sub_foldl_approach`: steps that are too large never do.

Current gaps:

- None.
-/

namespace Approach

/-- What is left of the way before the jump. -/
theorem sub_part {α : Type*} [CommRing α] (t x k : α) :
    t - (x + (t - x) * k) = (t - x) * (1 - k) := by
  ring

variable {α : Type*} [Field α] [LinearOrder α]

/-- One step: a part {lit}`k` of the way to {lit}`t`, and the rest of it when less than
{lit}`ε` is left. -/
def approach (ε t x k : α) : α :=
  if |t - (x + (t - x) * k)| < ε then t else x + (t - x) * k

theorem approach_of_close {ε t x k : α} (h : |t - (x + (t - x) * k)| < ε) :
    approach ε t x k = t :=
  if_pos h

variable [IsStrictOrderedRing α] {ε t x k : α} {ks : List α}

/-- A value that has arrived stays. -/
theorem approach_self (hε : 0 < ε) : approach ε t t k = t := by
  apply approach_of_close
  rw [sub_self, zero_mul, add_zero, sub_self, abs_zero]
  exact hε

theorem foldl_approach_self (hε : 0 < ε) : ks.foldl (approach ε t) t = t := by
  induction ks with
  | nil => rfl
  | cons k ks ih => rwa [List.foldl_cons, approach_self hε]

/-- A step leaves at most the rest of the way. -/
theorem abs_sub_approach_le : |t - approach ε t x k| ≤ |t - x| * |1 - k| := by
  unfold approach
  split_ifs
  · rw [sub_self, abs_zero]
    exact mul_nonneg (abs_nonneg _) (abs_nonneg _)
  · rw [sub_part, abs_mul]

/-- A step does not go past the target. -/
theorem approach_mem_uIcc (hk : 0 ≤ k ∧ k ≤ 1) : approach ε t x k ∈ Set.uIcc x t := by
  unfold approach
  split_ifs
  · exact Set.right_mem_uIcc
  · rcases le_total x t with hle | hle
    · rw [Set.uIcc_of_le hle]
      have hway : (t - x) * k ≤ (t - x) * 1 :=
        mul_le_mul_of_nonneg_left hk.2 (sub_nonneg.mpr hle)
      have hforward : 0 ≤ (t - x) * k := mul_nonneg (sub_nonneg.mpr hle) hk.1
      constructor <;> linarith
    · rw [Set.uIcc_of_ge hle]
      have hway : (x - t) * k ≤ (x - t) * 1 :=
        mul_le_mul_of_nonneg_left hk.2 (sub_nonneg.mpr hle)
      have hback : 0 ≤ (x - t) * k := mul_nonneg (sub_nonneg.mpr hle) hk.1
      constructor <;> linarith

/-- The distance after several steps, none of which leaves more than the part {lit}`q`. -/
theorem abs_sub_foldl_approach_le {q : α} (hks : ∀ k ∈ ks, |1 - k| ≤ q) :
    |t - ks.foldl (approach ε t) x| ≤ |t - x| * q ^ ks.length := by
  induction ks generalizing x with
  | nil => rw [List.foldl_nil, List.length_nil, pow_zero, mul_one]
  | cons k ks ih =>
      rw [List.forall_mem_cons] at hks
      have hpow : 0 ≤ q ^ ks.length := pow_nonneg ((abs_nonneg _).trans hks.1) _
      calc |t - (k :: ks).foldl (approach ε t) x|
          ≤ |t - approach ε t x k| * q ^ ks.length := ih hks.2
        _ ≤ |t - x| * |1 - k| * q ^ ks.length :=
            mul_le_mul_of_nonneg_right abs_sub_approach_le hpow
        _ ≤ |t - x| * q * q ^ ks.length :=
            mul_le_mul_of_nonneg_right (mul_le_mul_of_nonneg_left hks.1 (abs_nonneg _)) hpow
        _ = |t - x| * q ^ (k :: ks).length := by
            rw [List.length_cons, pow_succ', mul_assoc]

/-- A value that is close before a step is at the target after it. -/
theorem approach_of_near (hnear : |t - x| < ε) (hk : |1 - k| ≤ 1) : approach ε t x k = t := by
  apply approach_of_close
  rw [sub_part, abs_mul]
  calc |t - x| * |1 - k| ≤ |t - x| * 1 := mul_le_mul_of_nonneg_left hk (abs_nonneg _)
    _ = |t - x| := mul_one _
    _ < ε := hnear

/-- Enough steps arrive. -/
theorem exists_arrives [Archimedean α] (hε : 0 < ε) {q : α} (hq : q < 1) (t x : α) :
    ∃ n, ∀ ks : List α, n ≤ ks.length → (∀ k ∈ ks, |1 - k| ≤ q) →
      ks.foldl (approach ε t) x = t := by
  have hpositive : 0 < |t - x| + 1 := by linarith [abs_nonneg (t - x)]
  rcases exists_pow_lt_of_lt_one (div_pos hε hpositive) hq with ⟨n, hn⟩
  refine ⟨n + 1, fun ks hlength hks => ?_⟩
  -- after the first {lit}`n` steps the value is close, so the next one arrives
  rw [← List.take_append_drop n ks, List.foldl_append]
  cases hdrop : ks.drop n with
  | nil =>
      have hshort := List.drop_eq_nil_iff.mp hdrop
      omega
  | cons k rest =>
      have hk := hks k (List.mem_of_mem_drop (hdrop ▸ List.mem_cons_self))
      have hpow : 0 ≤ q ^ n := pow_nonneg ((abs_nonneg _).trans hk) n
      have hlength' : (ks.take n).length = n := List.length_take_of_le (by omega)
      have hnear : |t - (ks.take n).foldl (approach ε t) x| < ε := by
        calc |t - (ks.take n).foldl (approach ε t) x|
            ≤ |t - x| * q ^ (ks.take n).length :=
              abs_sub_foldl_approach_le fun k hk => hks k (List.mem_of_mem_take hk)
          _ = |t - x| * q ^ n := by rw [hlength']
          _ ≤ (|t - x| + 1) * q ^ n := mul_le_mul_of_nonneg_right (by linarith) hpow
          _ < (|t - x| + 1) * (ε / (|t - x| + 1)) := mul_lt_mul_of_pos_left hn hpositive
          _ = ε := mul_div_cancel₀ ε hpositive.ne'
      rw [List.foldl_cons, approach_of_near hnear (hk.trans hq.le)]
      exact foldl_approach_self hε

/-- Steps that go twice the way or more never come closer to the target. -/
theorem le_abs_sub_foldl_approach (hfar : ε ≤ |t - x|) (hks : ∀ k ∈ ks, 2 ≤ k) :
    |t - x| ≤ |t - ks.foldl (approach ε t) x| := by
  induction ks generalizing x with
  | nil => exact le_rfl
  | cons k ks ih =>
      rw [List.forall_mem_cons] at hks
      have hpart : 1 ≤ |1 - k| := by
        rw [abs_sub_comm, abs_of_nonneg (by linarith [hks.1])]
        linarith [hks.1]
      have hstep : |t - x| ≤ |t - (x + (t - x) * k)| := by
        rw [sub_part, abs_mul]
        exact le_mul_of_one_le_right (abs_nonneg _) hpart
      have hnext : approach ε t x k = x + (t - x) * k := if_neg (hfar.trans hstep).not_gt
      rw [List.foldl_cons, hnext]
      exact hstep.trans (ih (hfar.trans hstep) hks.2)

end Approach
