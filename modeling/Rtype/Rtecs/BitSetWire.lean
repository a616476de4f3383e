import Rtype.Rtecs.DynamicBitSet

/-!
# Rtecs - The wire form of a bit set

A component mask travels as the list of its indexes.  The writing direction lists them
in ascending order.  The reading direction makes room for the last index of the list and
then writes every index without a check, so it depends on the order of the list, and on
the last index being neither missing nor 0.

Main results:

- Theorem {lit}`DynamicBitSet.decodes_iff`: the lists that are decoded into the set of
  their indexes.
- Theorem {lit}`DynamicBitSet.roundTrips_iff`: the sets that come back from their own
  list.
- Theorem {lit}`DynamicBitSet.wire_form_iff`: both, with the list that is written.

Current gaps:

- The number of blocks is a natural number.
-/

namespace Rtype.Rtecs.DynamicBitSet

/-! ## Decoding a list -/

/-- The number of blocks that {lit}`deserialize` makes room for. -/
def blocksFor (back : ℕ) : ℕ :=
  if 0 < back then back / 64 + 1 else 0

theorem deserialize_eq {indexes : List ℕ} {back : ℕ} (hback : indexes.getLast? = some back) :
    deserialize indexes =
      indexes.foldlM setUnchecked { bitsets := List.replicate (blocksFor back) 0 } := by
  unfold deserialize blocksFor
  rw [hback]
  simp only [List.length_nil, Nat.zero_mul]
  split_ifs <;> rfl

/-- Writes that all succeed stay inside the blocks. -/
theorem room_of_foldlM_setUnchecked {indexes : List ℕ} {s t : DynamicBitSet}
    (h : indexes.foldlM setUnchecked s = some t) :
    ∀ i ∈ indexes, dynBlockIndex i < s.bitsets.length := by
  induction indexes generalizing s with
  | nil => simp
  | cons i indexes ih =>
      rw [List.foldlM_cons] at h
      have hroom : dynBlockIndex i < s.bitsets.length := by
        by_contra hout
        rw [setUnchecked, if_neg hout] at h
        cases h
      rcases setUnchecked_eq hroom with ⟨s', hwrite, hlength, -⟩
      rw [hwrite] at h
      have hrest := ih h
      intro k hk
      rcases List.mem_cons.mp hk with rfl | hk
      · exact hroom
      · rw [← hlength]
        exact hrest k hk

/-- The list is decoded inside the allocated blocks, into the set of its indexes. -/
def Decodes (indexes : List ℕ) : Prop :=
  ∃ t, deserialize indexes = some t ∧ ∀ i, t.get i = true ↔ i ∈ indexes

/-- The last index of the list is not 0, and no index lies in a block behind its own. -/
def LastCovers (indexes : List ℕ) : Prop :=
  ∃ back, indexes.getLast? = some back ∧ 0 < back ∧ ∀ i ∈ indexes, i / 64 ≤ back / 64

theorem get_zeros (n i : ℕ) : (DynamicBitSet.mk (List.replicate n 0)).get i = false := by
  have hincrease := get_increase {} n i
  rwa [get_empty] at hincrease

theorem decodes_iff (indexes : List ℕ) : Decodes indexes ↔ LastCovers indexes := by
  constructor
  · rintro ⟨t, ht, -⟩
    cases hback : indexes.getLast? with
    | none =>
        rw [deserialize, hback] at ht
        cases ht
    | some back =>
        rw [deserialize_eq hback] at ht
        have hroom := room_of_foldlM_setUnchecked ht
        simp only [List.length_replicate, dynBlockIndex] at hroom
        have hlast := hroom back (List.mem_of_getLast? hback)
        have hpos : 0 < back := by
          by_contra hzero
          rw [blocksFor, if_neg hzero] at hlast
          omega
        rw [blocksFor, if_pos hpos] at hroom
        exact ⟨back, hback, hpos, fun i hi => Nat.lt_succ_iff.mp (hroom i hi)⟩
  · rintro ⟨back, hback, hpos, hcover⟩
    have hroom : ∀ i ∈ indexes, dynBlockIndex i <
        (DynamicBitSet.mk (List.replicate (blocksFor back) 0)).bitsets.length := by
      intro i hi
      rw [List.length_replicate, blocksFor, if_pos hpos]
      exact Nat.lt_succ_of_le (hcover i hi)
    rcases foldlM_setUnchecked hroom with ⟨t, ht, hget⟩
    refine ⟨t, by rw [deserialize_eq hback, ht], fun i => ?_⟩
    rw [hget, get_zeros, Bool.false_or, decide_eq_true_eq]

/-! ## Encoding a set -/

/-- The indexes of a set are listed in strictly ascending order. -/
theorem serialize_sorted (s : DynamicBitSet) : s.serialize.Pairwise (· < ·) :=
  List.pairwise_lt_range.filter _

/-- The set comes back from the list of its indexes. -/
def RoundTrips (s : DynamicBitSet) : Prop :=
  ∃ t, deserialize s.serialize = some t ∧ t.beq s = true

/-- The list of a set is decoded exactly when the set has a bit besides the first one. -/
theorem lastCovers_serialize_iff (s : DynamicBitSet) :
    LastCovers s.serialize ↔ ∃ i, 0 < i ∧ s.get i = true := by
  constructor
  · rintro ⟨back, hback, hpos, -⟩
    exact ⟨back, hpos, mem_serialize.mp (List.mem_of_getLast? hback)⟩
  · rintro ⟨i, hpos, hi⟩
    cases hback : s.serialize.getLast? with
    | none =>
        rw [List.getLast?_eq_none_iff] at hback
        have hmem : i ∈ s.serialize := mem_serialize.mpr hi
        rw [hback] at hmem
        cases hmem
    | some back =>
        have hle : ∀ k ∈ s.serialize, k ≤ back := fun k hk =>
          le_getLast_serialize hback (mem_serialize.mp hk)
        have hlast := hle i (mem_serialize.mpr hi)
        exact ⟨back, hback, by omega, fun k hk => Nat.div_le_div_right (hle k hk)⟩

theorem roundTrips_iff (s : DynamicBitSet) : RoundTrips s ↔ ∃ i, 0 < i ∧ s.get i = true := by
  rw [← lastCovers_serialize_iff]
  constructor
  · rintro ⟨t, ht, hsame⟩
    rw [beq_iff] at hsame
    apply (decodes_iff s.serialize).mp
    refine ⟨t, ht, fun i => ?_⟩
    rw [hsame i, mem_serialize]
  · intro hcovers
    rcases (decodes_iff s.serialize).mpr hcovers with ⟨t, ht, hget⟩
    refine ⟨t, ht, (beq_iff t s).mpr fun i => ?_⟩
    rw [Bool.eq_iff_iff, hget i, mem_serialize]

/-! ## The wire form -/

/-- When the wire form is exact: for the lists that end with their greatest block and not
with 0, and for the sets with a bit besides the first one.  The list that is written is
right for every set. -/
theorem wire_form_iff (indexes : List ℕ) (s : DynamicBitSet) :
    (Decodes indexes ↔ LastCovers indexes) ∧
    (s.serialize.Pairwise (· < ·) ∧ ∀ i, i ∈ s.serialize ↔ s.get i = true) ∧
    (RoundTrips s ↔ ∃ i, 0 < i ∧ s.get i = true) :=
  ⟨decodes_iff indexes, ⟨serialize_sorted s, fun _ => mem_serialize⟩, roundTrips_iff s⟩

/-- The list of 64 and 1 is not decoded, and neither the empty set nor the set of the
first bit comes back. -/
theorem wire_form_inexact :
    ¬ Decodes [64, 1] ∧ ¬ RoundTrips {} ∧ ¬ RoundTrips { bitsets := [(1 : Block) <<< 63] } := by
  refine ⟨?_, ?_, ?_⟩
  · rintro ⟨t, ht, -⟩
    cases ht
  · rintro ⟨t, ht, -⟩
    cases ht
  · intro h
    rcases (roundTrips_iff _).mp h with ⟨i, hpos, hi⟩
    have hfirst := OneHot.first.eq_of_get hi
    omega

end Rtype.Rtecs.DynamicBitSet
