import Mathlib
import Rtype.Rtecs.DynamicBitSet

/-!
# Rtecs - The operators of the bit sets

All operators are loops over bits or over blocks, and the compound ones write into an
object that may be an operand at the same time.  Seen by the indexes they are the operations
on sets: the shifts move the indexes, and the others act on each index alone.

Main results:

- Theorem {lit}`DynamicBitSet.shifts_move_indexes`: the shifts, over any number of blocks.
- Theorem {lit}`DynamicBitSet.operators_are_pointwise`: the other operators, for operands of
  any two capacities and for one object as both operands.

Current gaps:

- None.
-/

namespace Rtype.Rtecs.DynamicBitSet

/-! ## Definitions -/

/-- One round of {lit}`DynamicBitSet::leftShift`.  The blocks are visited from the first one
to the last, so the block to the left is shifted before it gets the carry. -/
def leftShiftOnce : List Block → List Block
  | [] => []
  | [block] => [block <<< 1]
  | block :: next :: blocks =>
      (if next.getLsbD 63 then Block.assign (block <<< 1) 0 true else block <<< 1) ::
        leftShiftOnce (next :: blocks)

/-- {lit}`DynamicBitSet::leftShift`. -/
def leftShift (s : DynamicBitSet) : ℕ → DynamicBitSet
  | 0 => s
  | nb + 1 => leftShift { bitsets := leftShiftOnce s.bitsets } nb

/-- {lit}`DynamicBitSet::operator<<`, on a copy. -/
def shl (s : DynamicBitSet) (nb : ℕ) : DynamicBitSet :=
  let bitset := s
  bitset.leftShift nb

/-- {lit}`DynamicBitSet::operator<<=`. -/
def shlAssign (s : DynamicBitSet) (nb : ℕ) : DynamicBitSet :=
  s.leftShift nb

/-- {lit}`DynamicBitSet::operator>>`, on a copy. -/
def shr (s : DynamicBitSet) (nb : ℕ) : DynamicBitSet :=
  let bitset := s
  bitset.rightShift nb

/-- {lit}`DynamicBitSet::operator>>=`. -/
def shrAssign (s : DynamicBitSet) (nb : ℕ) : DynamicBitSet :=
  s.rightShift nb

/-- {lit}`DynamicBitSet::applyOperation` with one object as the instance, the other operand
and the result: both bits are read from the object as it is by then. -/
def applyAssignSelf (operation : Bool → Bool → Bool) (self : DynamicBitSet) : DynamicBitSet :=
  (List.range (max self.capacity self.capacity)).foldl (fun result i =>
    let bitA := if i < self.capacity then result.get i else false
    let bitB := if i < self.capacity then result.get i else false
    result.set i (operation bitA bitB)) self

/-- {lit}`DynamicBitSet::applyOperation` with the result as the other operand. -/
def applyToResult (operation : Bool → Bool → Bool) (self result : DynamicBitSet) :
    DynamicBitSet :=
  (List.range (max self.capacity result.capacity)).foldl (fun written i =>
    let bitA := if i < self.capacity then self.get i else false
    let bitB := if i < result.capacity then written.get i else false
    written.set i (operation bitA bitB)) result

/-- {lit}`DynamicBitSet::operator&`. -/
def and (s other : DynamicBitSet) : DynamicBitSet :=
  applyOperation (fun a b => a && b) s s other

/-- {lit}`DynamicBitSet::operator^`. -/
def xor (s other : DynamicBitSet) : DynamicBitSet :=
  applyOperation (fun a b => a ^^ b) s s other

/-- {lit}`DynamicBitSet::operator~`. -/
def complement (s : DynamicBitSet) : DynamicBitSet :=
  let result := s
  applyToResult (fun a _ => !a) s result

/-- {lit}`DynamicBitSet::operator&=`, with another object. -/
def andAssign (s other : DynamicBitSet) : DynamicBitSet :=
  applyAssign (fun a b => a && b) s other

/-- {lit}`DynamicBitSet::operator^=`, with another object. -/
def xorAssign (s other : DynamicBitSet) : DynamicBitSet :=
  applyAssign (fun a b => a ^^ b) s other

/-- {lit}`a &= a`. -/
def andAssignSelf (s : DynamicBitSet) : DynamicBitSet :=
  applyAssignSelf (fun a b => a && b) s

/-- {lit}`a |= a`. -/
def orAssignSelf (s : DynamicBitSet) : DynamicBitSet :=
  applyAssignSelf (fun a b => a || b) s

/-- {lit}`a ^= a`. -/
def xorAssignSelf (s : DynamicBitSet) : DynamicBitSet :=
  applyAssignSelf (fun a b => a ^^ b) s

/-! ## Left shifts -/

@[simp]
theorem length_leftShiftOnce (blocks : List Block) :
    (leftShiftOnce blocks).length = blocks.length := by
  fun_induction leftShiftOnce blocks with
  | case1 => rfl
  | case2 block => rfl
  | case3 block next blocks ih =>
      rw [List.length_cons, ih]
      rfl

/-- Each bit of a block comes from the bit below it, and the bottom bit from the block to
the right. -/
theorem getLsbD_leftShiftOnce {blocks : List Block} {b k : ℕ} (hk : k < 64) :
    ((leftShiftOnce blocks).getD b 0).getLsbD k =
      if k = 0 then (blocks.getD (b + 1) 0).getLsbD 63
      else (blocks.getD b 0).getLsbD (k - 1) := by
  fun_induction leftShiftOnce blocks generalizing b with
  | case1 => simp
  | case2 block =>
      cases b with
      | zero =>
          rw [List.getD_cons_zero, List.getD_cons_zero, BitVec.getLsbD_shiftLeft]
          by_cases hzero : k = 0
          · simp [hzero]
          · have hpos : ¬ k < 1 := by omega
            simp [hzero, hk, hpos]
      | succ b => simp
  | case3 block next blocks ih =>
      cases b with
      | zero =>
          have hshift : (block <<< 1).getLsbD k = (decide (k ≠ 0) && block.getLsbD (k - 1)) := by
            rw [BitVec.getLsbD_shiftLeft]
            by_cases hzero : k = 0
            · simp [hzero]
            · have hpos : ¬ k < 1 := by omega
              simp [hzero, hk, hpos]
          rw [List.getD_cons_zero, List.getD_cons_succ, List.getD_cons_zero,
            List.getD_cons_zero]
          cases hcarry : next.getLsbD 63 with
          | false =>
              rw [if_neg Bool.false_ne_true, hshift]
              by_cases hzero : k = 0
              · simp [hzero]
              · simp [hzero]
          | true =>
              rw [if_pos rfl, Block.getLsbD_assign _ _ (by omega), hshift]
              by_cases hzero : k = 0
              · simp [hzero]
              · simp [hzero]
      | succ b =>
          rw [List.getD_cons_succ, ih]
          simp only [List.getD_cons_succ]

/-- One round moves every bit to the index before; the first bit is lost. -/
theorem get_leftShiftOnce (s : DynamicBitSet) (i : ℕ) :
    (DynamicBitSet.mk (leftShiftOnce s.bitsets)).get i = s.get (i + 1) := by
  rw [get_eq, get_eq, getLsbD_leftShiftOnce (dynBitIndex_lt i)]
  by_cases hlast : dynBitIndex i = 0
  · -- the last index of a block gets the first bit of the block behind it
    have hblock : dynBlockIndex (i + 1) = dynBlockIndex i + 1 := by
      unfold dynBlockIndex dynBitIndex at *
      omega
    have hbit : dynBitIndex (i + 1) = 63 := by
      unfold dynBitIndex at *
      omega
    rw [if_pos hlast, hblock, hbit]
  · have hblock : dynBlockIndex (i + 1) = dynBlockIndex i := by
      unfold dynBlockIndex dynBitIndex at *
      omega
    have hbit : dynBitIndex (i + 1) = dynBitIndex i - 1 := by
      unfold dynBitIndex at *
      omega
    rw [if_neg hlast, hblock, hbit]

@[simp]
theorem capacity_leftShift (s : DynamicBitSet) (nb : ℕ) :
    (s.leftShift nb).capacity = s.capacity := by
  induction nb generalizing s with
  | zero => rfl
  | succ nb ih =>
      rw [leftShift, ih]
      simp [capacity]

/-- A left shift moves every bit down. -/
theorem get_leftShift (s : DynamicBitSet) (nb i : ℕ) : (s.leftShift nb).get i = s.get (i + nb) := by
  induction nb generalizing s with
  | zero => rfl
  | succ nb ih => rw [leftShift, ih, get_leftShiftOnce, Nat.add_assoc]

/-- The shifts move the indexes, inside of the capacity, which they keep; in place they do
the same. -/
theorem shifts_move_indexes (s : DynamicBitSet) (n : ℕ) :
    (s.shl n).capacity = s.capacity ∧ (s.shr n).capacity = s.capacity ∧
      (∀ i, (s.shl n).get i = if i + n < s.capacity then s.get (i + n) else false) ∧
      (∀ i, (s.shr n).get i = if n ≤ i ∧ i < s.capacity then s.get (i - n) else false) ∧
      s.shlAssign n = s.shl n ∧ s.shrAssign n = s.shr n := by
  refine ⟨capacity_leftShift s n, capacity_rightShift s n, ?_, ?_, rfl, rfl⟩
  · intro i
    rw [ite_lt_capacity]
    exact get_leftShift s n i
  · intro i
    refine (get_rightShift s n i).trans ?_
    by_cases hmoved : n ≤ i ∧ i < s.capacity
    · rw [if_pos hmoved, decide_eq_true hmoved, Bool.true_and]
    · rw [if_neg hmoved, decide_eq_false hmoved, Bool.false_and]

/-! ## Capacities -/

/-- Sets of one capacity with the same bits are the same. -/
theorem ext_get {s t : DynamicBitSet} (hcapacity : s.capacity = t.capacity)
    (hget : ∀ i, s.get i = t.get i) : s = t := by
  have hlength : s.bitsets.length = t.bitsets.length := by
    unfold capacity at hcapacity
    omega
  have hblocks : s.bitsets = t.bitsets := by
    apply List.ext_getElem hlength
    intro b hs ht
    apply BitVec.eq_of_getLsbD_eq
    intro k hk
    have hbit := hget (64 * b + (63 - k))
    have hdiv : dynBlockIndex (64 * b + (63 - k)) = b := by
      unfold dynBlockIndex
      omega
    have hmod : dynBitIndex (64 * b + (63 - k)) = k := by
      unfold dynBitIndex
      omega
    rw [get_eq, get_eq, hdiv, hmod, List.getD_eq_getElem _ _ hs,
      List.getD_eq_getElem _ _ ht] at hbit
    exact hbit
  cases s
  cases t
  cases hblocks
  rfl

/-- A write grows the set when the index lies outside. -/
theorem capacity_set (s : DynamicBitSet) (i : ℕ) (value : Bool) :
    (s.set i value).capacity = if i < s.capacity then s.capacity else (i / 64 + 1) * 64 := by
  unfold set
  by_cases h : i < s.capacity
  · simp only [if_neg (Nat.not_le_of_lt h), if_pos h]
    rw [capacity, List.length_modify, capacity]
  · have hge : i ≥ s.capacity := Nat.le_of_not_lt h
    simp only [if_pos hge, if_neg h]
    rw [capacity, List.length_modify, List.length_append, List.length_replicate]
    unfold capacity at hge
    omega

/-- Writing all indexes up to the greater of two capacities grows a set to it. -/
theorem capacity_foldl_set (value : ℕ → DynamicBitSet → Bool) (s : DynamicBitSet) (limit : ℕ) :
    ((List.range limit).foldl (fun result i => result.set i (value i result)) s).capacity =
      max s.capacity ((limit + 63) / 64 * 64) := by
  induction limit with
  | zero => simp
  | succ limit ih =>
      rw [List.range_succ, List.foldl_append, List.foldl_cons, List.foldl_nil, capacity_set, ih]
      unfold capacity
      split_ifs <;> omega

theorem capacity_foldl_max {s : DynamicBitSet} (value : ℕ → DynamicBitSet → Bool)
    (other : DynamicBitSet) :
    ((List.range (max s.capacity other.capacity)).foldl
      (fun result i => result.set i (value i result)) s).capacity =
      max s.capacity other.capacity := by
  rw [capacity_foldl_set]
  unfold capacity
  omega

/-! ## Pointwise operators -/

section

variable {operation : Bool → Bool → Bool}

/-- In place the result is the same as in an object of its own. -/
theorem applyAssign_eq (hclear : operation false false = false) (s other : DynamicBitSet) :
    applyAssign operation s other = applyOperation operation s s other := by
  apply ext_get
  · exact (capacity_foldl_max _ other).trans (capacity_foldl_max _ other).symm
  · intro i
    rw [get_applyAssign hclear, get_applyOperation hclear]

/-- The same when the object is the other operand as well: each of its bits is read before
it is written. -/
theorem applyAssignSelf_eq (hclear : operation false false = false) (s : DynamicBitSet) :
    applyAssignSelf operation s = applyOperation operation s s s := by
  apply ext_get
  · exact (capacity_foldl_max _ s).trans (capacity_foldl_max _ s).symm
  · intro i
    rw [get_applyOperation hclear, applyAssignSelf]
    rw [get_foldl_set fun i bit =>
      operation (if i < s.capacity then bit else false) (if i < s.capacity then bit else false)]
    rw [ite_lt_capacity]
    split_ifs with h
    · rfl
    · rw [get_of_ge (by omega), hclear]

end

/-- The complement flips the bits inside of the capacity. -/
theorem get_complement (s : DynamicBitSet) (i : ℕ) :
    s.complement.get i = if i < s.capacity then !s.get i else false := by
  unfold complement applyToResult
  simp only [ite_lt_capacity, max_self]
  rw [get_foldl_set fun i _ => !s.get i]
  split_ifs with h
  · rfl
  · exact get_of_ge (Nat.le_of_not_lt h)

/-- The operators, for operands of any two capacities. -/
theorem operators_are_pointwise (a b : DynamicBitSet) :
    (∀ i, (a.and b).get i = (a.get i && b.get i) ∧ (a.or b).get i = (a.get i || b.get i) ∧
      (a.xor b).get i = (a.get i ^^ b.get i)) ∧
      (a.andAssign b = a.and b ∧ a.orAssign b = a.or b ∧ a.xorAssign b = a.xor b) ∧
      (a.andAssignSelf = a.and a ∧ a.orAssignSelf = a.or a ∧ a.xorAssignSelf = a.xor a) ∧
      (∀ i, a.complement.get i = if i < a.capacity then !a.get i else false) ∧
      (a.beq b = true ↔ ∀ i, a.get i = b.get i) ∧
      (a.none = true ↔ ∀ i, a.get i = false) ∧
      ∀ i value,
        (∀ j, (a.set i value).get j = if j = i then value else a.get j) ∧
          (a.set i value).capacity =
            if i < a.capacity then a.capacity else (i / 64 + 1) * 64 := by
  refine ⟨?_, ?_, ?_, get_complement a, beq_iff a b, none_iff a, ?_⟩
  · intro i
    exact ⟨get_applyOperation rfl a b i, get_applyOperation rfl a b i,
      get_applyOperation rfl a b i⟩
  · exact ⟨applyAssign_eq rfl a b, applyAssign_eq rfl a b, applyAssign_eq rfl a b⟩
  · exact ⟨applyAssignSelf_eq rfl a, applyAssignSelf_eq rfl a, applyAssignSelf_eq rfl a⟩
  · intro i value
    exact ⟨get_set a i value, capacity_set a i value⟩

end Rtype.Rtecs.DynamicBitSet
