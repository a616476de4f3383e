import Mathlib

/-!
# Rtecs - Dynamic bit sets

The component masks of the ECS are bit sets that grow in blocks of 64 bits.  Index
0 is the most significant bit of the first block, so a shift to the right moves
every bit to the next index and carries from one block to the next.

Main results:

- Theorem {lit}`get_set`: a write changes its own index only.
- Theorems {lit}`get_or` and {lit}`get_orAssign`: the unions are pointwise.
- Theorem {lit}`get_rightShift`: a right shift moves each bit, inside the capacity.
- Theorem {lit}`beq_iff`: the comparison decides equality at every index.
- Theorem {lit}`deserialize_serialize`: a set is rebuilt from the list of its indexes,
  unless its first bit is set or none is.

Current gaps:

- The number of blocks is a natural number.
-/

namespace Rtype.Rtecs

/-- {lit}`DYN_BLOCK_INDEX`, with {lit}`BITSET_CAPACITY` at 64. -/
def dynBlockIndex (i : ℕ) : ℕ :=
  i / 64

/-- {lit}`DYN_BIT_INDEX`. -/
def dynBitIndex (i : ℕ) : ℕ :=
  64 - 1 - i % 64

/-- One {lit}`std::bitset<64>`. -/
abbrev Block :=
  BitVec 64

/-- {lit}`block[index] = value`. -/
def Block.assign (block : Block) (index : ℕ) (value : Bool) : Block :=
  if value then
    block ||| BitVec.twoPow 64 index
  else
    block &&& ~~~BitVec.twoPow 64 index

theorem Block.getLsbD_assign (block : Block) {index : ℕ} (value : Bool)
    (h : index < 64) (j : ℕ) :
    (block.assign index value).getLsbD j = if j = index then value else block.getLsbD j := by
  unfold Block.assign
  by_cases hj : j = index
  · subst hj
    cases value <;> simp [h]
  · have hne : index ≠ j := Ne.symm hj
    cases value
    · by_cases hlt : j < 64
      · simp [hj, hlt]
      · simp [hj, BitVec.getLsbD_of_ge _ _ (Nat.le_of_not_lt hlt)]
    · simp [BitVec.getLsbD_twoPow, hj, hne]

theorem dynBitIndex_lt (i : ℕ) : dynBitIndex i < 64 := by
  unfold dynBitIndex
  omega

/-- An index is known from its block and its bit in the block. -/
theorem eq_of_dynIndex {i j : ℕ} (hblock : dynBlockIndex i = dynBlockIndex j)
    (hbit : dynBitIndex i = dynBitIndex j) : i = j := by
  unfold dynBlockIndex dynBitIndex at *
  omega

/-- {lit}`DynamicBitSet`. -/
structure DynamicBitSet where
  bitsets : List Block := []
  deriving DecidableEq

namespace DynamicBitSet

/-- {lit}`DynamicBitSet::capacity`. -/
def capacity (s : DynamicBitSet) : ℕ :=
  s.bitsets.length * 64

/-- {lit}`DynamicBitSet::operator[]`, the reading one. -/
def get (s : DynamicBitSet) (i : ℕ) : Bool :=
  if i ≥ s.capacity then
    false
  else
    (s.bitsets.getD (dynBlockIndex i) 0).getLsbD (dynBitIndex i)

/-- {lit}`DynamicBitSet::operator[]`, the writing one, with the assignment to the
reference it returns. -/
def set (s : DynamicBitSet) (i : ℕ) (value : Bool) : DynamicBitSet :=
  let bitsets :=
    if i ≥ s.capacity then
      s.bitsets ++ List.replicate (i / 64 + 1 - s.bitsets.length) 0
    else
      s.bitsets
  { bitsets := bitsets.modify (dynBlockIndex i) fun block =>
      block.assign (dynBitIndex i) value }

/-- {lit}`DynamicBitSet::increase`. -/
def increase (s : DynamicBitSet) (size : ℕ) : DynamicBitSet :=
  { bitsets := s.bitsets ++ List.replicate size 0 }

/-- {lit}`DynamicBitSet::none`. -/
def none (s : DynamicBitSet) : Bool :=
  s.bitsets.all fun bitset => bitset == 0

/-- {lit}`DynamicBitSet::applyOperation`, with the result in an object of its own. -/
def applyOperation (operation : Bool → Bool → Bool) (self result other : DynamicBitSet) :
    DynamicBitSet :=
  (List.range (max self.capacity other.capacity)).foldl (fun result i =>
    let bitA := if i < self.capacity then self.get i else false
    let bitB := if i < other.capacity then other.get i else false
    result.set i (operation bitA bitB)) result

/-- {lit}`DynamicBitSet::applyOperation` with the instance itself as the result: each
bit is read from the instance as it is by then, and the capacity from before. -/
def applyAssign (operation : Bool → Bool → Bool) (self other : DynamicBitSet) :
    DynamicBitSet :=
  (List.range (max self.capacity other.capacity)).foldl (fun result i =>
    let bitA := if i < self.capacity then result.get i else false
    let bitB := if i < other.capacity then other.get i else false
    result.set i (operation bitA bitB)) self

/-- {lit}`DynamicBitSet::operator|`. -/
def or (s other : DynamicBitSet) : DynamicBitSet :=
  applyOperation (fun a b => a || b) s s other

/-- {lit}`DynamicBitSet::operator|=`. -/
def orAssign (s other : DynamicBitSet) : DynamicBitSet :=
  applyAssign (fun a b => a || b) s other

/-- The carry of the block to the left: {lit}`(*(it - 1))[63] = true`. -/
def carryInto (carry : Bool) : List Block → List Block
  | [] => []
  | block :: blocks => (if carry then block.assign 63 true else block) :: blocks

/-- One round of {lit}`DynamicBitSet::rightShift`.  The blocks are visited from the
last one to the first, so the block to the right is shifted before it gets the
carry. -/
def rightShiftOnce : List Block → List Block
  | [] => []
  | block :: blocks => (block >>> 1) :: carryInto (block.getLsbD 0) (rightShiftOnce blocks)

/-- {lit}`DynamicBitSet::rightShift`, and with it {lit}`operator>>` and
{lit}`operator>>=`. -/
def rightShift (s : DynamicBitSet) : ℕ → DynamicBitSet
  | 0 => s
  | nb + 1 => rightShift { bitsets := rightShiftOnce s.bitsets } nb

/-- {lit}`DynamicBitSet::operator==`, which compares the blocks bit by bit. -/
def beq (s other : DynamicBitSet) : Bool :=
  (List.range (max s.capacity other.capacity)).all fun i =>
    let bitA := if i < s.capacity then (s.bitsets.getD (i / 64) 0).getLsbD (i % 64) else false
    let bitB :=
      if i < other.capacity then (other.bitsets.getD (i / 64) 0).getLsbD (i % 64) else false
    bitA == bitB

/-- {lit}`DynamicBitSet::serialize`: the indexes of the set bits, in ascending order. -/
def serialize (s : DynamicBitSet) : List ℕ :=
  (List.range (s.bitsets.length * 64)).filter fun i => s.get i

/-- A write to {lit}`_bitsets[block][bit]` that is not checked: outside of the vector it
is undefined behaviour. -/
def setUnchecked (s : DynamicBitSet) (i : ℕ) : Option DynamicBitSet :=
  if dynBlockIndex i < s.bitsets.length then
    some { bitsets := s.bitsets.modify (dynBlockIndex i) fun block =>
      block.assign (dynBitIndex i) true }
  else
    Option.none

/-- {lit}`DynamicBitSet::deserialize`.  The last index alone decides how many blocks
there are, and the last element of an empty vector is undefined behaviour. -/
def deserialize (indexes : List ℕ) : Option DynamicBitSet :=
  match indexes.getLast? with
  | Option.none => Option.none
  | some back =>
      let set : DynamicBitSet := {}
      let set :=
        if set.bitsets.length * 64 < back then
          { bitsets := List.replicate (back / 64 + 1) 0 }
        else
          set
      indexes.foldlM setUnchecked set

/-! ## Reading and writing -/

/-- The check of the capacity is covered by the blocks themselves. -/
theorem get_eq (s : DynamicBitSet) (i : ℕ) :
    s.get i = (s.bitsets.getD (dynBlockIndex i) 0).getLsbD (dynBitIndex i) := by
  unfold get
  split_ifs with h
  · have hlen : s.bitsets.length ≤ dynBlockIndex i := by
      unfold capacity dynBlockIndex at *
      omega
    rw [List.getD_eq_default _ _ hlen]
    simp
  · rfl

theorem get_of_ge {s : DynamicBitSet} {i : ℕ} (h : s.capacity ≤ i) : s.get i = false := by
  rw [get, if_pos h]

@[simp]
theorem get_empty (i : ℕ) : ({} : DynamicBitSet).get i = false :=
  get_of_ge (Nat.zero_le i)

/-- A bit that is set lies inside the capacity. -/
theorem lt_capacity {s : DynamicBitSet} {i : ℕ} (h : s.get i = true) : i < s.capacity := by
  by_contra hlt
  rw [get_of_ge (Nat.le_of_not_lt hlt)] at h
  cases h

/-- Blocks of zeros at the end change no bit. -/
theorem getD_append_zeros (blocks : List Block) (n b : ℕ) :
    (blocks ++ List.replicate n 0).getD b 0 = blocks.getD b 0 := by
  rw [List.getD_eq_getElem?_getD, List.getD_eq_getElem?_getD, List.getElem?_append]
  split_ifs with h
  · rfl
  · rw [List.getElem?_eq_none (Nat.le_of_not_lt h), List.getElem?_replicate]
    split_ifs <;> rfl

@[simp]
theorem get_increase (s : DynamicBitSet) (size i : ℕ) : (s.increase size).get i = s.get i := by
  rw [get_eq, get_eq, increase, getD_append_zeros]

@[simp]
theorem capacity_increase (s : DynamicBitSet) (size : ℕ) :
    (s.increase size).capacity = s.capacity + size * 64 := by
  simp [increase, capacity, Nat.add_mul]

/-- A write to a block that is there changes its own index only. -/
theorem get_modify {blocks : List Block} {i : ℕ} (hroom : dynBlockIndex i < blocks.length)
    (value : Bool) (j : ℕ) :
    (DynamicBitSet.mk (blocks.modify (dynBlockIndex i)
        (·.assign (dynBitIndex i) value))).get j =
      if j = i then value else (DynamicBitSet.mk blocks).get j := by
  rw [get_eq, get_eq, List.getD_eq_getElem?_getD, List.getD_eq_getElem?_getD,
    List.getElem?_modify]
  by_cases hblock : dynBlockIndex i = dynBlockIndex j
  · rw [← hblock, List.getElem?_eq_getElem hroom]
    simp only [if_true, Option.map_eq_map, Option.map_some, Option.getD_some]
    rw [Block.getLsbD_assign _ _ (dynBitIndex_lt i)]
    by_cases hj : j = i
    · simp [hj]
    · have hbit : dynBitIndex j ≠ dynBitIndex i := fun h => hj (eq_of_dynIndex hblock.symm h)
      rw [if_neg hbit, if_neg hj]
  · have hj : j ≠ i := by
      rintro rfl
      exact hblock rfl
    simp [hblock, hj]

/-- A write changes its own index only. -/
theorem get_set (s : DynamicBitSet) (i : ℕ) (value : Bool) (j : ℕ) :
    (s.set i value).get j = if j = i then value else s.get j := by
  unfold set
  by_cases h : i ≥ s.capacity
  · simp only [if_pos h]
    rw [get_modify, get_eq, get_eq, getD_append_zeros]
    rw [List.length_append, List.length_replicate]
    unfold dynBlockIndex
    omega
  · simp only [if_neg h]
    refine get_modify ?_ value j
    unfold capacity at h
    unfold dynBlockIndex
    omega

/-! ## Operators -/

/-- Writing the indices of a range one after another, when the value written at an
index depends on the bit read there. -/
theorem get_foldl_set (value : ℕ → Bool → Bool) (s : DynamicBitSet) (limit j : ℕ) :
    ((List.range limit).foldl (fun result i => result.set i (value i (result.get i))) s).get j =
      if j < limit then value j (s.get j) else s.get j := by
  induction limit with
  | zero => simp
  | succ limit ih =>
      rw [List.range_succ, List.foldl_append, List.foldl_cons, List.foldl_nil, get_set]
      by_cases hj : j = limit
      · subst hj
        simp [ih]
      · have hlt : j < limit + 1 ↔ j < limit := by omega
        rw [if_neg hj, ih]
        simp only [hlt]

/-- A bit outside the capacity of both operands is clear in both. -/
theorem get_of_max_le {s other : DynamicBitSet} {i : ℕ}
    (h : ¬ i < max s.capacity other.capacity) : s.get i = false ∧ other.get i = false :=
  ⟨get_of_ge (by omega), get_of_ge (by omega)⟩

/-- Reading behind the check of a capacity is reading. -/
theorem ite_lt_capacity (s : DynamicBitSet) (i : ℕ) :
    (if i < s.capacity then s.get i else false) = s.get i := by
  split_ifs with h
  · rfl
  · exact (get_of_ge (Nat.le_of_not_lt h)).symm

/-- The operations that keep two clear bits clear are pointwise. -/
theorem get_applyOperation {operation : Bool → Bool → Bool} (hclear : operation false false = false)
    (s other : DynamicBitSet) (i : ℕ) :
    (applyOperation operation s s other).get i = operation (s.get i) (other.get i) := by
  unfold applyOperation
  simp only [ite_lt_capacity]
  rw [get_foldl_set fun i _ => operation (s.get i) (other.get i)]
  split_ifs with h
  · rfl
  · obtain ⟨hs, hother⟩ := get_of_max_le h
    rw [hs, hother, hclear]

/-- The same for the compound form. -/
theorem get_applyAssign {operation : Bool → Bool → Bool} (hclear : operation false false = false)
    (s other : DynamicBitSet) (i : ℕ) :
    (applyAssign operation s other).get i = operation (s.get i) (other.get i) := by
  unfold applyAssign
  simp only [ite_lt_capacity]
  rw [get_foldl_set fun i bit =>
    operation (if i < s.capacity then bit else false) (other.get i)]
  rw [ite_lt_capacity]
  split_ifs with h
  · rfl
  · obtain ⟨hs, hother⟩ := get_of_max_le h
    rw [hs, hother, hclear]

@[simp]
theorem get_or (s other : DynamicBitSet) (i : ℕ) :
    (s.or other).get i = (s.get i || other.get i) :=
  get_applyOperation rfl s other i

@[simp]
theorem get_orAssign (s other : DynamicBitSet) (i : ℕ) :
    (s.orAssign other).get i = (s.get i || other.get i) :=
  get_applyAssign rfl s other i

/-- {lit}`none` holds when no index is set. -/
theorem none_iff (s : DynamicBitSet) : s.none = true ↔ ∀ i, s.get i = false := by
  unfold none
  rw [List.all_eq_true]
  constructor
  · intro h i
    rw [get_eq, List.getD_eq_getElem?_getD]
    cases hblock : s.bitsets[dynBlockIndex i]? with
    | none => simp
    | some block =>
        have hzero := beq_iff_eq.mp (h block (List.mem_of_getElem? hblock))
        simp [hzero]
  · intro h block hblock
    obtain ⟨b, hb⟩ := List.mem_iff_getElem?.mp hblock
    rw [beq_iff_eq]
    refine BitVec.eq_of_getLsbD_eq fun k hk => ?_
    -- the bit at `k` of the block at `b` has this index
    have hget := h (64 * b + (63 - k))
    have hdiv : dynBlockIndex (64 * b + (63 - k)) = b := by
      unfold dynBlockIndex
      omega
    have hmod : dynBitIndex (64 * b + (63 - k)) = k := by
      unfold dynBitIndex
      omega
    rw [get_eq, hdiv, hmod, List.getD_eq_getElem?_getD, hb, Option.getD_some] at hget
    simpa using hget

/-! ## Shifts -/

@[simp]
theorem length_carryInto (carry : Bool) (blocks : List Block) :
    (carryInto carry blocks).length = blocks.length := by
  cases blocks <;> rfl

/-- The carry goes to the top bit of the first block. -/
theorem getLsbD_carryInto (carry : Bool) {blocks : List Block} {b k : ℕ}
    (hb : b < blocks.length) :
    ((carryInto carry blocks).getD b 0).getLsbD k =
      if b = 0 ∧ k = 63 ∧ carry then true else (blocks.getD b 0).getLsbD k := by
  cases blocks with
  | nil => simp at hb
  | cons block blocks =>
      cases b with
      | zero =>
          cases carry
          · simp [carryInto]
          · simp [carryInto, Block.getLsbD_assign]
      | succ b => simp [carryInto]

@[simp]
theorem length_rightShiftOnce (blocks : List Block) :
    (rightShiftOnce blocks).length = blocks.length := by
  induction blocks with
  | nil => rfl
  | cons block blocks ih => simp [rightShiftOnce, ih]

/-- Each bit of a block comes from the bit above it, and the top bit from the block
to the left. -/
theorem getLsbD_rightShiftOnce {blocks : List Block} {b k : ℕ} (hb : b < blocks.length) :
    ((rightShiftOnce blocks).getD b 0).getLsbD k =
      if k = 63 then decide (0 < b) && (blocks.getD (b - 1) 0).getLsbD 0
      else (blocks.getD b 0).getLsbD (k + 1) := by
  induction blocks generalizing b with
  | nil => simp at hb
  | cons block blocks ih =>
      cases b with
      | zero =>
          by_cases hk' : k = 63
          · simp [rightShiftOnce, hk']
          · simp [rightShiftOnce, hk', Nat.add_comm]
      | succ b =>
          have hb' : b < blocks.length := by simpa using hb
          rw [rightShiftOnce, List.getD_cons_succ,
            getLsbD_carryInto _ (by simpa using hb'), ih hb']
          by_cases hk' : k = 63
          · cases b with
            | zero => simp [hk']
            | succ b => simp [hk']
          · simp [hk']

/-- One round moves every bit to the next index; the last bit is lost. -/
theorem get_rightShiftOnce (s : DynamicBitSet) (i : ℕ) :
    (DynamicBitSet.mk (rightShiftOnce s.bitsets)).get i =
      (decide (0 < i ∧ i < s.capacity) && s.get (i - 1)) := by
  by_cases hi : i < s.capacity
  · have hb : dynBlockIndex i < s.bitsets.length := by
      unfold capacity at hi
      unfold dynBlockIndex
      omega
    rw [get_eq, get_eq, getLsbD_rightShiftOnce hb]
    by_cases hfirst : dynBitIndex i = 63
    · -- the first index of a block gets the last bit of the block before
      rw [if_pos hfirst]
      by_cases hpos : 0 < i
      · have hblock : dynBlockIndex (i - 1) = dynBlockIndex i - 1 := by
          unfold dynBlockIndex dynBitIndex at *
          omega
        have hbit : dynBitIndex (i - 1) = 0 := by
          unfold dynBitIndex at *
          omega
        have hpos' : 0 < dynBlockIndex i := by
          unfold dynBlockIndex dynBitIndex at *
          omega
        simp [hpos, hi, hblock, hbit, hpos']
      · obtain rfl : i = 0 := by omega
        simp [dynBlockIndex]
    · rw [if_neg hfirst]
      have hpos : 0 < i := by
        unfold dynBitIndex at *
        omega
      have hblock : dynBlockIndex (i - 1) = dynBlockIndex i := by
        unfold dynBlockIndex dynBitIndex at *
        omega
      have hbit : dynBitIndex (i - 1) = dynBitIndex i + 1 := by
        unfold dynBitIndex at *
        omega
      simp [hpos, hi, hblock, hbit]
  · have hge : (DynamicBitSet.mk (rightShiftOnce s.bitsets)).capacity ≤ i := by
      rw [capacity, length_rightShiftOnce]
      exact Nat.le_of_not_lt hi
    simp [get_of_ge hge, hi]

@[simp]
theorem capacity_rightShift (s : DynamicBitSet) (nb : ℕ) :
    (s.rightShift nb).capacity = s.capacity := by
  induction nb generalizing s with
  | zero => rfl
  | succ nb ih =>
      rw [rightShift, ih]
      simp [capacity]

/-- A right shift moves every bit up, inside the capacity. -/
theorem get_rightShift (s : DynamicBitSet) (nb i : ℕ) :
    (s.rightShift nb).get i = (decide (nb ≤ i ∧ i < s.capacity) && s.get (i - nb)) := by
  induction nb generalizing s with
  | zero =>
      by_cases hi : i < s.capacity
      · simp [rightShift, hi]
      · simp [rightShift, hi, get_of_ge (Nat.le_of_not_lt hi)]
  | succ nb ih =>
      have hcap : (DynamicBitSet.mk (rightShiftOnce s.bitsets)).capacity = s.capacity := by
        simp [capacity]
      rw [rightShift, ih, get_rightShiftOnce, hcap, Nat.sub_sub, ← Bool.and_assoc,
        ← Bool.decide_and]
      have hiff : (nb ≤ i ∧ i < s.capacity) ∧ 0 < i - nb ∧ i - nb < s.capacity ↔
          nb + 1 ≤ i ∧ i < s.capacity := by omega
      simp only [hiff]

/-! ## Comparison -/

/-- The bit that {lit}`operator==` reads at {lit}`i` is the one at the mirrored index
of the same block. -/
theorem get_mirror (s : DynamicBitSet) (i : ℕ) :
    (if i < s.capacity then (s.bitsets.getD (i / 64) 0).getLsbD (i % 64) else false) =
      s.get (64 * (i / 64) + (63 - i % 64)) := by
  have hblock : dynBlockIndex (64 * (i / 64) + (63 - i % 64)) = i / 64 := by
    unfold dynBlockIndex
    omega
  have hbit : dynBitIndex (64 * (i / 64) + (63 - i % 64)) = i % 64 := by
    unfold dynBitIndex
    omega
  split_ifs with h
  · rw [get_eq, hblock, hbit]
  · refine (get_of_ge ?_).symm
    unfold capacity at *
    omega

/-- The comparison of all bits decides equality at every index. -/
theorem beq_iff (s other : DynamicBitSet) :
    s.beq other = true ↔ ∀ i, s.get i = other.get i := by
  unfold beq
  simp only [get_mirror, List.all_eq_true, List.mem_range, beq_iff_eq]
  constructor
  · intro h i
    by_cases hi : i < max s.capacity other.capacity
    · -- the mirror of the mirrored index is the index itself
      have hmirror := h (64 * (i / 64) + (63 - i % 64)) (by unfold capacity at *; omega)
      have hback : 64 * ((64 * (i / 64) + (63 - i % 64)) / 64) +
          (63 - (64 * (i / 64) + (63 - i % 64)) % 64) = i := by omega
      rwa [hback] at hmirror
    · obtain ⟨hs, hother⟩ := get_of_max_le hi
      rw [hs, hother]
  · exact fun h i _ => h _

/-! ## Lists of indexes -/

theorem mem_serialize {s : DynamicBitSet} {i : ℕ} : i ∈ s.serialize ↔ s.get i = true := by
  rw [serialize, List.mem_filter, List.mem_range]
  exact ⟨fun h => h.2, fun h => ⟨lt_capacity h, h⟩⟩

/-- No index is greater than the last one of the list. -/
theorem le_getLast_serialize {s : DynamicBitSet} {back i : ℕ}
    (hback : s.serialize.getLast? = some back) (hi : s.get i = true) : i ≤ back := by
  have hsorted : s.serialize.Pairwise (· < ·) := List.pairwise_lt_range.filter _
  obtain ⟨init, hinit⟩ := List.getLast?_eq_some_iff.mp hback
  have hmem : i ∈ init ++ [back] := hinit ▸ mem_serialize.mpr hi
  rw [hinit, List.pairwise_append] at hsorted
  rw [List.mem_append, List.mem_singleton] at hmem
  rcases hmem with hmem | rfl
  · exact (hsorted.2.2 i hmem back (List.mem_singleton_self back)).le
  · exact le_rfl

/-- An unchecked write inside the blocks. -/
theorem setUnchecked_eq {s : DynamicBitSet} {i : ℕ} (hroom : dynBlockIndex i < s.bitsets.length) :
    ∃ t, s.setUnchecked i = some t ∧ t.bitsets.length = s.bitsets.length ∧
      ∀ j, t.get j = if j = i then true else s.get j :=
  ⟨_, if_pos hroom, List.length_modify .., get_modify hroom true⟩

/-- Unchecked writes inside the blocks set the bits of the list and no other ones. -/
theorem foldlM_setUnchecked {indexes : List ℕ} {s : DynamicBitSet}
    (hroom : ∀ i ∈ indexes, dynBlockIndex i < s.bitsets.length) :
    ∃ t, indexes.foldlM setUnchecked s = some t ∧
      ∀ j, t.get j = (s.get j || decide (j ∈ indexes)) := by
  induction indexes generalizing s with
  | nil => exact ⟨s, rfl, fun j => by simp⟩
  | cons i indexes ih =>
      obtain ⟨s', hwrite, hlength, hget'⟩ := setUnchecked_eq (hroom i List.mem_cons_self)
      have hrest : ∀ k ∈ indexes, dynBlockIndex k < s'.bitsets.length := by
        intro k hk
        rw [hlength]
        exact hroom k (List.mem_cons_of_mem i hk)
      obtain ⟨t, ht, hget⟩ := ih hrest
      refine ⟨t, ?_, fun j => ?_⟩
      · rw [List.foldlM_cons, hwrite]
        exact ht
      · rw [hget j, hget' j]
        by_cases hj : j = i
        · simp [hj]
        · simp [hj]

/-- A set that has a bit, but not the first one, is the same after both directions. -/
theorem deserialize_serialize {s : DynamicBitSet} (hfirst : s.get 0 = false)
    (hany : ∃ i, s.get i = true) :
    ∃ t, deserialize s.serialize = some t ∧ ∀ i, t.get i = s.get i := by
  obtain ⟨i, hi⟩ := hany
  unfold deserialize
  cases hback : s.serialize.getLast? with
  | none =>
      rw [List.getLast?_eq_none_iff] at hback
      have hmem : i ∈ s.serialize := mem_serialize.mpr hi
      rw [hback] at hmem
      cases hmem
  | some back =>
      have hset : s.get back = true := mem_serialize.mp (List.mem_of_getLast? hback)
      have hpos : 0 < back := by
        apply Nat.pos_of_ne_zero
        rintro rfl
        rw [hfirst] at hset
        cases hset
      have hroom : ∀ k ∈ s.serialize, dynBlockIndex k <
          (DynamicBitSet.mk (List.replicate (back / 64 + 1) 0)).bitsets.length := by
        intro k hk
        have hle : k ≤ back := le_getLast_serialize hback (mem_serialize.mp hk)
        rw [List.length_replicate, dynBlockIndex]
        omega
      obtain ⟨t, ht, hget⟩ := foldlM_setUnchecked hroom
      refine ⟨t, ?_, fun j => ?_⟩
      · simp only [List.length_nil, Nat.zero_mul, if_pos hpos]
        exact ht
      · have hzero : (DynamicBitSet.mk (List.replicate (back / 64 + 1) 0)).get j = false := by
          have h := get_increase {} (back / 64 + 1) j
          rw [get_empty] at h
          exact h
        rw [hget j, hzero, Bool.false_or]
        by_cases hj : s.get j = true
        · rw [hj, decide_eq_true (mem_serialize.mpr hj)]
        · rw [decide_eq_false (fun hmem => hj (mem_serialize.mp hmem))]
          rw [Bool.not_eq_true] at hj
          exact hj.symm

/-! ## Sets with one bit -/

/-- The only index that is set is {lit}`k`. -/
def OneHot (s : DynamicBitSet) (k : ℕ) : Prop :=
  ∀ i, s.get i = decide (i = k)

namespace OneHot

variable {s other : DynamicBitSet} {k k' : ℕ}

theorem get_self (h : s.OneHot k) : s.get k = true := by
  simp [h k]

theorem eq_of_get (h : s.OneHot k) {i : ℕ} (hi : s.get i = true) : i = k := by
  simpa [h i] using hi

theorem beq_iff (h : s.OneHot k) (h' : other.OneHot k') : s.beq other = true ↔ k = k' := by
  rw [DynamicBitSet.beq_iff]
  constructor
  · exact fun hsame => h'.eq_of_get ((hsame k).symm.trans h.get_self)
  · rintro rfl i
    rw [h i, h' i]

/-- The set that starts at the top of its only block has its bit at index 0. -/
theorem first : (DynamicBitSet.mk [(1 : Block) <<< 63]).OneHot 0 := by
  intro i
  by_cases hi : i < 64
  · have hblock : dynBlockIndex i = 0 := by
      unfold dynBlockIndex
      omega
    rw [get_eq, hblock, List.getD_cons_zero, BitVec.getLsbD_shiftLeft]
    by_cases h0 : i = 0
    · subst h0
      rfl
    · have hlt : dynBitIndex i < 63 := by
        unfold dynBitIndex
        omega
      simp [h0, hlt]
  · have hcap : (DynamicBitSet.mk [(1 : Block) <<< 63]).capacity ≤ i := by simpa [capacity] using hi
    rw [get_of_ge hcap]
    simp
    omega

/-- The index that the component registration keeps: when the next shift would lose
the bit, one more block makes room for it. -/
theorem advance (h : s.OneHot k) :
    ((if (s.rightShift 1).none then s.increase 1 else s).rightShift 1).OneHot (k + 1) := by
  have hk := lt_capacity h.get_self
  intro i
  -- a round of the shift moves the bit to `k + 1`, when there is room for it
  have hmove : ∀ t : DynamicBitSet, (∀ i, t.get i = decide (i = k)) → k + 1 < t.capacity →
      (t.rightShift 1).get i = decide (i = k + 1) := by
    intro t ht hroom
    rw [get_rightShift, ht]
    by_cases hi : i = k + 1
    · simp [hi, hroom]
    · have hne : ¬ (1 ≤ i ∧ i < t.capacity ∧ i - 1 = k) := by omega
      simp only [hi, decide_false, Bool.and_eq_false_iff, decide_eq_false_iff_not]
      tauto
  by_cases hlast : k + 1 < s.capacity
  · have hsome : (s.rightShift 1).none = false := by
      rw [← Bool.not_eq_true, none_iff]
      intro hnone
      have hbit := hnone (k + 1)
      rw [get_rightShift, Nat.add_sub_cancel, h.get_self] at hbit
      simp [hlast] at hbit
    rw [hsome, if_neg Bool.false_ne_true]
    exact hmove s h hlast
  · have hnone : (s.rightShift 1).none = true := by
      rw [none_iff]
      intro i
      rw [get_rightShift, h (i - 1)]
      have hno : ¬ (1 ≤ i ∧ i < s.capacity ∧ i - 1 = k) := by omega
      simp only [Bool.and_eq_false_iff, decide_eq_false_iff_not]
      tauto
    rw [if_pos hnone]
    refine hmove _ (fun i => (get_increase s 1 i).trans (h i)) ?_
    rw [capacity_increase]
    omega

end OneHot

end DynamicBitSet

end Rtype.Rtecs
