import Mathlib

/-!
# Foundations - Weighted choices

A ticket is drawn between 1 and the sum of the weights of a list, and the elements take
their weights off it until one of them covers what is left.

Main results:

- Theorem {lit}`exists_choose`: every ticket chooses an element of positive weight.
- Theorem {lit}`exists_ticket`: every element of positive weight has a ticket.
- Theorem {lit}`card_choosePosition`: every position has as many tickets as its weight.
- Theorem {lit}`tickets_getElem?`: where the tickets of a position stand when they are all
  written out.
- Theorem {lit}`exists_wordChoose`: every ticket chooses an element also in 64 bits, where the
  sum of the weights can overflow.

Current gaps:

- None.
-/

namespace WeightedChoice

variable {α : Type*} {weight : α → ℕ} {xs : List α} {x : α}

/-- The sum of the weights. -/
def total (weight : α → ℕ) (xs : List α) : ℕ :=
  (xs.map weight).sum

/-- The element that a ticket chooses. -/
def choose (weight : α → ℕ) : ℕ → List α → Option α
  | _, [] => none
  | ticket, x :: xs =>
      if ticket ≤ weight x then some x else choose weight (ticket - weight x) xs

@[simp]
theorem total_nil (weight : α → ℕ) : total weight [] = 0 := rfl

@[simp]
theorem total_cons (weight : α → ℕ) (x : α) (xs : List α) :
    total weight (x :: xs) = weight x + total weight xs := by
  rw [total, List.map_cons, List.sum_cons, total]

theorem total_eq_zero_iff : total weight xs = 0 ↔ ∀ x ∈ xs, weight x = 0 := by
  rw [total, List.sum_eq_zero_iff]
  simp

theorem total_le_of_sublist {ys : List α} (h : xs.Sublist ys) :
    total weight xs ≤ total weight ys :=
  (h.map weight).sum_le_sum fun _ _ => Nat.zero_le _

/-- Every ticket chooses an element of positive weight. -/
theorem exists_choose {ticket : ℕ} (hpos : 0 < ticket) (hle : ticket ≤ total weight xs) :
    ∃ x ∈ xs, 0 < weight x ∧ choose weight ticket xs = some x := by
  induction xs generalizing ticket with
  | nil =>
      rw [total_nil] at hle
      omega
  | cons x xs ih =>
      rw [total_cons] at hle
      rw [choose]
      by_cases hcovered : ticket ≤ weight x
      · exact ⟨x, List.mem_cons_self, hpos.trans_le hcovered, if_pos hcovered⟩
      · rw [if_neg hcovered]
        rcases ih (Nat.sub_pos_of_lt (Nat.lt_of_not_le hcovered)) (by omega) with
          ⟨y, hy, hweight, hchoose⟩
        exact ⟨y, List.mem_cons_of_mem x hy, hweight, hchoose⟩

/-- Every element of positive weight has a ticket. -/
theorem exists_ticket (hx : x ∈ xs) (hweight : 0 < weight x) :
    ∃ ticket, 0 < ticket ∧ ticket ≤ total weight xs ∧ choose weight ticket xs = some x := by
  induction xs with
  | nil => cases hx
  | cons y xs ih =>
      rw [total_cons]
      rcases List.mem_cons.mp hx with rfl | hx
      · refine ⟨1, Nat.one_pos, by omega, ?_⟩
        rw [choose, if_pos (Nat.succ_le_of_lt hweight)]
      · rcases ih hx with ⟨ticket, hpos, hle, hchoose⟩
        refine ⟨weight y + ticket, by omega, by omega, ?_⟩
        rw [choose, if_neg (by omega), Nat.add_sub_cancel_left, hchoose]

/-! ## Positions -/

/-- The position of the element that a ticket chooses. -/
def choosePosition (weight : α → ℕ) : ℕ → List α → Option ℕ
  | _, [] => none
  | ticket, x :: xs =>
      if ticket ≤ weight x then some 0
      else (choosePosition weight (ticket - weight x) xs).map Nat.succ

theorem choose_eq_position (weight : α → ℕ) (ticket : ℕ) (xs : List α) :
    choose weight ticket xs = (choosePosition weight ticket xs).bind fun i => xs[i]? := by
  induction xs generalizing ticket with
  | nil => rfl
  | cons x xs ih =>
      rw [choose, choosePosition]
      by_cases hcovered : ticket ≤ weight x
      · rw [if_pos hcovered, if_pos hcovered]
        rfl
      · rw [if_neg hcovered, if_neg hcovered, ih]
        cases choosePosition weight (ticket - weight x) xs <;> rfl

/-- The tickets of a position are those between the sums of the weights up to it, without
and with its own. -/
theorem choosePosition_eq_some_iff {ticket i : ℕ} (hpos : 0 < ticket) :
    choosePosition weight ticket xs = some i ↔
      total weight (xs.take i) < ticket ∧ ticket ≤ total weight (xs.take (i + 1)) := by
  induction xs generalizing ticket i with
  | nil =>
      rw [choosePosition, List.take_nil, List.take_nil, total_nil]
      constructor
      · nofun
      · omega
  | cons x xs ih =>
      rw [choosePosition, List.take_succ_cons, total_cons]
      by_cases hcovered : ticket ≤ weight x
      · rw [if_pos hcovered, Option.some_inj]
        cases i with
        | zero =>
            rw [List.take_zero, total_nil]
            omega
        | succ i =>
            rw [List.take_succ_cons, total_cons]
            omega
      · rw [if_neg hcovered, Option.map_eq_some_iff]
        cases i with
        | zero =>
            rw [List.take_zero, List.take_zero, total_nil]
            constructor
            · rintro ⟨j, -, hj⟩
              cases hj
            · omega
        | succ i =>
            have hrest := @ih (ticket - weight x) i (by omega)
            rw [List.take_succ_cons, total_cons]
            constructor
            · rintro ⟨j, hchoose, hj⟩
              cases hj
              have hbounds := hrest.mp hchoose
              omega
            · intro hbounds
              exact ⟨i, hrest.mpr (by omega), rfl⟩

/-- The sums of the weights grow by one weight from position to position. -/
theorem total_take_succ {i : ℕ} (hx : xs[i]? = some x) :
    total weight (xs.take (i + 1)) = total weight (xs.take i) + weight x := by
  rw [List.take_add_one, hx, Option.toList_some, total, total, List.map_append, List.sum_append,
    List.map_singleton, List.sum_singleton]

/-- Every position has as many tickets as its weight. -/
theorem card_choosePosition {i : ℕ} (hx : xs[i]? = some x) :
    ((Finset.Icc 1 (total weight xs)).filter fun ticket =>
      choosePosition weight ticket xs = some i).card = weight x := by
  have htotal : total weight (xs.take (i + 1)) ≤ total weight xs :=
    total_le_of_sublist (List.take_sublist (i + 1) xs)
  have htickets : (Finset.Icc 1 (total weight xs)).filter
      (fun ticket => choosePosition weight ticket xs = some i) =
      Finset.Ioc (total weight (xs.take i)) (total weight (xs.take (i + 1))) := by
    ext ticket
    rw [Finset.mem_filter, Finset.mem_Icc, Finset.mem_Ioc]
    constructor
    · rintro ⟨⟨hpos, -⟩, hchoose⟩
      exact (choosePosition_eq_some_iff hpos).mp hchoose
    · rintro ⟨hgreater, hle⟩
      have hpos : 0 < ticket := by omega
      exact ⟨⟨hpos, hle.trans htotal⟩, (choosePosition_eq_some_iff hpos).mpr ⟨hgreater, hle⟩⟩
  rw [htickets, Nat.card_Ioc, total_take_succ hx, Nat.add_sub_cancel_left]

/-! ## Tickets -/

/-- Every element as often as its weight, in the order of the list. -/
def tickets (weight : α → ℕ) (xs : List α) : List α :=
  xs.flatMap fun x => List.replicate (weight x) x

theorem tickets_cons (weight : α → ℕ) (x : α) (xs : List α) :
    tickets weight (x :: xs) = List.replicate (weight x) x ++ tickets weight xs := by
  rw [tickets, List.flatMap_cons, tickets]

theorem length_tickets (weight : α → ℕ) (xs : List α) :
    (tickets weight xs).length = total weight xs := by
  induction xs with
  | nil => rfl
  | cons x xs ih => rw [tickets_cons, List.length_append, List.length_replicate, ih, total_cons]

theorem mem_tickets : x ∈ tickets weight xs ↔ x ∈ xs ∧ 0 < weight x := by
  rw [tickets, List.mem_flatMap]
  constructor
  · rintro ⟨y, hy, hmem⟩
    rcases List.mem_replicate.mp hmem with ⟨hpos, rfl⟩
    exact ⟨hy, Nat.pos_of_ne_zero hpos⟩
  · rintro ⟨hmem, hpos⟩
    exact ⟨x, hmem, List.mem_replicate.mpr ⟨hpos.ne', rfl⟩⟩

/-- Where the tickets of a position stand. -/
theorem tickets_getElem? {i j : ℕ} (hx : xs[i]? = some x) (hj : j < weight x) :
    (tickets weight xs)[total weight (xs.take i) + j]? = some x := by
  induction xs generalizing i with
  | nil => cases hx
  | cons y xs ih =>
      rw [tickets_cons]
      cases i with
      | zero =>
          rw [List.getElem?_cons_zero, Option.some_inj] at hx
          subst hx
          rw [List.take_zero, total_nil, Nat.zero_add, List.getElem?_append_left,
            List.getElem?_replicate, if_pos hj]
          rwa [List.length_replicate]
      | succ i =>
          rw [List.getElem?_cons_succ] at hx
          rw [List.take_succ_cons, total_cons, List.getElem?_append_right]
          · rw [List.length_replicate, Nat.add_assoc, Nat.add_sub_cancel_left]
            exact ih hx
          · rw [List.length_replicate]
            omega

/-! ## In 64 bits -/

section

variable {weight : α → UInt64} {ticket : UInt64}

/-- The sum of the weights, in 64 bits. -/
def wordTotal (weight : α → UInt64) (xs : List α) : UInt64 :=
  xs.foldl (fun sum x => sum + weight x) 0

/-- The element that a ticket chooses, in 64 bits. -/
def wordChoose (weight : α → UInt64) : UInt64 → List α → Option α
  | _, [] => none
  | ticket, x :: xs =>
      if ticket ≤ weight x then some x else wordChoose weight (ticket - weight x) xs

theorem toNat_wordTotal (weight : α → UInt64) (xs : List α) :
    (wordTotal weight xs).toNat = total (fun x => (weight x).toNat) xs % 2 ^ 64 := by
  have hfold : ∀ start : UInt64,
      (xs.foldl (fun sum x => sum + weight x) start).toNat =
        (start.toNat + total (fun x => (weight x).toNat) xs) % 2 ^ 64 := by
    intro start
    induction xs generalizing start with
    | nil =>
        rw [List.foldl_nil, total_nil, Nat.add_zero]
        exact (Nat.mod_eq_of_lt start.toNat_lt).symm
    | cons x xs ih =>
        rw [List.foldl_cons, ih, UInt64.toNat_add, total_cons, Nat.mod_add_mod, Nat.add_assoc]
  rw [wordTotal, hfold, UInt64.toNat_zero, Nat.zero_add]

theorem wordChoose_eq (weight : α → UInt64) (ticket : UInt64) (xs : List α) :
    wordChoose weight ticket xs = choose (fun x => (weight x).toNat) ticket.toNat xs := by
  induction xs generalizing ticket with
  | nil => rfl
  | cons x xs ih =>
      rw [wordChoose, choose]
      by_cases hcovered : ticket ≤ weight x
      · rw [if_pos hcovered, if_pos (UInt64.le_iff_toNat_le.mp hcovered)]
      · have hgreater := hcovered
        rw [UInt64.le_iff_toNat_le] at hgreater
        rw [if_neg hcovered, if_neg hgreater, ih, UInt64.toNat_sub_of_le]
        rw [UInt64.le_iff_toNat_le]
        omega

theorem toNat_pos_iff {word : UInt64} : 0 < word.toNat ↔ word ≠ 0 := by
  rw [Nat.pos_iff_ne_zero, ne_eq, ← UInt64.toNat_zero, UInt64.toNat_inj]

/-- Every ticket up to the sum chooses an element that has a weight, also when the sum has
overflowed. -/
theorem exists_wordChoose (hpos : ticket ≠ 0) (hle : ticket ≤ wordTotal weight xs) :
    ∃ x ∈ xs, weight x ≠ 0 ∧ wordChoose weight ticket xs = some x := by
  have hle' : ticket.toNat ≤ total (fun x => (weight x).toNat) xs := by
    rw [UInt64.le_iff_toNat_le, toNat_wordTotal] at hle
    exact hle.trans (Nat.mod_le _ _)
  rcases exists_choose (toNat_pos_iff.mpr hpos) hle' with ⟨x, hx, hweight, hchoose⟩
  exact ⟨x, hx, toNat_pos_iff.mp hweight, by rw [wordChoose_eq, hchoose]⟩

/-- While the sum fits into 64 bits, every element that has a weight has a ticket. -/
theorem exists_wordTicket (htotal : total (fun x => (weight x).toNat) xs < 2 ^ 64) (hx : x ∈ xs)
    (hweight : weight x ≠ 0) :
    ∃ ticket, ticket ≠ 0 ∧ ticket ≤ wordTotal weight xs ∧
      wordChoose weight ticket xs = some x := by
  rcases @exists_ticket _ (fun x => (weight x).toNat) _ _ hx (toNat_pos_iff.mpr hweight) with
    ⟨ticket, hpos, hle, hchoose⟩
  have hticket : (UInt64.ofNat ticket).toNat = ticket := by
    rw [UInt64.toNat_ofNat']
    exact Nat.mod_eq_of_lt (hle.trans_lt htotal)
  refine ⟨UInt64.ofNat ticket, ?_, ?_, ?_⟩
  · rw [← toNat_pos_iff, hticket]
    exact hpos
  · rw [UInt64.le_iff_toNat_le, hticket, toNat_wordTotal, Nat.mod_eq_of_lt htotal]
    exact hle
  · rw [wordChoose_eq, hticket, hchoose]

end

end WeightedChoice
