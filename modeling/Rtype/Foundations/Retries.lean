import Mathlib

/-!
# Foundations - Bounded retransmission

A sender that cannot rely on its channel keeps each item until the item is acknowledged,
emits it again from time to time, and gives up after a number of attempts.  This file
states what such a sender can do to its table of waiting items and to the log of its
emissions, and derives from it the two bounds that every such sender owes: no item is
emitted more often than the attempts allow, and none is emitted again once it has left
the table.

Main results:

- Inductive type {lit}`Move`: all that a sender can do.
- Theorem {lit}`Moves.bounded`: the emissions of an item are counted by its retries while
  it waits, and bounded ever after.
- Theorem {lit}`Moves.settled`: an item that has left the table stays away, and the log
  mentions it no more often.

Current gaps:

- None.
-/

namespace Retries

variable {κ ι : Type*}

/-- The items that wait, each under a key with the number of its retries, and all
emissions so far. -/
structure Table (κ ι : Type*) where
  pending : κ → Option (ι × ℕ)
  log : List ι

variable [DecidableEq κ] [DecidableEq ι]

/-- Emit an item and file it under a key. -/
def Table.emit (t : Table κ ι) (key : κ) (x : ι) (retries : ℕ) : Table κ ι where
  pending := Function.update t.pending key (some (x, retries))
  log := t.log ++ [x]

omit [DecidableEq ι] in
/-- What waits after an emission: the item under its key, and the others as before. -/
theorem Table.pending_emit_iff {t : Table κ ι} {key k : κ} {x y : ι} {retries n : ℕ} :
    (t.emit key x retries).pending k = some (y, n) ↔
      k = key ∧ x = y ∧ retries = n ∨ k ≠ key ∧ t.pending k = some (y, n) := by
  by_cases hkey : k = key
  · subst hkey
    simp [emit]
  · simp [emit, hkey]

/-- The moves of a sender that retries each item {lit}`limit` times at most. -/
inductive Move (limit : ℕ) : Table κ ι → Table κ ι → Prop
  /-- A new item is emitted, once and for all. -/
  | once (t : Table κ ι) (x : ι) (hnew : x ∉ t.log) :
      Move limit t { t with log := t.log ++ [x] }
  /-- A new item is emitted and waits. -/
  | first (t : Table κ ι) (k : κ) (x : ι) (hnew : x ∉ t.log) :
      Move limit t (t.emit k x 0)
  /-- A waiting item is emitted again. -/
  | again (t : Table κ ι) (k : κ) (x : ι) (n : ℕ) (hk : t.pending k = some (x, n))
      (hn : n < limit) : Move limit t (t.emit k x (n + 1))
  /-- Some items do not wait any more. -/
  | forget (t : Table κ ι) (pending : κ → Option (ι × ℕ))
      (hpending : ∀ k, pending k = t.pending k ∨ pending k = none) :
      Move limit t { t with pending }

/-- Sequences of moves. -/
abbrev Moves (limit : ℕ) : Table κ ι → Table κ ι → Prop :=
  Relation.ReflTransGen (Move limit)

/-- Every waiting item was emitted once more than it was retried, and nothing was emitted
more often than the retries allow. -/
structure Bounded (limit : ℕ) (t : Table κ ι) : Prop where
  waiting : ∀ k x n, t.pending k = some (x, n) → n ≤ limit ∧ t.log.count x = 1 + n
  single : ∀ k k' x n n', t.pending k = some (x, n) → t.pending k' = some (x, n') → k = k'
  count_le : ∀ x, t.log.count x ≤ 1 + limit

/-- The item was emitted and does not wait. -/
structure Settled (t : Table κ ι) (x : ι) : Prop where
  emitted : x ∈ t.log
  gone : ∀ k n, t.pending k ≠ some (x, n)

variable {limit : ℕ} {t t' : Table κ ι} {x : ι}

omit [DecidableEq κ] in
theorem bounded_empty (limit : ℕ) : Bounded limit ({ pending := fun _ => none, log := [] } :
    Table κ ι) where
  waiting := by simp
  single := by simp
  count_le := by simp

omit [DecidableEq κ] in
/-- A waiting item was emitted. -/
theorem Bounded.mem_log (h : Bounded limit t) {k : κ} {n : ℕ} (hk : t.pending k = some (x, n)) :
    x ∈ t.log := by
  have hcount := (h.waiting k x n hk).2
  apply List.count_pos_iff.mp
  omega

/-- The emission of a new item leaves the other counts alone. -/
theorem count_append_of_new {log : List ι} {y : ι} (hx : x ∈ log) (hy : y ∉ log) :
    (log ++ [y]).count x = log.count x := by
  have hne : y ≠ x := by
    rintro rfl
    exact hy hx
  rw [List.count_append, List.count_singleton, if_neg (by simpa using hne), Nat.add_zero]

/-- A new item is emitted for the first time. -/
theorem count_append_self {log : List ι} (hx : x ∉ log) : (log ++ [x]).count x = 1 := by
  rw [List.count_append, List.count_eq_zero_of_not_mem hx, List.count_singleton_self]

theorem count_append_le {log : List ι} {bound : ℕ} {y : ι} (hx : log.count x ≤ bound)
    (hy : x = y → log.count x < bound) : (log ++ [y]).count x ≤ bound := by
  rw [List.count_append, List.count_singleton]
  split_ifs with heq
  · have hlt := hy (by simpa using (eq_of_beq heq).symm)
    omega
  · exact hx

/-! ## Bounds -/

omit [DecidableEq κ] in
theorem Bounded.once (h : Bounded limit t) (hnew : x ∉ t.log) :
    Bounded limit { t with log := t.log ++ [x] } where
  waiting := by
    intro k y n hk
    rw [count_append_of_new (h.mem_log hk) hnew]
    exact h.waiting k y n hk
  single := h.single
  count_le := by
    intro y
    apply count_append_le (h.count_le y)
    rintro rfl
    rw [List.count_eq_zero_of_not_mem hnew]
    omega

theorem Bounded.first (h : Bounded limit t) (key : κ) (hnew : x ∉ t.log) :
    Bounded limit (t.emit key x 0) where
  waiting := by
    intro k y n hk
    rcases Table.pending_emit_iff.mp hk with ⟨-, rfl, rfl⟩ | ⟨-, hk⟩
    · exact ⟨Nat.zero_le limit, count_append_self hnew⟩
    · exact (h.once hnew).waiting k y n hk
  single := by
    intro k k' y n n' hk hk'
    -- the new item waits nowhere else, since it was never emitted
    have hother : ∀ k n, t.pending k ≠ some (x, n) := fun k n hk => hnew (h.mem_log hk)
    rcases Table.pending_emit_iff.mp hk with ⟨rfl, rfl, -⟩ | ⟨-, hk⟩
    · rcases Table.pending_emit_iff.mp hk' with ⟨rfl, -, -⟩ | ⟨-, hk'⟩
      · rfl
      · exact absurd hk' (hother k' n')
    · rcases Table.pending_emit_iff.mp hk' with ⟨-, rfl, -⟩ | ⟨-, hk'⟩
      · exact absurd hk (hother k n)
      · exact h.single k k' y n n' hk hk'
  count_le := (h.once hnew).count_le

theorem Bounded.again (h : Bounded limit t) {key : κ} {m : ℕ}
    (hkey : t.pending key = some (x, m)) (hm : m < limit) :
    Bounded limit (t.emit key x (m + 1)) where
  waiting := by
    intro k y n hk
    rw [Table.emit, List.count_append, List.count_singleton]
    rcases Table.pending_emit_iff.mp hk with ⟨-, rfl, rfl⟩ | ⟨hne, hk⟩
    · rw [(h.waiting key x m hkey).2, beq_self_eq_true, if_pos rfl]
      exact ⟨hm, by omega⟩
    · have hother : x ≠ y := by
        rintro rfl
        exact hne (h.single k key x n m hk hkey)
      rw [if_neg (by simpa using hother), Nat.add_zero]
      exact h.waiting k y n hk
  single := by
    intro k k' y n n' hk hk'
    -- the emission does not move any item
    have hold : ∀ k n, (t.emit key x (m + 1)).pending k = some (y, n) →
        ∃ n, t.pending k = some (y, n) := by
      intro k n hk
      rcases Table.pending_emit_iff.mp hk with ⟨rfl, rfl, -⟩ | ⟨-, hk⟩
      · exact ⟨m, hkey⟩
      · exact ⟨n, hk⟩
    rcases hold k n hk with ⟨i, hi⟩
    rcases hold k' n' hk' with ⟨i', hi'⟩
    exact h.single k k' y i i' hi hi'
  count_le := by
    intro y
    apply count_append_le (h.count_le y)
    rintro rfl
    rw [(h.waiting key y m hkey).2]
    omega

omit [DecidableEq κ] in
theorem Bounded.forget (h : Bounded limit t) {pending : κ → Option (ι × ℕ)}
    (hpending : ∀ k, pending k = t.pending k ∨ pending k = none) :
    Bounded limit { t with pending } := by
  have hold : ∀ k y n, pending k = some (y, n) → t.pending k = some (y, n) := by
    intro k y n hk
    rcases hpending k with hsame | hnone
    · rw [← hsame, hk]
    · rw [hnone] at hk
      cases hk
  constructor
  · intro k y n hk
    exact h.waiting k y n (hold k y n hk)
  · intro k k' y n n' hk hk'
    exact h.single k k' y n n' (hold k y n hk) (hold k' y n' hk')
  · exact h.count_le

theorem Move.bounded (hmove : Move limit t t') (h : Bounded limit t) : Bounded limit t' := by
  cases hmove with
  | once x hnew => exact h.once hnew
  | first k x hnew => exact h.first k hnew
  | again k x n hk hn => exact h.again hk hn
  | forget pending hpending => exact h.forget hpending

theorem Moves.bounded (hmoves : Moves limit t t') (h : Bounded limit t) : Bounded limit t' := by
  induction hmoves with
  | refl => exact h
  | tail _ hlast ih => exact hlast.bounded ih

/-! ## Items that do not wait any more -/

theorem Move.settled (hmove : Move limit t t') (h : Settled t x) :
    Settled t' x ∧ t'.log.count x = t.log.count x := by
  cases hmove with
  | once y hnew =>
      exact ⟨⟨List.mem_append_left _ h.emitted, h.gone⟩, count_append_of_new h.emitted hnew⟩
  | first key y hnew =>
      refine ⟨⟨List.mem_append_left _ h.emitted, ?_⟩, count_append_of_new h.emitted hnew⟩
      intro k n hk
      rcases Table.pending_emit_iff.mp hk with ⟨-, rfl, -⟩ | ⟨-, hk⟩
      · exact hnew h.emitted
      · exact h.gone k n hk
  | again key y m hkey hm =>
      have hne : y ≠ x := by
        rintro rfl
        exact h.gone key m hkey
      refine ⟨⟨List.mem_append_left _ h.emitted, ?_⟩, ?_⟩
      · intro k n hk
        rcases Table.pending_emit_iff.mp hk with ⟨-, rfl, -⟩ | ⟨-, hk⟩
        · exact hne rfl
        · exact h.gone k n hk
      · rw [Table.emit, List.count_append, List.count_singleton, if_neg (by simpa using hne),
          Nat.add_zero]
  | forget pending hpending =>
      refine ⟨⟨h.emitted, ?_⟩, rfl⟩
      intro k n hk
      change pending k = some (x, n) at hk
      rcases hpending k with hsame | hnone
      · exact h.gone k n (hsame ▸ hk)
      · rw [hnone] at hk
        cases hk

/-- An item that has left the table is not emitted again. -/
theorem Moves.settled (hmoves : Moves limit t t') (h : Settled t x) :
    Settled t' x ∧ t'.log.count x = t.log.count x := by
  induction hmoves with
  | refl => exact ⟨h, rfl⟩
  | tail _ hlast ih =>
      rcases hlast.settled ih.1 with ⟨hsettled, hcount⟩
      exact ⟨hsettled, hcount.trans ih.2⟩

end Retries
