import Mathlib

/-!
# Foundations - Loops

A loop makes turns as long as its body takes the state further.  The body may depend on
the number of the turn, for what it reads from outside.  This file states when such a loop
returns, and the rules for its result and for its end.

Main results:

- Definition {lit}`Returns`: enough turns lead to a state in which the loop ends.
- Theorem {lit}`Returns.invariant`: what each turn keeps holds of the result.
- Theorem {lit}`exists_returns`: a loop whose turns make a measure smaller returns.
- Theorem {lit}`not_returns`: a loop that can always go on does not.

Current gaps:

- None.
-/

namespace WhileLoop

variable {σ : Type*} {turn : ℕ → σ → Option σ} {s s' : σ}

/-- The state in which the loop ends, if this takes less than {lit}`fuel` turns.  The next
turn has number {lit}`n`. -/
def run (turn : ℕ → σ → Option σ) : ℕ → ℕ → σ → Option σ
  | 0, _, _ => none
  | fuel + 1, n, s =>
      match turn n s with
      | none => some s
      | some s' => run turn fuel (n + 1) s'

/-- The loop returns a state. -/
def Returns (turn : ℕ → σ → Option σ) (s s' : σ) : Prop :=
  ∃ fuel, run turn fuel 0 s = some s'

theorem run_of_none {n : ℕ} (fuel : ℕ) (h : turn n s = none) :
    run turn (fuel + 1) n s = some s := by
  rw [run, h]

theorem run_of_some {n : ℕ} (fuel : ℕ) (h : turn n s = some s') :
    run turn (fuel + 1) n s = run turn fuel (n + 1) s' := by
  rw [run, h]

/-! ## The result -/

theorem run_invariant {P : σ → Prop} {fuel n : ℕ} (hs : P s)
    (hturn : ∀ n s s', P s → turn n s = some s' → P s') (h : run turn fuel n s = some s') :
    P s' ∧ ∃ n, turn n s' = none := by
  induction fuel generalizing n s with
  | zero => cases h
  | succ fuel ih =>
      cases hnext : turn n s with
      | none =>
          rw [run_of_none fuel hnext] at h
          cases h
          exact ⟨hs, n, hnext⟩
      | some s₁ =>
          rw [run_of_some fuel hnext] at h
          exact ih (hturn n s s₁ hs hnext) h

/-- What each turn keeps holds of the result, in which the loop has ended. -/
theorem Returns.invariant {P : σ → Prop} (h : Returns turn s s') (hs : P s)
    (hturn : ∀ n s s', P s → turn n s = some s' → P s') : P s' ∧ ∃ n, turn n s' = none := by
  rcases h with ⟨fuel, h⟩
  exact run_invariant hs hturn h

theorem returns_of_none (h : turn 0 s = none) : Returns turn s s :=
  ⟨1, run_of_none 0 h⟩

/-- More turns lead to the same result. -/
theorem run_mono {fuel fuel' n : ℕ} (hle : fuel ≤ fuel') (h : run turn fuel n s = some s') :
    run turn fuel' n s = some s' := by
  induction fuel generalizing fuel' n s with
  | zero => cases h
  | succ fuel ih =>
      rcases Nat.exists_eq_add_of_le' (Nat.le_of_add_left_le hle) with ⟨fuel', rfl⟩
      cases hnext : turn n s with
      | none =>
          rw [run_of_none fuel hnext] at h
          rw [run_of_none _ hnext]
          exact h
      | some s₁ =>
          rw [run_of_some fuel hnext] at h
          rw [run_of_some _ hnext]
          exact ih (by omega) h

/-- The loop returns one state. -/
theorem Returns.unique {s₁ s₂ : σ} (h₁ : Returns turn s s₁) (h₂ : Returns turn s s₂) :
    s₁ = s₂ := by
  rcases h₁ with ⟨fuel₁, h₁⟩
  rcases h₂ with ⟨fuel₂, h₂⟩
  have hlong₁ := run_mono (Nat.le_max_left fuel₁ fuel₂) h₁
  have hlong₂ := run_mono (Nat.le_max_right fuel₁ fuel₂) h₂
  rw [hlong₁] at hlong₂
  exact Option.some.inj hlong₂

/-- A loop that is seen through a function is the loop of what is seen of its turns. -/
theorem run_map {σ' : Type*} {turn' : ℕ → σ' → Option σ'} (f : σ → σ')
    (hturn : ∀ n s, turn' n (f s) = (turn n s).map f) (fuel n : ℕ) (s : σ) :
    run turn' fuel n (f s) = (run turn fuel n s).map f := by
  induction fuel generalizing n s with
  | zero => rfl
  | succ fuel ih =>
      cases hnext : turn n s with
      | none =>
          have hnext' : turn' n (f s) = none := by
            rw [hturn, hnext, Option.map_none]
          rw [run_of_none fuel hnext, run_of_none fuel hnext', Option.map_some]
      | some s₁ =>
          have hnext' : turn' n (f s) = some (f s₁) := by
            rw [hturn, hnext, Option.map_some]
          rw [run_of_some fuel hnext, run_of_some fuel hnext', ih]

/-! ## The end -/

theorem exists_run {P : σ → Prop} (measure : σ → ℕ) {n : ℕ} (hs : P s)
    (hturn : ∀ n s s', P s → turn n s = some s' → P s' ∧ measure s' < measure s)
    {fuel : ℕ} (hfuel : measure s < fuel) : ∃ s', run turn fuel n s = some s' := by
  induction fuel generalizing n s with
  | zero => cases hfuel
  | succ fuel ih =>
      cases hnext : turn n s with
      | none => exact ⟨s, run_of_none fuel hnext⟩
      | some s₁ =>
          rcases hturn n s s₁ hs hnext with ⟨hs₁, hless⟩
          rw [run_of_some fuel hnext]
          exact ih hs₁ (hless.trans_le (Nat.le_of_lt_succ hfuel))

/-- A loop whose turns make a measure smaller returns. -/
theorem exists_returns {P : σ → Prop} (measure : σ → ℕ) (hs : P s)
    (hturn : ∀ n s s', P s → turn n s = some s' → P s' ∧ measure s' < measure s) :
    ∃ s', Returns turn s s' := by
  rcases exists_run measure hs hturn (Nat.lt_succ_self (measure s)) with ⟨s', h⟩
  exact ⟨s', _, h⟩

theorem run_eq_none {P : σ → Prop} {n : ℕ} (hs : P s)
    (hturn : ∀ n s, P s → ∃ s', turn n s = some s' ∧ P s') (fuel : ℕ) :
    run turn fuel n s = none := by
  induction fuel generalizing n s with
  | zero => rfl
  | succ fuel ih =>
      rcases hturn n s hs with ⟨s₁, hnext, hs₁⟩
      rw [run_of_some fuel hnext]
      exact ih hs₁

/-- A loop that can always go on does not return. -/
theorem not_returns {P : σ → Prop} (hs : P s)
    (hturn : ∀ n s, P s → ∃ s', turn n s = some s' ∧ P s') : ¬ ∃ s', Returns turn s s' := by
  rintro ⟨s', fuel, h⟩
  rw [run_eq_none hs hturn] at h
  cases h

end WhileLoop
