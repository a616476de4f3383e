import Mathlib.Logic.Relation

/-!
# Foundations - Transition systems

A system is given by its initial states, a step function, and a predicate that
says which actions may happen in which states.  Everything a safety property
needs to know about its runs is the induction over them, which this file states
once, together with the two ways of moving between systems: fewer restrictions,
and a projection onto a part that takes at most one step at a time.

Main results:

- Inductive type {lit}`Reachable`: the states of all runs.
- Theorem {lit}`Reachable.invariant_within`: an invariant that holds while a
  bound holds, for bounds that never come back once they are passed.
- Theorem {lit}`throughout_iff`: a property that an allowed step keeps and any other
  step breaks holds throughout exactly the runs of allowed steps.
- Theorem {lit}`Reachable.project`: a run of a system is a run of each of its
  parts.

Current gaps:

- None.
-/

namespace Transition

variable {σ α τ β : Type*}

/-- The states that a run reaches. -/
inductive Reachable (init : σ → Prop) (step : σ → α → σ) (allowed : σ → α → Prop) : σ → Prop
  | start {s : σ} (h : init s) : Reachable init step allowed s
  | next {s : σ} {a : α} (h : Reachable init step allowed s) (ha : allowed s a) :
      Reachable init step allowed (step s a)

/-- A list of actions that may happen one after another. -/
def AllowedRun (step : σ → α → σ) (allowed : σ → α → Prop) : σ → List α → Prop
  | _, [] => True
  | s, a :: actions => allowed s a ∧ AllowedRun step allowed (step s a) actions

theorem allowedRun_of_forall {step : σ → α → σ} {allowed : σ → α → Prop}
    (h : ∀ s a, allowed s a) (s : σ) (actions : List α) : AllowedRun step allowed s actions := by
  induction actions generalizing s with
  | nil => trivial
  | cons a actions ih => exact ⟨h s a, ih (step s a)⟩

instance AllowedRun.decidable {step : σ → α → σ} {allowed : σ → α → Prop}
    [∀ s a, Decidable (allowed s a)] :
    ∀ (s : σ) (actions : List α), Decidable (AllowedRun step allowed s actions)
  | _, [] => .isTrue trivial
  | s, a :: actions =>
      have : Decidable (AllowedRun step allowed (step s a) actions) :=
        AllowedRun.decidable (step s a) actions
      inferInstanceAs (Decidable (allowed s a ∧ AllowedRun step allowed (step s a) actions))

/-- The property holds in every state that a list of actions passes through. -/
def Throughout (step : σ → α → σ) (P : σ → Prop) : σ → List α → Prop
  | s, [] => P s
  | s, a :: actions => P s ∧ Throughout step P (step s a) actions

theorem Throughout.head {step : σ → α → σ} {P : σ → Prop} {s : σ} {actions : List α}
    (h : Throughout step P s actions) : P s := by
  cases actions with
  | nil => exact h
  | cons a actions => exact h.1

/-- A property that holds throughout holds at the end. -/
theorem Throughout.last {step : σ → α → σ} {P : σ → Prop} {s : σ} {actions : List α}
    (h : Throughout step P s actions) : P (actions.foldl step s) := by
  induction actions generalizing s with
  | nil => exact h
  | cons a actions ih => exact ih h.2

/-- When the steps that keep a property are exactly the allowed ones, the runs
throughout which it holds are exactly the allowed ones. -/
theorem throughout_iff {step : σ → α → σ} {allowed : σ → α → Prop} {P : σ → Prop}
    (hstep : ∀ s a, P s → (P (step s a) ↔ allowed s a)) {s : σ} (hs : P s) (actions : List α) :
    Throughout step P s actions ↔ AllowedRun step allowed s actions := by
  induction actions generalizing s with
  | nil => exact iff_of_true hs trivial
  | cons a actions ih =>
      constructor
      · rintro ⟨-, hrest⟩
        exact ⟨(hstep s a hs).mp hrest.head, (ih hrest.head).mp hrest⟩
      · rintro ⟨hallowed, hrest⟩
        have hnext := (hstep s a hs).mpr hallowed
        exact ⟨hs, (ih hnext).mpr hrest⟩

namespace Reachable

variable {init : σ → Prop} {step : σ → α → σ} {allowed : σ → α → Prop} {s : σ}

/-- The end of an allowed run is reachable. -/
theorem run (h : Reachable init step allowed s) {actions : List α}
    (hactions : AllowedRun step allowed s actions) :
    Reachable init step allowed (actions.foldl step s) := by
  induction actions generalizing s with
  | nil => exact h
  | cons a actions ih => exact ih (h.next hactions.1) hactions.2

/-- The end of a run whose actions are chosen in the states that they meet is reachable. -/
theorem choose (h : Reachable init step allowed s) {choices : List (σ → α)}
    (hchoices : AllowedRun (fun s choice => step s (choice s))
      (fun s choice => allowed s (choice s)) s choices) :
    Reachable init step allowed (choices.foldl (fun s choice => step s (choice s)) s) := by
  induction choices generalizing s with
  | nil => exact h
  | cons choice choices ih => exact ih (h.next hchoices.1) hchoices.2

/-- What holds at the start and is preserved by each step holds always. -/
theorem invariant {P : σ → Prop} (h : Reachable init step allowed s)
    (hinit : ∀ s, init s → P s)
    (hstep : ∀ s a, Reachable init step allowed s → allowed s a → P s → P (step s a)) :
    P s := by
  induction h with
  | start h => exact hinit _ h
  | next h ha ih => exact hstep _ _ h ha ih

/-- An invariant for the states within a bound, when a run that has left the bound
stays outside. -/
theorem invariant_within {P B : σ → Prop} (h : Reachable init step allowed s)
    (hbound : B s) (hback : ∀ s a, B (step s a) → B s) (hinit : ∀ s, init s → P s)
    (hstep : ∀ s a, Reachable init step allowed s → allowed s a → B (step s a) →
      P s → P (step s a)) : P s := by
  induction h with
  | start h => exact hinit _ h
  | next h ha ih => exact hstep _ _ h ha hbound (ih (hback _ _ hbound))

/-- A run of a system is a run of a part of it, when each step of the system
leaves the part alone or is a step of the part. -/
theorem project {init' : τ → Prop} {step' : τ → β → τ} {allowed' : τ → β → Prop}
    {f : σ → τ} (h : Reachable init step allowed s) (hinit : ∀ s, init s → init' (f s))
    (hstep : ∀ s a, Reachable init step allowed s → allowed s a →
      f (step s a) = f s ∨ ∃ b, allowed' (f s) b ∧ f (step s a) = step' (f s) b) :
    Reachable init' step' allowed' (f s) := by
  induction h with
  | start h => exact start (hinit _ h)
  | next h ha ih =>
      rcases hstep _ _ h ha with hsame | ⟨b, hb, hpart⟩
      · rwa [hsame]
      · rw [hpart]
        exact ih.next hb

end Reachable

end Transition
