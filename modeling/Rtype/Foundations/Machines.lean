import Mathlib.Data.List.Basic

/-!
# Foundations - Machines that answer

A machine takes requests one after another and answers each of them.  A relation between the
states of two machines that take the same requests is a simulation when related states answer
alike and stay related: then no list of requests tells the machines apart.  A machine that is
guarded stops at a request that does not fit, and does not answer it.  The steps of other machines
may fail, and their runs are the ones in which none does.

Main results:

- Function {lit}`Machines.answers`: what a machine answers to a list of requests.
- Theorem {lit}`Machines.Simulates.run`: related machines answer alike, and stay related.
- Theorem {lit}`Machines.eq_of_transcript`: what a guarded machine answers, unless it stops.
- Theorems {lit}`Machines.foldlM_history` and {lit}`Machines.foldlM_invariant`: the induction over
  a run in which no step fails.

Current gaps:

- None.
-/

namespace Machines

variable {ι ο σ τ : Type*}

/-- The answers to a list of requests. -/
def answers (serve : σ → ι → σ × ο) : σ → List ι → List ο
  | _, [] => []
  | s, request :: requests => (serve s request).2 :: answers serve (serve s request).1 requests

/-- The state after a list of requests. -/
def final (serve : σ → ι → σ × ο) (s : σ) (requests : List ι) : σ :=
  requests.foldl (fun s request => (serve s request).1) s

/-- Related states answer alike, and stay related. -/
def Simulates (serve : σ → ι → σ × ο) (serve' : τ → ι → τ × ο) (related : σ → τ → Prop) : Prop :=
  ∀ s t, related s t → ∀ request,
    (serve s request).2 = (serve' t request).2 ∧
      related (serve s request).1 (serve' t request).1

variable {serve : σ → ι → σ × ο} {serve' : τ → ι → τ × ο} {related : σ → τ → Prop}

/-- No list of requests tells two machines apart that simulate each other. -/
theorem Simulates.run (h : Simulates serve serve' related) {s : σ} {t : τ} (hst : related s t)
    (requests : List ι) :
    answers serve s requests = answers serve' t requests ∧
      related (final serve s requests) (final serve' t requests) := by
  induction requests generalizing s t with
  | nil => exact ⟨rfl, hst⟩
  | cons request requests ih =>
      rcases h s t hst request with ⟨hanswer, hrelated⟩
      rcases ih hrelated with ⟨hanswers, hfinal⟩
      refine ⟨?_, hfinal⟩
      rw [answers, answers, hanswer, hanswers]

/-! ## Requests that do not fit -/

section

variable {fits : σ → ι → Bool}

/-- What a machine answers to a list of requests, and its state then, unless it stops at one that
does not fit. -/
def transcript (serve : σ → ι → σ × ο) (fits : σ → ι → Bool) (s : σ) :
    List ι → Option (List ο × σ)
  | [] => some ([], s)
  | request :: requests =>
      if fits s request then
        (transcript serve fits (serve s request).1 requests).map fun (replies, s') =>
          ((serve s request).2 :: replies, s')
      else
        none

/-- A machine that does not stop answers like the one that is not guarded. -/
theorem eq_of_transcript {s s' : σ} {requests : List ι} {replies : List ο}
    (h : transcript serve fits s requests = some (replies, s')) :
    replies = answers serve s requests ∧ s' = final serve s requests := by
  induction requests generalizing s replies with
  | nil =>
      cases h
      exact ⟨rfl, rfl⟩
  | cons request requests ih =>
      rw [transcript] at h
      split_ifs at h
      rcases Option.map_eq_some_iff.mp h with ⟨⟨rest, last⟩, hrest, heq⟩
      obtain ⟨rfl, rfl⟩ := Prod.mk.inj heq
      rcases ih hrest with ⟨rfl, rfl⟩
      exact ⟨rfl, rfl⟩

/-- A machine with an invariant does not stop while something holds that only requests that fit
can keep. -/
theorem exists_transcript {P Q : σ → Prop} (hkeeps : ∀ s request, Q s → Q (serve s request).1)
    (hfits : ∀ s request, Q s → P (serve s request).1 → P s ∧ fits s request = true) {s : σ}
    (hs : Q s) {requests : List ι} (h : P (final serve s requests)) :
    P s ∧ ∃ replies s', transcript serve fits s requests = some (replies, s') := by
  induction requests generalizing s with
  | nil => exact ⟨h, [], s, rfl⟩
  | cons request requests ih =>
      rcases ih (hkeeps s request hs) h with ⟨hnext, replies, s', hrest⟩
      rcases hfits s request hs hnext with ⟨hbefore, hone⟩
      refine ⟨hbefore, (serve s request).2 :: replies, s', ?_⟩
      rw [transcript, if_pos hone, hrest, Option.map_some]

end

/-! ## Steps that may fail -/

section

variable {α : Type*} {step : σ → α → Option σ} {allowed : α → Prop}

/-- What holds at the start and is kept by each step, together with the actions so far, holds
at the end of a run. -/
theorem foldlM_history {P : List α → σ → Prop}
    (hstep : ∀ done s a s', P done s → allowed a → step s a = some s' → P (done ++ [a]) s')
    {actions : List α} {s s' : σ} (hrun : actions.foldlM step s = some s')
    (hallowed : ∀ a ∈ actions, allowed a) (hstart : P [] s) : P actions s' := by
  have hgeneral : ∀ done s, P done s → actions.foldlM step s = some s' →
      P (done ++ actions) s' := by
    clear hstart hrun
    induction actions with
    | nil =>
        intro done s hs hrun
        obtain rfl := Option.some.inj hrun
        rwa [List.append_nil]
    | cons a actions ih =>
        intro done s hs hrun
        rw [List.forall_mem_cons] at hallowed
        rw [List.foldlM_cons, Option.bind_eq_bind, Option.bind_eq_some_iff] at hrun
        rcases hrun with ⟨next, hnext, hrest⟩
        have hone := hstep done s a next hs hallowed.1 hnext
        have hmore := ih hallowed.2 (done ++ [a]) next hone hrest
        rwa [List.append_assoc] at hmore
  exact hgeneral [] s hstart hrun

/-- An invariant. -/
theorem foldlM_invariant {P : σ → Prop}
    (hstep : ∀ s a s', P s → allowed a → step s a = some s' → P s')
    {actions : List α} {s s' : σ} (hrun : actions.foldlM step s = some s')
    (hallowed : ∀ a ∈ actions, allowed a) (hstart : P s) : P s' :=
  foldlM_history (P := fun _ => P) (fun _ => hstep) hrun hallowed hstart

end

end Machines
