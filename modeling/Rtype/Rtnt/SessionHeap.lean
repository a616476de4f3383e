import Rtype.Rtnt.Sending

/-!
# rtnt - The session objects of a process

Client and server hold their sessions by shared pointer, and closures in event
queues keep sessions alive that the maps have dropped.  A session object is
therefore named by the number of its creation, and the objects live in a heap
that never forgets one.  Whatever a process does to its heap is a sequence of
creations and of calls on single objects.

Main results:

- Inductive type {lit}`SessionHeap.Effect`: what a process can do to its heap.
- Theorems {lit}`SessionHeap.Effects.keeps` and {lit}`SessionHeap.Effects.preserves`: what
  the calls on an object keep, the process keeps.
- Theorem {lit}`SessionHeap.Effects.runs`: every object of a heap is at the end of a
  run of its own.

Current gaps:

- Destruction of objects is left out: no branch observes it.
-/

namespace Rtype.Rtnt

open Transition

/-- An IPv4 endpoint: the address followed by the port, as one number.  Endpoints
compare in this order. -/
abbrev UdpEndpoint := ℕ

/-- All session objects that a process has created, by the number of their creation. -/
structure SessionHeap where
  object : ℕ → Endpoint := fun _ => Endpoint.new 0 (Stream'.const 0)
  created : ℕ := 0

namespace SessionHeap

/-- `std::make_shared<Session>`: the object gets the next number. -/
def create (h : SessionHeap) (self : ℕ) (clock : Stream' Time) : SessionHeap where
  object := Function.update h.object h.created (Endpoint.new self clock)
  created := h.created + 1

/-- A call of a member function on an object. -/
def call (h : SessionHeap) (target : LeftShift) (k : ℕ) (a : Action) : SessionHeap :=
  { h with object := Function.update h.object k ((h.object k).step target a) }

variable {h h' : SessionHeap} {target : LeftShift} {k j self : ℕ} {clock : Stream' Time}
  {a : Action}

@[simp]
theorem created_create : (h.create self clock).created = h.created + 1 := rfl

@[simp]
theorem created_call : (h.call target k a).created = h.created := rfl

@[simp]
theorem object_create_self : (h.create self clock).object h.created = Endpoint.new self clock := by
  simp [create]

theorem object_create_of_ne (hne : j ≠ h.created) :
    (h.create self clock).object j = h.object j := by
  simp [create, hne]

@[simp]
theorem object_call_self : (h.call target k a).object k = (h.object k).step target a := by
  simp [call]

theorem object_call_of_ne (hne : j ≠ k) : (h.call target k a).object j = h.object j := by
  simp [call, hne]

/-- What a process can do to its heap: create an object, or call one. -/
inductive Effect (target : LeftShift) (name : ℕ → ℕ) (allowed : ℕ → Endpoint → Action → Prop) :
    SessionHeap → SessionHeap → Prop
  | create (h : SessionHeap) (clock : Stream' Time) :
      Effect target name allowed h (h.create (name h.created) clock)
  | call (h : SessionHeap) (k : ℕ) (a : Action) (hok : allowed k (h.object k) a) :
      Effect target name allowed h (h.call target k a)

/-- Sequences of effects. -/
abbrev Effects (target : LeftShift) (name : ℕ → ℕ) (allowed : ℕ → Endpoint → Action → Prop) :
    SessionHeap → SessionHeap → Prop :=
  Relation.ReflTransGen (Effect target name allowed)

variable {name : ℕ → ℕ} {allowed : ℕ → Endpoint → Action → Prop}

/-- No effect takes an object away. -/
theorem Effects.created_le (h₁ : Effects target name allowed h h') : h.created ≤ h'.created := by
  induction h₁ with
  | refl => exact le_rfl
  | tail _ hlast ih =>
      cases hlast with
      | create clock => exact ih.trans (Nat.le_succ _)
      | call k a hok => exact ih

/-- What holds of an object and is kept by the calls on it holds after effects. -/
theorem Effects.keeps {P : Endpoint → Prop} (h₁ : Effects target name allowed h h')
    (hj : j < h.created) (hstep : ∀ e a, allowed j e a → P e → P (e.step target a))
    (hP : P (h.object j)) : P (h'.object j) := by
  induction h₁ with
  | refl => exact hP
  | @tail g _ hbefore hlast ih =>
      have hle : h.created ≤ g.created := Effects.created_le hbefore
      cases hlast with
      | create clock =>
          rw [object_create_of_ne (by omega)]
          exact ih
      | call k a hok =>
          by_cases hsame : j = k
          · subst hsame
            rw [object_call_self]
            exact hstep _ a hok ih
          · rw [object_call_of_ne hsame]
            exact ih

/-- What holds of fresh objects and is kept by the calls holds of every object. -/
theorem Effects.preserves {P : ℕ → Endpoint → Prop} (h₁ : Effects target name allowed h h')
    (hnew : ∀ k clock, P k (.new (name k) clock))
    (hstep : ∀ k e a, allowed k e a → P k e → P k (e.step target a))
    (hP : ∀ k < h.created, P k (h.object k)) : ∀ k < h'.created, P k (h'.object k) := by
  induction h₁ with
  | refl => exact hP
  | @tail g _ _ hlast ih =>
      intro j hj
      cases hlast with
      | create clock =>
          by_cases hlatest : j = g.created
          · rw [hlatest, object_create_self]
            exact hnew g.created clock
          · rw [created_create] at hj
            rw [object_create_of_ne hlatest]
            exact ih j (by omega)
      | call k a hok =>
          rw [created_call] at hj
          by_cases hsame : j = k
          · subst hsame
            rw [object_call_self]
            exact hstep j _ a hok (ih j hj)
          · rw [object_call_of_ne hsame]
            exact ih j hj

/-- Every object is at the end of a run of its own. -/
def Runs (target : LeftShift) (guard : Endpoint.Guard) (name : ℕ → ℕ) (h : SessionHeap) : Prop :=
  ∀ k < h.created, Endpoint.Run target guard (name k) (h.object k)

/-- Effects keep every object at the end of a run of its own. -/
theorem Effects.runs {guard : Endpoint.Guard} (h₁ : Effects target name allowed h h')
    (hpermits : ∀ k e a, allowed k e a → Endpoint.Permits guard e a)
    (hruns : Runs target guard name h) : Runs target guard name h' :=
  h₁.preserves (fun _ clock => .start ⟨clock, rfl⟩)
    (fun k e a hok hrun => hrun.next (hpermits k e a hok)) hruns

/-- An object only grows. -/
theorem Effects.grows (h₁ : Effects target name allowed h h')
    (hruns : Runs target .free name h) (hj : j < h.created) :
    Endpoint.Grows (h.object j) (h'.object j) := by
  have hboth : Endpoint.Run target .free (name j) (h'.object j) ∧
      Endpoint.Grows (h.object j) (h'.object j) := by
    apply h₁.keeps (P := fun e => Endpoint.Run target .free (name j) e ∧
      Endpoint.Grows (h.object j) e) hj
    · rintro e a - ⟨hrun, hgrows⟩
      exact ⟨hrun.next (Endpoint.permits_free e a),
        hgrows.trans (Endpoint.grows_step target hrun.sendInvariant.stored a)⟩
    · exact ⟨hruns j hj, .refl _⟩
  exact hboth.2

end SessionHeap

end Rtype.Rtnt
