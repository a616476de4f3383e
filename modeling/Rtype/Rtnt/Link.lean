import Rtype.Rtnt.Acknowledging
import Rtype.Rtnt.Receiving

/-!
# rtnt - Two sessions and a network

Two sessions exchange datagrams over a network that may lose, delay, reorder and
duplicate them, but neither alters nor invents any.  The network is the log of
the datagrams each side has emitted: at any time, any of them may arrive at the
other side, any number of times or never.

Main results:

- Definition {lit}`Link.step` and {lit}`Link.Run`: the runs of the two sessions.
- Theorem {lit}`Link.Run.received_emitted`: what one end has received, the other has
  emitted.
- Theorem {lit}`Link.Run.accepted_origin`: an accepted packet is a copy of a sent one or
  an acknowledgement packet of the other end.

Current gaps:

- None.
-/

namespace Rtype.Rtnt

open Transition

/-- The two ends of a link. -/
inductive Side where
  | a
  | b
deriving DecidableEq, Repr

namespace Side

/-- The opposite end. -/
def other : Side → Side
  | a => b
  | b => a

/-- The name of the session at an end. -/
def self : Side → ℕ
  | a => 0
  | b => 1

@[simp]
theorem other_other (i : Side) : i.other.other = i := by
  cases i <;> rfl

@[simp]
theorem other_ne (i : Side) : i.other ≠ i := by
  cases i <;> decide

end Side

/-- Two sessions that talk to each other. -/
abbrev Link := Side → Endpoint

namespace Link

/-- Two fresh sessions. -/
def new (clock : Side → Stream' Time) : Link :=
  fun i => Endpoint.new i.self (clock i)

/-- A call on the session at one end. -/
def step (target : LeftShift) (w : Link) (x : Side × Action) : Link :=
  Function.update w x.1 ((w x.1).step target x.2)

/-- What arrives at one end was emitted at the other. -/
def Authentic (w : Link) : Side × Action → Prop
  | (i, .receive d) => d ∈ (w i.other).session.outbox
  | (_, .send _) => True
  | (_, .update) => True
  | (_, .disconnect) => True

/-- The states of all runs whose steps meet a condition. -/
def Run (target : LeftShift) (condition : Link → Side × Action → Prop) : Link → Prop :=
  Reachable (fun w => ∃ clock, w = new clock) (step target)
    fun w x => Authentic w x ∧ condition w x

/-- No condition on the steps. -/
def Unconditional (_ : Link) (_ : Side × Action) : Prop := True

variable {target : LeftShift} {condition : Link → Side × Action → Prop} {w : Link}

@[simp]
theorem step_same (w : Link) (i : Side) (a : Action) :
    step target w (i, a) i = (w i).step target a := by
  simp [step]

theorem step_other {i j : Side} (hij : j ≠ i) (w : Link) (a : Action) :
    step target w (i, a) j = w j := by
  simp [step, hij]

/-- Each end of a run is a run of its session. -/
theorem Run.endpoint {guard : Endpoint.Guard} {i : Side} (h : Run target condition w)
    (hguard : ∀ w a, condition w (i, a) → Endpoint.Permits guard (w i) a) :
    Endpoint.Run target guard i.self (w i) := by
  refine h.project (f := fun w => w i) ?_ fun w x _ hx => ?_
  · rintro w ⟨clock, rfl⟩
    exact ⟨clock i, rfl⟩
  · obtain ⟨j, a⟩ := x
    by_cases hij : i = j
    · subst hij
      exact Or.inr ⟨a, hguard w a hx.2, step_same w i a⟩
    · exact Or.inl (step_other hij w a)

/-- Each end of a run is a run of its session without restrictions. -/
theorem Run.endpoint_free (h : Run target condition w) (i : Side) :
    Endpoint.Run target .free i.self (w i) :=
  h.endpoint fun _ _ _ => Endpoint.permits_free _ _

/-- Whatever an end has received, the other end has emitted. -/
theorem Run.received_emitted (h : Run target condition w) :
    ∀ i, ∀ d ∈ (w i).received, d ∈ (w i.other).session.outbox := by
  refine h.invariant (P := fun w => ∀ i, ∀ d ∈ (w i).received,
    d ∈ (w i.other).session.outbox) ?_ fun w x hrun hx ih => ?_
  · rintro w ⟨clock, rfl⟩ i d hd
    simp [new, Endpoint.new] at hd
  · obtain ⟨j, a⟩ := x
    intro i d hd
    by_cases hij : i = j
    · subst hij
      rw [step_other i.other_ne]
      rw [step_same] at hd
      cases a with
      | receive d' =>
          rcases List.mem_append.mp hd with hd | hd
          · exact ih i d hd
          · rw [List.mem_singleton.mp hd]
            exact hx.1
      | send => exact ih i d hd
      | update => exact ih i d hd
      | disconnect => exact ih i d hd
    · rw [step_other hij] at hd
      have hother : i.other = j := by
        cases i <;> cases j <;> first | rfl | exact absurd rfl hij
      rw [hother, step_same]
      have hstored := (Run.endpoint_free hrun j).sendInvariant.stored
      exact (Endpoint.grows_step target hstored a).outbox d (hother ▸ ih i d hd)

/-- An accepted packet is a copy of one that the other end has sent, or one of its
acknowledgement packets. -/
theorem Run.accepted_origin (h : Run target condition w) {i : Side} {x : Incoming}
    (hx : x ∈ (w i).accepted) :
    (∃ r ∈ (w i.other).sent, Endpoint.IsCopy x r) ∨
      ∃ index p, index < (w i.other).session.issued ∧
        (∀ r ∈ (w i.other).sent, r.index ≠ index) ∧ Endpoint.IsAckCopy x p index := by
  obtain ⟨d, hd, hparse, hxd⟩ := (h.endpoint_free i).acceptedReceived x hx
  rw [hxd]
  rcases ((h.endpoint_free i.other).sendInvariant.emitted d
    (h.received_emitted i d hd)).2 with ⟨r, hr, hcarries⟩ | ⟨index, p, hlt, hfree, hp, hcarries⟩
  · exact Or.inl ⟨r, hr, Endpoint.isCopy_of_carries hparse hcarries⟩
  · exact Or.inr ⟨index, p, hlt, hfree, Endpoint.isAckCopy_of_carries hparse hp hcarries⟩

/-- An accepted ordered packet is a copy of an ordered one sent on its channel. -/
theorem Run.ordered_origin (h : Run target condition w) {i : Side} {x : Incoming}
    (hx : x ∈ (w i).accepted) (hflag : isOrdered x.packet.flag = true) :
    ∃ k, ∃ hk : k < ((w i.other).sentOn x.header.channelId).length,
      Endpoint.IsCopy x ((w i.other).sentOn x.header.channelId)[k] ∧
        x.header.orderId = UInt32.ofNat k := by
  rcases h.accepted_origin hx with ⟨r, hr, hcopy⟩ | ⟨index, p, -, -, hack⟩
  · have hmem : r ∈ (w i.other).sentOn x.header.channelId :=
      Endpoint.mem_sentOn.mpr ⟨hr, hcopy.isOrdered_eq ▸ hflag, hcopy.channelId_eq.symm⟩
    obtain ⟨k, hk, rfl⟩ := List.mem_iff_getElem.mp hmem
    refine ⟨k, hk, hcopy, ?_⟩
    rw [hcopy.orderId_eq]
    exact (h.endpoint_free i.other).sendInvariant.orderId_getElem hk
  · rw [hack.not_ordered] at hflag
    cases hflag

/-- While every channel has less than 2^32 ordered packets, the accepted order ids
stay below the last one. -/
theorem Run.belowLastOrderId (h : Run target condition w) {i : Side}
    (hcount : ∀ c, ((w i.other).sentOn c).length < 2 ^ 32) :
    Endpoint.BelowLastOrderId (w i).accepted := by
  intro x hx hflag
  obtain ⟨k, hk, -, horder⟩ := h.ordered_origin hx hflag
  have hlt := hcount x.header.channelId
  rw [orderKey, horder, UInt32.toNat_ofNat', Nat.mod_eq_of_lt (by omega)]
  omega

/-! ## Concrete runs -/

/-- Clocks that stand still. -/
def stillClock (_ : Side) : Stream' Time := Stream'.const 0

/-- A datagram that an end has emitted, by position. -/
def emitted (w : Link) (i : Side) (k : ℕ) : Datagram :=
  (w i).session.outbox.getD k ⟨0, []⟩

theorem emitted_mem {w : Link} {i : Side} {k : ℕ} (hk : k < (w i).session.outbox.length) :
    emitted w i k ∈ (w i).session.outbox := by
  rw [emitted, List.getD_eq_getElem _ _ hk]
  exact List.getElem_mem hk

theorem run_new (clock : Side → Stream' Time) : Run target condition (new clock) :=
  .start ⟨clock, rfl⟩

theorem Run.send {i : Side} {p : Packet} (h : Run target condition w)
    (hcondition : condition w (i, .send p)) : Run target condition (step target w (i, .send p)) :=
  .next h ⟨trivial, hcondition⟩

/-- The datagram at a position of the other end's log arrives. -/
theorem Run.receive {i : Side} {k : ℕ} (h : Run target condition w)
    (hk : k < (w i.other).session.outbox.length)
    (hcondition : condition w (i, .receive (emitted w i.other k))) :
    Run target condition (step target w (i, .receive (emitted w i.other k))) :=
  .next h ⟨emitted_mem hk, hcondition⟩

end Link

end Rtype.Rtnt
