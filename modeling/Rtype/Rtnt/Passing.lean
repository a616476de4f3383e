import Rtype.Rtnt.Receiving

/-!
# rtnt - Accepted packets and their channels

An unordered packet that a session accepts is returned at once.  An ordered one is returned,
or waits in the reorder buffer of its channel, unless its order id lies below the next
expected one: then it is ignored, and nobody hears of it again.

Main results:

- Definition {lit}`Session.InTime`: the order id of a packet is not below the next expected
  one.
- Theorem {lit}`Endpoint.receive_takes`: a session returns a packet that is in time, or
  lets it wait.

Current gaps:

- None.
-/

namespace Rtype.Rtnt

open Std (TreeMap)

namespace Session

/-- The channel of the packet does not expect a later one already. -/
def InTime (s : Session) (x : Incoming) : Prop :=
  isOrdered x.packet.flag = true →
    s.nextExpectedOrderIds.getD x.header.channelId 0 ≤ x.header.orderId

instance (s : Session) (x : Incoming) : Decidable (s.InTime x) :=
  inferInstanceAs (Decidable (_ → _))

/-- The packet waits in the reorder buffer of its channel. -/
def Holds (s : Session) (x : Incoming) : Prop :=
  isOrdered x.packet.flag = true ∧
    (s.reorderBuffers.getD x.header.channelId ∅)[x.header.orderId]? = some x

instance (s : Session) (x : Incoming) : Decidable (s.Holds x) :=
  inferInstanceAs (Decidable (_ ∧ _))

/-- A packet that is next is returned. -/
theorem mem_deliverOrdered {s : Session} {x : Incoming}
    (hnext : x.header.orderId = s.nextExpectedOrderIds.getD x.header.channelId 0) :
    x ∈ (s.deliverOrdered x).2 := by
  simp only [deliverOrdered, hnext, beq_self_eq_true, if_true]
  exact List.mem_cons_self

/-- A packet that is early waits under its order id. -/
theorem holds_deliverOrdered {s : Session} {x : Incoming}
    (hordered : isOrdered x.packet.flag = true)
    (hearly : s.nextExpectedOrderIds.getD x.header.channelId 0 < x.header.orderId) :
    (s.deliverOrdered x).1.Holds x := by
  have hne : (x.header.orderId == s.nextExpectedOrderIds.getD x.header.channelId 0) = false := by
    rw [beq_eq_false_iff_ne]
    intro heq
    rw [heq] at hearly
    exact absurd hearly (UInt32.lt_irrefl _)
  have hgt : x.header.orderId > s.nextExpectedOrderIds.getD x.header.channelId 0 := hearly
  refine ⟨hordered, ?_⟩
  simp only [deliverOrdered, hne, Bool.false_eq_true, if_false, if_pos hgt,
    TreeMap.getD_insert_self, TreeMap.getElem?_insert_self]

/-- An ordered packet that is in time is returned or waits. -/
theorem deliverOrdered_takes {s : Session} {x : Incoming}
    (hordered : isOrdered x.packet.flag = true) (htime : s.InTime x) :
    x ∈ (s.deliverOrdered x).2 ∨ (s.deliverOrdered x).1.Holds x := by
  have hle := htime hordered
  by_cases hnext : x.header.orderId = s.nextExpectedOrderIds.getD x.header.channelId 0
  · exact Or.inl (mem_deliverOrdered hnext)
  · exact Or.inr (holds_deliverOrdered hordered (UInt32.lt_of_le_of_ne hle (Ne.symm hnext)))

end Session

namespace Endpoint

variable {e : Endpoint} {x : Incoming}

/-- The last part of a reception takes a packet that is in time. -/
theorem handOver_takes (htime : e.session.InTime x) :
    x ∈ (e.handOver x).returned ∨ (e.handOver x).session.Holds x := by
  have hreturned : (e.handOver x).returned = e.returned ++ (passOn e.session x).2 := rfl
  have hsession : (e.handOver x).session = (passOn e.session x).1 := rfl
  rw [hreturned, hsession, List.mem_append]
  unfold passOn
  split_ifs with hordered
  · exact (Session.deliverOrdered_takes hordered htime).imp_left Or.inr
  · exact Or.inl (Or.inr (List.mem_singleton_self x))

/-- The reception of a packet that the session does not keep for itself returns it or lets
it wait, if it is in time. -/
theorem receive_takes (target : LeftShift) {d : Datagram} (hx : e.session.accepts d = some x)
    (hpassed : isPassedOn x = true) (htime : e.session.InTime x) :
    x ∈ (e.step target (.receive d)).returned ∨
      (e.step target (.receive d)).session.Holds x := by
  rcases receive_decomposition target (permits_free e (.receive d)) with
    ⟨e₁, hsteps, ⟨heq, hkept⟩ | ⟨y, hy, -, heq⟩⟩
  · rw [hkept x hx] at hpassed
    cases hpassed
  · rw [hx, Option.some.injEq] at hy
    subst hy
    rcases Steps.reorder_eq hsteps with ⟨hnext, -, -⟩
    rw [heq]
    apply handOver_takes
    rw [Session.InTime, hnext]
    exact htime

end Endpoint

end Rtype.Rtnt
