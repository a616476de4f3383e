import Rtype.Foundations.Resequencer
import Rtype.Rtnt.Sending

/-!
# rtnt - What a session returns

An accepted packet that is not ordered is returned at once.  An ordered one goes
through the reorder buffer of its channel, which is a resequencer over the order
ids.  This file proves that the drain loop and the buffer implement one, and that
the packets returned are exactly those a resequencer releases.

Main results:

- Theorem {lit}`Session.drain_settled`: the drain loop releases all it can.
- Structure {lit}`Endpoint.Delivered`: the state of every channel's resequencer.
- Theorem {lit}`Endpoint.Run.delivered`: it holds in every run in which the accepted
  order ids stay below the last one.
- Theorem {lit}`Endpoint.Run.onceInvariant`: an id is accepted at most once unless the
  packet history has dropped it.

Current gaps:

- None.
-/

namespace Rtype.Rtnt

open Std (TreeMap)
open Transition Resequencer

/-- The number of an ordered packet on its channel. -/
def orderKey (x : Incoming) : ℕ := x.header.orderId.toNat

/-- The packets held in a reorder buffer, by number. -/
def heldIn (buffer : TreeMap UInt32 Incoming) (k : ℕ) : Option Incoming :=
  if k < 2 ^ 32 then buffer[UInt32.ofNat k]? else none

theorem heldIn_toNat (buffer : TreeMap UInt32 Incoming) (k : UInt32) :
    heldIn buffer k.toNat = buffer[k]? := by
  rw [heldIn, if_pos k.toNat_lt, UInt32.ofNat_toNat]

private theorem compare_ofNat {k : ℕ} (hk : k < 2 ^ 32) (id : UInt32) :
    compare id (UInt32.ofNat k) = .eq ↔ k = id.toNat := by
  rw [Std.LawfulEqCmp.compare_eq_iff_eq, eq_comm, ← UInt32.toNat_inj, UInt32.toNat_ofNat',
    Nat.mod_eq_of_lt hk]

theorem heldIn_erase (buffer : TreeMap UInt32 Incoming) (id : UInt32) (k : ℕ) :
    heldIn (buffer.erase id) k = if k = id.toNat then none else heldIn buffer k := by
  by_cases hk : k < 2 ^ 32
  · simp only [heldIn, if_pos hk, TreeMap.getElem?_erase, compare_ofNat hk]
  · simp only [heldIn, if_neg hk, ite_self]

theorem heldIn_insert (buffer : TreeMap UInt32 Incoming) (id : UInt32) (x : Incoming) (k : ℕ) :
    heldIn (buffer.insert id x) k = if k = id.toNat then some x else heldIn buffer k := by
  by_cases hk : k < 2 ^ 32
  · simp only [heldIn, if_pos hk, TreeMap.getElem?_insert, compare_ofNat hk]
  · have hne : k ≠ id.toNat := by
      have := id.toNat_lt
      omega
    simp only [heldIn, if_neg hk, if_neg hne]

theorem toNat_add_one {id : UInt32} (h : id.toNat + 1 < 2 ^ 32) : (id + 1).toNat = id.toNat + 1 := by
  rw [UInt32.toNat_add, UInt32.toNat_one, Nat.mod_eq_of_lt h]

/-! ## The drain loop -/

/-- The loop releases all the packets that it can. -/
theorem Session.drain_settled {arrived : Set Incoming}
    (hbound : ∀ x ∈ arrived, orderKey x + 1 < 2 ^ 32) (buffer : TreeMap UInt32 Incoming)
    (next : UInt32) (released : List Incoming)
    (h : Invariant orderKey arrived released next.toNat (heldIn buffer)) :
    Settled orderKey arrived (released ++ (Session.drain buffer next).2.1)
      (Session.drain buffer next).2.2.toNat (heldIn (Session.drain buffer next).1) := by
  fun_induction Session.drain buffer next generalizing released with
  | case1 buffer next hnone =>
      rw [← heldIn_toNat] at hnone
      simpa using Settled.mk h hnone
  | case2 buffer next incoming hsome rest ready last heq ih =>
      rw [← heldIn_toNat] at hsome
      obtain ⟨hkey, -, hmem⟩ := h.held_spec _ _ hsome
      have hstep := toNat_add_one (hkey ▸ hbound incoming hmem)
      have hnext := h.release hsome (heldIn_erase buffer next)
      rw [← hstep] at hnext
      have hrest := ih _ hnext
      rw [heq] at hrest
      simpa using hrest

namespace Endpoint

/-! ## Channels -/

/-- The accepted ordered packets of a channel. -/
def arrivedOn (accepted : List Incoming) (c : UInt8) : Set Incoming :=
  {x | x ∈ accepted ∧ isPassedOn x = true ∧ isOrdered x.packet.flag = true ∧
    x.header.channelId = c}

/-- The returned ordered packets of a channel. -/
def returnedOn (returned : List Incoming) (c : UInt8) : List Incoming :=
  returned.filter fun x => isOrdered x.packet.flag && x.header.channelId == c

/-- The state of the channels after the accepted packets have been delivered. -/
structure Delivered (accepted : List Incoming) (s : Session) (returned : List Incoming) :
    Prop where
  settled : ∀ c, Settled orderKey (arrivedOn accepted c) (returnedOn returned c)
    (s.nextExpectedOrderIds.getD c 0).toNat (heldIn (s.reorderBuffers.getD c ∅))
  unordered : returned.filter (fun x => !isOrdered x.packet.flag) =
    accepted.filter fun x => isPassedOn x && !isOrdered x.packet.flag

/-- The accepted order ids stay below the last one. -/
def BelowLastOrderId (accepted : List Incoming) : Prop :=
  ∀ x ∈ accepted, isOrdered x.packet.flag = true → orderKey x + 1 < 2 ^ 32

theorem delivered_new (self : ℕ) (clock : Stream' Time) :
    Delivered [] (Session.new self clock) [] where
  settled c := by
    have harrived : arrivedOn [] c = ∅ := by
      ext x
      simp [arrivedOn]
    have hheld : heldIn ((Session.new self clock).reorderBuffers.getD c ∅) = fun _ => none := by
      funext k
      simp [heldIn, Session.new]
    rw [harrived, hheld]
    exact settled_empty
  unordered := rfl

namespace Delivered

variable {accepted returned : List Incoming} {s s' : Session} {x : Incoming}

/-- Only the reorder state of the session matters. -/
theorem congr (h : Delivered accepted s returned)
    (hnext : s'.nextExpectedOrderIds = s.nextExpectedOrderIds)
    (hbuffers : s'.reorderBuffers = s.reorderBuffers) : Delivered accepted s' returned where
  settled c := by
    rw [hnext, hbuffers]
    exact h.settled c
  unordered := h.unordered

/-- A packet that the session keeps for itself changes nothing. -/
theorem keep (h : Delivered accepted s returned) (hx : isPassedOn x = false) :
    Delivered (accepted ++ [x]) s returned where
  settled c := by
    have harrived : arrivedOn (accepted ++ [x]) c = arrivedOn accepted c := by
      ext y
      simp only [arrivedOn, List.mem_append, List.mem_singleton, Set.mem_ofPred_eq]
      grind
    rw [harrived]
    exact h.settled c
  unordered := by
    simp [h.unordered, hx]

/-- A packet that is not ordered is returned at once. -/
theorem unorderedPacket (h : Delivered accepted s returned) (hx : isPassedOn x = true)
    (hflag : isOrdered x.packet.flag = false) :
    Delivered (accepted ++ [x]) s (returned ++ [x]) where
  settled c := by
    have harrived : arrivedOn (accepted ++ [x]) c = arrivedOn accepted c := by
      ext y
      simp only [arrivedOn, List.mem_append, List.mem_singleton, Set.mem_ofPred_eq]
      grind
    have hreturned : returnedOn (returned ++ [x]) c = returnedOn returned c := by
      simp [returnedOn, hflag]
    rw [harrived, hreturned]
    exact h.settled c
  unordered := by
    simp [h.unordered, hx, hflag]

private theorem arrivedOn_append (hx : isPassedOn x = true)
    (hflag : isOrdered x.packet.flag = true) :
    arrivedOn (accepted ++ [x]) x.header.channelId =
      insert x (arrivedOn accepted x.header.channelId) := by
  ext y
  simp only [arrivedOn, List.mem_append, List.mem_singleton, Set.mem_ofPred_eq,
    Set.mem_insert_iff]
  grind

private theorem arrivedOn_append_of_ne {c : UInt8} (hc : x.header.channelId ≠ c) :
    arrivedOn (accepted ++ [x]) c = arrivedOn accepted c := by
  ext y
  simp only [arrivedOn, List.mem_append, List.mem_singleton, Set.mem_ofPred_eq]
  grind

/-- What the resequencer of one channel does to that channel it does to all. -/
private theorem of_channel (h : Delivered accepted s returned) (hx : isPassedOn x = true)
    (hflag : isOrdered x.packet.flag = true) {packets : List Incoming}
    (hsettled : Settled orderKey (insert x (arrivedOn accepted x.header.channelId))
      (returnedOn returned x.header.channelId ++ packets)
      (s'.nextExpectedOrderIds.getD x.header.channelId 0).toNat
      (heldIn (s'.reorderBuffers.getD x.header.channelId ∅)))
    (hnext : ∀ c, x.header.channelId ≠ c →
      s'.nextExpectedOrderIds.getD c 0 = s.nextExpectedOrderIds.getD c 0)
    (hbuffers : ∀ c, x.header.channelId ≠ c →
      s'.reorderBuffers.getD c ∅ = s.reorderBuffers.getD c ∅) :
    Delivered (accepted ++ [x]) s' (returned ++ packets) := by
  have hpackets : ∀ y ∈ packets,
      isOrdered y.packet.flag = true ∧ y.header.channelId = x.header.channelId := by
    intro y hy
    have hmem := hsettled.released_arrived y (List.mem_append_right _ hy)
    rw [← arrivedOn_append hx hflag] at hmem
    exact hmem.2.2
  constructor
  · intro c
    by_cases hc : x.header.channelId = c
    · subst hc
      have hfilter : returnedOn packets x.header.channelId = packets := by
        rw [returnedOn, List.filter_eq_self]
        intro y hy
        simp [hpackets y hy]
      have happend : returnedOn (returned ++ packets) x.header.channelId =
          returnedOn returned x.header.channelId ++ packets := by
        rw [returnedOn, List.filter_append]
        exact congrArg _ hfilter
      rw [arrivedOn_append hx hflag, happend]
      exact hsettled
    · have hfilter : returnedOn packets c = [] := by
        rw [returnedOn, List.filter_eq_nil_iff]
        intro y hy
        simp [hpackets y hy, hc]
      have happend : returnedOn (returned ++ packets) c = returnedOn returned c := by
        rw [returnedOn, List.filter_append]
        exact (congrArg _ hfilter).trans (List.append_nil _)
      rw [arrivedOn_append_of_ne hc, happend, hnext c hc, hbuffers c hc]
      exact h.settled c
  · have hfilter : packets.filter (fun y => !isOrdered y.packet.flag) = [] := by
      rw [List.filter_eq_nil_iff]
      intro y hy
      simp [hpackets y hy]
    rw [List.filter_append, List.filter_append, h.unordered, hfilter]
    simp [hflag]

/-- An ordered packet goes through the resequencer of its channel. -/
theorem orderedPacket (h : Delivered accepted s returned) (hx : isPassedOn x = true)
    (hflag : isOrdered x.packet.flag = true) (hbound : BelowLastOrderId (accepted ++ [x])) :
    Delivered (accepted ++ [x]) (s.deliverOrdered x).1 (returned ++ (s.deliverOrdered x).2) := by
  have hs := h.settled x.header.channelId
  have hbound' : ∀ y ∈ insert x (arrivedOn accepted x.header.channelId),
      orderKey y + 1 < 2 ^ 32 := by
    rw [← arrivedOn_append hx hflag]
    exact fun y hy => hbound y hy.1 hy.2.2.1
  simp only [Session.deliverOrdered]
  split_ifs with hnext hgt
  · have hkey : orderKey x = (s.nextExpectedOrderIds.getD x.header.channelId 0).toNat :=
      congrArg UInt32.toNat (by simpa using hnext)
    have hstep := toNat_add_one (hkey ▸ hbound' x (Set.mem_insert _ _))
    have harrive := Invariant.arrive_next hs hkey
    rw [← hstep] at harrive
    have hdrain := Session.drain_settled hbound' _ _ _ harrive
    refine h.of_channel hx hflag ?_ (fun c hc => ?_) fun c hc => ?_
    · simpa using hdrain
    · exact OrderedMap.getD_insert_of_ne hc
    · exact OrderedMap.getD_insert_of_ne hc
  · have hkey : (s.nextExpectedOrderIds.getD x.header.channelId 0).toNat < orderKey x := hgt
    have harrive := hs.toInvariant.arrive_early hkey
      (heldIn_insert (s.reorderBuffers.getD x.header.channelId ∅) x.header.orderId x)
    have hmissing : heldIn ((s.reorderBuffers.getD x.header.channelId ∅).insert
        x.header.orderId x) (s.nextExpectedOrderIds.getD x.header.channelId 0).toNat = none := by
      rw [heldIn_insert]
      refine (if_neg hkey.ne).trans ?_
      exact hs.next_missing
    refine h.of_channel hx hflag ?_ (fun c hc => rfl) fun c hc => ?_
    · simpa using Settled.mk harrive hmissing
    · exact OrderedMap.getD_insert_of_ne hc
  · have hne : orderKey x ≠ (s.nextExpectedOrderIds.getD x.header.channelId 0).toNat := by
      intro heq
      exact hnext (by simpa using UInt32.toNat_inj.mp heq)
    have hge : ¬ (s.nextExpectedOrderIds.getD x.header.channelId 0).toNat < orderKey x := hgt
    have harrive := hs.toInvariant.arrive_late (x := x) (by omega)
    refine h.of_channel hx hflag ?_ (fun c hc => rfl) fun c hc => rfl
    simpa using Settled.mk harrive hs.next_missing

end Delivered

/-! ## Runs -/

variable {target : LeftShift} {guard : Guard}

/-- The small steps leave the reorder state and the returned packets alone. -/
theorem Steps.reorder_eq {e e' : Endpoint} (h : Steps target guard e e') :
    e'.session.nextExpectedOrderIds = e.session.nextExpectedOrderIds ∧
      e'.session.reorderBuffers = e.session.reorderBuffers ∧ e'.returned = e.returned := by
  refine Steps.preserves (P := fun e' =>
    e'.session.nextExpectedOrderIds = e.session.nextExpectedOrderIds ∧
      e'.session.reorderBuffers = e.session.reorderBuffers ∧ e'.returned = e.returned)
    (fun e₁ e₂ hstep he => ?_) h ⟨rfl, rfl, rfl⟩
  cases hstep with
  | enroll packet =>
      simp only [enroll]
      split_ifs <;> exact he
  | accept header d =>
      obtain ⟨has, head, bits, history, unsent, heq⟩ :=
        updateAcknowledgeInfo_eq target e₁.session header.sequenceId
      rw [heq]
      exact he
  | idle => exact he
  | refresh => exact he
  | transmit => exact he
  | sendAck => exact he
  | flush => exact he
  | arrive => exact he
  | forget => exact he
  | refuse => exact he

/-- One action keeps the channels delivered. -/
theorem delivered_step {e : Endpoint} {a : Action} (hstored : e.StoredSent)
    (h : Delivered e.accepted e.session e.returned)
    (hbound : BelowLastOrderId (e.step target a).accepted) :
    Delivered (e.step target a).accepted (e.step target a).session (e.step target a).returned := by
  have hquiet : ∀ e', Steps target .free e e' → e'.accepted = e.accepted →
      Delivered e'.accepted e'.session e'.returned := by
    intro e' hsteps haccepted
    obtain ⟨hnext, hbuffers, hreturned⟩ := Steps.reorder_eq hsteps
    rw [haccepted, hreturned]
    exact h.congr hnext hbuffers
  cases a with
  | send packet => exact hquiet _ (steps_send trivial) rfl
  | update => exact hquiet _ (steps_update hstored) rfl
  | disconnect => exact hquiet _ (steps_disconnect e) rfl
  | receive d =>
      obtain ⟨e₁, hsteps, hstep⟩ :=
        receive_decomposition target (permits_free e (.receive d))
      obtain ⟨hnext, hbuffers, hreturned⟩ := Steps.reorder_eq hsteps
      have haccepted : (e.step target (.receive d)).accepted =
          e.accepted ++ (e.session.accepts d).toList := rfl
      rcases hstep with ⟨hstep, hkept⟩ | ⟨x, hx, hpassed, hstep⟩
      · rw [haccepted, hstep, hreturned]
        cases hx : e.session.accepts d with
        | none => simpa using h.congr hnext hbuffers
        | some x => exact (h.congr hnext hbuffers).keep (hkept x hx)
      · rw [haccepted, hx] at hbound ⊢
        rw [hstep]
        have h₁ := h.congr hnext hbuffers
        simp only [handOver, passOn, hreturned, Option.toList_some] at hbound ⊢
        by_cases hflag : isOrdered x.packet.flag = true
        · rw [if_pos hflag]
          exact h₁.orderedPacket hpassed hflag hbound
        · rw [if_neg hflag]
          exact h₁.unorderedPacket hpassed (by simpa using hflag)

/-- The channels are delivered in every run that stays below the last order id. -/
theorem Run.delivered {self : ℕ} {e : Endpoint} (h : Run target guard self e)
    (hbound : BelowLastOrderId e.accepted) : Delivered e.accepted e.session e.returned := by
  refine h.invariant_within (P := fun e => Delivered e.accepted e.session e.returned)
    (B := fun e => BelowLastOrderId e.accepted) hbound (fun e a hnext x hx => ?_) ?_
    fun e a hrun _ hnext he => ?_
  · refine hnext x ?_
    cases a with
    | receive d => exact List.mem_append_left _ hx
    | send => exact hx
    | update => exact hx
    | disconnect => exact hx
  · rintro e ⟨clock, rfl⟩
    exact delivered_new self clock
  · exact delivered_step (Run.sendInvariant hrun).stored he hnext

/-- Every accepted packet came in a received datagram. -/
def AcceptedReceived (e : Endpoint) : Prop :=
  ∀ x ∈ e.accepted, ∃ d ∈ e.received, Header.parse d.bytes = .ok x.header ∧
    x = Incoming.ofDatagram x.header d

theorem Run.acceptedReceived {self : ℕ} {e : Endpoint} (h : Run target guard self e) :
    e.AcceptedReceived := by
  refine h.invariant ?_ fun e a hrun hok he => ?_
  · rintro e ⟨clock, rfl⟩
    simp [AcceptedReceived, new]
  · refine step_preserves (fun e₁ e₂ hstep h₁ => ?_) (fun e₁ x h₁ => h₁) hok
      (Run.sendInvariant hrun).stored he
    cases hstep with
    | arrive d =>
        intro x hx
        obtain ⟨d', hd', hrest⟩ := h₁ x hx
        exact ⟨d', List.mem_append_left _ hd', hrest⟩
    | accept header d hd hparse =>
        intro x hx
        rcases List.mem_append.mp hx with hx | hx
        · exact h₁ x hx
        · rw [List.mem_singleton.mp hx]
          exact ⟨d, hd, hparse, rfl⟩
    | idle => exact h₁
    | enroll => exact h₁
    | refresh => exact h₁
    | transmit => exact h₁
    | sendAck => exact h₁
    | flush => exact h₁
    | forget => exact h₁
    | refuse => exact h₁

/-! ## Duplicates -/

/-- Every accepted id that was not evicted is recognized as a duplicate, and so it
was accepted once. -/
structure OnceInvariant (e : Endpoint) : Prop where
  remembered : ∀ id ∈ e.acceptedIds, id ∉ e.evicted → e.session.isDuplicate id = true
  once : ∀ id, id ∉ e.evicted → e.acceptedIds.count id ≤ 1

theorem OnceInvariant.accept {e : Endpoint} (h : e.OnceInvariant) (x : Incoming)
    (hnew : e.session.isDuplicate x.header.sequenceId = false) :
    OnceInvariant { e with
      session := e.session.updateAcknowledgeInfo target x.header.sequenceId
      accepted := e.accepted ++ [x]
      evicted := e.evicted ++ e.session.evicted x.header.sequenceId } := by
  have hids : ∀ s evicted,
      acceptedIds { e with session := s, accepted := e.accepted ++ [x], evicted := evicted } =
        e.acceptedIds ++ [x.header.sequenceId] := fun _ _ => List.map_append
  constructor
  · intro id hid hkept
    rw [hids, List.mem_append, List.mem_singleton] at hid
    rw [List.mem_append, not_or] at hkept
    rcases hid with hid | rfl
    · exact Session.isDuplicate_updateAcknowledgeInfo target (h.remembered id hid hkept.1) hkept.2
    · exact Session.isDuplicate_self target e.session x.header.sequenceId
  · intro id hkept
    rw [List.mem_append, not_or] at hkept
    rw [hids, List.count_append, List.count_singleton]
    by_cases hid : x.header.sequenceId = id
    · subst hid
      have hfirst : x.header.sequenceId ∉ e.acceptedIds := by
        intro hmem
        rw [h.remembered _ hmem hkept.1] at hnew
        cases hnew
      rw [List.count_eq_zero_of_not_mem hfirst]
      simp
    · simpa [hid] using h.once id hkept.1

/-- Every small step preserves the invariant. -/
theorem Micro.onceInvariant {e e' : Endpoint} (hstep : Micro target guard e e')
    (h : e.OnceInvariant) : e'.OnceInvariant := by
  cases hstep with
  | enroll packet =>
      refine ⟨fun id hid hkept => ?_, h.once⟩
      rw [← h.remembered id hid hkept]
      apply Session.isDuplicate_congr
      all_goals
        simp only [Endpoint.enroll]
        split_ifs <;> rfl
  | accept header d _ _ hnew => exact h.accept (Incoming.ofDatagram header d) hnew
  | idle => exact ⟨h.1, h.2⟩
  | refresh => exact ⟨h.1, h.2⟩
  | transmit => exact ⟨h.1, h.2⟩
  | sendAck => exact ⟨h.1, h.2⟩
  | flush => exact ⟨h.1, h.2⟩
  | arrive => exact ⟨h.1, h.2⟩
  | forget => exact ⟨h.1, h.2⟩
  | refuse => exact ⟨h.1, h.2⟩

theorem OnceInvariant.handOver {e : Endpoint} (h : e.OnceInvariant) (x : Incoming) :
    (e.handOver x).OnceInvariant := by
  obtain ⟨next, buffers, returned, heq⟩ := handOver_eq e x
  rw [heq]
  exact ⟨h.1, h.2⟩

/-- The invariant holds in every run, on every target machine. -/
theorem Run.onceInvariant {self : ℕ} {e : Endpoint} (h : Run target guard self e) :
    e.OnceInvariant := by
  refine h.invariant ?_ fun e a hrun hok he => ?_
  · rintro e ⟨clock, rfl⟩
    exact ⟨by simp [new, acceptedIds], by simp [new, acceptedIds]⟩
  · exact step_preserves (fun _ _ => Micro.onceInvariant) (fun _ x he => he.handOver x) hok
      (Run.sendInvariant hrun).stored he

/-! ## Returned packets -/

/-- Every returned packet was accepted. -/
theorem Delivered.accepted_of_returned {accepted returned : List Incoming} {s : Session}
    (h : Delivered accepted s returned) {x : Incoming} (hx : x ∈ returned) : x ∈ accepted := by
  by_cases hflag : isOrdered x.packet.flag = true
  · have hmem : x ∈ returnedOn returned x.header.channelId := by
      simp [returnedOn, hx, hflag]
    exact ((h.settled x.header.channelId).released_arrived x hmem).1
  · have hmem : x ∈ returned.filter fun y => !isOrdered y.packet.flag := by
      simp [hx, hflag]
    rw [h.unordered] at hmem
    exact (List.mem_filter.mp hmem).1

private theorem length_le_one {l : List Incoming} (hnodup : l.Nodup)
    (hsame : ∀ x ∈ l, ∀ y ∈ l, x = y) : l.length ≤ 1 := by
  by_contra hlong
  have h0 : 0 < l.length := by omega
  have h1 : 1 < l.length := by omega
  have heq := hsame _ (List.getElem_mem h0) _ (List.getElem_mem h1)
  exact absurd (hnodup.getElem_inj_iff.mp heq) Nat.zero_ne_one

/-- A packet whose id was accepted once is returned at most once. -/
theorem Delivered.length_filter_le {accepted returned : List Incoming} {s : Session}
    (h : Delivered accepted s returned) {id : UInt32}
    (honce : (accepted.map fun x => x.header.sequenceId).count id ≤ 1) :
    (returned.filter fun x => x.header.sequenceId == id).length ≤ 1 := by
  have hlength : (accepted.filter fun x => x.header.sequenceId == id).length ≤ 1 := by
    rwa [List.count, List.countP_map, List.countP_eq_length_filter] at honce
  have hsame : ∀ x ∈ returned, x.header.sequenceId = id →
      ∀ y ∈ returned, y.header.sequenceId = id → x = y := by
    intro x hx hxid y hy hyid
    have hx' : x ∈ accepted.filter fun x => x.header.sequenceId == id := by
      simp [h.accepted_of_returned hx, hxid]
    have hy' : y ∈ accepted.filter fun x => x.header.sequenceId == id := by
      simp [h.accepted_of_returned hy, hyid]
    obtain ⟨i, hi, rfl⟩ := List.mem_iff_getElem.mp hx'
    obtain ⟨j, hj, rfl⟩ := List.mem_iff_getElem.mp hy'
    congr 1
    omega
  rcases hfound : returned.filter (fun x => x.header.sequenceId == id) with _ | ⟨x, rest⟩
  · rw [hfound]
    exact Nat.zero_le 1
  · have hx : x ∈ returned ∧ x.header.sequenceId = id := by
      have hmem : x ∈ returned.filter fun x => x.header.sequenceId == id := by
        rw [hfound]
        exact List.mem_cons_self
      simpa using hmem
    by_cases hflag : isOrdered x.packet.flag = true
    · have hchannel : returned.filter (fun y => y.header.sequenceId == id) =
          (returnedOn returned x.header.channelId).filter fun y =>
            y.header.sequenceId == id := by
        rw [returnedOn, List.filter_filter]
        refine List.filter_congr fun y hy => ?_
        by_cases hyid : y.header.sequenceId = id
        · rw [← hsame x hx.1 hx.2 y hy hyid]
          simp [hflag]
        · simp [hyid]
      rw [hchannel]
      refine length_le_one ((h.settled x.header.channelId).nodup_released.filter _)
        fun y hy z hz => ?_
      rw [← hchannel] at hy hz
      simp only [List.mem_filter, beq_iff_eq] at hy hz
      exact hsame y hy.1 hy.2 z hz.1 hz.2
    · have hunordered : returned.filter (fun y => y.header.sequenceId == id) =
          (returned.filter fun y => !isOrdered y.packet.flag).filter fun y =>
            y.header.sequenceId == id := by
        rw [List.filter_filter]
        refine List.filter_congr fun y hy => ?_
        by_cases hyid : y.header.sequenceId = id
        · rw [← hsame x hx.1 hx.2 y hy hyid]
          simp [hflag]
        · simp [hyid]
      rw [hunordered, h.unordered, List.filter_filter]
      refine le_trans (List.Sublist.length_le ?_) hlength
      refine List.monotone_filter_right _ fun y hy => ?_
      simp at hy
      simp [hy]

end Endpoint

end Rtype.Rtnt
